import MetalGraph.Model.Machine

set_option autoImplicit false

/- Arenas, and the layout of the workspace nodes of a graph. -/
namespace MetalGraph

open Eff

def mgAlignmentValid (alignment : UInt64) : Bool :=
  alignment != 0 && (alignment &&& (alignment - 1)) == 0

def mgAlignUpSize (value alignment : UInt64) : Option UInt64 :=
  if mgAlignmentValid alignment = false then none
  else
    let mask := alignment - 1
    if value > sizeMax - mask then none
    else some ((value + mask) &&& ~~~mask)

/-- The checks shared by the arena and workspace descriptors, which differ only
in the word their messages start with. -/
def descValidate (what : String) (sizeofDesc size byteCount alignment : UInt64)
    (stage : MgErrorStage) : Except Fault Unit := do
  let fault (message : String) :=
    mgSetError .invalidArgument stage mgNodeIdInvalid (what ++ message)
  demand (¬ size < sizeofDesc) (fault " descriptor size is invalid")
  demand (byteCount ≠ 0) (fault " size must be nonzero")
  demand (mgAlignmentValid alignment = true) (fault " alignment must be a nonzero power of two")

def sizeofMgArenaDesc : UInt64 := 24
def sizeofMgWorkspaceDesc : UInt64 := 24

def mgArenaDescValidate (desc : Option MgArenaDesc) (stage : MgErrorStage) :
    Except Fault MgArenaDesc :=
  match desc with
  | none => .error (mgSetError .invalidArgument stage mgNodeIdInvalid
      "arena descriptor is required")
  | some desc => do
    descValidate "arena" sizeofMgArenaDesc desc.size desc.byteCount desc.alignment stage
    pure desc

def mgWorkspaceDescValidate (desc : Option MgWorkspaceDesc) (stage : MgErrorStage) :
    Except Fault MgWorkspaceDesc :=
  match desc with
  | none => .error (mgSetError .invalidArgument stage mgNodeIdInvalid
      "workspace descriptor is required")
  | some desc => do
    descValidate "workspace" sizeofMgWorkspaceDesc desc.size desc.byteCount desc.alignment stage
    pure desc

def mgArenaCreate (device : Option MgDevice) (desc : Option MgArenaDesc) : Run MgArena := do
  let _ ← orFail device
    (mgSetError .invalidArgument .create mgNodeIdInvalid "device and out_arena are required")
  let desc ← ofExcept (mgArenaDescValidate desc .create)
  attemptOr (mgSetOom .create)
  placeObject (fun address => ⟨address, desc.byteCount, desc.alignment⟩) .arena

def sizeofMgWorkspaceRecord : UInt64 := 32

def mgWorkspacePlanAppend (plan : MgWorkspacePlan) (nodeId : MgNodeId) (size alignment : UInt64) :
    Run MgWorkspacePlan := do
  let offset ← orFail (mgAlignUpSize plan.totalSize alignment)
    (mgSetError .invalidArgument .planMemory nodeId "workspace alignment overflow during planning")
  require (¬ offset > sizeMax - size)
    (mgSetError .invalidArgument .planMemory nodeId "workspace size overflow during planning")
  require (¬ plan.records.length ≥ (sizeMax / sizeofMgWorkspaceRecord).toNat)
    (mgSetError .outOfMemory .planMemory nodeId "workspace record count overflow")
  attemptOr (mgSetOom .planMemory)
  pure { plan with
    records := plan.records ++ [⟨nodeId, size, alignment, offset⟩]
    totalSize := offset + size
    alignment := if alignment > plan.alignment then alignment else plan.alignment }

def mgWorkspacePlanClear (plan : MgWorkspacePlan) : Run Unit := mgArenaRelease plan.arena

/-- The size and alignment a node needs in the workspace, if it is a workspace node. -/
def MgNode.workspaceNeed (node : MgNode) : Option (UInt64 × UInt64) :=
  match node.as with
  | .workspace workspace => some (workspace.size, workspace.alignment)
  | .workspaceFill fill => some (fill.size, fill.alignment)
  | _ => none

def planWorkspaceNode (plan : MgWorkspacePlan) (node : MgNode) : Run MgWorkspacePlan :=
  match node.workspaceNeed with
  | none => pure plan
  | some (size, alignment) =>
    cleaning
      (do
        let _ ← ofExcept (mgWorkspaceDescValidate
          (some ⟨sizeofMgWorkspaceDesc, size, alignment⟩) .planMemory)
        mgWorkspacePlanAppend plan node.id size alignment)
      (mgWorkspacePlanClear plan)

def attachArena (plan : MgWorkspacePlan) (arena : MgArena) : Run MgWorkspacePlan := do
  require (¬ plan.totalSize > arena.size) (mgSetError .invalidArgument .planMemory mgNodeIdInvalid
    "workspace requirements exceed attached arena size")
  require (¬ plan.alignment > arena.alignment) (mgSetError .invalidArgument .planMemory
    mgNodeIdInvalid "workspace requirements exceed attached arena alignment")
  mgArenaRetain arena
  pure { plan with arena := some arena }

/-- The node a position of the order names. -/
def nodeAt (graph : MgGraph) (index : Nat) : Run MgNode :=
  orFail graph.nodes[index]? .undefined

/-- `order` has one entry for each node of the graph. -/
def mgGraphPlanWorkspace (graph : MgGraph) (order : List Nat) : Run MgWorkspacePlan := do
  let plan ← foldEach
    (fun plan index => do
      let node ← nodeAt graph index
      planWorkspaceNode plan node)
    MgWorkspacePlan.zero order
  match graph.arena with
  | none => pure plan
  | some arena => cleaning (attachArena plan arena) (mgWorkspacePlanClear plan)

/-! The same function over its out parameter, which a failed call leaves zeroed. -/

/-- Releases the arena and zeroes the plan. -/
def clearOutPlan : Over MgWorkspacePlan Unit := do
  let plan ← self
  onEnv (mgWorkspacePlanClear plan)
  modifySelf fun _ => MgWorkspacePlan.zero

def clearingOutPlan {α : Type} (body : Over MgWorkspacePlan α) : Over MgWorkspacePlan α :=
  catching body fun reason => do
    clearOutPlan
    fail reason

def planWorkspaceNodeOut (node : MgNode) : Over MgWorkspacePlan Unit :=
  match node.workspaceNeed with
  | none => pure ()
  | some (size, alignment) => do
    let _ ← clearingOutPlan (ofExcept (mgWorkspaceDescValidate
      (some ⟨sizeofMgWorkspaceDesc, size, alignment⟩) .planMemory))
    let plan ← self
    let next ← clearingOutPlan (onEnv (mgWorkspacePlanAppend plan node.id size alignment))
    modifySelf fun _ => next

def mgGraphPlanWorkspaceOut (graph : MgGraph) (order : List Nat) : Over MgWorkspacePlan Unit := do
  modifySelf fun _ => MgWorkspacePlan.zero
  forEach
    (fun index => do
      let node ← onEnv (nodeAt graph index)
      planWorkspaceNodeOut node)
    order
  match graph.arena with
  | none => pure ()
  | some arena => do
    let plan ← self
    let next ← clearingOutPlan (onEnv (attachArena plan arena))
    modifySelf fun _ => next

def mgWorkspacePlanOffsetForNode (plan : MgWorkspacePlan) (nodeId : MgNodeId) :
    Except Fault UInt64 :=
  match plan.records.find? fun record => record.nodeId == nodeId with
  | some record => .ok record.offset
  | none => .error (mgSetError .internalError .planMemory nodeId
      "workspace node is missing from plan")

end MetalGraph
