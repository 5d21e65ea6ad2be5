import MetalGraph.Model.Instantiate

set_option autoImplicit false

/- Patches of an executable plan, its optimization flags and its diagnostics. -/
namespace MetalGraph

open Eff

def mgPatchRangeValid (length offset byteCount : UInt64) : Bool :=
  byteCount > 0 && offset ≤ length && byteCount ≤ length - offset

def mgPatchDimsValid (dims : Option Dims) : Bool := dims.elim false mgDimsValid

def patchFault (nodeId : MgNodeId) (message : String) : Fault :=
  mgSetError .invalidArgument .patch nodeId message

def mgPatchReady : Over MgGraphExec Unit := do
  let exec ← self
  require (¬ exec.inFlightCount > 0) (patchFault mgNodeIdInvalid "exec has an in-flight launch")

/-- The id a patch may address this node by. -/
def MgExecNode.patchId : MgExecNode → Option MgNodeId
  | .dispatch node => some node.id
  | .copy node => some node.id
  | .fill node => some node.id
  | .eventWait node => some node.id
  | .eventSignal node => some node.id
  | .barrier id => some id
  | .mpsgraph _ | .workspace _ | .workspaceFill _ | .unknown _ => none

/-- The first node a patch may address by this id, with its position. -/
def mgPatchFindNode (nodes : List MgExecNode) (nodeId : MgNodeId) :
    Except Fault (Nat × MgExecNode) :=
  if nodeId = mgNodeIdInvalid then .error (patchFault nodeId "node_id is invalid")
  else
    match nodes.zipIdx.find? fun entry => entry.1.patchId == some nodeId with
    | some (node, position) => .ok (position, node)
    | none => .error (patchFault nodeId "node_id does not exist in exec")

def mgPatchRequireFlag {σ : Type} (flags required : MgPatchFlags) (nodeId : MgNodeId) :
    Eff σ Fault Unit :=
  require (¬ flags &&& required = 0) (patchFault nodeId "field is not declared patchable")

def storeNode (position : Nat) (node : MgExecNode) : Over MgGraphExec Unit :=
  modifySelf fun exec => { exec with nodes := exec.nodes.set position node }

/-- What every patch does first. -/
def patchTarget (nodeId : MgNodeId) : Over MgGraphExec (Nat × MgExecNode) := do
  mgPatchReady
  let exec ← self
  ofExcept (mgPatchFindNode exec.nodes nodeId)

def asDispatch : MgExecNode → Option MgExecDispatch
  | .dispatch dispatch => some dispatch
  | _ => none

/-- The dispatch node a patch of a field under `flag` addresses. -/
def dispatchTarget (nodeId : MgNodeId) (flag : MgPatchFlags) :
    Over MgGraphExec (Nat × MgExecDispatch) := do
  let (position, node) ← patchTarget nodeId
  let dispatch ← orFail (asDispatch node) (patchFault nodeId "node is not a dispatch node")
  mgPatchRequireFlag dispatch.patchFlags flag nodeId
  pure (position, dispatch)

def mgGraphExecPatchDispatchGrid (nodeId : MgNodeId) (gridSize : Option Dims) :
    Over MgGraphExec Unit := do
  let (position, dispatch) ← dispatchTarget nodeId mgPatchDispatchGrid
  require (mgPatchDimsValid gridSize = true) (patchFault nodeId "dispatch grid size is invalid")
  let grid ← orFail gridSize .undefined
  require (gridWithin grid dispatch.maxGridSize = true)
    (patchFault nodeId "dispatch grid exceeds declared maximum")
  storeNode position (.dispatch { dispatch with gridSize := grid })

/-- Whether both devices are known and they differ. -/
def differentDevices (first second : Option Nat) : Bool :=
  first.isSome && second.isSome && first != second

/-- Whether a binding at `index` may be given this buffer and offset. -/
def rebindable (dispatch : MgDispatchNode) (nodeId : MgNodeId) (index : UInt32)
    (buffer : MgBuffer) (offset : UInt64) : Except Fault Unit := do
  let resource := dispatch.resourceFor index
  demand (dispatch.hasRange index = true)
    (patchFault nodeId "dispatch buffer patch requires a declared resource range")
  demand (mgDispatchResourceOffsetAligned resource offset = true ∧
      mgDispatchResourceRangeValid resource buffer.length offset = true)
    (patchFault nodeId "dispatch buffer patch range is incompatible")

def mgGraphExecPatchDispatchBuffer (nodeId : MgNodeId) (index : UInt32)
    (buffer : Option MgBuffer) (offset : UInt64) : Over MgGraphExec Unit := do
  let (position, dispatch) ← dispatchTarget nodeId mgPatchDispatchBuffer
  let invalid := patchFault nodeId "dispatch buffer patch is invalid"
  let buffer ← orFail buffer invalid
  require (¬ offset > buffer.length) invalid
  let exec ← self
  require (differentDevices exec.deviceImpl buffer.deviceImpl = false)
    (patchFault nodeId "dispatch buffer belongs to a different device")
  match dispatch.buffers.zipIdx.find? fun entry => entry.1.index == index with
  | none => fail (patchFault nodeId "dispatch buffer binding index is not present")
  | some (binding, slot) =>
    ofExcept (rebindable dispatch.toMgDispatchNode nodeId index buffer offset)
    onEnv (mgBufferRetain buffer)
    onEnv (mgBufferRelease binding.buffer)
    storeNode position (.dispatch { dispatch with
      buffers := dispatch.buffers.set slot { binding with buffer := buffer, offset := offset } })

def mgGraphExecPatchDispatchScalar (nodeId : MgNodeId) (index : UInt32)
    (data : Option (List UInt8)) : Over MgGraphExec Unit := do
  let (position, dispatch) ← dispatchTarget nodeId mgPatchDispatchScalar
  let data ← orFail (data.filter fun data => data ≠ [])
    (patchFault nodeId "dispatch scalar patch is invalid")
  match dispatch.scalars.zipIdx.find? fun entry => entry.1.index == index with
  | none => fail (patchFault nodeId "dispatch scalar binding index is not present")
  | some (scalar, slot) =>
    require (scalar.data.length = data.length)
      (patchFault nodeId "dispatch scalar size is incompatible")
    storeNode position (.dispatch { dispatch with
      scalars := dispatch.scalars.set slot { scalar with data := data } })

/-- Demands a flag only when the field it covers changes. -/
def requireFlagIf {σ : Type} (changes : Bool) (flags required : MgPatchFlags) (nodeId : MgNodeId) :
    Eff σ Fault Unit :=
  if changes then mgPatchRequireFlag flags required nodeId else pure ()

def asCopy : MgExecNode → Option MgExecCopy
  | .copy copy => some copy
  | _ => none

def MgExecCopy.changesBuffer (copy : MgExecCopy) (new : MgCopyNode) : Bool :=
  new.src.address != copy.src.address || new.dst.address != copy.dst.address

def MgExecCopy.changesRange (copy : MgExecCopy) (new : MgCopyNode) : Bool :=
  new.srcOffset != copy.srcOffset || new.dstOffset != copy.dstOffset ||
    new.byteCount != copy.byteCount

def mgGraphExecPatchCopyNode (nodeId : MgNodeId) (desc : Option MgCopyDesc) :
    Over MgGraphExec Unit := do
  let (position, node) ← patchTarget nodeId
  let copy ← orFail (asCopy node) (patchFault nodeId "node is not a copy node")
  let new ← orFail (desc.bind (copyContents mgPatchRangeValid))
    (patchFault nodeId "copy patch descriptor is invalid")
  requireFlagIf (copy.changesBuffer new) copy.patchFlags mgPatchCopyBuffer nodeId
  requireFlagIf (copy.changesRange new) copy.patchFlags mgPatchCopyRange nodeId
  onEnv (mgBufferRetain new.src)
  onEnv (mgBufferRetain new.dst)
  onEnv (mgBufferRelease copy.src)
  onEnv (mgBufferRelease copy.dst)
  storeNode position (.copy { copy with toMgCopyNode := new })

def asFill : MgExecNode → Option MgExecFill
  | .fill fill => some fill
  | _ => none

def MgExecFill.changesRange (fill : MgExecFill) (new : MgFillNode) : Bool :=
  new.dstOffset != fill.dstOffset || new.byteCount != fill.byteCount

def mgGraphExecPatchFillNode (nodeId : MgNodeId) (desc : Option MgFillDesc) :
    Over MgGraphExec Unit := do
  let (position, node) ← patchTarget nodeId
  let fill ← orFail (asFill node) (patchFault nodeId "node is not a fill node")
  let new ← orFail (desc.bind (fillContents mgPatchRangeValid))
    (patchFault nodeId "fill patch descriptor is invalid")
  requireFlagIf (new.dst.address != fill.dst.address) fill.patchFlags mgPatchFillBuffer nodeId
  requireFlagIf (fill.changesRange new) fill.patchFlags mgPatchFillRange nodeId
  requireFlagIf (new.value != fill.value) fill.patchFlags mgPatchFillValue nodeId
  onEnv (mgBufferRetain new.dst)
  onEnv (mgBufferRelease fill.dst)
  storeNode position (.fill { fill with toMgFillNode := new })

def asEvent : MgExecNode → Option MgExecEvent
  | .eventWait event => some event
  | .eventSignal event => some event
  | _ => none

/-- Stores the event into the node's union, whichever event kind it has. -/
def MgExecNode.withEvent (node : MgExecNode) (event : MgExecEvent) : MgExecNode :=
  match node with
  | .eventWait _ => .eventWait event
  | .eventSignal _ => .eventSignal event
  | other => other

def mgGraphExecPatchEventValue (nodeId : MgNodeId) (value : UInt64) : Over MgGraphExec Unit := do
  let (position, node) ← patchTarget nodeId
  let event ← orFail (asEvent node) (patchFault nodeId "node is not an event node")
  mgPatchRequireFlag event.patchFlags mgPatchEventValue nodeId
  storeNode position (node.withEvent { event with value := value })

def mgGraphExecSetOptimizationFlags (flags : MgOptimizationFlags) : Over MgGraphExec Unit := do
  mgPatchReady
  require (flags &&& ~~~mgOptimizationIcb = 0)
    (patchFault mgNodeIdInvalid "optimization flags are invalid")
  modifySelf fun exec => { exec with icb := { exec.icb with enabledFlags := flags } }

structure MgGraphExecDiagnostics where
  size : UInt64
  icbAvailable : Bool
  icbEnabled : Bool
  icbGroupsPlanned : UInt32
  icbGroupsUsed : UInt32
  icbGroupsFallback : UInt32
  icbLastFallbackReason : MgIcbFallbackReason
deriving DecidableEq, Repr

def sizeofMgGraphExecDiagnostics : UInt64 := 32

def icbEnabled (icb : MgIcbPlan) : Bool := icb.enabledFlags &&& mgOptimizationIcb != 0

/-- `outSize` is the size field of the caller's structure. -/
def mgGraphExecGetDiagnostics (exec : MgGraphExec) (outSize : UInt64) :
    Except Fault MgGraphExecDiagnostics :=
  if outSize < sizeofMgGraphExecDiagnostics then
    .error (patchFault mgNodeIdInvalid "exec and diagnostics are required")
  else
    .ok ⟨sizeofMgGraphExecDiagnostics, exec.icb.available, icbEnabled exec.icb,
      exec.icb.groupsPlanned, exec.icb.groupsUsed, exec.icb.groupsFallback,
      exec.icb.lastFallbackReason⟩

end MetalGraph
