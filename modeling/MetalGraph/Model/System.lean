import MetalGraph.Model.Launch

set_option autoImplicit false

/- The library as its caller sees it: tables of handles, the calls on them, and the
states reached by any sequence of calls. -/
namespace MetalGraph

open Eff

structure World where
  env : Env
  graphs : Slots MgGraph
  execs : Slots MgGraphExec
  launches : Slots MgLaunch

inductive Response where
  | done
  | buffer (buffer : MgBuffer)
  | event (event : MgEvent)
  | arena (arena : MgArena)
  | graph (graph : GraphPtr)
  | node (node : NodePtr)
  | exec (exec : ExecPtr)
  | launch (launch : LaunchPtr)
deriving DecidableEq

/-! ### Calls -/

inductive NodeAddition where
  | dispatch (desc : Option MgDispatchDesc)
  | copy (desc : Option MgCopyDesc)
  | fill (desc : Option MgFillDesc)
  | eventWait (event : Option MgEvent) (value : UInt64)
  | eventSignal (event : Option MgEvent) (value : UInt64)
  | barrier
  | mpsgraph (desc : Option MgMpsgraphDesc)
  | workspace (desc : Option MgWorkspaceDesc)
  | workspaceFill (desc : Option MgWorkspaceDesc) (value : UInt8) (dst : Option MgBuffer)
      (dstOffset : UInt64)
deriving DecidableEq

def NodeAddition.run : NodeAddition → Over MgGraph NodePtr
  | dispatch desc => mgGraphAddDispatchNode desc
  | copy desc => mgGraphAddCopyNode desc
  | fill desc => mgGraphAddFillNode desc
  | eventWait event value => mgGraphAddEventWaitNode event value
  | eventSignal event value => mgGraphAddEventSignalNode event value
  | barrier => mgGraphAddBarrierNode
  | mpsgraph desc => mgGraphAddMPSGraphNode desc
  | workspace desc => mgInternalGraphAddWorkspaceNode desc
  | workspaceFill desc value dst dstOffset =>
    mgInternalGraphAddWorkspaceFillNode desc value dst dstOffset

inductive GraphEdit where
  | addNode (addition : NodeAddition)
  | addDependency (before after : Option NodePtr)
  | setArena (arena : Option MgArena)
  | setNodePatchFlags (node : Option NodePtr) (flags : MgPatchFlags)
deriving DecidableEq

def GraphEdit.run : GraphEdit → Over MgGraph Response
  | addNode addition => do
    let node ← addition.run
    pure (.node node)
  | addDependency before after => do
    mgGraphAddDependency before after
    pure .done
  | setArena arena => do
    mgGraphSetArena arena
    pure .done
  | setNodePatchFlags node flags => do
    mgGraphSetNodePatchFlags node flags
    pure .done

/-- The message for a null graph. -/
def GraphEdit.missingGraph : GraphEdit → String
  | addNode addition =>
    match addition with
    | .dispatch _ | .copy _ | .fill _ | .mpsgraph _ => "graph, desc, and out_node are required"
    | .eventWait _ _ | .eventSignal _ _ => "graph, event, and out_node are required"
    | .barrier | .workspace _ => "graph and out_node are required"
    | .workspaceFill _ _ _ _ => "graph, dst, and out_node are required"
  | addDependency _ _ => "dependency nodes must belong to graph"
  | setArena _ => "graph and arena are required"
  | setNodePatchFlags _ _ => "node must belong to graph"

inductive ExecPatch where
  | dispatchGrid (nodeId : MgNodeId) (gridSize : Option Dims)
  | dispatchBuffer (nodeId : MgNodeId) (index : UInt32) (buffer : Option MgBuffer)
      (offset : UInt64)
  | dispatchScalar (nodeId : MgNodeId) (index : UInt32) (data : Option (List UInt8))
  | copyNode (nodeId : MgNodeId) (desc : Option MgCopyDesc)
  | fillNode (nodeId : MgNodeId) (desc : Option MgFillDesc)
  | eventValue (nodeId : MgNodeId) (value : UInt64)
  | optimizationFlags (flags : MgOptimizationFlags)
deriving DecidableEq

def ExecPatch.run : ExecPatch → Over MgGraphExec Unit
  | dispatchGrid nodeId gridSize => mgGraphExecPatchDispatchGrid nodeId gridSize
  | dispatchBuffer nodeId index buffer offset =>
    mgGraphExecPatchDispatchBuffer nodeId index buffer offset
  | dispatchScalar nodeId index data => mgGraphExecPatchDispatchScalar nodeId index data
  | copyNode nodeId desc => mgGraphExecPatchCopyNode nodeId desc
  | fillNode nodeId desc => mgGraphExecPatchFillNode nodeId desc
  | eventValue nodeId value => mgGraphExecPatchEventValue nodeId value
  | optimizationFlags flags => mgGraphExecSetOptimizationFlags flags

/-- Calls on the counted objects, which need no table. -/
inductive ObjectCall where
  | bufferCreateShared (device : Option MgDevice) (length : UInt64)
  | metalBufferWrap (device : Option MgDevice) (desc : Option MgMetalBufferWrapDesc)
  | eventCreate (device : Option MgDevice)
  | arenaCreate (device : Option MgDevice) (desc : Option MgArenaDesc)
  | bufferDestroy (buffer : Option MgBuffer)
  | eventDestroy (event : Option MgEvent)
  | arenaDestroy (arena : Option MgArena)
deriving DecidableEq

def ObjectCall.run : ObjectCall → Run Response
  | bufferCreateShared device length => do
    let buffer ← mgBufferCreateShared device length
    pure (.buffer buffer)
  | metalBufferWrap device desc => do
    let buffer ← mgMetalBufferWrap device desc
    pure (.buffer buffer)
  | eventCreate device => do
    let event ← mgEventCreate device
    pure (.event event)
  | arenaCreate device desc => do
    let arena ← mgArenaCreate device desc
    pure (.arena arena)
  | bufferDestroy buffer => do
    forEach mgBufferRelease buffer.toList
    pure .done
  | eventDestroy event => do
    forEach mgEventRelease event.toList
    pure .done
  | arenaDestroy arena => do
    mgArenaRelease arena
    pure .done

inductive Call where
  | counted (call : ObjectCall)
  | graphCreate
  | graphDestroy (graph : Option GraphPtr)
  | graphEdit (graph : Option GraphPtr) (edit : GraphEdit)
  | graphValidate (graph : Option GraphPtr)
  | graphInstantiate (graph : Option GraphPtr) (device : Option MgDevice)
  | execDestroy (exec : Option ExecPtr)
  | execPatch (exec : Option ExecPtr) (patch : ExecPatch)
  | graphLaunch (exec : Option ExecPtr) (stream : Option MgStream)
  | launchSynchronize (launch : Option LaunchPtr)
  | launchDestroy (launch : Option LaunchPtr)
deriving DecidableEq

/-! ### Running a call -/

abbrev Api (α : Type) := Eff World Fault α

section Tables

variable {τ α : Type}

def onMachine (body : Run α) : Api α :=
  zoom World.env (fun env world => { world with env := env }) body

/-- Looks a handle up. A handle that is not in the table has been freed. -/
def lookup (table : World → Slots τ) (handle : Option Nat) (missing : Fault) : Api (Nat × τ) := do
  let address ← orFail handle missing
  let world ← read
  let object ← orFail ((table world).get? address) .undefined
  pure (address, object)

/-- Runs a call on a live graph. -/
def onGraph (graph : Option GraphPtr) (missing : Fault) (body : Over MgGraph α) : Api α := do
  let (address, object) ← lookup World.graphs graph missing
  zoom (fun world => ⟨object, world.env⟩)
    (fun focus world => { world with
      env := focus.env, graphs := world.graphs.put address focus.object })
    body

/-- Runs a call on a live executable plan, which is told its own address. -/
def onExec (exec : Option ExecPtr) (missing : Fault) (body : ExecPtr → Over MgGraphExec α) :
    Api α := do
  let (address, object) ← lookup World.execs exec missing
  zoom (fun world => ⟨object, world.env⟩)
    (fun focus world => { world with
      env := focus.env, execs := world.execs.put address focus.object })
    (body address)

/-- A null handle destroys nothing. -/
def destroying (table : World → Slots τ) (remove : Nat → World → World) (destroy : τ → Run Unit)
    (handle : Option Nat) : Api Response :=
  match handle with
  | none => pure .done
  | some _ => do
    let (address, object) ← lookup table handle .undefined
    onMachine (destroy object)
    update (remove address)
    pure .done

end Tables

def freeGraph (address : GraphPtr) (world : World) : World :=
  { world with graphs := world.graphs.free address }

def freeExec (address : ExecPtr) (world : World) : World :=
  { world with execs := world.execs.free address }

def freeLaunch (address : LaunchPtr) (world : World) : World :=
  { world with launches := world.launches.free address }

/-- Returns a new graph under the next free handle. -/
def createGraph : Api Response := do
  let world ← read
  let graph ← onMachine (mgGraphCreate world.graphs.size)
  update fun world => { world with graphs := world.graphs.push graph }
  pure (.graph world.graphs.size)

def instantiateGraph (graph : Option GraphPtr) (device : Option MgDevice) : Api Response := do
  let (_, object) ← lookup World.graphs graph (mgSetError .invalidArgument .instantiate
    mgNodeIdInvalid "graph, device, and out_exec are required")
  let exec ← onMachine (mgGraphInstantiate object device)
  let world ← read
  update fun world => { world with execs := world.execs.push exec }
  pure (.exec world.execs.size)

def launchGraph (exec : Option ExecPtr) (stream : Option MgStream) : Api Response := do
  let launch ← onExec exec (mgSetError .invalidArgument .encode mgNodeIdInvalid
    "exec, stream, and out_launch are required") (mgGraphLaunch · stream)
  let world ← read
  update fun world => { world with launches := world.launches.push launch }
  pure (.launch world.launches.size)

/-- The plan a launch points to, if it is still alive. -/
def World.execOf (world : World) (launch : MgLaunch) : Option MgGraphExec :=
  launch.exec.bind world.execs.get?

/-- Writes back the launch, and its plan when it has one. -/
def World.putLaunch (world : World) (address : LaunchPtr) (object : LaunchOf) : World :=
  { world with
    launches := world.launches.put address object.launch
    execs :=
      match object.launch.exec, object.exec with
      | some pointer, some exec => world.execs.put pointer exec
      | _, _ => world.execs }

def synchronizeLaunch (launch : Option LaunchPtr) : Api Response := do
  let (address, object) ← lookup World.launches launch
    (mgSetError .invalidArgument .sync mgNodeIdInvalid "launch is required")
  zoom (fun world => ⟨⟨object, world.execOf object⟩, world.env⟩)
    (fun focus world => World.putLaunch { world with env := focus.env } address focus.object)
    mgLaunchSynchronize
  pure .done

def Call.eval : Call → Api Response
  | counted call => onMachine call.run
  | graphCreate => createGraph
  | graphDestroy graph => destroying World.graphs freeGraph mgGraphDestroy graph
  | graphEdit graph edit => onGraph graph (createFault edit.missingGraph) edit.run
  | graphValidate graph => do
    let (_, object) ← lookup World.graphs graph
      (mgSetError .invalidArgument .validate mgNodeIdInvalid "graph is required")
    onMachine (mgGraphValidate object)
    pure .done
  | graphInstantiate graph device => instantiateGraph graph device
  | execDestroy exec => destroying World.execs freeExec mgGraphExecDestroy exec
  | execPatch exec patch => do
    onExec exec (patchFault mgNodeIdInvalid "exec is required") fun _ => patch.run
    pure .done
  | graphLaunch exec stream => launchGraph exec stream
  | launchSynchronize launch => synchronizeLaunch launch
  | launchDestroy launch => destroying World.launches freeLaunch mgLaunchDestroy launch

/-! ### What a caller may do -/

def World.bufferAlive (world : World) (buffer : Option MgBuffer) : Bool :=
  buffer.elim true fun buffer =>
    match world.env.heap.cells.get? buffer.address with
    | some ⟨_, .buffer live _⟩ => live == buffer
    | _ => false

def World.eventAlive (world : World) (event : Option MgEvent) : Bool :=
  event.elim true fun event =>
    match world.env.heap.cells.get? event.address with
    | some ⟨_, .event live⟩ => live == event
    | _ => false

def World.arenaAlive (world : World) (arena : Option MgArena) : Bool :=
  arena.elim true fun arena =>
    match world.env.heap.cells.get? arena.address with
    | some ⟨_, .arena live⟩ => live == arena
    | _ => false

def World.nodeAlive (world : World) (pointer : Option NodePtr) : Bool :=
  pointer.elim true fun pointer =>
    match world.graphs.get? pointer.graph with
    | none => false
    | some graph => (graph.nodes[pointer.index]?).elim false fun node => node.id == pointer.id

/-- The handles passed inside an addition are null or alive. -/
def World.additionAlive (world : World) : NodeAddition → Bool
  | .dispatch desc =>
    ((desc.bind MgDispatchDesc.buffers).getD []).all fun binding =>
      world.bufferAlive binding.buffer
  | .copy desc =>
    world.bufferAlive (desc.bind MgCopyDesc.src) && world.bufferAlive (desc.bind MgCopyDesc.dst)
  | .fill desc => world.bufferAlive (desc.bind MgFillDesc.dst)
  | .eventWait event _ => world.eventAlive event
  | .eventSignal event _ => world.eventAlive event
  | .barrier => true
  | .mpsgraph desc =>
    (((desc.bind MgMpsgraphDesc.feeds).getD []).all fun tensor =>
      world.bufferAlive tensor.buffer) &&
    ((desc.bind MgMpsgraphDesc.targets).getD []).all fun tensor => world.bufferAlive tensor.buffer
  | .workspace _ => true
  | .workspaceFill _ _ dst _ => world.bufferAlive dst

def World.editAlive (world : World) : GraphEdit → Bool
  | .addNode addition => world.additionAlive addition
  | .addDependency before after => world.nodeAlive before && world.nodeAlive after
  | .setArena arena => world.arenaAlive arena
  | .setNodePatchFlags node _ => world.nodeAlive node

def World.patchAlive (world : World) : ExecPatch → Bool
  | .dispatchBuffer _ _ buffer _ => world.bufferAlive buffer
  | .copyNode _ desc =>
    world.bufferAlive (desc.bind MgCopyDesc.src) && world.bufferAlive (desc.bind MgCopyDesc.dst)
  | .fillNode _ desc => world.bufferAlive (desc.bind MgFillDesc.dst)
  | .dispatchGrid _ _ | .dispatchScalar _ _ _ | .eventValue _ _ | .optimizationFlags _ => true

def handleAlive {τ : Type} (table : Slots τ) (handle : Option Nat) : Bool :=
  handle.elim true fun address => (table.get? address).isSome

/-- One call of a run: its answer and what it made Metal do. -/
structure Entry where
  call : Call
  result : Except Fault Response
  events : List MetalEvent

/-- The library, the objects the caller has a handle to, and the history of calls. -/
structure System where
  world : World
  handles : List Nat
  log : List Entry

def World.initial (env : Env) : World := ⟨env, .empty, .empty, .empty⟩

def System.initial (oracle commandBufferFails : Nat → Bool) (mpsgraphEnabled : Bool) : System :=
  ⟨World.initial (Env.initial oracle commandBufferFails mpsgraphEnabled), [], []⟩

def System.owns (system : System) (address : Option Nat) : Bool :=
  address.elim true fun address => system.handles.contains address

/-- Whether some launch of this plan is still to be synchronized. -/
def World.busy (world : World) (exec : ExecPtr) : Bool :=
  world.launches.cells.any fun cell =>
    cell.elim false fun launch => launch.exec == some exec && !launch.completed

def System.permitsObject (system : System) : ObjectCall → Bool
  | .bufferCreateShared _ _ | .metalBufferWrap _ _ | .eventCreate _ | .arenaCreate _ _ => true
  | .bufferDestroy buffer =>
    system.owns (buffer.map MgBuffer.address) && system.world.bufferAlive buffer
  | .eventDestroy event =>
    system.owns (event.map MgEvent.address) && system.world.eventAlive event
  | .arenaDestroy arena =>
    system.owns (arena.map MgArena.address) && system.world.arenaAlive arena

/-- A caller passes handles that are null or alive, destroys each handle of its own
once, and destroys a plan only when no launch of it is still to be synchronized. -/
def System.permits (system : System) : Call → Bool
  | .counted call => system.permitsObject call
  | .graphCreate => true
  | .graphDestroy graph => handleAlive system.world.graphs graph
  | .graphEdit graph edit =>
    handleAlive system.world.graphs graph && system.world.editAlive edit
  | .graphValidate graph => handleAlive system.world.graphs graph
  | .graphInstantiate graph _ => handleAlive system.world.graphs graph
  | .execDestroy exec =>
    handleAlive system.world.execs exec && !exec.elim false system.world.busy
  | .execPatch exec patch =>
    handleAlive system.world.execs exec && system.world.patchAlive patch
  | .graphLaunch exec _ => handleAlive system.world.execs exec
  | .launchSynchronize launch => handleAlive system.world.launches launch
  | .launchDestroy launch => handleAlive system.world.launches launch

/-- The handle a call hands out, and the one it takes back. -/
def Entry.handedOut (entry : Entry) : Option Nat :=
  match entry.result with
  | .ok (.buffer buffer) => some buffer.address
  | .ok (.event event) => some event.address
  | .ok (.arena arena) => some arena.address
  | _ => none

def Call.takenBack : Call → Option Nat
  | .counted (.bufferDestroy buffer) => buffer.map MgBuffer.address
  | .counted (.eventDestroy event) => event.map MgEvent.address
  | .counted (.arenaDestroy arena) => arena.map MgArena.address
  | _ => none

def System.record (system : System) (call : Call) : Entry where
  call := call
  result := (call.eval system.world).1
  events := (call.eval system.world).2.env.trace.drop system.world.env.trace.length

def System.step (system : System) (call : Call) : System where
  world := (call.eval system.world).2
  handles :=
    (system.record call).handedOut.toList ++
      call.takenBack.elim system.handles system.handles.erase
  log := system.log ++ [system.record call]

/-- The states of every run in which the caller keeps to the rules. -/
inductive Reachable : System → Prop where
  | start (oracle commandBufferFails : Nat → Bool) (mpsgraphEnabled : Bool) :
      Reachable (System.initial oracle commandBufferFails mpsgraphEnabled)
  | step {system : System} {call : Call} : Reachable system → system.permits call = true →
      Reachable (system.step call)

end MetalGraph
