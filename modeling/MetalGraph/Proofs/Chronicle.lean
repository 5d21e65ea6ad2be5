import MetalGraph.Proofs.InFlight

set_option autoImplicit false

/- What a caller who keeps the log of its calls knows without looking at the library:
graphs, plans and launches without addresses, reference counts, capacities or the heap, and
without what the library decides by itself: diagnostics, pipelines and workspace layouts. A
call that fails changes nothing there, and a call that succeeds changes what its arguments
say. -/
namespace MetalGraph

/-! ### Contents of descriptors -/

def MgBufferBindingDesc.stored (desc : MgBufferBindingDesc) : Option MgBufferBinding :=
  desc.buffer.map fun buffer => ⟨desc.index, buffer, desc.offset⟩

def MgScalarBindingDesc.stored (desc : MgScalarBindingDesc) : Option MgScalarBinding :=
  desc.data.map fun data => ⟨desc.index, data⟩

def MgDispatchResourceDesc.stored (resource : MgDispatchResourceDesc) : MgDispatchResourceDesc :=
  { resource with alignment := effectiveAlignment resource.alignment }

def MgDispatchDesc.stored (desc : MgDispatchDesc) : MgDispatchNode where
  metallibPath := desc.metallibPath.getD ""
  kernelName := desc.kernelName.getD ""
  gridSize := desc.gridSize
  threadsPerThreadgroup := desc.threadsPerThreadgroup
  maxGridSize := desc.effectiveMaxGridSize
  buffers := (desc.buffers.getD []).filterMap MgBufferBindingDesc.stored
  scalars := (desc.presentScalars.getD []).filterMap MgScalarBindingDesc.stored
  resources := (desc.presentResources.getD []).map MgDispatchResourceDesc.stored

def MgCopyDesc.stored (desc : MgCopyDesc) : Option MgCopyNode := do
  let src ← desc.src
  let dst ← desc.dst
  pure ⟨src, desc.srcOffset, dst, desc.dstOffset, desc.byteCount⟩

def MgFillDesc.stored (desc : MgFillDesc) : Option MgFillNode :=
  desc.dst.map fun dst => ⟨dst, desc.dstOffset, desc.byteCount, desc.value⟩

/-- A byte count of zero stands for the bytes of the shape. -/
def MgMpsgraphTensorDesc.stored (desc : MgMpsgraphTensorDesc) : Option MgMpsgraphTensor := do
  let buffer ← desc.buffer
  let shape ← desc.shape
  let required ← mgShapeByteCount shape (mgTensorDataTypeSize desc.dataType)
  let byteCount := if desc.byteCount = 0 then required else desc.byteCount
  pure ⟨buffer, desc.byteOffset, byteCount, desc.dataType, desc.layout, shape⟩

def MgMpsgraphDesc.stored (desc : MgMpsgraphDesc) : MgMpsgraphNode where
  packagePath := desc.packagePath.getD ""
  feeds := (desc.feeds.getD []).filterMap MgMpsgraphTensorDesc.stored
  targets := (desc.targets.getD []).filterMap MgMpsgraphTensorDesc.stored

/-- The node that an addition asks for. -/
def NodeAddition.stored : NodeAddition → Option MgNodeAs
  | dispatch desc => desc.map fun desc => .dispatch desc.stored
  | copy desc => (desc.bind MgCopyDesc.stored).map .copy
  | fill desc => (desc.bind MgFillDesc.stored).map .fill
  | eventWait event value => event.map fun event => .eventWait ⟨event, value⟩
  | eventSignal event value => event.map fun event => .eventSignal ⟨event, value⟩
  | barrier => some .barrier
  | mpsgraph desc => desc.map fun desc => .mpsgraph desc.stored
  | workspace desc => desc.map fun desc => .workspace ⟨desc.byteCount, desc.alignment⟩
  | workspaceFill desc value dst dstOffset => do
    let desc ← desc
    let dst ← dst
    pure (.workspaceFill ⟨desc.byteCount, desc.alignment, value, dst, dstOffset⟩)

/-! ### Graphs -/

structure NodeRecord where
  patchFlags : MgPatchFlags
  contents : MgNodeAs
deriving DecidableEq

/-- A node is known by its position, and an arena by its address. -/
structure GraphRecord where
  nodes : List NodeRecord
  edges : List MgEdge
  arena : Option Nat
deriving DecidableEq

def GraphRecord.empty : GraphRecord := ⟨[], [], none⟩

def GraphRecord.addNode (graph : GraphRecord) (contents : MgNodeAs) : GraphRecord :=
  { graph with nodes := graph.nodes ++ [⟨0, contents⟩] }

/-- A dependency that is declared twice is kept once. -/
def GraphRecord.addDependency (graph : GraphRecord) (edge : MgEdge) : GraphRecord :=
  if edge ∈ graph.edges then graph else { graph with edges := graph.edges ++ [edge] }

def GraphRecord.setPatchFlags (graph : GraphRecord) (index : Nat) (flags : MgPatchFlags) :
    GraphRecord :=
  { graph with nodes := graph.nodes.modify index fun node => { node with patchFlags := flags } }

def GraphRecord.edited (graph : GraphRecord) : GraphEdit → GraphRecord
  | .addNode addition => addition.stored.elim graph graph.addNode
  | .addDependency (some before) (some after) => graph.addDependency ⟨before.index, after.index⟩
  | .addDependency _ _ => graph
  | .setArena arena => { graph with arena := arena.map MgArena.address }
  | .setNodePatchFlags (some pointer) flags => graph.setPatchFlags pointer.index flags
  | .setNodePatchFlags none _ => graph

/-! ### Plans -/

structure PlanItem where
  id : MgNodeId
  patchFlags : MgPatchFlags
  contents : MgNodeAs
deriving DecidableEq

structure PlanRecord where
  items : List PlanItem
  optimizationFlags : MgOptimizationFlags
deriving DecidableEq

/-- The node at an index, under the id that it has in every plan. -/
def GraphRecord.item (graph : GraphRecord) (index : Nat) : Option PlanItem :=
  graph.nodes[index]?.map fun node => ⟨UInt64.ofNat (index + 1), node.patchFlags, node.contents⟩

/-- The plan of a graph lists its nodes in the order of the dependencies. -/
def GraphRecord.instantiated (graph : GraphRecord) : PlanRecord where
  items :=
    match topologicalOrder graph.nodes.length graph.edges with
    | .ok order => order.filterMap graph.item
    | .error _ => []
  optimizationFlags := mgOptimizationIcb

def PlanRecord.revise (plan : PlanRecord) (nodeId : MgNodeId) (change : MgNodeAs → MgNodeAs) :
    PlanRecord :=
  { plan with items := plan.items.map fun item =>
      if item.id = nodeId then { item with contents := change item.contents } else item }

def MgNodeAs.withGrid (grid : Dims) : MgNodeAs → MgNodeAs
  | .dispatch node => .dispatch { node with gridSize := grid }
  | other => other

def MgBufferBinding.rebound (index : UInt32) (buffer : MgBuffer) (offset : UInt64)
    (binding : MgBufferBinding) : Option MgBufferBinding :=
  if binding.index = index then some { binding with buffer := buffer, offset := offset } else none

def MgNodeAs.withBuffer (index : UInt32) (buffer : MgBuffer) (offset : UInt64) :
    MgNodeAs → MgNodeAs
  | .dispatch node => .dispatch { node with
      buffers := node.buffers.replaceF (MgBufferBinding.rebound index buffer offset) }
  | other => other

def MgScalarBinding.rebound (index : UInt32) (data : List UInt8) (scalar : MgScalarBinding) :
    Option MgScalarBinding :=
  if scalar.index = index then some { scalar with data := data } else none

/-- Two scalars may have one index; the first of them is the one that changes. -/
def MgNodeAs.withScalar (index : UInt32) (data : List UInt8) : MgNodeAs → MgNodeAs
  | .dispatch node => .dispatch { node with
      scalars := node.scalars.replaceF (MgScalarBinding.rebound index data) }
  | other => other

def MgNodeAs.withValue (value : UInt64) : MgNodeAs → MgNodeAs
  | .eventWait node => .eventWait { node with value := value }
  | .eventSignal node => .eventSignal { node with value := value }
  | other => other

def PlanRecord.patched (plan : PlanRecord) : ExecPatch → PlanRecord
  | .dispatchGrid nodeId (some grid) => plan.revise nodeId (MgNodeAs.withGrid grid)
  | .dispatchBuffer nodeId index (some buffer) offset =>
    plan.revise nodeId (MgNodeAs.withBuffer index buffer offset)
  | .dispatchScalar nodeId index (some data) =>
    plan.revise nodeId (MgNodeAs.withScalar index data)
  | .copyNode nodeId desc =>
    (desc.bind MgCopyDesc.stored).elim plan fun copy => plan.revise nodeId fun _ => .copy copy
  | .fillNode nodeId desc =>
    (desc.bind MgFillDesc.stored).elim plan fun fill => plan.revise nodeId fun _ => .fill fill
  | .eventValue nodeId value => plan.revise nodeId (MgNodeAs.withValue value)
  | .optimizationFlags flags => { plan with optimizationFlags := flags }
  | .dispatchGrid _ none | .dispatchBuffer _ _ none _ | .dispatchScalar _ _ none => plan

/-! ### The chronicle -/

/-- Where a plan runs, and how many of its launches nobody has waited for. -/
structure PlanState where
  deviceImpl : Option Nat
  inFlightCount : UInt32
deriving DecidableEq

def PlanState.launched (state : PlanState) : PlanState :=
  { state with inFlightCount := state.inFlightCount + 1 }

def PlanState.finished (state : PlanState) : PlanState :=
  if state.inFlightCount > 0 then { state with inFlightCount := state.inFlightCount - 1 }
  else state

structure LaunchRecord where
  exec : Option ExecPtr
  completed : Bool
deriving DecidableEq

/-- The plan that the first synchronization of a launch tells of its end. -/
def LaunchRecord.awaits (launch : LaunchRecord) : Option ExecPtr :=
  if launch.completed then none else launch.exec

/-- A plan has a record of its contents and a state of its own under one handle. -/
structure Chronicle where
  graphs : Slots GraphRecord
  execs : Slots PlanRecord
  states : Slots PlanState
  launches : Slots LaunchRecord
deriving DecidableEq

def Chronicle.empty : Chronicle := ⟨.empty, .empty, .empty, .empty⟩

def Chronicle.finishLaunch (chronicle : Chronicle) (launch : LaunchPtr) : Slots PlanState :=
  ((chronicle.launches.get? launch).bind LaunchRecord.awaits).elim chronicle.states fun exec =>
    chronicle.states.adjust exec PlanState.finished

/-- What a call that succeeds does. -/
def Chronicle.perform (chronicle : Chronicle) : Call → Chronicle
  | .graphCreate => { chronicle with graphs := chronicle.graphs.push .empty }
  | .graphDestroy (some graph) => { chronicle with graphs := chronicle.graphs.free graph }
  | .graphEdit (some graph) edit =>
    { chronicle with graphs := chronicle.graphs.adjust graph fun graph => graph.edited edit }
  | .graphInstantiate (some graph) device =>
    (chronicle.graphs.get? graph).elim chronicle fun graph =>
      { chronicle with
        execs := chronicle.execs.push graph.instantiated
        states := chronicle.states.push ⟨deviceImpl device, 0⟩ }
  | .execDestroy (some exec) =>
    { chronicle with
      execs := chronicle.execs.free exec
      states := chronicle.states.free exec }
  | .execPatch (some exec) patch =>
    { chronicle with execs := chronicle.execs.adjust exec fun plan => plan.patched patch }
  | .graphLaunch (some exec) _ =>
    { chronicle with
      states := chronicle.states.adjust exec PlanState.launched
      launches := chronicle.launches.push ⟨some exec, false⟩ }
  | .launchSynchronize (some launch) =>
    { chronicle with
      states := chronicle.finishLaunch launch
      launches := chronicle.launches.adjust launch fun launch =>
        { launch with completed := true } }
  | .launchDestroy (some launch) =>
    { chronicle with launches := chronicle.launches.free launch }
  | .counted _ | .graphValidate _ | .graphDestroy none | .graphEdit none _
  | .graphInstantiate none _ | .execDestroy none | .execPatch none _ | .graphLaunch none _
  | .launchSynchronize none | .launchDestroy none => chronicle

/-- The launch has ended also where its synchronization reports that the GPU failed. -/
def Entry.tookEffect (entry : Entry) : Bool :=
  match entry.call with
  | .launchSynchronize _ => decide (Completed entry.result)
  | _ => entry.result.isOk

def Chronicle.advance (chronicle : Chronicle) (entry : Entry) : Chronicle :=
  if entry.tookEffect then chronicle.perform entry.call else chronicle

/-- The chronicle of a log. -/
def replay (log : List Entry) : Chronicle := log.foldl Chronicle.advance .empty

/-! ### What the library stores of it -/

def MgNode.record (node : MgNode) : NodeRecord := ⟨node.patchFlags, node.as⟩

def MgGraph.record (graph : MgGraph) : GraphRecord :=
  ⟨graph.nodes.map MgNode.record, graph.edges, graph.arena.map MgArena.address⟩

def MgGraphExec.state (exec : MgGraphExec) : PlanState := ⟨exec.deviceImpl, exec.inFlightCount⟩

def MgLaunch.record (launch : MgLaunch) : LaunchRecord := ⟨launch.exec, launch.completed⟩

end MetalGraph
