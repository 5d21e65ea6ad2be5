import MetalGraph.Model.Buffer
import MetalGraph.Model.Topology

set_option autoImplicit false

/- Instantiation: cloning the nodes of a graph in topological order, the workspace
buffer, the pipelines and the indirect command buffer. -/
namespace MetalGraph

open Eff

def mgMetalBufferOffset (buffer : MgBuffer) (relativeOffset : UInt64) : UInt64 :=
  buffer.byteOffset + relativeOffset

/-! ### Cloning -/

/-- A partial dispatch node holds references through its bindings only. -/
def mgCloneDispatch (id : MgNodeId) (patchFlags : MgPatchFlags) (node : MgDispatchNode) :
    Fills MgExecDispatch MgExecDispatch := do
  let holdingBuffers (buffers : List MgBufferBinding) : MgExecDispatch :=
    { node with
      id := id, patchFlags := patchFlags, pipelineImpl := none
      buffers := buffers, scalars := [], resources := [] }
  attemptBoth (mgSetOom .instantiate, holdingBuffers [])
  holding (copyBindings .instantiate node.buffers) (holdingBuffers [])
  holding (copyScalarsAndResources .instantiate node.scalars node.resources)
    (holdingBuffers node.buffers)
  pure { node with id := id, patchFlags := patchFlags, pipelineImpl := none }

def mgExecMpsgraphTensorArrayClear (tensors : List MgMpsgraphTensor) : Run Unit :=
  forEach (fun tensor => mgBufferRelease tensor.buffer) tensors

def mgCloneMpsgraphTensors (src : List MgMpsgraphTensor) : Run (List MgMpsgraphTensor) :=
  match src with
  | [] => pure []
  | _ :: _ => do
    attemptOr (mgSetOom .instantiate)
    foldEach
      (fun tensors tensor => do
        whenever (tensor.shape ≠ [])
          (cleaning (attemptOr (mgSetOom .instantiate)) (mgExecMpsgraphTensorArrayClear tensors))
        mgBufferRetain tensor.buffer
        pure (tensors ++ [tensor]))
      [] src

def mgCloneMpsgraph (id : MgNodeId) (node : MgMpsgraphNode) :
    Fills MgExecMpsgraph MgExecMpsgraph := do
  let holdingFeeds (feeds : List MgMpsgraphTensor) : MgExecMpsgraph :=
    { node with id := id, executableImpl := none, feeds := feeds, targets := [] }
  attemptOr (mgSetOom .instantiate, holdingFeeds [])
  let feeds ← holding (mgCloneMpsgraphTensors node.feeds) (holdingFeeds [])
  let targets ← holding (mgCloneMpsgraphTensors node.targets) (holdingFeeds feeds)
  pure { node with id := id, executableImpl := none, feeds := feeds, targets := targets }

/-- Keeps the failure of a kind's clone inside the tagged union. -/
def wrapped {α β : Type} (wrap : α → β) (body : Fills α α) : Fills β β := do
  let value ← catching body fun (reason, held) => fail (reason, wrap held)
  pure (wrap value)

def mgCloneExecNode (src : MgNode) (plan : MgWorkspacePlan) : Fills MgExecNode MgExecNode :=
  match src.as with
  | .dispatch node => wrapped .dispatch (mgCloneDispatch src.id src.patchFlags node)
  | .copy node => do
    let cloned : MgExecNode := .copy { node with id := src.id, patchFlags := src.patchFlags }
    holding (mgBufferRetain node.src) cloned
    holding (mgBufferRetain node.dst) cloned
    pure cloned
  | .fill node => do
    let cloned : MgExecNode := .fill { node with id := src.id, patchFlags := src.patchFlags }
    holding (mgBufferRetain node.dst) cloned
    pure cloned
  | .eventWait node => do
    let cloned : MgExecNode := .eventWait { node with id := src.id, patchFlags := src.patchFlags }
    holding (mgEventRetain node.event) cloned
    pure cloned
  | .eventSignal node => do
    let cloned : MgExecNode :=
      .eventSignal { node with id := src.id, patchFlags := src.patchFlags }
    holding (mgEventRetain node.event) cloned
    pure cloned
  | .barrier => pure (.barrier src.id)
  | .mpsgraph node => wrapped .mpsgraph (mgCloneMpsgraph src.id node)
  | .workspace node => do
    let offset ← holding (ofExcept (mgWorkspacePlanOffsetForNode plan src.id))
      (.workspace { node with id := src.id, offset := 0 })
    pure (.workspace { node with id := src.id, offset := offset })
  | .workspaceFill node => do
    let partly : MgExecNode := .workspaceFill { node with id := src.id, offset := 0 }
    holding (mgBufferRetain node.dst) partly
    let offset ← holding (ofExcept (mgWorkspacePlanOffsetForNode plan src.id)) partly
    pure (.workspaceFill { node with id := src.id, offset := offset })
  | .unknown kind =>
    fail (mgSetError .internalError .instantiate src.id "unknown node kind", .unknown kind)

def mgExecNodeClear (node : MgExecNode) : Run Unit :=
  match node with
  | .dispatch dispatch => mgDispatchNodeClear dispatch.buffers
  | .copy copy => do
    mgBufferRelease copy.src
    mgBufferRelease copy.dst
  | .fill fill => mgBufferRelease fill.dst
  | .eventWait event => mgEventRelease event.event
  | .eventSignal event => mgEventRelease event.event
  | .mpsgraph mpsgraph => do
    mgExecMpsgraphTensorArrayClear mpsgraph.feeds
    mgExecMpsgraphTensorArrayClear mpsgraph.targets
  | .barrier _ => pure ()
  | .workspace _ => pure ()
  | .workspaceFill fill => mgBufferRelease fill.dst
  | .unknown _ => pure ()

def mgGraphExecDestroy (exec : MgGraphExec) : Run Unit := do
  forEach mgExecNodeClear exec.nodes
  mgWorkspacePlanClear exec.workspace

/-! ### Backend objects -/

def mgWorkspaceAllocate (plan : MgWorkspacePlan) (metalDevice : Nat) : Run MgWorkspacePlan :=
  if plan.totalSize = 0 then pure plan
  else do
    let created ← newBufferWithLength metalDevice plan.totalSize false
    let workspace ← orFail created (mgSetError .backendError .backendAllocate mgNodeIdInvalid
      "failed to allocate Metal workspace buffer")
    pure { plan with backendImpl := some workspace }

def mgMpsgraphLoadExecutable (mpsgraph : MgExecMpsgraph) : Run MgExecMpsgraph := do
  let env ← read
  require (env.mpsgraphEnabled = true) (mgSetError .unsupported .instantiate mpsgraph.id
    "MPSGraph support is not enabled in this build")
  attemptOr (mgSetError .backendError .instantiate mpsgraph.id
    "failed to retain MPSGraph executable package")
  attemptOr (mgSetOom .instantiate)
  attemptOr (mgSetError .backendError .instantiate mpsgraph.id
    "failed to load MPSGraph executable package")
  pure { mpsgraph with executableImpl := some mpsgraph.packagePath }

def loadPipeline (dispatch : MgExecDispatch) : Run MgExecDispatch := do
  attemptOr (mgSetError .backendError .instantiate dispatch.id "failed to load Metal library")
  attemptOr (mgSetError .backendError .instantiate dispatch.id
    "failed to find Metal kernel function")
  attemptOr (mgSetError .backendError .instantiate dispatch.id
    "failed to create Metal compute pipeline")
  pure { dispatch with pipelineImpl := some ⟨dispatch.metallibPath, dispatch.kernelName⟩ }

def loadNode (node : MgExecNode) : Run MgExecNode :=
  match node with
  | .mpsgraph mpsgraph => do
    let loaded ← mgMpsgraphLoadExecutable mpsgraph
    pure (.mpsgraph loaded)
  | .dispatch dispatch => do
    let loaded ← loadPipeline dispatch
    pure (.dispatch loaded)
  | other => pure other

/-! ### Indirect command buffers -/

def mgIcbDispatchEligible (dispatch : MgExecDispatch) : MgIcbFallbackReason :=
  if dispatch.patchFlags ≠ 0 ∨ dispatch.scalars ≠ [] then .patchableField
  else if dispatch.buffers.all fun binding =>
      match dispatch.toMgDispatchNode.resourceFor binding.index with
      | none => false
      | some resource => resource.byteCount != 0 && resource.access != .unknown
    then .none
  else .unknownResourceAccess

def maxKernelBufferBindCount (buffers : List MgBufferBinding) : Nat :=
  buffers.foldl (fun count binding => max count (binding.index.toNat + 1)) 0

def recordIcbCommand (dispatch : MgExecDispatch) : IcbCommand where
  pipeline := dispatch.pipelineImpl
  kernelBuffers := dispatch.buffers.map fun binding =>
    (binding.buffer.impl, mgMetalBufferOffset binding.buffer binding.offset, binding.index)
  grid := dispatch.gridSize
  threadsPerThreadgroup := dispatch.threadsPerThreadgroup

def MgIcbPlan.fallBack (plan : MgIcbPlan) (reason : MgIcbFallbackReason) : MgIcbPlan :=
  { plan with groupsPlanned := 1, groupsFallback := 1, lastFallbackReason := reason }

def recordIcbPlan (plan : MgIcbPlan) (dispatch : MgExecDispatch) : Run MgIcbPlan := do
  let granted ← attempt
  if granted then
    pure { plan with
      groupsPlanned := 1
      backendImpl := some ⟨maxKernelBufferBindCount dispatch.buffers, [recordIcbCommand dispatch]⟩
      commandCount := 1
      groupsFallback := 0
      lastFallbackReason := .none }
  else pure (plan.fallBack .backendError)

/-- The first request asks whether the device has indirect command buffers. -/
def mgIcbPlanBuild (nodes : List MgExecNode) : Run MgIcbPlan := do
  let available ← attempt
  let plan := { MgIcbPlan.zero with enabledFlags := mgOptimizationIcb, available := available }
  match nodes with
  | [] => pure plan
  | [node] =>
    if available = false then pure (plan.fallBack .unsupported)
    else
      match node with
      | .dispatch dispatch =>
        let reason := mgIcbDispatchEligible dispatch
        if reason ≠ .none then pure (plan.fallBack reason) else recordIcbPlan plan dispatch
      | _ => pure (plan.fallBack .ineligibleNode)
  | _ => pure (plan.fallBack .ineligibleNode)

/-! ### Instantiation -/

def instantiateOrder (graph : MgGraph) : Run (List Nat) :=
  if graph.nodes = [] then pure []
  else do
    attemptOr (mgSetOom .instantiate)
    mgGraphTopologicalOrder graph

/-- Clones one node and loads what it needs. A node whose load fails is complete. -/
def instantiateNode (src : MgNode) (plan : MgWorkspacePlan) : Fills MgExecNode MgExecNode := do
  let node ← mgCloneExecNode src plan
  holding (loadNode node) node

/-- Appends the next node, or destroys all that was made. -/
def instantiateStep (graph : MgGraph) (plan : MgWorkspacePlan) (nodes : List MgExecNode)
    (index : Nat) : Run (List MgExecNode) := do
  let src ← nodeAt graph index
  let node ← catching (instantiateNode src plan) fun (reason, partly) => do
    mgGraphExecDestroy ⟨nodes ++ [partly], none, plan, .zero, 0⟩
    fail reason
  pure (nodes ++ [node])

def mgGraphInstantiate (graph : MgGraph) (device : Option MgDevice) : Run MgGraphExec := do
  let metalDevice ← orFail (deviceImpl device) (mgSetError .invalidArgument .instantiate
    mgNodeIdInvalid "graph, device, and out_exec are required")
  mgGraphValidate graph
  let order ← instantiateOrder graph
  attemptOr (mgSetOom .instantiate)
  let plan ← mgGraphPlanWorkspace graph order
  whenever (graph.nodes ≠ [])
    (cleaning (attemptOr (mgSetOom .instantiate)) (mgWorkspacePlanClear plan))
  let workspace ← cleaning (mgWorkspaceAllocate plan metalDevice)
    (mgGraphExecDestroy ⟨[], none, plan, .zero, 0⟩)
  let nodes ← foldEach (instantiateStep graph workspace) [] order
  let icb ← mgIcbPlanBuild nodes
  pure ⟨nodes, some metalDevice, workspace, icb, 0⟩

end MetalGraph
