import MetalGraph.Model.Arena

set_option autoImplicit false

/- Construction of graphs: descriptor checks, node storage and dependencies. -/
namespace MetalGraph

open Eff

/-- Every check of a descriptor fails the call without naming a node. -/
def createFault (message : String) : Fault :=
  mgSetError .invalidArgument .create mgNodeIdInvalid message

def mgDimsValid (dims : Dims) : Bool := dims.x > 0 && dims.y > 0 && dims.z > 0

def mgRangeValid (length offset byteCount : UInt64) : Bool :=
  byteCount > 0 && offset ≤ length && byteCount ≤ length - offset

/-! ### Capacity -/

/-- The doubling loop. It starts above zero, so `required` rounds are enough. -/
def doubleUntil (required : Nat) : Nat → Nat → Nat
  | 0, capacity => capacity
  | rounds + 1, capacity =>
    if capacity < required then doubleUntil required rounds (capacity * 2) else capacity

def nextCapacity (capacity required : Nat) : Nat :=
  doubleUntil required required (if capacity = 0 then 4 else capacity * 2)

def mgGraphReserveNodes (required : Nat) : Over MgGraph Unit := do
  let graph ← self
  if required ≤ graph.nodeCapacity then pure ()
  else
    onEnv (attemptOr (mgSetOom .create))
    modifySelf fun graph =>
      { graph with nodeCapacity := nextCapacity graph.nodeCapacity required }

def mgGraphReserveEdges (required : Nat) : Over MgGraph Unit := do
  let graph ← self
  if required ≤ graph.edgeCapacity then pure ()
  else
    onEnv (attemptOr (mgSetOom .create))
    modifySelf fun graph =>
      { graph with edgeCapacity := nextCapacity graph.edgeCapacity required }

/-! ### Dispatch checks -/

def mgDispatchFindBufferBinding (bindings : List MgBufferBinding) (index : UInt32) :
    Option MgBufferBinding :=
  bindings.find? fun binding => binding.index == index

def mgDispatchFindResource (resources : List MgDispatchResourceDesc) (index : UInt32) :
    Option MgDispatchResourceDesc :=
  resources.find? fun resource => resource.index == index

def mgDispatchResourceRangeValid (resource : Option MgDispatchResourceDesc)
    (bufferLength bindingOffset : UInt64) : Bool :=
  match resource with
  | none => bindingOffset ≤ bufferLength
  | some resource =>
    if resource.byteOffset > sizeMax - bindingOffset then false
    else
      let absoluteOffset := bindingOffset + resource.byteOffset
      if resource.byteCount = 0 then absoluteOffset ≤ bufferLength
      else mgRangeValid bufferLength absoluteOffset resource.byteCount

/-- An alignment of zero stands for one. -/
def effectiveAlignment (alignment : UInt64) : UInt64 := if alignment = 0 then 1 else alignment

def mgDispatchResourceOffsetAligned (resource : Option MgDispatchResourceDesc)
    (bindingOffset : UInt64) : Bool :=
  match resource with
  | none => true
  | some resource =>
    if resource.byteOffset > sizeMax - bindingOffset then false
    else (bindingOffset + resource.byteOffset) % effectiveAlignment resource.alignment = 0

def mgResourceAccessValid : MgResourceAccess → Bool
  | .unknown | .read | .write | .readWrite => true
  | .other _ => false

def sizeofMgDispatchResourceDesc : UInt64 := 40

def mgValidateDispatchResourceDesc (resource : MgDispatchResourceDesc)
    (bindings : List MgBufferBinding) : Except Fault Unit := do
  demand (¬ (resource.size < sizeofMgDispatchResourceDesc ∨
      mgResourceAccessValid resource.access = false ∨
      mgAlignmentValid (effectiveAlignment resource.alignment) = false))
    (createFault "dispatch resource descriptor is invalid")
  match mgDispatchFindBufferBinding bindings resource.index with
  | none => .error (createFault "dispatch resource descriptor references a missing binding")
  | some binding =>
    demand (mgDispatchResourceOffsetAligned (some resource) binding.offset = true ∧
        mgDispatchResourceRangeValid (some resource) binding.buffer.length binding.offset = true)
      (createFault "dispatch resource range is invalid")

def validateResourceList (bindings : List MgBufferBinding) :
    List MgDispatchResourceDesc → Except Fault Unit
  | [] => .ok ()
  | resource :: rest => do
    demand (∀ other ∈ rest, resource.index ≠ other.index)
      (createFault "duplicate dispatch resource descriptor")
    mgValidateDispatchResourceDesc resource bindings
    validateResourceList bindings rest

def mgValidateDispatchResources (resources : Option (List MgDispatchResourceDesc))
    (bindings : List MgBufferBinding) : Except Fault (List MgDispatchResourceDesc) :=
  match resources with
  | none => .error (createFault "dispatch resource descriptors are required")
  | some resources => do
    validateResourceList bindings resources
    pure resources

/-- The binding loop of a dispatch descriptor. -/
def validateBindings : List MgBufferBindingDesc → Except Fault (List MgBufferBinding)
  | [] => .ok []
  | binding :: rest =>
    match binding.buffer with
    | none => .error (createFault "dispatch buffer binding is invalid")
    | some buffer => do
      demand (¬ binding.offset > buffer.length) (createFault "dispatch buffer binding is invalid")
      demand (∀ other ∈ rest, binding.index ≠ other.index)
        (createFault "duplicate dispatch buffer binding")
      let others ← validateBindings rest
      pure (⟨binding.index, buffer, binding.offset⟩ :: others)

/-- The scalar loop of a dispatch descriptor. -/
def validateScalars : List MgScalarBindingDesc → Except Fault (List MgScalarBinding)
  | [] => .ok []
  | scalar :: rest =>
    match scalar.data with
    | none => .error (createFault "dispatch scalar binding is invalid")
    | some data => do
      demand (data ≠ []) (createFault "dispatch scalar binding is invalid")
      let others ← validateScalars rest
      pure (⟨scalar.index, data⟩ :: others)

def MgDispatchNode.resourceFor (dispatch : MgDispatchNode) (index : UInt32) :
    Option MgDispatchResourceDesc :=
  mgDispatchFindResource dispatch.resources index

/-- Whether a binding has a resource that declares a range. -/
def MgDispatchNode.hasRange (dispatch : MgDispatchNode) (index : UInt32) : Bool :=
  match dispatch.resourceFor index with
  | none => false
  | some resource => resource.byteCount != 0

def mgDispatchAllBindingsHaveRangeRequirements (dispatch : MgDispatchNode) : Bool :=
  dispatch.buffers.all fun binding => dispatch.hasRange binding.index

/-! ### Tensor checks -/

def mgTensorDataTypeSize : MgTensorDataType → UInt64
  | .float32 => 4
  | .other _ => 0

def mgTensorLayoutValid : MgTensorLayout → Bool
  | .contiguous => true
  | .other _ => false

/-- The product loop over a shape. -/
def shapeElements : UInt64 → List UInt64 → Option UInt64
  | elements, [] => some elements
  | elements, dimension :: rest =>
    if dimension = 0 ∨ elements > sizeMax / dimension then none
    else shapeElements (elements * dimension) rest

def mgShapeByteCount (shape : List UInt64) (elementSize : UInt64) : Option UInt64 :=
  if shape = [] ∨ elementSize = 0 then none
  else do
    let elements ← shapeElements 1 shape
    if elements > sizeMax / elementSize then none else some (elements * elementSize)

def sizeofMgMpsgraphTensorDesc : UInt64 := 56

/-- A tensor descriptor whose pointers are known not to be null. -/
structure TensorSource where
  buffer : MgBuffer
  byteOffset : UInt64
  byteCount : UInt64
  dataType : MgTensorDataType
  layout : MgTensorLayout
  shape : List UInt64
deriving DecidableEq

def tensorPointers (tensor : MgMpsgraphTensorDesc) : Except Fault TensorSource :=
  let invalid := createFault "MPSGraph tensor descriptor is invalid"
  match tensor.buffer, tensor.shape with
  | some buffer, some shape => do
    demand (¬ (tensor.size < sizeofMgMpsgraphTensorDesc ∨ shape = [] ∨
      mgTensorLayoutValid tensor.layout = false)) invalid
    pure ⟨buffer, tensor.byteOffset, tensor.byteCount, tensor.dataType, tensor.layout, shape⟩
  | _, _ => .error invalid

/-- A byte count of zero stands for the size of the shape. -/
def TensorSource.effectiveByteCount (tensor : TensorSource) (required : UInt64) : UInt64 :=
  if tensor.byteCount = 0 then required else tensor.byteCount

def mgValidateMpsgraphTensorDesc (tensor : MgMpsgraphTensorDesc) : Except Fault TensorSource := do
  let tensor ← tensorPointers tensor
  match mgShapeByteCount tensor.shape (mgTensorDataTypeSize tensor.dataType) with
  | none => .error (createFault "MPSGraph tensor shape or dtype is invalid")
  | some required => do
    let byteCount := tensor.effectiveByteCount required
    demand (¬ (byteCount < required ∨ tensor.byteOffset ≠ 0 ∨ tensor.buffer.byteOffset ≠ 0 ∨
        mgRangeValid tensor.buffer.length tensor.byteOffset byteCount = false))
      (createFault "MPSGraph tensor buffer range is invalid")
    pure tensor

/-- Validates an array of tensors in order. -/
def validateTensors : List MgMpsgraphTensorDesc → Except Fault (List TensorSource)
  | [] => .ok []
  | tensor :: rest => do
    let source ← mgValidateMpsgraphTensorDesc tensor
    let others ← validateTensors rest
    pure (source :: others)

def mgMpsgraphTensorClone (src : TensorSource) : Run MgMpsgraphTensor := do
  let required ← orFail (mgShapeByteCount src.shape (mgTensorDataTypeSize src.dataType))
    (createFault "MPSGraph tensor shape or dtype is invalid")
  attemptOr (mgSetOom .create)
  mgBufferRetain src.buffer
  pure
    { buffer := src.buffer
      byteOffset := src.byteOffset
      byteCount := src.effectiveByteCount required
      dataType := src.dataType
      layout := src.layout
      shape := src.shape }

def mgMpsgraphTensorArrayClear (tensors : List MgMpsgraphTensor) : Run Unit :=
  forEach (fun tensor => mgBufferRelease tensor.buffer) tensors

def mgMpsgraphTensorArrayClone (src : List TensorSource) : Run (List MgMpsgraphTensor) :=
  match src with
  | [] => pure []
  | _ :: _ => do
    attemptOr (mgSetOom .create)
    foldEach
      (fun tensors tensor => do
        let cloned ← cleaning (mgMpsgraphTensorClone tensor) (mgMpsgraphTensorArrayClear tensors)
        pure (tensors ++ [cloned]))
      [] src

/-! ### Nodes -/

def sizeofMgNode : Nat := 144

/-- The fields of a node that are set before its kind-specific ones. -/
def newNode (graph : MgGraph) (as : MgNodeAs) : MgNode :=
  ⟨graph.address, UInt64.ofNat (graph.nodes.length + 1), graph.nodes.length, 0, as⟩

/-- All nodes of a graph lie in one 64-bit address space. -/
def mgGraphAllocNode : Over MgGraph Unit := do
  let graph ← self
  mgGraphReserveNodes (graph.nodes.length + 1)
  onEnv (attemptOr (mgSetOom .create))
  require ((graph.nodes.length + 1) * sizeofMgNode ≤ 2 ^ 64) (mgSetOom .create)

def mgGraphCommitNode (as : MgNodeAs) : Over MgGraph NodePtr := do
  let graph ← self
  let node := newNode graph as
  modifySelf fun graph => { graph with nodes := graph.nodes ++ [node] }
  pure ⟨node.graph, node.index, node.id⟩

def mgDispatchNodeClear (buffers : List MgBufferBinding) : Run Unit :=
  forEach (fun binding => mgBufferRelease binding.buffer) buffers

def mgMpsgraphNodeClear (feeds targets : List MgMpsgraphTensor) : Run Unit := do
  mgMpsgraphTensorArrayClear feeds
  mgMpsgraphTensorArrayClear targets

def mgNodeClear (as : MgNodeAs) : Run Unit :=
  match as with
  | .dispatch dispatch => mgDispatchNodeClear dispatch.buffers
  | .copy copy => do
    mgBufferRelease copy.src
    mgBufferRelease copy.dst
  | .fill fill => mgBufferRelease fill.dst
  | .eventWait event => mgEventRelease event.event
  | .eventSignal event => mgEventRelease event.event
  | .mpsgraph mpsgraph => mgMpsgraphNodeClear mpsgraph.feeds mpsgraph.targets
  | .barrier => pure ()
  | .workspace _ => pure ()
  | .workspaceFill fill => mgBufferRelease fill.dst
  | .unknown _ => pure ()

/-- `address` names the new graph. -/
def mgGraphCreate (address : GraphPtr) : Run MgGraph := do
  attemptOr (mgSetOom .create)
  pure ⟨address, [], 0, [], 0, none⟩

def mgGraphDestroy (graph : MgGraph) : Run Unit := do
  forEach (fun node => mgNodeClear node.as) graph.nodes
  mgArenaRelease graph.arena

def mgGraphSetArena (arena : Option MgArena) : Over MgGraph Unit := do
  let arena ← orFail arena (createFault "graph and arena are required")
  let graph ← self
  if graph.arena.map MgArena.address = some arena.address then pure ()
  else
    onEnv (mgArenaRetain arena)
    onEnv (mgArenaRelease graph.arena)
    modifySelf fun graph => { graph with arena := some arena }

def mgPatchFlagsAllowed (kind : MgNodeKind) (flags : MgPatchFlags) : Bool :=
  let allowed :=
    match kind with
    | .dispatch => mgPatchDispatchGrid ||| mgPatchDispatchBuffer ||| mgPatchDispatchScalar
    | .copy => mgPatchCopyBuffer ||| mgPatchCopyRange
    | .fill => mgPatchFillBuffer ||| mgPatchFillRange ||| mgPatchFillValue
    | .eventWait | .eventSignal => mgPatchEventValue
    | _ => 0
  flags &&& ~~~allowed == 0

/-- Whether declaring these flags is refused for want of resource ranges. -/
def MgNode.lacksRanges (node : MgNode) (flags : MgPatchFlags) : Bool :=
  match node.as with
  | .dispatch dispatch =>
    flags &&& mgPatchDispatchBuffer != 0 &&
      !mgDispatchAllBindingsHaveRangeRequirements dispatch
  | _ => false

def mgGraphSetNodePatchFlags (pointer : Option NodePtr) (flags : MgPatchFlags) :
    Over MgGraph Unit := do
  let graph ← self
  let pointer ← orFail pointer (createFault "node must belong to graph")
  require (pointer.graph = graph.address) (createFault "node must belong to graph")
  let node ← orFail graph.nodes[pointer.index]? .undefined
  require (mgPatchFlagsAllowed node.kind flags = true)
    (mgSetError .invalidArgument .create node.id "patch flags are not compatible with node kind")
  require (node.lacksRanges flags = false) (mgSetError .invalidArgument .create node.id
    "patchable dispatch buffers require resource range descriptors")
  modifySelf fun graph =>
    { graph with nodes := graph.nodes.set pointer.index { node with patchFlags := flags } }

def offsetofScalars : UInt64 := 64
def offsetofResources : UInt64 := 88
def sizeofMgDispatchDesc : UInt64 := 104

/-- The grid bound a descriptor declares, or the grid itself. -/
def MgDispatchDesc.effectiveMaxGridSize (desc : MgDispatchDesc) : Dims :=
  if desc.size ≥ offsetofResources ∧ mgDimsValid desc.maxGridSize = true then desc.maxGridSize
  else desc.gridSize

/-- Fields past the size the caller declares read as absent. -/
def MgDispatchDesc.presentScalars (desc : MgDispatchDesc) : Option (List MgScalarBindingDesc) :=
  if desc.size ≥ offsetofResources then desc.scalars else some []

def MgDispatchDesc.presentResources (desc : MgDispatchDesc) :
    Option (List MgDispatchResourceDesc) :=
  if desc.size ≥ sizeofMgDispatchDesc then desc.resources else some []

def gridWithin (grid maximum : Dims) : Bool :=
  grid.x ≤ maximum.x && grid.y ≤ maximum.y && grid.z ≤ maximum.z

/-- What a dispatch descriptor holds once its pointers are read. -/
structure DispatchSource where
  metallibPath : String
  kernelName : String
  buffers : List MgBufferBindingDesc
deriving DecidableEq

def dispatchPointers (desc : MgDispatchDesc) : Except Fault DispatchSource := do
  demand (¬ desc.size < offsetofScalars) (createFault "dispatch descriptor size is invalid")
  match desc.metallibPath, desc.kernelName with
  | some metallibPath, some kernelName =>
    demand (mgDimsValid desc.gridSize = true ∧ mgDimsValid desc.threadsPerThreadgroup = true)
      (createFault "dispatch descriptor is incomplete")
    match desc.buffers with
    | none => .error (createFault "dispatch buffer bindings are required")
    | some buffers => pure ⟨metallibPath, kernelName, buffers⟩
  | _, _ => .error (createFault "dispatch descriptor is incomplete")

def dispatchScalars (desc : MgDispatchDesc) : Except Fault (List MgScalarBinding) :=
  match desc.presentScalars with
  | none => .error (createFault "dispatch scalar bindings are required")
  | some scalars => validateScalars scalars

/-- The checks made after the node is allocated, in order. -/
def dispatchContents (desc : MgDispatchDesc) (source : DispatchSource) :
    Except Fault MgDispatchNode := do
  let buffers ← validateBindings source.buffers
  let scalars ← dispatchScalars desc
  let resources ← mgValidateDispatchResources desc.presentResources buffers
  demand (gridWithin desc.gridSize desc.effectiveMaxGridSize = true)
    (createFault "dispatch grid exceeds declared maximum")
  pure
    { metallibPath := source.metallibPath
      kernelName := source.kernelName
      gridSize := desc.gridSize
      threadsPerThreadgroup := desc.threadsPerThreadgroup
      maxGridSize := desc.effectiveMaxGridSize
      buffers := buffers
      scalars := scalars
      resources := resources.map fun resource =>
        { resource with alignment := effectiveAlignment resource.alignment } }

/-- Copies a binding array and retains its buffers. -/
def copyBindings (stage : MgErrorStage) (buffers : List MgBufferBinding) : Run Unit := do
  whenever (buffers ≠ []) (attemptOr (mgSetOom stage))
  forEach (fun binding => mgBufferRetain binding.buffer) buffers

/-- Copies the scalars, one block each, and then the resources. -/
def copyScalarsAndResources (stage : MgErrorStage) (scalars : List MgScalarBinding)
    (resources : List MgDispatchResourceDesc) : Run Unit := do
  whenever (scalars ≠ []) (attemptOr (mgSetOom stage))
  forEach (fun _ => attemptOr (mgSetOom stage)) scalars
  whenever (resources ≠ []) (attemptOr (mgSetOom stage))

def mgGraphAddDispatchNode (desc : Option MgDispatchDesc) : Over MgGraph NodePtr := do
  let desc ← orFail desc (createFault "graph, desc, and out_node are required")
  let source ← ofExcept (dispatchPointers desc)
  mgGraphAllocNode
  onEnv (attemptBoth (mgSetOom .create))
  let dispatch ← ofExcept (dispatchContents desc source)
  onEnv (copyBindings .create dispatch.buffers)
  onEnv (cleaning (copyScalarsAndResources .create dispatch.scalars dispatch.resources)
    (mgDispatchNodeClear dispatch.buffers))
  mgGraphCommitNode (.dispatch dispatch)

def sizeofMgCopyDesc : UInt64 := 48
def sizeofMgFillDesc : UInt64 := 40
def sizeofMgMpsgraphDesc : UInt64 := 48

/-- The check of a copy descriptor: its pointers and both ranges. -/
def copyContents (rangeValid : UInt64 → UInt64 → UInt64 → Bool) (desc : MgCopyDesc) :
    Option MgCopyNode :=
  match desc.src, desc.dst with
  | some src, some dst =>
    if desc.size < sizeofMgCopyDesc ∨
        rangeValid src.length desc.srcOffset desc.byteCount = false ∨
        rangeValid dst.length desc.dstOffset desc.byteCount = false then none
    else some ⟨src, desc.srcOffset, dst, desc.dstOffset, desc.byteCount⟩
  | _, _ => none

def mgGraphAddCopyNode (desc : Option MgCopyDesc) : Over MgGraph NodePtr := do
  let desc ← orFail desc (createFault "graph, desc, and out_node are required")
  let copy ← orFail (copyContents mgRangeValid desc) (createFault "copy descriptor is invalid")
  mgGraphAllocNode
  onEnv (mgBufferRetain copy.src)
  onEnv (mgBufferRetain copy.dst)
  mgGraphCommitNode (.copy copy)

def fillContents (rangeValid : UInt64 → UInt64 → UInt64 → Bool) (desc : MgFillDesc) :
    Option MgFillNode :=
  match desc.dst with
  | some dst =>
    if desc.size < sizeofMgFillDesc ∨
        rangeValid dst.length desc.dstOffset desc.byteCount = false then none
    else some ⟨dst, desc.dstOffset, desc.byteCount, desc.value⟩
  | none => none

def mgGraphAddFillNode (desc : Option MgFillDesc) : Over MgGraph NodePtr := do
  let desc ← orFail desc (createFault "graph, desc, and out_node are required")
  let fill ← orFail (fillContents mgRangeValid desc) (createFault "fill descriptor is invalid")
  mgGraphAllocNode
  onEnv (mgBufferRetain fill.dst)
  mgGraphCommitNode (.fill fill)

/-- `kind` is one of the two event kinds. -/
def mgGraphAddEventNode (kind : MgEventNode → MgNodeAs) (event : Option MgEvent)
    (value : UInt64) : Over MgGraph NodePtr := do
  let event ← orFail event (createFault "graph, event, and out_node are required")
  mgGraphAllocNode
  onEnv (mgEventRetain event)
  mgGraphCommitNode (kind ⟨event, value⟩)

def mgGraphAddEventWaitNode (event : Option MgEvent) (value : UInt64) : Over MgGraph NodePtr :=
  mgGraphAddEventNode .eventWait event value

def mgGraphAddEventSignalNode (event : Option MgEvent) (value : UInt64) : Over MgGraph NodePtr :=
  mgGraphAddEventNode .eventSignal event value

def mgGraphAddBarrierNode : Over MgGraph NodePtr := do
  mgGraphAllocNode
  mgGraphCommitNode .barrier

/-- What an MPSGraph descriptor holds once its pointers are read. -/
structure MpsgraphSource where
  packagePath : String
  feeds : List MgMpsgraphTensorDesc
  targets : List MgMpsgraphTensorDesc
deriving DecidableEq

def mpsgraphPointers (desc : MgMpsgraphDesc) : Option MpsgraphSource :=
  match desc.packagePath, desc.feeds, desc.targets with
  | some packagePath, some feeds, some targets =>
    if desc.size < sizeofMgMpsgraphDesc ∨ feeds = [] ∨ targets = [] then none
    else some ⟨packagePath, feeds, targets⟩
  | _, _, _ => none

def mgGraphAddMPSGraphNode (desc : Option MgMpsgraphDesc) : Over MgGraph NodePtr := do
  let desc ← orFail desc (createFault "graph, desc, and out_node are required")
  let source ← orFail (mpsgraphPointers desc) (createFault "MPSGraph descriptor is incomplete")
  let feedSources ← ofExcept (validateTensors source.feeds)
  let targetSources ← ofExcept (validateTensors source.targets)
  mgGraphAllocNode
  onEnv (attemptOr (mgSetOom .create))
  let feeds ← onEnv (mgMpsgraphTensorArrayClone feedSources)
  let targets ← onEnv (cleaning (mgMpsgraphTensorArrayClone targetSources)
    (mgMpsgraphNodeClear feeds []))
  mgGraphCommitNode (.mpsgraph ⟨source.packagePath, feeds, targets⟩)

def mgInternalGraphAddWorkspaceNode (desc : Option MgWorkspaceDesc) : Over MgGraph NodePtr := do
  let desc ← ofExcept (mgWorkspaceDescValidate desc .create)
  mgGraphAllocNode
  mgGraphCommitNode (.workspace ⟨desc.byteCount, desc.alignment⟩)

def mgInternalGraphAddWorkspaceFillNode (desc : Option MgWorkspaceDesc) (value : UInt8)
    (dst : Option MgBuffer) (dstOffset : UInt64) : Over MgGraph NodePtr := do
  let dst ← orFail dst (createFault "graph, dst, and out_node are required")
  let desc ← ofExcept (mgWorkspaceDescValidate desc .create)
  require (mgRangeValid dst.length dstOffset desc.byteCount = true)
    (createFault "workspace fill destination range is invalid")
  mgGraphAllocNode
  onEnv (mgBufferRetain dst)
  mgGraphCommitNode (.workspaceFill ⟨desc.byteCount, desc.alignment, value, dst, dstOffset⟩)

def mgGraphAddDependency (before after : Option NodePtr) : Over MgGraph Unit := do
  let graph ← self
  let foreign := createFault "dependency nodes must belong to graph"
  let before ← orFail before foreign
  let after ← orFail after foreign
  require (before.graph = graph.address ∧ after.graph = graph.address) foreign
  require (before ≠ after) (mgSetError .invalidTopology .create before.id
    "self-dependencies are not allowed")
  if graph.edges.any fun edge => edge.before == before.index && edge.after == after.index then
    pure ()
  else
    mgGraphReserveEdges (graph.edges.length + 1)
    modifySelf fun graph => { graph with edges := graph.edges ++ [⟨before.index, after.index⟩] }

end MetalGraph
