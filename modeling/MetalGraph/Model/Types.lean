import Mathlib.Data.List.Basic
import MetalGraph.Base.Words

set_option autoImplicit false

/- The data of the runtime. Pointers to buffers, events and arenas carry the
fields that never change after creation; reference counts live in the heap. A
counted C array argument is `none` when its pointer is null and its count is not. -/
namespace MetalGraph

inductive MgStatus where
  | ok | invalidArgument | invalidTopology | unsupported | outOfMemory | backendError
  | internalError
deriving DecidableEq, Repr

inductive MgErrorStage where
  | none | create | validate | instantiate | encode | commit | complete | sync | planMemory
  | backendAllocate | patch
deriving DecidableEq, Repr

abbrev MgNodeId := UInt64

def mgNodeIdInvalid : MgNodeId := 0xFFFFFFFFFFFFFFFF

structure MgError where
  status : MgStatus
  stage : MgErrorStage
  nodeId : MgNodeId
  message : String
deriving DecidableEq, Repr

/-- `undefined` is a use of a freed handle or a read outside an array. -/
inductive Fault where
  | error (error : MgError)
  | undefined
deriving DecidableEq, Repr

def mgSetError (status : MgStatus) (stage : MgErrorStage) (nodeId : MgNodeId)
    (message : String) : Fault :=
  .error ⟨status, stage, nodeId, message⟩

def mgSetOom (stage : MgErrorStage) : Fault :=
  mgSetError .outOfMemory stage mgNodeIdInvalid "out of memory"

/-- The status code of an answer; a use of a freed handle has none. -/
def statusOf {α : Type} : Except Fault α → Option MgStatus
  | .ok _ => some .ok
  | .error (.error error) => some error.status
  | .error .undefined => none

abbrev MgPatchFlags := UInt64

def mgPatchDispatchGrid : MgPatchFlags := (1 : UInt64) <<< 0
def mgPatchDispatchBuffer : MgPatchFlags := (1 : UInt64) <<< 1
def mgPatchDispatchScalar : MgPatchFlags := (1 : UInt64) <<< 2
def mgPatchCopyBuffer : MgPatchFlags := (1 : UInt64) <<< 3
def mgPatchCopyRange : MgPatchFlags := (1 : UInt64) <<< 4
def mgPatchFillBuffer : MgPatchFlags := (1 : UInt64) <<< 5
def mgPatchFillRange : MgPatchFlags := (1 : UInt64) <<< 6
def mgPatchFillValue : MgPatchFlags := (1 : UInt64) <<< 7
def mgPatchEventValue : MgPatchFlags := (1 : UInt64) <<< 8

abbrev MgOptimizationFlags := UInt64

def mgOptimizationIcb : MgOptimizationFlags := (1 : UInt64) <<< 0

structure Dims where
  x : UInt32
  y : UInt32
  z : UInt32
deriving DecidableEq, Repr

/-! ### Shared objects -/

/-- A Metal buffer as the library sees it. -/
structure MetalBuffer where
  id : Nat
  device : Nat
  length : UInt64
  hasContents : Bool
deriving DecidableEq, Repr

inductive MgBufferOriginKind where
  | libraryOwned | externalMetal | adapterCopy | adapterZeroCopy
deriving DecidableEq, Repr

/-- A buffer handle. The exposed range lies inside the Metal buffer. -/
structure MgBuffer where
  address : Nat
  impl : MetalBuffer
  deviceImpl : Option Nat
  length : UInt64
  byteOffset : UInt64
  originKind : MgBufferOriginKind
  isZeroCopy : Bool
  isExternal : Bool
  isHostVisible : Bool
  isMutable : Bool
  sourceFramework : String
  window : byteOffset.toNat + length.toNat ≤ impl.length.toNat
deriving DecidableEq

structure MgEvent where
  address : Nat
  impl : Nat
deriving DecidableEq, Repr

structure MgArena where
  address : Nat
  size : UInt64
  alignment : UInt64
deriving DecidableEq, Repr

structure MgDevice where
  impl : Option Nat
deriving DecidableEq, Repr

structure MgStream where
  impl : Option Nat
deriving DecidableEq, Repr

/-! ### Descriptors -/

inductive MgResourceAccess where
  | unknown | read | write | readWrite
  | other (value : Nat)
deriving DecidableEq, Repr

structure MgDispatchResourceDesc where
  size : UInt64
  index : UInt32
  access : MgResourceAccess
  byteOffset : UInt64
  byteCount : UInt64
  alignment : UInt64
deriving DecidableEq, Repr

structure MgBufferBindingDesc where
  index : UInt32
  buffer : Option MgBuffer
  offset : UInt64
deriving DecidableEq

structure MgScalarBindingDesc where
  index : UInt32
  data : Option (List UInt8)
deriving DecidableEq, Repr

structure MgDispatchDesc where
  size : UInt64
  metallibPath : Option String
  kernelName : Option String
  gridSize : Dims
  threadsPerThreadgroup : Dims
  buffers : Option (List MgBufferBindingDesc)
  scalars : Option (List MgScalarBindingDesc)
  maxGridSize : Dims
  resources : Option (List MgDispatchResourceDesc)
deriving DecidableEq

structure MgCopyDesc where
  size : UInt64
  src : Option MgBuffer
  srcOffset : UInt64
  dst : Option MgBuffer
  dstOffset : UInt64
  byteCount : UInt64
deriving DecidableEq

structure MgFillDesc where
  size : UInt64
  dst : Option MgBuffer
  dstOffset : UInt64
  byteCount : UInt64
  value : UInt8
deriving DecidableEq

inductive MgTensorDataType where
  | float32
  | other (value : Nat)
deriving DecidableEq, Repr

inductive MgTensorLayout where
  | contiguous
  | other (value : Nat)
deriving DecidableEq, Repr

/-- `shape` is `none` for a null pointer; otherwise its length is the rank. -/
structure MgMpsgraphTensorDesc where
  size : UInt64
  buffer : Option MgBuffer
  byteOffset : UInt64
  byteCount : UInt64
  dataType : MgTensorDataType
  layout : MgTensorLayout
  shape : Option (List UInt64)
deriving DecidableEq

structure MgMpsgraphDesc where
  size : UInt64
  packagePath : Option String
  feeds : Option (List MgMpsgraphTensorDesc)
  targets : Option (List MgMpsgraphTensorDesc)
deriving DecidableEq

structure MgArenaDesc where
  size : UInt64
  byteCount : UInt64
  alignment : UInt64
deriving DecidableEq, Repr

structure MgWorkspaceDesc where
  size : UInt64
  byteCount : UInt64
  alignment : UInt64
deriving DecidableEq, Repr

/-! ### Graphs -/

abbrev GraphPtr := Nat
abbrev ExecPtr := Nat
abbrev LaunchPtr := Nat

/-- A node pointer, with the fields the node keeps for its lifetime. -/
structure NodePtr where
  graph : GraphPtr
  index : Nat
  id : MgNodeId
deriving DecidableEq, Repr

structure MgBufferBinding where
  index : UInt32
  buffer : MgBuffer
  offset : UInt64
deriving DecidableEq

structure MgScalarBinding where
  index : UInt32
  data : List UInt8
deriving DecidableEq, Repr

structure MgDispatchNode where
  metallibPath : String
  kernelName : String
  gridSize : Dims
  threadsPerThreadgroup : Dims
  maxGridSize : Dims
  buffers : List MgBufferBinding
  scalars : List MgScalarBinding
  resources : List MgDispatchResourceDesc
deriving DecidableEq

structure MgCopyNode where
  src : MgBuffer
  srcOffset : UInt64
  dst : MgBuffer
  dstOffset : UInt64
  byteCount : UInt64
deriving DecidableEq

structure MgFillNode where
  dst : MgBuffer
  dstOffset : UInt64
  byteCount : UInt64
  value : UInt8
deriving DecidableEq

structure MgEventNode where
  event : MgEvent
  value : UInt64
deriving DecidableEq, Repr

structure MgMpsgraphTensor where
  buffer : MgBuffer
  byteOffset : UInt64
  byteCount : UInt64
  dataType : MgTensorDataType
  layout : MgTensorLayout
  shape : List UInt64
deriving DecidableEq

structure MgMpsgraphNode where
  packagePath : String
  feeds : List MgMpsgraphTensor
  targets : List MgMpsgraphTensor
deriving DecidableEq

structure MgWorkspaceNode where
  size : UInt64
  alignment : UInt64
deriving DecidableEq, Repr

structure MgWorkspaceFillNode where
  size : UInt64
  alignment : UInt64
  value : UInt8
  dst : MgBuffer
  dstOffset : UInt64
deriving DecidableEq

inductive MgNodeKind where
  | dispatch | copy | fill | eventWait | eventSignal | barrier | mpsgraph
  | internalWorkspace | internalWorkspaceFill
  | unknown (value : Nat)
deriving DecidableEq, Repr

/-- The tagged union of a node. `unknown` holds any tag no enumerator names. -/
inductive MgNodeAs where
  | dispatch (node : MgDispatchNode)
  | copy (node : MgCopyNode)
  | fill (node : MgFillNode)
  | eventWait (node : MgEventNode)
  | eventSignal (node : MgEventNode)
  | barrier
  | mpsgraph (node : MgMpsgraphNode)
  | workspace (node : MgWorkspaceNode)
  | workspaceFill (node : MgWorkspaceFillNode)
  | unknown (kind : Nat)
deriving DecidableEq

structure MgNode where
  graph : GraphPtr
  id : MgNodeId
  index : Nat
  patchFlags : MgPatchFlags
  as : MgNodeAs
deriving DecidableEq

def MgNode.kind (node : MgNode) : MgNodeKind :=
  match node.as with
  | .dispatch _ => .dispatch
  | .copy _ => .copy
  | .fill _ => .fill
  | .eventWait _ => .eventWait
  | .eventSignal _ => .eventSignal
  | .barrier => .barrier
  | .mpsgraph _ => .mpsgraph
  | .workspace _ => .internalWorkspace
  | .workspaceFill _ => .internalWorkspaceFill
  | .unknown kind => .unknown kind

structure MgEdge where
  before : Nat
  after : Nat
deriving DecidableEq, Repr

structure MgGraph where
  address : GraphPtr
  nodes : List MgNode
  nodeCapacity : Nat
  edges : List MgEdge
  edgeCapacity : Nat
  arena : Option MgArena
deriving DecidableEq

/-! ### Executable plans -/

/-- What a compute pipeline was built from. -/
structure Pipeline where
  metallibPath : String
  kernelName : String
deriving DecidableEq, Repr

structure MgExecDispatch extends MgDispatchNode where
  id : MgNodeId
  patchFlags : MgPatchFlags
  pipelineImpl : Option Pipeline
deriving DecidableEq

structure MgExecCopy extends MgCopyNode where
  id : MgNodeId
  patchFlags : MgPatchFlags
deriving DecidableEq

structure MgExecFill extends MgFillNode where
  id : MgNodeId
  patchFlags : MgPatchFlags
deriving DecidableEq

structure MgExecEvent extends MgEventNode where
  id : MgNodeId
  patchFlags : MgPatchFlags
deriving DecidableEq

/-- `executableImpl` is the executable, named by the package it was loaded from. -/
structure MgExecMpsgraph extends MgMpsgraphNode where
  id : MgNodeId
  executableImpl : Option String
deriving DecidableEq

structure MgExecWorkspace extends MgWorkspaceNode where
  id : MgNodeId
  offset : UInt64
deriving DecidableEq

structure MgExecWorkspaceFill extends MgWorkspaceFillNode where
  id : MgNodeId
  offset : UInt64
deriving DecidableEq

inductive MgExecNode where
  | dispatch (node : MgExecDispatch)
  | copy (node : MgExecCopy)
  | fill (node : MgExecFill)
  | eventWait (node : MgExecEvent)
  | eventSignal (node : MgExecEvent)
  | mpsgraph (node : MgExecMpsgraph)
  | barrier (id : MgNodeId)
  | workspace (node : MgExecWorkspace)
  | workspaceFill (node : MgExecWorkspaceFill)
  | unknown (kind : Nat)
deriving DecidableEq

structure MgWorkspaceRecord where
  nodeId : MgNodeId
  size : UInt64
  alignment : UInt64
  offset : UInt64
deriving DecidableEq, Repr

structure MgWorkspacePlan where
  records : List MgWorkspaceRecord
  totalSize : UInt64
  alignment : UInt64
  arena : Option MgArena
  backendImpl : Option MetalBuffer
deriving DecidableEq

def MgWorkspacePlan.zero : MgWorkspacePlan := ⟨[], 0, 0, none, none⟩

inductive MgIcbFallbackReason where
  | none | disabled | unsupported | ineligibleNode | unknownResourceAccess | patchableField
  | backendError
deriving DecidableEq, Repr

/-- One recorded indirect compute command. -/
structure IcbCommand where
  pipeline : Option Pipeline
  kernelBuffers : List (MetalBuffer × UInt64 × UInt32)
  grid : Dims
  threadsPerThreadgroup : Dims
deriving DecidableEq

structure IndirectCommandBuffer where
  maxKernelBufferBindCount : Nat
  commands : List IcbCommand
deriving DecidableEq

structure MgIcbPlan where
  enabledFlags : MgOptimizationFlags
  available : Bool
  groupsPlanned : UInt32
  groupsUsed : UInt32
  groupsFallback : UInt32
  lastFallbackReason : MgIcbFallbackReason
  backendImpl : Option IndirectCommandBuffer
  commandCount : Nat
deriving DecidableEq

def MgIcbPlan.zero : MgIcbPlan := ⟨0, false, 0, 0, 0, .none, none, 0⟩

structure MgGraphExec where
  nodes : List MgExecNode
  deviceImpl : Option Nat
  workspace : MgWorkspacePlan
  icb : MgIcbPlan
  inFlightCount : UInt32
deriving DecidableEq

/-- `impls` are the retained command buffers. The two slot counts are the sizes
the retained arrays were allocated with. -/
structure MgLaunch where
  impls : List Nat
  implCapacity : Nat
  exec : Option ExecPtr
  completed : Bool
  retainedBufferSlots : Nat
  retainedBuffers : List MgBuffer
  retainedEventSlots : Nat
  retainedEvents : List MgEvent
  retainedWorkspaceImpl : Option MetalBuffer
deriving DecidableEq

def MgLaunch.zero : MgLaunch := ⟨[], 0, none, false, 0, [], 0, [], none⟩

end MetalGraph
