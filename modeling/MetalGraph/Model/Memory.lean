import Mathlib.Data.Set.Basic
import MetalGraph.Base.Commutation
import MetalGraph.Model.Launch

set_option autoImplicit false

/- What commands do to the bytes of Metal buffers and to event values, and what the
nodes of a graph mean. Kernels and MPSGraph packages are programs of the client. -/
namespace MetalGraph

/-- A place that commands act on. -/
inductive Location where
  | byte (buffer offset : Nat)
  | event (impl : Nat)
deriving DecidableEq

abbrev Location.Value : Location → Type
  | byte _ _ => UInt8
  | event _ => UInt64

abbrev Memory := ∀ location : Location, location.Value

/-- New buffers and events read as zero. -/
def blankMemory : Memory
  | .byte _ _ => (0 : UInt8)
  | .event _ => (0 : UInt64)

/-- The client's programs: what a dispatch of a kernel and a run of a package do. -/
structure Programs where
  kernel : Option Pipeline → List ArgumentWrite → Dims → Dims → Memory → Memory
  package : Option String → List TensorData → List TensorData → Memory → Memory

/-- The bytes of a range of a Metal buffer. -/
def MetalBuffer.range (buffer : MetalBuffer) (offset size : Nat) : Set Location :=
  {location | ∃ position, location = .byte buffer.id position ∧
    offset ≤ position ∧ position < offset + size}

def MetalBuffer.bytes (buffer : MetalBuffer) : Set Location :=
  {location | ∃ position, location = .byte buffer.id position}

/-- Stores a byte at each position of a range. -/
def storeRange (buffer : Nat) (offset size : Nat) (value : Nat → UInt8) (memory : Memory) : Memory
  | .byte target position =>
    if target = buffer ∧ offset ≤ position ∧ position < offset + size then
      value (position - offset)
    else memory (.byte target position)
  | .event impl => memory (.event impl)

def copyRange (src : MetalBuffer) (srcOffset : Nat) (dst : MetalBuffer) (dstOffset size : Nat)
    (memory : Memory) : Memory :=
  storeRange dst.id dstOffset size (fun index => memory (.byte src.id (srcOffset + index))) memory

def fillRange (dst : MetalBuffer) (offset size : Nat) (value : UInt8) (memory : Memory) : Memory :=
  storeRange dst.id offset size (fun _ => value) memory

def signal (event : Nat) (value : UInt64) (memory : Memory) : Memory
  | .byte buffer position => memory (.byte buffer position)
  | .event impl => if impl = event then value else memory (.event impl)

def Programs.icbCommand (programs : Programs) (recorded : IcbCommand) : Memory → Memory :=
  programs.kernel recorded.pipeline
    (recorded.kernelBuffers.map fun entry => .setBuffer entry.1 entry.2.1 entry.2.2)
    recorded.grid recorded.threadsPerThreadgroup

/-- What a command does once it runs. A wait that has ended changes nothing, and a nil
buffer makes a command do nothing. -/
def Programs.command (programs : Programs) : Command → Memory → Memory
  | .compute pipeline arguments grid threads => programs.kernel pipeline arguments grid threads
  | .copy (some src) srcOffset (some dst) dstOffset size =>
    copyRange src srcOffset.toNat dst dstOffset.toNat size.toNat
  | .copy none _ _ _ _ | .copy _ _ none _ _ => id
  | .fill (some buffer) offset size value => fillRange buffer offset.toNat size.toNat value
  | .fill none _ _ _ => id
  | .waitForEvent _ _ => id
  | .signalEvent event value => signal event value
  | .mpsgraph executable inputs results => programs.package executable inputs results
  | .executeCommands icb count => fun memory =>
    (icb.commands.take count).foldl (fun memory recorded => programs.icbCommand recorded memory)
      memory

/-- Runs commands one after another, as a queue does. -/
def Programs.run (programs : Programs) (commands : List Command) (memory : Memory) : Memory :=
  commands.foldl (fun memory command => programs.command command memory) memory

/-! ### What a node means -/

/-- The fill behind a workspace-fill node, without the workspace that it goes through. -/
def MgWorkspaceFillNode.meaning (fill : MgWorkspaceFillNode) : Memory → Memory :=
  fillRange fill.dst.impl (fill.dst.byteOffset.toNat + fill.dstOffset.toNat) fill.size.toNat
    fill.value

/-- What a node of a graph stands for, in the terms of its descriptor. -/
def Programs.node (programs : Programs) : MgNodeAs → Memory → Memory
  | .dispatch node =>
    programs.kernel (some ⟨node.metallibPath, node.kernelName⟩) (dispatchArguments node)
      node.gridSize node.threadsPerThreadgroup
  | .copy node =>
    copyRange node.src.impl (node.src.byteOffset.toNat + node.srcOffset.toNat) node.dst.impl
      (node.dst.byteOffset.toNat + node.dstOffset.toNat) node.byteCount.toNat
  | .fill node =>
    fillRange node.dst.impl (node.dst.byteOffset.toNat + node.dstOffset.toNat)
      node.byteCount.toNat node.value
  | .eventSignal node => signal node.event.impl node.value
  | .mpsgraph node =>
    programs.package (some node.packagePath) (node.feeds.map mgMpsgraphTensorData)
      (node.targets.map mgMpsgraphTensorData)
  | .workspaceFill node => node.meaning
  | .eventWait _ | .barrier | .workspace _ | .unknown _ => id

/-- Nodes performed one after the other. -/
def Programs.perform (programs : Programs) (nodes : List MgNodeAs) (memory : Memory) : Memory :=
  nodes.foldl (fun memory node => programs.node node memory) memory

/-- The part of a buffer that a kernel may touch through a binding: the declared range,
or all of it where none is declared. -/
def MgDispatchNode.boundRange (dispatch : MgDispatchNode) (binding : MgBufferBinding) :
    Set Location :=
  match dispatch.resourceFor binding.index with
  | some resource =>
    if resource.byteCount = 0 then binding.buffer.impl.bytes
    else binding.buffer.impl.range
      (binding.buffer.byteOffset.toNat + binding.offset.toNat + resource.byteOffset.toNat)
      resource.byteCount.toNat
  | none => binding.buffer.impl.bytes

/-- Whether the declared access of a binding leaves its buffer as it is. -/
def MgDispatchNode.onlyReads (dispatch : MgDispatchNode) (binding : MgBufferBinding) : Bool :=
  (dispatch.resourceFor binding.index).elim false fun resource => resource.access == .read

def MgMpsgraphTensor.bytes (tensor : MgMpsgraphTensor) : Set Location :=
  tensor.buffer.impl.range 0 tensor.byteCount.toNat

/-- What a node reads and writes. -/
def MgNodeAs.footprint : MgNodeAs → Footprint Location
  | .dispatch node =>
    { reads := {location | ∃ binding ∈ node.buffers, location ∈ node.boundRange binding}
      writes := {location | ∃ binding ∈ node.buffers, node.onlyReads binding = false ∧
        location ∈ node.boundRange binding} }
  | .copy node =>
    { reads := node.src.impl.range (node.src.byteOffset.toNat + node.srcOffset.toNat)
        node.byteCount.toNat
      writes := node.dst.impl.range (node.dst.byteOffset.toNat + node.dstOffset.toNat)
        node.byteCount.toNat }
  | .fill node =>
    ⟨∅, node.dst.impl.range (node.dst.byteOffset.toNat + node.dstOffset.toNat)
      node.byteCount.toNat⟩
  | .eventWait node => ⟨{.event node.event.impl}, ∅⟩
  | .eventSignal node => ⟨∅, {.event node.event.impl}⟩
  | .mpsgraph node =>
    { reads := {location | ∃ tensor ∈ node.feeds, location ∈ tensor.bytes}
      writes := {location | ∃ tensor ∈ node.targets, location ∈ tensor.bytes} }
  | .workspaceFill node =>
    ⟨∅, node.dst.impl.range (node.dst.byteOffset.toNat + node.dstOffset.toNat) node.size.toNat⟩
  | .barrier | .workspace _ | .unknown _ => .none

/-- The client's programs keep to what their nodes declare. -/
def Programs.Honest (programs : Programs) (as : MgNodeAs) : Prop :=
  match as with
  | .dispatch _ | .mpsgraph _ => Confined (programs.node as) as.footprint
  | _ => True

end MetalGraph
