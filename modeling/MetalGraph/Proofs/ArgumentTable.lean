import MetalGraph.Proofs.ExecInvariant
import MetalGraph.Proofs.NodeLookup

set_option autoImplicit false

/- The argument table a dispatch is encoded into, where buffers and scalars share one
index space, before and after patches. -/
namespace MetalGraph

open Eff

def ArgumentWrite.index : ArgumentWrite → UInt32
  | .setBuffer _ _ index => index
  | .setBytes _ index => index

/-- The writes of a dispatch, as the kernel sees them. -/
def argumentTable (dispatch : MgDispatchNode) : UInt32 → Option ArgumentWrite :=
  tableOf ArgumentWrite.index (dispatchArguments dispatch)

def MgBufferBinding.write (binding : MgBufferBinding) : ArgumentWrite :=
  .setBuffer binding.buffer.impl (mgMetalBufferOffset binding.buffer binding.offset) binding.index

def MgScalarBinding.write (scalar : MgScalarBinding) : ArgumentWrite :=
  .setBytes scalar.data scalar.index

/-- Every binding of a dispatch is what its slot holds. -/
structure NothingShadowed (dispatch : MgDispatchNode) : Prop where
  buffers : ∀ binding ∈ dispatch.buffers,
    argumentTable dispatch binding.index = some binding.write
  scalars : ∀ scalar ∈ dispatch.scalars, argumentTable dispatch scalar.index = some scalar.write

/-- No scalar shares a slot with a buffer, and scalars that share a slot are equal and
cannot be patched apart. -/
structure Unshadowable (dispatch : MgDispatchNode) (flags : MgPatchFlags) : Prop where
  apart : ∀ scalar ∈ dispatch.scalars, ∀ binding ∈ dispatch.buffers,
    scalar.index ≠ binding.index
  agree : ∀ scalar ∈ dispatch.scalars, ∀ other ∈ dispatch.scalars,
    scalar.index = other.index → scalar = other
  single : flags &&& mgPatchDispatchScalar ≠ 0 →
    dispatch.scalars.Pairwise fun first second => first.index ≠ second.index

theorem NothingShadowed.apart {dispatch : MgDispatchNode} (shown : NothingShadowed dispatch) :
    ∀ scalar ∈ dispatch.scalars, ∀ binding ∈ dispatch.buffers,
      scalar.index ≠ binding.index := by
  intro scalar listed binding bound same
  have held := shown.scalars scalar listed
  rw [same, shown.buffers binding bound] at held
  cases held

theorem NothingShadowed.agree {dispatch : MgDispatchNode} (shown : NothingShadowed dispatch) :
    ∀ scalar ∈ dispatch.scalars, ∀ other ∈ dispatch.scalars,
      scalar.index = other.index → scalar = other := by
  intro scalar listed other listed' same
  have held := shown.scalars scalar listed
  rw [same, shown.scalars other listed'] at held
  obtain ⟨data, _⟩ := ArgumentWrite.setBytes.inj (Option.some.inj held)
  obtain ⟨index, bytes⟩ := scalar
  cases same
  cases data
  rfl

/-- What patches of arguments keep of a dispatch. -/
structure KeepsApart (dispatch : MgExecDispatch) : Prop where
  distinct : dispatch.buffers.Pairwise fun first second => first.index ≠ second.index
  unshadowable : Unshadowable dispatch.toMgDispatchNode dispatch.patchFlags

theorem KeepsApart.rebound {dispatch : MgExecDispatch} {index : UInt32}
    {binding : MgBufferBinding} {slot : Nat} (kept : KeepsApart dispatch)
    (found : bindingAt dispatch.buffers index = some (binding, slot)) (buffer : MgBuffer)
    (offset : UInt64) : KeepsApart { dispatch with
      buffers := dispatch.buffers.set slot
        { binding with buffer := buffer, offset := offset } } where
  distinct := rebound_pairwise kept.distinct found buffer offset
  unshadowable :=
    { apart := by
        intro scalar listed other bound
        rcases List.mem_or_eq_of_mem_set bound with old | rfl
        · exact kept.unshadowable.apart scalar listed other old
        · exact kept.unshadowable.apart scalar listed binding
            (List.mem_of_getElem? (bindingAt_eq found).1)
      agree := kept.unshadowable.agree
      single := kept.unshadowable.single }

section Source

variable {address : GraphPtr} {graph : MgGraph} {order : List Nat} {exec : MgGraphExec}
  {src : MgNode} {node : MgDispatchNode}

/-- The dispatch a graph node becomes. -/
def MgDispatchNode.instantiated (node : MgDispatchNode) (src : MgNode) : MgExecDispatch :=
  { node with
    id := src.id
    patchFlags := src.patchFlags
    pipelineImpl := some ⟨node.metallibPath, node.kernelName⟩ }

end Source

end MetalGraph
