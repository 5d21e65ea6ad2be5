import MetalGraph.Proofs.MemoryBounds

set_option autoImplicit false

/- Where the declared resources of a dispatch start in their Metal buffers. -/
namespace MetalGraph

/-- The first byte of a declared resource: the offset an encoder binds, plus its own. -/
def shaderVisibleStart (binding : MgBufferBinding) (resource : MgDispatchResourceDesc) : Nat :=
  (mgMetalBufferOffset binding.buffer binding.offset).toNat + resource.byteOffset.toNat

/-- The declared alignment holds in the Metal buffer. -/
def AlignedStart (binding : MgBufferBinding) (resource : MgDispatchResourceDesc) : Prop :=
  (effectiveAlignment resource.alignment).toNat ∣ shaderVisibleStart binding resource

theorem mgDispatchResourceOffsetAligned_dvd {resource : MgDispatchResourceDesc} {offset : UInt64}
    (aligned : mgDispatchResourceOffsetAligned (some resource) offset = true) :
    (effectiveAlignment resource.alignment).toNat ∣
      offset.toNat + resource.byteOffset.toNat := by
  simp only [mgDispatchResourceOffsetAligned] at aligned
  split at aligned
  · cases aligned
  · rename_i bounded
    have exact := toNat_add_of_not_gt bounded
    rw [UInt64.add_comm, Nat.add_comm] at exact
    have zero := congrArg UInt64.toNat (of_decide_eq_true aligned)
    rw [UInt64.toNat_mod, exact, UInt64.toNat_zero] at zero
    exact Nat.dvd_of_mod_eq_zero zero

/-- The checks align the offset inside the window, so the base offset decides. -/
theorem DispatchValid.alignedStart_iff {dispatch : MgDispatchNode} (valid : DispatchValid dispatch)
    {binding : MgBufferBinding} (bound : binding ∈ dispatch.buffers)
    {resource : MgDispatchResourceDesc} (declared : resource ∈ dispatch.resources)
    (named : resource.index = binding.index) :
    AlignedStart binding resource ↔
      (effectiveAlignment resource.alignment).toNat ∣ binding.buffer.byteOffset.toNat := by
  have relative := mgDispatchResourceOffsetAligned_dvd
    ((valid.resources resource declared).aligned binding bound named.symm)
  unfold AlignedStart shaderVisibleStart
  rw [(valid.bounds.bindings binding bound).exact, Nat.add_assoc]
  exact Nat.dvd_add_iff_left relative |>.symm

/-- In every reachable plan, a declared resource is aligned in the Metal buffer exactly
when the base offset of the bound buffer has the declared alignment. -/
theorem dispatch_start_aligned_iff {system : System} {address : ExecPtr} {exec : MgGraphExec}
    {dispatch : MgExecDispatch} {binding : MgBufferBinding} {resource : MgDispatchResourceDesc}
    (reachable : Reachable system) (live : system.world.execs.get? address = some exec)
    (member : .dispatch dispatch ∈ exec.nodes) (bound : binding ∈ dispatch.buffers)
    (declared : resource ∈ dispatch.resources) (named : resource.index = binding.index) :
    AlignedStart binding resource ↔
      (effectiveAlignment resource.alignment).toNat ∣ binding.buffer.byteOffset.toNat := by
  have valid : DispatchValid dispatch.toMgDispatchNode := (reachable.execWf live).nodes _ member
  exact valid.alignedStart_iff bound declared named

/-! A dispatch over words of a buffer that is wrapped from its second byte on. -/

def wrappedDesc : MgMetalBufferWrapDesc where
  size := 72
  buffer := some ⟨9, 7, 16, true⟩
  byteOffset := 1
  byteLength := 8
  access := .read
  flags := wrapRetainBuffer
  ownerContext := none
  ownerRetain := false
  ownerRelease := false

def wrappedBuffer : MgBuffer where
  address := 0
  impl := ⟨9, 7, 16, true⟩
  deviceImpl := some 7
  length := 8
  byteOffset := 1
  originKind := .externalMetal
  isZeroCopy := true
  isExternal := true
  isHostVisible := false
  isMutable := false
  sourceFramework := "Metal"
  window := by decide

def wordResource : MgDispatchResourceDesc := ⟨40, 0, .read, 0, 4, 4⟩

def wordDispatch : NodeAddition := .dispatch (some
  { size := 104
    metallibPath := some "library"
    kernelName := some "kernel"
    gridSize := ⟨1, 1, 1⟩
    threadsPerThreadgroup := ⟨1, 1, 1⟩
    buffers := some [⟨0, some wrappedBuffer, 0⟩]
    scalars := some []
    maxGridSize := ⟨1, 1, 1⟩
    resources := some [wordResource] })

def misalignedCalls : List Call :=
  [.counted (.metalBufferWrap (some ⟨some 7⟩) (some wrappedDesc)), .graphCreate,
    .graphEdit (some 0) (.addNode wordDispatch),
    .graphInstantiate (some 0) (some ⟨some 7⟩)]

def misalignedDispatch : MgExecDispatch where
  metallibPath := "library"
  kernelName := "kernel"
  gridSize := ⟨1, 1, 1⟩
  threadsPerThreadgroup := ⟨1, 1, 1⟩
  maxGridSize := ⟨1, 1, 1⟩
  buffers := [⟨0, wrappedBuffer, 0⟩]
  scalars := []
  resources := [wordResource]
  id := 1
  patchFlags := 0
  pipelineImpl := some ⟨"library", "kernel"⟩

theorem misaligned_reachable : Reachable (grantAll.run misalignedCalls) :=
  (Reachable.start _ _ _).run (by decide +kernel)

theorem misaligned_instantiated : ((grantAll.run misalignedCalls).world.execs.get? 0).map
    MgGraphExec.nodes = some [.dispatch misalignedDispatch] := by decide +kernel

theorem dispatch_start_aligned_of_misaligned :
    AlignedStart ⟨0, wrappedBuffer, 0⟩ wordResource ↔ 4 ∣ 1 := by
  obtain ⟨exec, live, nodes⟩ := Option.map_eq_some_iff.mp misaligned_instantiated
  exact dispatch_start_aligned_iff misaligned_reachable live
    (nodes ▸ List.mem_singleton_self (MgExecNode.dispatch misalignedDispatch))
    (List.mem_singleton_self _) (List.mem_singleton_self _) rfl

/-- A wrapped buffer may start between words although every check passed. -/
theorem dispatch_start_not_aligned :
    ¬ ∀ system address exec, Reachable system → system.world.execs.get? address = some exec →
      ∀ dispatch, .dispatch dispatch ∈ exec.nodes → ∀ binding ∈ dispatch.buffers,
        ∀ resource ∈ dispatch.resources, resource.index = binding.index →
          AlignedStart binding resource := by
  intro aligned
  obtain ⟨exec, live, nodes⟩ := Option.map_eq_some_iff.mp misaligned_instantiated
  have divides : 4 ∣ 1 := aligned _ 0 exec misaligned_reachable live misalignedDispatch
    (nodes ▸ List.mem_singleton_self _) ⟨0, wrappedBuffer, 0⟩ (List.mem_singleton_self _)
    wordResource (List.mem_singleton_self _) rfl
  revert divides
  decide

end MetalGraph
