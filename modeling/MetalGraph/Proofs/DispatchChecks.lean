import MetalGraph.Proofs.Granting

set_option autoImplicit false

/- The checks of a dispatch descriptor accept every valid node: its own descriptor
passes, and gives the node back. -/
namespace MetalGraph

open Eff

/-! ### Descriptors of stored nodes -/

/-- The full descriptor of a stored dispatch. -/
def MgDispatchNode.desc (dispatch : MgDispatchNode) : MgDispatchDesc where
  size := sizeofMgDispatchDesc
  metallibPath := some dispatch.metallibPath
  kernelName := some dispatch.kernelName
  gridSize := dispatch.gridSize
  threadsPerThreadgroup := dispatch.threadsPerThreadgroup
  buffers := some (dispatch.buffers.map MgBufferBinding.described)
  scalars := some (dispatch.scalars.map MgScalarBinding.described)
  maxGridSize := dispatch.maxGridSize
  resources := some dispatch.resources

/-! ### Loops -/

theorem validateBindings_described {bindings : List MgBufferBinding}
    (offsets : ∀ binding ∈ bindings, binding.offset ≤ binding.buffer.length)
    (distinct : bindings.Pairwise fun first second => first.index ≠ second.index) :
    validateBindings (bindings.map MgBufferBinding.described) = .ok bindings := by
  induction bindings with
  | nil => rfl
  | cons binding rest ih =>
      obtain ⟨fits, others⟩ := List.forall_mem_cons.mp offsets
      obtain ⟨fresh, unlike⟩ := List.pairwise_cons.mp distinct
      have absent : ∀ other ∈ rest.map MgBufferBinding.described,
          binding.described.index ≠ other.index := by
        intro other member
        obtain ⟨stored, listed, rfl⟩ := List.mem_map.mp member
        exact fresh stored listed
      simp only [List.map_cons, MgBufferBinding.described, validateBindings, except_bind_ok,
        demand_ok, except_pure_ok, exists_const]
      exact ⟨UInt64.not_lt.mpr fits, absent, rest, ih others unlike, rfl⟩

theorem validateScalars_described {scalars : List MgScalarBinding}
    (filled : ∀ scalar ∈ scalars, scalar.data ≠ []) :
    validateScalars (scalars.map MgScalarBinding.described) = .ok scalars := by
  induction scalars with
  | nil => rfl
  | cons scalar rest ih =>
      obtain ⟨first, others⟩ := List.forall_mem_cons.mp filled
      simp only [List.map_cons, MgScalarBinding.described, validateScalars, except_bind_ok,
        demand_ok, except_pure_ok, exists_const]
      exact ⟨first, rest, ih others, rfl⟩

theorem mgValidateDispatchResourceDesc_valid {bindings : List MgBufferBinding}
    {resource : MgDispatchResourceDesc}
    (distinct : bindings.Pairwise fun first second => first.index ≠ second.index)
    (valid : ResourceValid bindings resource) :
    mgValidateDispatchResourceDesc resource bindings = .ok () := by
  obtain ⟨binding, bound, same⟩ := valid.bound
  have found : mgDispatchFindBufferBinding bindings resource.index = some binding :=
    same ▸ find_binding_eq distinct bound
  simp only [mgValidateDispatchResourceDesc, except_bind_ok, demand_ok, exists_const, found,
    not_or, Bool.not_eq_false]
  exact ⟨⟨valid.size, valid.access, valid.alignment⟩, valid.aligned binding bound same,
    valid.inside binding bound same⟩

theorem validateResourceList_valid {bindings : List MgBufferBinding}
    {resources : List MgDispatchResourceDesc}
    (bound : bindings.Pairwise fun first second => first.index ≠ second.index)
    (valid : ∀ resource ∈ resources, ResourceValid bindings resource)
    (distinct : resources.Pairwise fun first second => first.index ≠ second.index) :
    validateResourceList bindings resources = .ok () := by
  induction resources with
  | nil => rfl
  | cons resource rest ih =>
      obtain ⟨first, others⟩ := List.forall_mem_cons.mp valid
      obtain ⟨fresh, unlike⟩ := List.pairwise_cons.mp distinct
      simp only [validateResourceList, except_bind_ok, demand_ok, exists_const]
      exact ⟨fresh, (), mgValidateDispatchResourceDesc_valid bound first, ih others unlike⟩

/-! ### Nodes -/

section Nodes

variable {dispatch : MgDispatchNode}

theorem gridWithin_dims {grid maximum : Dims} (valid : mgDimsValid grid = true)
    (within : gridWithin grid maximum = true) : mgDimsValid maximum = true := by
  simp only [mgDimsValid, gridWithin, Bool.and_eq_true, decide_eq_true_eq] at valid within ⊢
  obtain ⟨⟨positiveX, positiveY⟩, positiveZ⟩ := valid
  obtain ⟨⟨belowX, belowY⟩, belowZ⟩ := within
  have axis : ∀ size limit : UInt32, size > 0 → size ≤ limit → limit > 0 :=
    fun _ _ positive below => UInt32.lt_of_lt_of_le positive below
  exact ⟨⟨axis _ _ positiveX belowX, axis _ _ positiveY belowY⟩, axis _ _ positiveZ belowZ⟩

theorem DispatchValid.pointers (valid : DispatchValid dispatch) :
    dispatchPointers dispatch.desc = .ok ⟨dispatch.metallibPath, dispatch.kernelName,
      dispatch.buffers.map MgBufferBinding.described⟩ := by
  have sized : ¬ sizeofMgDispatchDesc < offsetofScalars := by decide
  have dims : mgDimsValid dispatch.gridSize = true ∧
      mgDimsValid dispatch.threadsPerThreadgroup = true := ⟨valid.grid.1, valid.threads⟩
  exact except_bind_ok.mpr ⟨(), demand_ok.mpr sized,
    except_bind_ok.mpr ⟨(), demand_ok.mpr dims, rfl⟩⟩

/-- Stored alignments are already the ones the checks put in. -/
theorem DispatchValid.effective_resources (valid : DispatchValid dispatch) :
    dispatch.resources.map (fun resource =>
      { resource with alignment := effectiveAlignment resource.alignment }) =
      dispatch.resources := by
  refine (List.map_congr_left fun resource member => ?_).trans (List.map_id _)
  have stored : effectiveAlignment resource.alignment = resource.alignment :=
    if_neg (valid.normal resource member)
  rw [stored]
  rfl

/-- A bound that has three axes is the bound that is kept. -/
theorem DispatchValid.effective_maximum (valid : DispatchValid dispatch) (grid : Dims) :
    { dispatch.desc with gridSize := grid }.effectiveMaxGridSize = dispatch.maxGridSize := by
  have full : sizeofMgDispatchDesc ≥ offsetofResources := by decide
  have dims := gridWithin_dims valid.grid.1 valid.grid.2
  unfold MgDispatchDesc.effectiveMaxGridSize
  exact if_pos ⟨full, dims⟩

theorem DispatchValid.contents (valid : DispatchValid dispatch) :
    dispatchContents dispatch.desc ⟨dispatch.metallibPath, dispatch.kernelName,
      dispatch.buffers.map MgBufferBinding.described⟩ = .ok dispatch := by
  have maximum := valid.effective_maximum dispatch.gridSize
  have scalars : dispatchScalars dispatch.desc = .ok dispatch.scalars :=
    validateScalars_described valid.scalars
  have resources : mgValidateDispatchResources dispatch.desc.presentResources dispatch.buffers =
      .ok dispatch.resources := by
    have listed := validateResourceList_valid valid.bindings valid.resources valid.distinct
    change (validateResourceList dispatch.buffers dispatch.resources >>= fun _ =>
      Pure.pure dispatch.resources) = _
    rw [listed]
    rfl
  have within : gridWithin dispatch.desc.gridSize dispatch.desc.effectiveMaxGridSize = true :=
    maximum.symm ▸ valid.grid.2
  simp only [dispatchContents, except_bind_ok, demand_ok, except_pure_ok, exists_const]
  refine ⟨dispatch.buffers, validateBindings_described valid.offsets valid.bindings,
    dispatch.scalars, scalars, dispatch.resources, resources, within, ?_⟩
  rw [valid.effective_resources]
  exact congrArg (fun bound => { dispatch with maxGridSize := bound }) maximum

/-- A valid dispatch can be added again from its own descriptor. -/
theorem DispatchValid.accepted (valid : DispatchValid dispatch) :
    Accepted (mgGraphAddDispatchNode (some dispatch.desc)) (.dispatch dispatch) :=
  mgGraphAddDispatchNode_accepted valid.pointers valid.contents

end Nodes

end MetalGraph
