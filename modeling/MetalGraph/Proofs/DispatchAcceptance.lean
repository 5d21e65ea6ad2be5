import Mathlib.Data.Set.List
import MetalGraph.Proofs.DispatchChecks
import MetalGraph.Proofs.DispatchInvariant

set_option autoImplicit false

/- The dispatch descriptors that a graph accepts, stated over unbounded integers and without
the order in which the checks are made. -/
namespace MetalGraph

open Eff

/-! ### Acceptable descriptors -/

def Dims.Positive (dims : Dims) : Prop := dims.x ≠ 0 ∧ dims.y ≠ 0 ∧ dims.z ≠ 0

instance (dims : Dims) : Decidable dims.Positive := inferInstanceAs (Decidable (_ ∧ _ ∧ _))

def Dims.Within (dims maximum : Dims) : Prop :=
  dims.x ≤ maximum.x ∧ dims.y ≤ maximum.y ∧ dims.z ≤ maximum.z

/-- The declared maximum counts only if it has three axes. -/
def MgDispatchDesc.maximum (desc : MgDispatchDesc) : Dims :=
  if desc.maxGridSize.Positive then desc.maxGridSize else desc.gridSize

/-- The declared range begins at a multiple of its alignment and ends inside the buffer. -/
structure RangeAcceptable (offset length : UInt64) (resource : MgDispatchResourceDesc) : Prop where
  start : offset.toNat + resource.byteOffset.toNat < 2 ^ 64
  aligned : resource.alignment ≠ 0 →
    resource.alignment.toNat ∣ offset.toNat + resource.byteOffset.toNat
  inside : offset.toNat + resource.byteOffset.toNat + resource.byteCount.toNat ≤ length.toNat

structure ResourceAcceptable (bindings : List MgBufferBindingDesc)
    (resource : MgDispatchResourceDesc) : Prop where
  size : sizeofMgDispatchResourceDesc ≤ resource.size
  access : resource.access = .unknown ∨ resource.access = .read ∨ resource.access = .write ∨
    resource.access = .readWrite
  alignment : resource.alignment = 0 ∨ ∃ exponent, resource.alignment.toNat = 2 ^ exponent
  bound : ∃ binding ∈ bindings, ∃ buffer, binding.index = resource.index ∧
    binding.buffer = some buffer ∧ RangeAcceptable binding.offset buffer.length resource

/-- What a full descriptor with these lists has to satisfy. -/
structure DispatchAcceptable (desc : MgDispatchDesc) (bindings : List MgBufferBindingDesc)
    (scalars : List MgScalarBindingDesc) (resources : List MgDispatchResourceDesc) : Prop where
  metallibPath : ∃ metallibPath, desc.metallibPath = some metallibPath
  kernelName : ∃ kernelName, desc.kernelName = some kernelName
  grid : desc.gridSize.Positive
  threads : desc.threadsPerThreadgroup.Positive
  bindingsGiven : desc.buffers = some bindings
  bindingsBound : ∀ binding ∈ bindings, ∃ buffer, binding.buffer = some buffer ∧
    binding.offset.toNat ≤ buffer.length.toNat
  bindingsDistinct : bindings.Pairwise fun first second => first.index ≠ second.index
  scalarsGiven : desc.scalars = some scalars
  scalarsFilled : ∀ scalar ∈ scalars, ∃ data, scalar.data = some data ∧ data ≠ []
  resourcesGiven : desc.resources = some resources
  resourcesAcceptable : ∀ resource ∈ resources, ResourceAcceptable bindings resource
  resourcesDistinct : resources.Pairwise fun first second => first.index ≠ second.index
  maximum : desc.gridSize.Within desc.maximum

/-- The node is the descriptor with its defaults filled in. -/
structure StoredFrom (desc : MgDispatchDesc) (dispatch : MgDispatchNode) : Prop where
  metallibPath : desc.metallibPath = some dispatch.metallibPath
  kernelName : desc.kernelName = some dispatch.kernelName
  grid : dispatch.gridSize = desc.gridSize
  threads : dispatch.threadsPerThreadgroup = desc.threadsPerThreadgroup
  maximum : dispatch.maxGridSize = desc.maximum
  buffers : desc.buffers = some (dispatch.buffers.map MgBufferBinding.described)
  scalars : desc.scalars = some (dispatch.scalars.map MgScalarBinding.described)
  resources : ∃ resources, desc.resources = some resources ∧
    dispatch.resources = resources.map fun resource =>
      { resource with alignment := if resource.alignment = 0 then 1 else resource.alignment }

/-! ### Single checks -/

section Checks

theorem mgDimsValid_iff {dims : Dims} : mgDimsValid dims = true ↔ dims.Positive := by
  simp only [mgDimsValid, Dims.Positive, Bool.and_eq_true, decide_eq_true_eq, gt_iff_lt,
    UInt32.pos_iff_ne_zero, and_assoc]

theorem gridWithin_iff {grid maximum : Dims} :
    gridWithin grid maximum = true ↔ grid.Within maximum := by
  simp only [gridWithin, Dims.Within, Bool.and_eq_true, decide_eq_true_eq, and_assoc]

theorem mgResourceAccessValid_iff {access : MgResourceAccess} :
    mgResourceAccessValid access = true ↔
      access = .unknown ∨ access = .read ∨ access = .write ∨ access = .readWrite := by
  cases access <;> simp [mgResourceAccessValid]

theorem effectiveAlignment_valid_iff {alignment : UInt64} :
    mgAlignmentValid (effectiveAlignment alignment) = true ↔
      alignment = 0 ∨ ∃ exponent, alignment.toNat = 2 ^ exponent := by
  rw [mgAlignmentValid_iff, effectiveAlignment]
  by_cases zero : alignment = 0
  · simp only [zero, ↓reduceIte, true_or, iff_true]
    exact Nat.isPowerOfTwo_one
  · simp only [zero, ↓reduceIte, false_or]
    rfl

theorem effectiveAlignment_dvd_iff {alignment : UInt64} {offset : Nat} :
    (effectiveAlignment alignment).toNat ∣ offset ↔
      (alignment ≠ 0 → alignment.toNat ∣ offset) := by
  unfold effectiveAlignment
  by_cases zero : alignment = 0
  · simp [zero]
  · simp [zero]

/-- The guard against wrapping, the remainder and the range check say what they should. -/
theorem rangeAcceptable_iff {resource : MgDispatchResourceDesc} {offset length : UInt64} :
    mgDispatchResourceOffsetAligned (some resource) offset = true ∧
      mgDispatchResourceRangeValid (some resource) length offset = true ↔
    RangeAcceptable offset length resource := by
  by_cases wraps : resource.byteOffset > sizeMax - offset
  · have beyond := not_gt_sizeMax_sub_iff.not.mp (not_not.mpr wraps)
    simp only [mgDispatchResourceOffsetAligned, wraps, ↓reduceIte, Bool.false_eq_true, false_and,
      false_iff]
    intro acceptable
    have start := acceptable.start
    omega
  · have start := not_gt_sizeMax_sub_iff.mp wraps
    have exact : (offset + resource.byteOffset).toNat =
        offset.toNat + resource.byteOffset.toNat := by
      rw [UInt64.add_comm, toNat_add_of_not_gt wraps, Nat.add_comm]
    have aligned : (offset + resource.byteOffset) % effectiveAlignment resource.alignment = 0 ↔
        (effectiveAlignment resource.alignment).toNat ∣
          offset.toNat + resource.byteOffset.toNat := by
      rw [← UInt64.toNat_inj, UInt64.toNat_mod, exact, UInt64.toNat_zero, Nat.dvd_iff_mod_eq_zero]
    have inside : mgDispatchResourceRangeValid (some resource) length offset = true ↔
        offset.toNat + resource.byteOffset.toNat + resource.byteCount.toNat ≤ length.toNat := by
      simp only [mgDispatchResourceRangeValid, wraps, ↓reduceIte]
      by_cases empty : resource.byteCount = 0
      · simp only [empty, ↓reduceIte, decide_eq_true_eq, UInt64.le_iff_toNat_le, exact,
          UInt64.toNat_zero, Nat.add_zero]
      · have positive : 0 < resource.byteCount.toNat :=
          Nat.pos_of_ne_zero fun zero => empty (UInt64.toNat_inj.mp zero)
        simp only [empty, ↓reduceIte, mgRangeValid_iff, positive, true_and, exact]
    rw [inside]
    simp only [mgDispatchResourceOffsetAligned, wraps, ↓reduceIte, decide_eq_true_eq, aligned,
      effectiveAlignment_dvd_iff]
    exact ⟨fun checked => ⟨by omega, checked.1, checked.2⟩,
      fun acceptable => ⟨acceptable.aligned, acceptable.inside⟩⟩

end Checks

/-! ### Lists -/

section Lists

variable {bindings : List MgBufferBinding}

/-- Descriptors that all have what is stored of them come from stored entries. -/
theorem exists_map_eq {α β : Type} {described : α → β} {descs : List β}
    (each : ∀ desc ∈ descs, ∃ stored, described stored = desc) :
    ∃ stored : List α, stored.map described = descs := by
  have listed : descs ∈ Set.range (List.map described) := by
    rw [Set.range_list_map]
    exact each
  exact listed

theorem described_distinct :
    ((bindings.map MgBufferBinding.described).Pairwise fun first second =>
        first.index ≠ second.index) ↔
      bindings.Pairwise fun first second => first.index ≠ second.index := List.pairwise_map

theorem validateBindings_iff {descs : List MgBufferBindingDesc} :
    validateBindings descs = .ok bindings ↔
      descs = bindings.map MgBufferBinding.described ∧
        (∀ desc ∈ descs, ∃ buffer, desc.buffer = some buffer ∧
          desc.offset.toNat ≤ buffer.length.toNat) ∧
        descs.Pairwise fun first second => first.index ≠ second.index := by
  constructor
  · intro success
    obtain ⟨rfl, offsets, distinct⟩ := validateBindings_ok success
    refine ⟨rfl, ?_, described_distinct.mpr distinct⟩
    intro desc member
    obtain ⟨binding, listed, rfl⟩ := List.mem_map.mp member
    exact ⟨binding.buffer, rfl, UInt64.le_iff_toNat_le.mp (offsets binding listed)⟩
  · rintro ⟨rfl, bound, distinct⟩
    refine validateBindings_described (fun binding listed => ?_) (described_distinct.mp distinct)
    obtain ⟨buffer, same, fits⟩ := bound binding.described (List.mem_map_of_mem listed)
    cases same
    exact UInt64.le_iff_toNat_le.mpr fits

theorem validateScalars_iff {descs : List MgScalarBindingDesc} {scalars : List MgScalarBinding} :
    validateScalars descs = .ok scalars ↔
      descs = scalars.map MgScalarBinding.described ∧
        ∀ desc ∈ descs, ∃ data, desc.data = some data ∧ data ≠ [] := by
  constructor
  · intro success
    obtain ⟨rfl, filled⟩ := validateScalars_ok success
    refine ⟨rfl, fun desc member => ?_⟩
    obtain ⟨scalar, listed, rfl⟩ := List.mem_map.mp member
    exact ⟨scalar.data, rfl, filled scalar listed⟩
  · rintro ⟨rfl, filled⟩
    apply validateScalars_described
    intro scalar listed
    obtain ⟨data, same, some⟩ := filled scalar.described (List.mem_map_of_mem listed)
    cases same
    exact some

theorem resourceValid_iff
    (distinct : bindings.Pairwise fun first second => first.index ≠ second.index)
    {resource : MgDispatchResourceDesc} :
    ResourceValid bindings resource ↔
      ResourceAcceptable (bindings.map MgBufferBinding.described) resource := by
  constructor
  · intro valid
    obtain ⟨binding, member, same⟩ := valid.bound
    exact
      { size := UInt64.not_lt.mp valid.size
        access := mgResourceAccessValid_iff.mp valid.access
        alignment := effectiveAlignment_valid_iff.mp valid.alignment
        bound := ⟨binding.described, List.mem_map_of_mem member, binding.buffer, same, rfl,
          rangeAcceptable_iff.mp
            ⟨valid.aligned binding member same, valid.inside binding member same⟩⟩ }
  · intro acceptable
    obtain ⟨desc, listed, buffer, same, given, range⟩ := acceptable.bound
    obtain ⟨binding, member, rfl⟩ := List.mem_map.mp listed
    cases given
    have checked := rangeAcceptable_iff.mpr range
    have only : ∀ other ∈ bindings, other.index = resource.index → other = binding := by
      intro other member' same'
      have found := find_binding_eq distinct member'
      rw [same', ← same, MgBufferBinding.described, find_binding_eq distinct member] at found
      exact (Option.some.inj found).symm
    exact
      { size := UInt64.not_lt.mpr acceptable.size
        access := mgResourceAccessValid_iff.mpr acceptable.access
        alignment := effectiveAlignment_valid_iff.mpr acceptable.alignment
        bound := ⟨binding, member, same⟩
        aligned := fun other member' same' => only other member' same' ▸ checked.1
        inside := fun other member' same' => only other member' same' ▸ checked.2 }

theorem mgValidateDispatchResources_iff
    (distinct : bindings.Pairwise fun first second => first.index ≠ second.index)
    {given : Option (List MgDispatchResourceDesc)} {resources : List MgDispatchResourceDesc} :
    mgValidateDispatchResources given bindings = .ok resources ↔
      given = some resources ∧
        (∀ resource ∈ resources,
          ResourceAcceptable (bindings.map MgBufferBinding.described) resource) ∧
        resources.Pairwise fun first second => first.index ≠ second.index := by
  cases given with
  | none => simp [mgValidateDispatchResources]
  | some listed =>
      simp only [mgValidateDispatchResources, except_bind_ok, except_pure_ok, Option.some.injEq]
      constructor
      · rintro ⟨result, success, rfl⟩
        obtain ⟨valid, unlike⟩ := validateResourceList_ok distinct success
        exact ⟨rfl, fun resource member => (resourceValid_iff distinct).mp (valid resource member),
          unlike⟩
      · rintro ⟨rfl, acceptable, unlike⟩
        have valid : ∀ resource ∈ listed, ResourceValid bindings resource :=
          fun resource member => (resourceValid_iff distinct).mpr (acceptable resource member)
        exact ⟨(), validateResourceList_valid distinct valid unlike, rfl⟩

end Lists

/-! ### Descriptors -/

section Descriptors

variable {desc : MgDispatchDesc} {dispatch : MgDispatchNode}

theorem dispatchPointers_iff (full : sizeofMgDispatchDesc ≤ desc.size) {source : DispatchSource} :
    dispatchPointers desc = .ok source ↔
      desc.metallibPath = some source.metallibPath ∧ desc.kernelName = some source.kernelName ∧
      desc.gridSize.Positive ∧ desc.threadsPerThreadgroup.Positive ∧
      desc.buffers = some source.buffers := by
  have sized : ¬ desc.size < offsetofScalars :=
    UInt64.not_lt.mpr (UInt64.le_trans (by decide : offsetofScalars ≤ sizeofMgDispatchDesc) full)
  obtain ⟨metallibPath, kernelName, buffers⟩ := source
  simp only [dispatchPointers, except_bind_ok, demand_ok, exists_const, sized, not_false_eq_true,
    true_and]
  rcases desc.metallibPath with _ | path
  · simp
  rcases desc.kernelName with _ | kernel
  · simp
  simp only [except_bind_ok, demand_ok, exists_const, mgDimsValid_iff, Option.some.injEq]
  rcases desc.buffers with _ | listed
  · simp
  simp only [except_pure_ok, DispatchSource.mk.injEq, Option.some.injEq]
  tauto

theorem presentScalars_full (full : sizeofMgDispatchDesc ≤ desc.size) :
    desc.presentScalars = desc.scalars :=
  if_pos (UInt64.le_trans (by decide : offsetofResources ≤ sizeofMgDispatchDesc) full)

theorem presentResources_full (full : sizeofMgDispatchDesc ≤ desc.size) :
    desc.presentResources = desc.resources := if_pos full

theorem effectiveMaxGridSize_full (full : sizeofMgDispatchDesc ≤ desc.size) :
    desc.effectiveMaxGridSize = desc.maximum := by
  have declared : desc.size ≥ offsetofResources :=
    UInt64.le_trans (by decide : offsetofResources ≤ sizeofMgDispatchDesc) full
  simp only [MgDispatchDesc.effectiveMaxGridSize, MgDispatchDesc.maximum, declared, true_and,
    mgDimsValid_iff]

theorem dispatchScalars_iff (full : sizeofMgDispatchDesc ≤ desc.size)
    {scalars : List MgScalarBinding} :
    dispatchScalars desc = .ok scalars ↔
      ∃ descs, desc.scalars = some descs ∧ descs = scalars.map MgScalarBinding.described ∧
        ∀ desc ∈ descs, ∃ data, desc.data = some data ∧ data ≠ [] := by
  unfold dispatchScalars
  rw [presentScalars_full full]
  rcases desc.scalars with _ | descs
  · simp
  · simp only [validateScalars_iff, Option.some.injEq, exists_eq_left']

/-- The checks build a node exactly from an acceptable descriptor, and fill in its defaults. -/
theorem dispatch_built_iff (full : sizeofMgDispatchDesc ≤ desc.size) :
    (∃ source, dispatchPointers desc = .ok source ∧ dispatchContents desc source = .ok dispatch) ↔
      (∃ bindings scalars resources, DispatchAcceptable desc bindings scalars resources) ∧
        StoredFrom desc dispatch := by
  simp only [dispatchPointers_iff full, dispatchContents, except_bind_ok, demand_ok,
    except_pure_ok, exists_const, validateBindings_iff, dispatchScalars_iff full,
    presentResources_full full, effectiveMaxGridSize_full full, gridWithin_iff]
  constructor
  · rintro ⟨⟨path, kernel, descs⟩, ⟨hasPath, hasKernel, grid, threads, given⟩, buffers,
      ⟨rfl, bound, distinct⟩, scalars, ⟨_, scalarsGiven, rfl, filled⟩, resources, checked, within,
      rfl⟩
    obtain ⟨resourcesGiven, acceptable, unlike⟩ :=
      (mgValidateDispatchResources_iff (described_distinct.mp distinct)).mp checked
    exact ⟨⟨_, _, _, ⟨path, hasPath⟩, ⟨kernel, hasKernel⟩, grid, threads, given, bound, distinct,
      scalarsGiven, filled, resourcesGiven, acceptable, unlike, within⟩,
      ⟨hasPath, hasKernel, rfl, rfl, rfl, given, scalarsGiven, resources, resourcesGiven, rfl⟩⟩
  · rintro ⟨⟨bindings, scalars, resources, acceptable⟩, stored⟩
    obtain ⟨listed, resourcesGiven, effective⟩ := stored.resources
    cases acceptable.resourcesGiven.symm.trans resourcesGiven
    cases acceptable.bindingsGiven.symm.trans stored.buffers
    cases acceptable.scalarsGiven.symm.trans stored.scalars
    have distinct := acceptable.bindingsDistinct
    refine ⟨⟨dispatch.metallibPath, dispatch.kernelName, _⟩, ⟨stored.metallibPath,
      stored.kernelName, acceptable.grid, acceptable.threads, stored.buffers⟩, dispatch.buffers,
      ⟨rfl, acceptable.bindingsBound, distinct⟩, dispatch.scalars,
      ⟨_, stored.scalars, rfl, acceptable.scalarsFilled⟩, resources,
      (mgValidateDispatchResources_iff (described_distinct.mp distinct)).mpr
        ⟨resourcesGiven, acceptable.resourcesAcceptable, acceptable.resourcesDistinct⟩,
      acceptable.maximum, ?_⟩
    obtain ⟨path, kernel, grid, threads, maximum, buffers, stores, kept⟩ := dispatch
    obtain ⟨_, _, rfl, rfl, rfl, _, _, _⟩ := stored
    simp only at effective
    rw [effective]
    rfl

/-- Every acceptable descriptor describes some node. -/
theorem DispatchAcceptable.stored {bindings : List MgBufferBindingDesc}
    {scalars : List MgScalarBindingDesc} {resources : List MgDispatchResourceDesc}
    (acceptable : DispatchAcceptable desc bindings scalars resources) :
    ∃ dispatch, StoredFrom desc dispatch := by
  obtain ⟨path, hasPath⟩ := acceptable.metallibPath
  obtain ⟨kernel, hasKernel⟩ := acceptable.kernelName
  obtain ⟨buffers, rfl⟩ : ∃ stored : List MgBufferBinding,
      stored.map MgBufferBinding.described = bindings := by
    apply exists_map_eq
    rintro ⟨index, _, offset⟩ member
    obtain ⟨buffer, rfl, _⟩ := acceptable.bindingsBound _ member
    exact ⟨⟨index, buffer, offset⟩, rfl⟩
  obtain ⟨values, rfl⟩ : ∃ stored : List MgScalarBinding,
      stored.map MgScalarBinding.described = scalars := by
    apply exists_map_eq
    rintro ⟨index, _⟩ member
    obtain ⟨data, rfl, _⟩ := acceptable.scalarsFilled _ member
    exact ⟨⟨index, data⟩, rfl⟩
  exact ⟨⟨path, kernel, desc.gridSize, desc.threadsPerThreadgroup, desc.maximum, buffers, values,
    _⟩, hasPath, hasKernel, rfl, rfl, rfl, acceptable.bindingsGiven, acceptable.scalarsGiven,
    resources, acceptable.resourcesGiven, rfl⟩

end Descriptors

/-- When nothing is refused, a full descriptor is accepted exactly if it is acceptable, and the
node that is added is the descriptor with its defaults filled in. -/
theorem mgGraphAddDispatchNode_exact {desc : MgDispatchDesc} {graph : MgGraph} {env : Env}
    (full : sizeofMgDispatchDesc ≤ desc.size) (granting : env.Granting)
    (room : (graph.nodes.length + 1) * sizeofMgNode ≤ 2 ^ 64) :
    ((∃ pointer reached, mgGraphAddDispatchNode (some desc) ⟨graph, env⟩ = (.ok pointer, reached)) ↔
      ∃ bindings scalars resources, DispatchAcceptable desc bindings scalars resources) ∧
    ∀ pointer reached,
      mgGraphAddDispatchNode (some desc) ⟨graph, env⟩ = (.ok pointer, reached) →
      ∃ dispatch, StoredFrom desc dispatch ∧
        reached.object.nodes = graph.nodes ++ [newNode graph (.dispatch dispatch)] := by
  have built : ∀ pointer reached,
      mgGraphAddDispatchNode (some desc) ⟨graph, env⟩ = (.ok pointer, reached) →
      ∃ source dispatch, dispatchPointers desc = .ok source ∧
        dispatchContents desc source = .ok dispatch := by
    intro pointer reached success
    simp only [mgGraphAddDispatchNode, bind_ok, orFail_ok, ofExcept_ok] at success
    obtain ⟨_, _, ⟨same, rfl⟩, source, _, ⟨pointers, rfl⟩, _, _, _, _, _, _, dispatch, _,
      ⟨contents, rfl⟩, _⟩ := success
    cases same
    exact ⟨source, dispatch, pointers, contents⟩
  have adds : ∀ source dispatch, dispatchPointers desc = .ok source →
      dispatchContents desc source = .ok dispatch → ∃ pointer reached,
        mgGraphAddDispatchNode (some desc) ⟨graph, env⟩ = (.ok pointer, reached) ∧
        NodeAdded graph (.dispatch dispatch) reached.object := by
    intro source dispatch pointers contents
    exact (mgGraphAddDispatchNode_accepted pointers contents).added granting room
  constructor
  · constructor
    · rintro ⟨pointer, reached, success⟩
      obtain ⟨source, dispatch, pointers, contents⟩ := built pointer reached success
      exact ((dispatch_built_iff full).mp ⟨source, pointers, contents⟩).1
    · rintro ⟨bindings, scalars, resources, acceptable⟩
      obtain ⟨dispatch, stored⟩ := acceptable.stored
      obtain ⟨source, pointers, contents⟩ :=
        (dispatch_built_iff full).mpr ⟨⟨bindings, scalars, resources, acceptable⟩, stored⟩
      obtain ⟨pointer, reached, success, _⟩ := adds source dispatch pointers contents
      exact ⟨pointer, reached, success⟩
  · intro pointer reached success
    obtain ⟨source, dispatch, pointers, contents⟩ := built pointer reached success
    obtain ⟨_, _, success', added⟩ := adds source dispatch pointers contents
    cases success.symm.trans success'
    exact ⟨dispatch, ((dispatch_built_iff full).mp ⟨source, pointers, contents⟩).2, added.nodes⟩

/-! A descriptor that leaves the alignment and the maximum to their defaults. -/

def defaultsDesc : MgDispatchDesc where
  size := 104
  metallibPath := some "library"
  kernelName := some "kernel"
  gridSize := ⟨2, 1, 1⟩
  threadsPerThreadgroup := ⟨1, 1, 1⟩
  buffers := some [⟨3, some wrappedBuffer, 5⟩]
  scalars := some [⟨0, some [7]⟩]
  maxGridSize := ⟨0, 1, 1⟩
  resources := some [⟨40, 3, .read, 1, 2, 0⟩]

theorem defaults_acceptable : DispatchAcceptable defaultsDesc [⟨3, some wrappedBuffer, 5⟩]
    [⟨0, some [7]⟩] [⟨40, 3, .read, 1, 2, 0⟩] where
  metallibPath := ⟨_, rfl⟩
  kernelName := ⟨_, rfl⟩
  grid := by decide
  threads := by decide
  bindingsGiven := rfl
  bindingsBound := by
    intro binding member
    rw [List.mem_singleton.mp member]
    exact ⟨wrappedBuffer, rfl, by decide⟩
  bindingsDistinct := List.pairwise_singleton _ _
  scalarsGiven := rfl
  scalarsFilled := by simp
  resourcesGiven := rfl
  resourcesAcceptable := by
    intro resource member
    rw [List.mem_singleton.mp member]
    exact ⟨by decide, .inr (.inl rfl), .inl rfl, _, List.mem_singleton_self _, wrappedBuffer, rfl,
      rfl, by decide, fun nonzero => absurd rfl nonzero, by decide⟩
  resourcesDistinct := List.pairwise_singleton _ _
  maximum := ⟨by decide, by decide, by decide⟩

theorem mgGraphAddDispatchNode_of_defaults : ∃ pointer reached dispatch,
    mgGraphAddDispatchNode (some defaultsDesc) ⟨⟨0, [], 0, [], 0, none⟩, grantAll.world.env⟩ =
      (.ok pointer, reached) ∧ StoredFrom defaultsDesc dispatch := by
  obtain ⟨accepts, stores⟩ := @mgGraphAddDispatchNode_exact defaultsDesc ⟨0, [], 0, [], 0, none⟩
    grantAll.world.env (by decide) (fun _ => rfl) (by decide)
  obtain ⟨pointer, reached, success⟩ := accepts.mpr ⟨_, _, _, defaults_acceptable⟩
  obtain ⟨dispatch, stored, _⟩ := stores pointer reached success
  exact ⟨pointer, reached, dispatch, success, stored⟩

end MetalGraph
