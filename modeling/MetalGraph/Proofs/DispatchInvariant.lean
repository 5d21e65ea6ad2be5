import MetalGraph.Proofs.Alignment
import MetalGraph.Proofs.PatchFrame

set_option autoImplicit false

/- Dispatch nodes at any time between their addition and the end of their plan: the
bindings, the declared resources and the grid, in unbounded arithmetic. -/
namespace MetalGraph

open Eff

/-! ### Single checks -/

/-- A nonzero word shares no bit with its predecessor exactly if it is a power of two. -/
theorem mgAlignmentValid_iff {alignment : UInt64} :
    mgAlignmentValid alignment = true ↔ alignment.toNat.isPowerOfTwo := by
  simp only [mgAlignmentValid, Bool.and_eq_true, bne_iff_ne, beq_iff_eq]
  by_cases zero : alignment.toNat = 0
  · have absent : alignment = 0 := UInt64.toNat_inj.mp zero
    have noPower : ¬ alignment.toNat.isPowerOfTwo := fun power =>
      Nat.ne_of_gt (Nat.pos_of_isPowerOfTwo power) zero
    simp only [absent, ne_eq, not_true_eq_false, false_and, false_iff]
    exact absent ▸ noPower
  · have nonzero : alignment ≠ 0 := fun same => zero (by rw [same, UInt64.toNat_zero])
    have atLeastOne : (1 : UInt64) ≤ alignment := UInt64.le_iff_toNat_le.mpr (by
      rw [UInt64.toNat_one]
      omega)
    have masked : alignment &&& (alignment - 1) = 0 ↔
        alignment.toNat &&& (alignment.toNat - 1) = 0 := by
      rw [← UInt64.toNat_inj, UInt64.toNat_and, UInt64.toNat_sub_of_le _ _ atLeastOne,
        UInt64.toNat_one, UInt64.toNat_zero]
    simp only [nonzero, ne_eq, not_false_eq_true, true_and, masked]
    exact Nat.and_sub_one_eq_zero_iff_isPowerOfTwo zero

theorem mgAlignmentValid_isPowerOfTwo {alignment : UInt64}
    (valid : mgAlignmentValid alignment = true) : alignment.toNat.isPowerOfTwo :=
  mgAlignmentValid_iff.mp valid

/-- Every axis of the grid lies between one and its declared maximum. -/
structure GridInside (grid maximum : Dims) : Prop where
  x : 1 ≤ grid.x.toNat ∧ grid.x.toNat ≤ maximum.x.toNat
  y : 1 ≤ grid.y.toNat ∧ grid.y.toNat ≤ maximum.y.toNat
  z : 1 ≤ grid.z.toNat ∧ grid.z.toNat ≤ maximum.z.toNat

theorem gridInside_of_checks {grid maximum : Dims} (valid : mgDimsValid grid = true)
    (within : gridWithin grid maximum = true) : GridInside grid maximum := by
  simp only [mgDimsValid, gridWithin, Bool.and_eq_true, decide_eq_true_eq] at valid within
  obtain ⟨⟨positiveX, positiveY⟩, positiveZ⟩ := valid
  obtain ⟨⟨belowX, belowY⟩, belowZ⟩ := within
  have axis : ∀ size limit : UInt32, size > 0 → size ≤ limit →
      1 ≤ size.toNat ∧ size.toNat ≤ limit.toNat := fun _ _ positive below =>
    ⟨UInt32.lt_iff_toNat_lt.mp positive, UInt32.le_iff_toNat_le.mp below⟩
  exact ⟨axis _ _ positiveX belowX, axis _ _ positiveY belowY, axis _ _ positiveZ belowZ⟩

/-- The range of a resource relative to the buffer it is bound to. -/
structure ResourcePlaced (binding : MgBufferBinding) (resource : MgDispatchResourceDesc) :
    Prop where
  power : resource.alignment.toNat.isPowerOfTwo
  aligned : resource.alignment.toNat ∣ binding.offset.toNat + resource.byteOffset.toNat
  inside : binding.offset.toNat + resource.byteOffset.toNat + resource.byteCount.toNat ≤
    binding.buffer.length.toNat

/-- What holds of every dispatch node that declares these flags. -/
structure DispatchSound (flags : MgPatchFlags) (dispatch : MgDispatchNode) : Prop where
  bindings : dispatch.buffers.Pairwise fun first second => first.index ≠ second.index
  resources : dispatch.resources.Pairwise fun first second => first.index ≠ second.index
  bound : ∀ resource ∈ dispatch.resources,
    ∃! binding, binding ∈ dispatch.buffers ∧ binding.index = resource.index
  placed : ∀ resource ∈ dispatch.resources, ∀ binding ∈ dispatch.buffers,
    binding.index = resource.index → ResourcePlaced binding resource
  grid : GridInside dispatch.gridSize dispatch.maxGridSize
  ranges : flags &&& mgPatchDispatchBuffer ≠ 0 → ∀ binding ∈ dispatch.buffers,
    ∃ resource ∈ dispatch.resources, resource.index = binding.index ∧ resource.byteCount ≠ 0

section Nodes

variable {dispatch : MgDispatchNode}

theorem DispatchValid.binding_unique (valid : DispatchValid dispatch)
    {first second : MgBufferBinding} (left : first ∈ dispatch.buffers)
    (right : second ∈ dispatch.buffers) (same : first.index = second.index) : first = second := by
  have found := find_binding_eq valid.bindings left
  rw [same, find_binding_eq valid.bindings right] at found
  exact (Option.some.inj found).symm

theorem DispatchValid.placed (valid : DispatchValid dispatch) {resource : MgDispatchResourceDesc}
    (declared : resource ∈ dispatch.resources) {binding : MgBufferBinding}
    (bound : binding ∈ dispatch.buffers) (same : binding.index = resource.index) :
    ResourcePlaced binding resource := by
  have checked := valid.resources resource declared
  have stored : effectiveAlignment resource.alignment = resource.alignment :=
    if_neg (valid.normal resource declared)
  have power := checked.alignment
  have divides := mgDispatchResourceOffsetAligned_dvd (checked.aligned binding bound same)
  obtain ⟨exact, fits⟩ := mgDispatchResourceRangeValid_bound (checked.inside binding bound same)
  rw [stored] at power divides
  rw [exact] at fits
  exact ⟨mgAlignmentValid_isPowerOfTwo power, divides, fits⟩

theorem hasRange_resource {index : UInt32} (declared : dispatch.hasRange index = true) :
    ∃ resource ∈ dispatch.resources, resource.index = index ∧ resource.byteCount ≠ 0 := by
  unfold MgDispatchNode.hasRange at declared
  split at declared
  · cases declared
  · rename_i resource found
    exact ⟨resource, List.mem_of_find?_eq_some found, by simpa using List.find?_some found,
      by simpa using declared⟩

theorem DispatchValid.sound (valid : DispatchValid dispatch) {flags : MgPatchFlags}
    (ranges : flags &&& mgPatchDispatchBuffer ≠ 0 →
      mgDispatchAllBindingsHaveRangeRequirements dispatch = true) :
    DispatchSound flags dispatch where
  bindings := valid.bindings
  resources := valid.distinct
  bound := by
    intro resource declared
    obtain ⟨binding, member, same⟩ := (valid.resources resource declared).bound
    refine ⟨binding, ⟨member, same⟩, ?_⟩
    rintro other ⟨listed, named⟩
    exact valid.binding_unique listed member (named.trans same.symm)
  placed := fun _ declared _ bound same => valid.placed declared bound same
  grid := gridInside_of_checks valid.grid.1 valid.grid.2
  ranges := by
    intro declared binding member
    have every := List.all_eq_true.mp (ranges declared)
    exact hasRange_resource (every binding member)

end Nodes

/-! ### Plans -/

/-- A dispatch whose buffers may be patched declares a range for every binding. -/
def RangesDeclared (exec : MgGraphExec) : Prop :=
  ∀ dispatch, .dispatch dispatch ∈ exec.nodes →
    dispatch.patchFlags &&& mgPatchDispatchBuffer ≠ 0 →
      mgDispatchAllBindingsHaveRangeRequirements dispatch.toMgDispatchNode = true

theorem NodeWf.rangesDeclared {address : GraphPtr} {index : Nat} {node : MgNode}
    {dispatch : MgDispatchNode} (wf : NodeWf address index node)
    (kind : node.as = .dispatch dispatch)
    (declared : node.patchFlags &&& mgPatchDispatchBuffer ≠ 0) :
    mgDispatchAllBindingsHaveRangeRequirements dispatch = true := by
  have ranges := wf.ranges
  simp only [MgNode.lacksRanges, kind, Bool.and_eq_false_iff, Bool.not_eq_false',
    bne_eq_false_iff_eq] at ranges
  exact ranges.resolve_left declared

theorem Instantiates.rangesDeclared {address : GraphPtr} {graph : MgGraph} {order : List Nat}
    {exec : MgGraphExec} (wf : GraphWf address graph) (made : Instantiates graph order exec) :
    RangesDeclared exec := by
  intro dispatch member declared
  obtain ⟨index, _, src, offset, present, same, _⟩ := mem_of_forall₂' made.nodes member
  have stored := wf.nodes index src present
  obtain ⟨graph, id, place, flags, as⟩ := src
  cases as with
  | dispatch node =>
      cases same
      exact stored.rangesDeclared rfl declared
  | _ => cases same

theorem DispatchFrozen.indices {before after : MgExecDispatch}
    (frozen : DispatchFrozen before after) :
    after.buffers.map MgBufferBinding.index = before.buffers.map MgBufferBinding.index := by
  have same : ∀ first second, BindingFrozen before.patchFlags first second →
      first.index = second.index := fun _ _ kept => kept.index.symm
  have paired := frozen.buffers.imp same
  rw [← List.forall₂_eq_eq_eq, List.forall₂_map_left_iff, List.forall₂_map_right_iff]
  exact paired.flip.imp fun _ _ equal => equal.symm

/-- The requirement reads only indices and resources, which no patch changes. -/
theorem DispatchFrozen.rangeRequirements {before after : MgExecDispatch}
    (frozen : DispatchFrozen before after) :
    mgDispatchAllBindingsHaveRangeRequirements after.toMgDispatchNode =
      mgDispatchAllBindingsHaveRangeRequirements before.toMgDispatchNode := by
  have lookup : ∀ dispatch : MgDispatchNode,
      mgDispatchAllBindingsHaveRangeRequirements dispatch =
        (dispatch.buffers.map MgBufferBinding.index).all dispatch.hasRange := by
    intro dispatch
    rw [List.all_map]
    rfl
  have table : after.toMgDispatchNode.hasRange = before.toMgDispatchNode.hasRange := by
    funext index
    simp only [MgDispatchNode.hasRange, MgDispatchNode.resourceFor, frozen.resources]
  rw [lookup, lookup, frozen.indices, table]

theorem Frozen.rangesDeclared {before after : MgGraphExec} (frozen : Frozen before after)
    (ranges : RangesDeclared before) : RangesDeclared after := by
  intro dispatch member declared
  obtain ⟨old, listed, kept⟩ := mem_of_forall₂' frozen.nodes member
  cases kept with
  | same => exact ranges dispatch listed declared
  | dispatch kept =>
      rw [kept.rangeRequirements]
      exact ranges _ listed (kept.patchFlags ▸ declared)

theorem Reachable.rangesDeclared {system : System} (reachable : Reachable system)
    {address : ExecPtr} {exec : MgGraphExec}
    (live : system.world.execs.get? address = some exec) : RangesDeclared exec := by
  refine reachable.exec_invariant (fun _ _ _ _ wf made => made.rangesDeclared wf)
    (fun _ _ _ _ ranges step => step.frozen.rangesDeclared ranges) ?_ address exec live
  intro before after ranges same dispatch member
  rw [same.nodes] at member
  exact ranges dispatch member

/-! ### The refusal for want of a range -/

def rangeRequired (nodeId : MgNodeId) : Fault :=
  patchFault nodeId "dispatch buffer patch requires a declared resource range"

theorem patchFault_ne {first second : MgNodeId} {message other : String}
    (distinct : message ≠ other) : patchFault first message ≠ patchFault second other := by
  intro same
  simp only [patchFault, mgSetError, Fault.error.injEq, MgError.mk.injEq] at same
  exact distinct same.2.2.2

section Refusal

variable {nodeId : MgNodeId} {focus reached : Focus MgGraphExec}

theorem patchTarget_not_range :
    patchTarget nodeId focus ≠ (.error (rangeRequired nodeId), reached) := by
  intro stopped
  simp only [patchTarget, mgPatchReady, bind_error, bind_ok, self_apply, require_error,
    ofExcept_error, Prod.mk.injEq, reduceCtorEq, false_and, false_or] at stopped
  rcases stopped with ⟨_, _, _, _, same, _⟩ | ⟨_, _, _, _, _, _, missing, _⟩
  · exact patchFault_ne (by decide) same
  · unfold mgPatchFindNode at missing
    split at missing
    · exact patchFault_ne (by decide) (Except.error.inj missing)
    · split at missing
      · cases missing
      · exact patchFault_ne (by decide) (Except.error.inj missing)

theorem dispatchTarget_not_range {flag : MgPatchFlags} :
    dispatchTarget nodeId flag focus ≠ (.error (rangeRequired nodeId), reached) := by
  intro stopped
  simp only [dispatchTarget, bind_error, orFail_error, mgPatchRequireFlag, require_error,
    pure_apply, Prod.mk.injEq, reduceCtorEq, false_and, and_false, exists_false,
    or_false] at stopped
  rcases stopped with early | ⟨_, _, _, ⟨_, same, _⟩ | ⟨_, _, _, _, same, _⟩⟩
  · exact patchTarget_not_range early
  · exact patchFault_ne (by decide) same
  · exact patchFault_ne (by decide) same

theorem rebindable_not_range {dispatch : MgDispatchNode} {index : UInt32} {buffer : MgBuffer}
    {offset : UInt64} (declared : dispatch.hasRange index = true) :
    rebindable dispatch nodeId index buffer offset ≠ .error (rangeRequired nodeId) := by
  intro failed
  simp only [rebindable, except_bind_error, demand_error, demand_ok] at failed
  rcases failed with ⟨missing, _⟩ | ⟨_, _, _, same⟩
  · exact missing declared
  · exact patchFault_ne (by decide) same

/-- Where every binding of a patchable dispatch has a range, no buffer patch is refused
for want of one. -/
theorem RangesDeclared.never_required (ranges : RangesDeclared focus.object) (index : UInt32)
    (buffer : Option MgBuffer) (offset : UInt64) :
    (mgGraphExecPatchDispatchBuffer nodeId index buffer offset focus).1 ≠
      .error (rangeRequired nodeId) := by
  intro failed
  have stopped : mgGraphExecPatchDispatchBuffer nodeId index buffer offset focus =
      (.error (rangeRequired nodeId),
        (mgGraphExecPatchDispatchBuffer nodeId index buffer offset focus).2) :=
    Prod.ext failed rfl
  rcases bind_error.mp stopped with early | ⟨⟨position, dispatch⟩, _, addressed, late⟩
  · exact dispatchTarget_not_range early
  · obtain ⟨target, rfl⟩ := dispatchTarget_ok.mp addressed
    have present := List.mem_of_getElem? target.target.present
    have every := List.all_eq_true.mp (ranges dispatch present target.declared)
    simp only [bind_error, orFail_error, orFail_ok, require_error, require_ok, self_apply,
      Prod.mk.injEq, reduceCtorEq, false_and, false_or, Except.ok.injEq] at late
    rcases late with ⟨_, same, _⟩ |
      ⟨_, _, _, ⟨_, same, _⟩ | ⟨_, _, _, _, _, _, ⟨_, same, _⟩ | rest⟩⟩
    · exact patchFault_ne (by decide) same
    · exact patchFault_ne (by decide) same
    · exact patchFault_ne (by decide) same
    · obtain ⟨_, _, _, changed⟩ := rest
      rcases bound : dispatch.buffers.zipIdx.find? fun entry => entry.1.index == index with
        _ | ⟨binding, slot⟩ <;> simp only [bound] at changed
      · simp only [fail_apply, Prod.mk.injEq, Except.error.injEq] at changed
        exact patchFault_ne (by decide) changed.1
      · obtain ⟨listed, named⟩ := bindingAt_eq bound
        have declared := every binding (List.mem_of_getElem? listed)
        rw [named] at declared
        rcases bind_error.mp changed with refused | ⟨_, middle, _, stored⟩
        · exact rebindable_not_range declared (ofExcept_error.mp refused).1
        · exact swapBuffers_never _ _ _ _ middle _ _ stored

end Refusal

/-! ### Reachable worlds -/

/-- Dispatch nodes of graphs, and of plans after any further patches, are sound, and no
buffer patch of them is refused for want of a range. -/
structure World.DispatchesSound (world : World) : Prop where
  graphs : ∀ address graph, world.graphs.get? address = some graph →
    ∀ node ∈ graph.nodes, ∀ dispatch, node.as = .dispatch dispatch →
      DispatchSound node.patchFlags dispatch
  execs : ∀ address exec, world.execs.get? address = some exec → ∀ env patches dispatch,
    .dispatch dispatch ∈ (runPatches patches ⟨exec, env⟩).object.nodes →
      DispatchSound dispatch.patchFlags dispatch.toMgDispatchNode
  ranges : ∀ address exec, world.execs.get? address = some exec →
    ∀ env patches nodeId index buffer offset,
      (mgGraphExecPatchDispatchBuffer nodeId index buffer offset
        (runPatches patches ⟨exec, env⟩)).1 ≠ .error (rangeRequired nodeId)

theorem Reachable.patched {system : System} (reachable : Reachable system) {address : ExecPtr}
    {exec : MgGraphExec} (live : system.world.execs.get? address = some exec) (env : Env)
    (patches : List ExecPatch) :
    ExecWf (runPatches patches ⟨exec, env⟩).object ∧
      RangesDeclared (runPatches patches ⟨exec, env⟩).object := by
  have start : ExecWf exec ∧ RangesDeclared exec :=
    ⟨reachable.execWf live, reachable.rangesDeclared live⟩
  have step : ∀ before env patch reached, patch ∈ patches →
      ExecWf before ∧ RangesDeclared before → PatchStep before env patch reached →
        ExecWf reached.object ∧ RangesDeclared reached.object := by
    intro before env patch reached _ holds stepped
    exact ⟨holds.1.patched stepped, stepped.frozen.rangesDeclared holds.2⟩
  exact runPatches_cases step start

theorem dispatch_nodes_sound {system : System} (reachable : Reachable system) :
    system.world.DispatchesSound where
  graphs := by
    intro address graph live node member dispatch kind
    obtain ⟨index, present⟩ := List.mem_iff_getElem?.mp member
    have wf := (reachable.graphsWf address graph live).nodes index node present
    have valid : MgNodeAs.Valid (.dispatch dispatch) := kind ▸ wf.valid
    exact DispatchValid.sound valid (wf.rangesDeclared kind)
  execs := by
    intro address exec live env patches dispatch member
    obtain ⟨wf, ranges⟩ := reachable.patched live env patches
    have valid : DispatchValid dispatch.toMgDispatchNode := wf.nodes _ member
    exact valid.sound (ranges dispatch member)
  ranges := by
    intro address exec live env patches nodeId index buffer offset
    exact (reachable.patched live env patches).2.never_required index buffer offset

theorem dispatch_nodes_sound_of_misaligned :
    (grantAll.run misalignedCalls).world.DispatchesSound :=
  dispatch_nodes_sound misaligned_reachable

end MetalGraph
