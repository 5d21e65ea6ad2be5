import MetalGraph.Base.Layout
import MetalGraph.Proofs.DispatchInvariant
import MetalGraph.Proofs.GraphValidation
import MetalGraph.Proofs.WorkspacePlan

set_option autoImplicit false

/- The workspace plan is the greedy layout over unbounded numbers, whenever that layout
fits, and nothing else. -/
namespace MetalGraph

open Eff

/-! ### Rounding -/

section Rounding

variable {value alignment : UInt64}

theorem mgAlignmentValid_positive (valid : mgAlignmentValid alignment = true) :
    0 < alignment.toNat :=
  Nat.pos_of_isPowerOfTwo (mgAlignmentValid_isPowerOfTwo valid)

/-- The sum with the mask wraps exactly if the next multiple is too large for a word. -/
theorem alignUp_lt_iff (valid : mgAlignmentValid alignment = true) :
    alignUp value.toNat alignment.toNat < 2 ^ 64 ↔ ¬ value > sizeMax - (alignment - 1) := by
  have positive := mgAlignmentValid_positive valid
  have power := mgAlignmentValid_isPowerOfTwo valid
  have atLeastOne : 1 ≤ alignment := UInt64.le_iff_toNat_le.mpr positive
  have mask : (alignment - 1).toNat = alignment.toNat - 1 := by
    rw [UInt64.toNat_sub_of_le _ _ atLeastOne, UInt64.toNat_one]
  have below := alignment.toNat_lt
  have multiple : alignment.toNat ∣ 2 ^ 64 - alignment.toNat :=
    Nat.dvd_sub (isPowerOfTwo_dvd power) (Nat.dvd_refl _)
  rw [gt_iff_lt, UInt64.lt_iff_toNat_lt, toNat_sizeMax_sub, mask, Nat.not_lt]
  constructor
  · intro small
    have above : value.toNat ≤ alignUp value.toNat alignment.toNat := le_alignUp positive
    have multiple' : alignment.toNat ∣ alignUp value.toNat alignment.toNat := dvd_alignUp
    have next := Nat.le_of_dvd (by omega) (Nat.dvd_sub (isPowerOfTwo_dvd power) multiple')
    omega
  · intro small
    have fits : value.toNat ≤ 2 ^ 64 - alignment.toNat := by omega
    have rounded := alignUp_le positive multiple fits
    omega

theorem mgAlignUpSize_some {aligned : UInt64} (valid : mgAlignmentValid alignment = true)
    (success : mgAlignUpSize value alignment = some aligned) :
    aligned.toNat = alignUp value.toNat alignment.toNat := by
  have positive := mgAlignmentValid_positive valid
  have atLeastOne : 1 ≤ alignment := UInt64.le_iff_toNat_le.mpr positive
  simp only [mgAlignUpSize, valid, Bool.true_eq_false, ↓reduceIte] at success
  split at success
  · cases success
  · rename_i bounded
    cases success
    have sum := toNat_add_of_not_gt bounded
    rw [UInt64.toNat_sub_of_le _ _ atLeastOne, UInt64.toNat_one] at sum
    rw [toNat_and_not_mask (mgAlignmentValid_isPowerOfTwo valid), sum, alignUp_eq,
      Nat.add_sub_assoc positive]

theorem mgAlignUpSize_none (valid : mgAlignmentValid alignment = true)
    (refused : mgAlignUpSize value alignment = none) :
    2 ^ 64 ≤ alignUp value.toNat alignment.toNat := by
  simp only [mgAlignUpSize, valid, Bool.true_eq_false, ↓reduceIte] at refused
  split at refused
  · rename_i wraps
    exact Nat.not_lt.mp fun small => (alignUp_lt_iff valid).mp small wraps
  · cases refused

theorem mgAlignUpSize_isSome (valid : mgAlignmentValid alignment = true) :
    (∃ aligned, mgAlignUpSize value alignment = some aligned) ↔
      alignUp value.toNat alignment.toNat < 2 ^ 64 := by
  rcases rounded : mgAlignUpSize value alignment with _ | aligned
  · have beyond := mgAlignUpSize_none valid rounded
    simp only [reduceCtorEq, exists_false, false_iff]
    omega
  · have exactly := mgAlignUpSize_some valid rounded
    have below := aligned.toNat_lt
    simp only [Option.some.injEq, exists_eq', true_iff]
    omega

theorem mgAlignUpSize_valid {aligned : UInt64}
    (success : mgAlignUpSize value alignment = some aligned) :
    mgAlignmentValid alignment = true := by
  by_contra invalid
  rw [Bool.not_eq_true] at invalid
  simp only [mgAlignUpSize, invalid, ↓reduceIte, reduceCtorEq] at success

/-- The mask test accepts the powers of two, and rounding finds the first multiple of a power
of two that is not below the value whenever a word can hold it. -/
theorem mgAlignUpSize_exact (value alignment : UInt64) :
    (mgAlignmentValid alignment = true ↔ ∃ exponent, alignment.toNat = 2 ^ exponent) ∧
    ((∃ aligned, mgAlignUpSize value alignment = some aligned) ↔
      (∃ exponent, alignment.toNat = 2 ^ exponent) ∧
        ∃ least < 2 ^ 64, IsLeast (multiplesFrom value.toNat alignment.toNat) least) ∧
    ∀ aligned, mgAlignUpSize value alignment = some aligned →
      IsLeast (multiplesFrom value.toNat alignment.toNat) aligned.toNat := by
  have least : mgAlignmentValid alignment = true →
      IsLeast (multiplesFrom value.toNat alignment.toNat)
        (alignUp value.toNat alignment.toNat) := fun valid =>
    alignUp_isLeast (mgAlignmentValid_positive valid)
  constructor
  · exact mgAlignmentValid_iff
  constructor
  · constructor
    · rintro ⟨aligned, success⟩
      have valid := mgAlignUpSize_valid success
      have small := (mgAlignUpSize_isSome valid).mp ⟨aligned, success⟩
      exact ⟨mgAlignmentValid_iff.mp valid, _, small, least valid⟩
    · rintro ⟨power, multiple, small, isLeast⟩
      have valid := mgAlignmentValid_iff.mpr power
      rw [mgAlignUpSize_isSome valid, (least valid).unique isLeast]
      exact small
  · intro aligned success
    have valid := mgAlignUpSize_valid success
    rw [mgAlignUpSize_some valid success]
    exact least valid

end Rounding

/-! ### Layouts of nodes -/

def MgNode.need (node : MgNode) : Option Need :=
  node.workspaceNeed.map fun need => ⟨need.1.toNat, need.2.toNat⟩

/-- What the workspace nodes among these ask for, in order. -/
def needsOf (nodes : List MgNode) : List Need := nodes.filterMap MgNode.need

def MgWorkspaceRecord.block (record : MgWorkspaceRecord) : Block :=
  ⟨⟨record.size.toNat, record.alignment.toNat⟩, record.offset.toNat⟩

/-- The plan of some nodes is their greedy layout. -/
structure LaidOut (nodes : List MgNode) (plan : MgWorkspacePlan) : Prop where
  records : List.Forall₂ RecordFor (nodes.filter needsWorkspace) plan.records
  blocks : plan.records.map MgWorkspaceRecord.block = place 0 (needsOf nodes)
  total : plan.totalSize.toNat = placedEnd 0 (needsOf nodes)
  widest : plan.alignment.toNat = widest (needsOf nodes)
  backend : plan.backendImpl = none

/-- The layout ends inside the address space. -/
def Representable (nodes : List MgNode) : Prop := placedEnd 0 (needsOf nodes) ≤ 2 ^ 64 - 1

def NodesValid (nodes : List MgNode) : Prop := ∀ node ∈ nodes, node.as.Valid

section Nodes

variable {nodes more : List MgNode} {node : MgNode} {size alignment : UInt64}

theorem need_valid (valid : node.as.Valid) (need : node.workspaceNeed = some (size, alignment)) :
    WorkspaceValid size alignment := by
  unfold MgNode.workspaceNeed at need
  split at need
  · rename_i workspace as
    cases need
    rw [as] at valid
    exact valid
  · rename_i fill as
    cases need
    rw [as] at valid
    exact valid.workspace
  · cases need

theorem needsOf_append : needsOf (nodes ++ more) = needsOf nodes ++ needsOf more :=
  List.filterMap_append

theorem needsOf_concat_none (absent : node.workspaceNeed = none) :
    needsOf (nodes ++ [node]) = needsOf nodes := by
  simp [needsOf, MgNode.need, absent]

theorem needsOf_concat_some (need : node.workspaceNeed = some (size, alignment)) :
    needsOf (nodes ++ [node]) = needsOf nodes ++ [⟨size.toNat, alignment.toNat⟩] := by
  simp [needsOf, MgNode.need, need]

theorem needsOf_aligned (valid : NodesValid nodes) : Aligned (needsOf nodes) := by
  intro need member
  obtain ⟨node, listed, needed⟩ := List.mem_filterMap.mp member
  obtain ⟨⟨size, alignment⟩, stored, rfl⟩ := Option.map_eq_some_iff.mp needed
  exact mgAlignmentValid_positive (need_valid (valid node listed) stored).alignment

/-- A layout that fits has fitted all along. -/
theorem Representable.of_append (valid : NodesValid more)
    (fits : Representable (nodes ++ more)) : Representable nodes := by
  unfold Representable at *
  rw [needsOf_append, placedEnd_append] at fits
  exact (le_placedEnd (needsOf_aligned valid)).trans fits

theorem laidOut_nil : LaidOut [] MgWorkspacePlan.zero where
  records := .nil
  blocks := rfl
  total := rfl
  widest := rfl
  backend := rfl

theorem LaidOut.skip {plan : MgWorkspacePlan} (laid : LaidOut nodes plan)
    (absent : node.workspaceNeed = none) : LaidOut (nodes ++ [node]) plan := by
  obtain ⟨records, blocks, total, wide, backend⟩ := laid
  refine ⟨?_, ?_, ?_, ?_, backend⟩
  · simpa [List.filter_append, needsWorkspace, absent] using records
  · rwa [needsOf_concat_none absent]
  · rwa [needsOf_concat_none absent]
  · rwa [needsOf_concat_none absent]

theorem toNat_ite_max (first second : UInt64) :
    (if first > second then first else second).toNat = max second.toNat first.toNat := by
  split
  · rename_i above
    have := UInt64.lt_iff_toNat_lt.mp above
    omega
  · rename_i below
    have := UInt64.le_iff_toNat_le.mp (UInt64.not_lt.mp below)
    omega

/-- The record of a node that still fits. -/
theorem LaidOut.record {plan : MgWorkspacePlan} (laid : LaidOut nodes plan)
    (need : node.workspaceNeed = some (size, alignment)) {offset : UInt64}
    (aligned : offset.toNat = alignUp plan.totalSize.toNat alignment.toNat)
    (bounded : ¬ offset > sizeMax - size) :
    LaidOut (nodes ++ [node]) { plan with
      records := plan.records ++ [⟨node.id, size, alignment, offset⟩]
      totalSize := offset + size
      alignment := if alignment > plan.alignment then alignment else plan.alignment } := by
  have listed : (nodes ++ [node]).filter needsWorkspace =
      nodes.filter needsWorkspace ++ [node] := by
    simp [needsWorkspace, need]
  have placed : offset.toNat = alignUp (placedEnd 0 (needsOf nodes)) alignment.toNat := by
    rw [aligned, laid.total]
  refine ⟨?_, ?_, ?_, ?_, laid.backend⟩
  · rw [listed]
    exact List.rel_append laid.records (.cons ⟨rfl, need⟩ .nil)
  · rw [needsOf_concat_some need, place_append, List.map_append, laid.blocks]
    simp only [List.map_singleton, MgWorkspaceRecord.block, placed]
    rfl
  · rw [needsOf_concat_some need, placedEnd_append, toNat_add_of_not_gt bounded, placed]
    rfl
  · rw [needsOf_concat_some need, widest_concat, toNat_ite_max, laid.widest]

end Nodes

/-! ### Planning -/

/-- Every allocation succeeds, and the heap is this one. -/
def Grants (heap : RefHeap Object) (env : Env) : Prop := env.Granting ∧ env.heap = heap

/-- A body that plans these nodes if their layout fits, and otherwise fails without having
touched a reference count. -/
def Plans (heap : RefHeap Object) (nodes : List MgNode) (body : Run MgWorkspacePlan) : Prop :=
  Triple (Grants heap) body
    (fun plan env => Representable nodes ∧ LaidOut nodes plan ∧ plan.arena = none ∧ Grants heap env)
    (fun _ env => ¬ Representable nodes ∧ env.heap = heap)

section Planning

variable {heap : RefHeap Object} {nodes : List MgNode} {plan : MgWorkspacePlan} {node : MgNode}
  {size alignment : UInt64}

theorem attemptOr_grants (reason : Fault) {failed : Fault → Env → Prop} :
    Triple (Grants heap) (attemptOr reason) (fun _ => Grants heap) failed := by
  rintro env ⟨granting, same⟩
  rw [attemptOr_at (granting env.clock)]
  exact ⟨granting, same⟩

theorem mgWorkspacePlanAppend_plans (laid : LaidOut nodes plan) (bare : plan.arena = none)
    (need : node.workspaceNeed = some (size, alignment)) (valid : WorkspaceValid size alignment)
    (few : plan.records.length + 1 < 2 ^ 59) :
    Plans heap (nodes ++ [node]) (mgWorkspacePlanAppend plan node.id size alignment) := by
  have ends : placedEnd 0 (needsOf (nodes ++ [node])) =
      alignUp plan.totalSize.toNat alignment.toNat + size.toNat := by
    rw [needsOf_concat_some need, placedEnd_append, ← laid.total]
    rfl
  refine Triple.orFail (fun offset rounded => ?_) fun refused _ grants => ⟨?_, grants.2⟩
  · have aligned := mgAlignUpSize_some valid.alignment rounded
    refine Triple.require (fun bounded => ?_) fun wraps _ grants => ⟨?_, grants.2⟩
    · have total := toNat_add_of_not_gt bounded
      have fits : Representable (nodes ++ [node]) := by
        have below := (offset + size).toNat_lt
        unfold Representable
        omega
      refine Triple.require (fun _ => ?_) fun full => ?_
      · exact Triple.bind (attemptOr_grants _) fun _ => Triple.pure fun _ grants =>
          ⟨fits, laid.record need aligned bounded, bare, grants⟩
      · have capacity : (sizeMax / sizeofMgWorkspaceRecord).toNat = 2 ^ 59 - 1 := by decide
        rw [capacity] at full
        omega
    · have above := UInt64.lt_iff_toNat_lt.mp (not_not.mp wraps)
      rw [toNat_sizeMax_sub] at above
      unfold Representable
      omega
  · have beyond := mgAlignUpSize_none valid.alignment refused
    unfold Representable
    omega

/-- A need that was checked when its node was added passes the same check again. -/
theorem WorkspaceValid.accepted (valid : WorkspaceValid size alignment) :
    mgWorkspaceDescValidate (some ⟨sizeofMgWorkspaceDesc, size, alignment⟩) .planMemory =
      .ok ⟨sizeofMgWorkspaceDesc, size, alignment⟩ := by
  obtain ⟨nonzero, power⟩ := valid
  simp [mgWorkspaceDescValidate, descValidate, demand, nonzero, power]
  rfl

theorem planWorkspaceNode_plans (laid : LaidOut nodes plan) (bare : plan.arena = none)
    (fits : Representable nodes) (valid : node.as.Valid)
    (few : needsWorkspace node = true → plan.records.length + 1 < 2 ^ 59) :
    Plans heap (nodes ++ [node]) (planWorkspaceNode plan node) := by
  unfold planWorkspaceNode
  rcases need : node.workspaceNeed with _ | ⟨size, alignment⟩
  · refine Triple.pure fun _ grants => ⟨?_, laid.skip need, bare, grants⟩
    unfold Representable at *
    rwa [needsOf_concat_none need]
  · have wanted := need_valid valid need
    have checked : Plans heap (nodes ++ [node]) (do
        let _ ← ofExcept (mgWorkspaceDescValidate
          (some ⟨sizeofMgWorkspaceDesc, size, alignment⟩) .planMemory)
        mgWorkspacePlanAppend plan node.id size alignment) :=
      Triple.ofExcept (fun _ _ => mgWorkspacePlanAppend_plans laid bare need wanted
          (few (by simp [needsWorkspace, need])))
        fun reason refused => by simp [wanted.accepted] at refused
    apply Triple.catching checked
    intro reason
    unfold mgWorkspacePlanClear
    rw [bare]
    exact Triple.bind (Triple.pure fun _ kept => kept) fun _ => Triple.fail fun _ kept => kept

variable {graph : MgGraph}

theorem listed_concat {done rest : List Nat} {index : Nat}
    (present : graph.nodes[index]? = some node) :
    graph.listed (done ++ index :: rest) = graph.listed done ++ [node] ++ graph.listed rest := by
  simp [MgGraph.listed, List.filterMap_append, present]

theorem listed_valid (valid : NodesValid graph.nodes) (order : List Nat) :
    NodesValid (graph.listed order) := by
  intro node member
  obtain ⟨index, _, present⟩ := MgGraph.mem_listed.mp member
  exact valid node (List.mem_of_getElem? present)

/-- The loop plans the rest of the order after what it has planned already. -/
theorem planLoop_plans {done rest : List Nat} (valid : NodesValid graph.nodes)
    (laid : LaidOut (graph.listed done) plan) (bare : plan.arena = none)
    (fits : Representable (graph.listed done)) (inside : ∀ index ∈ rest, index < graph.nodes.length)
    (few : ((graph.listed (done ++ rest)).filter needsWorkspace).length < 2 ^ 59) :
    Plans heap (graph.listed (done ++ rest)) (foldEach
      (fun plan index => do
        let node ← nodeAt graph index
        planWorkspaceNode plan node)
      plan rest) := by
  induction rest generalizing done plan with
  | nil =>
      rw [List.append_nil]
      exact Triple.pure fun _ grants => ⟨fits, laid, bare, grants⟩
  | cons index rest ih =>
      obtain ⟨node, present⟩ : ∃ node, graph.nodes[index]? = some node :=
        ⟨_, List.getElem?_eq_getElem (inside index (by simp))⟩
      have nodeValid := valid node (List.mem_of_getElem? present)
      have listed : graph.listed (done ++ index :: rest) =
          graph.listed done ++ [node] ++ graph.listed rest := listed_concat present
      have count := laid.records.length_eq
      have room : needsWorkspace node = true → plan.records.length + 1 < 2 ^ 59 := by
        intro needs
        rw [listed] at few
        simp only [List.filter_append, List.filter_cons, needs, ↓reduceIte, List.filter_nil,
          List.length_append, List.length_singleton] at few
        omega
      have first : Plans heap (graph.listed done ++ [node]) (do
          let node ← nodeAt graph index
          planWorkspaceNode plan node) := by
        refine Triple.orFail (fun other found => ?_) fun missing => ?_
        · cases present.symm.trans found
          exact planWorkspaceNode_plans laid bare fits nodeValid room
        · cases present.symm.trans missing
      have stops : ¬ Representable (graph.listed done ++ [node]) →
          ¬ Representable (graph.listed (done ++ index :: rest)) := by
        intro beyond whole
        rw [listed] at whole
        exact beyond (whole.of_append (listed_valid valid rest))
      refine Triple.bind (first.weaken (fun _ grants => grants) (fun _ _ planned => planned)
        fun _ _ stopped => ⟨stops stopped.1, stopped.2⟩) fun next => ?_
      rintro env ⟨fits', laid', bare', grants⟩
      have same : done ++ index :: rest = (done ++ [index]) ++ rest := by simp
      rw [same] at few ⊢
      rw [← graph.listed_append done present] at fits' laid'
      have later : ∀ other ∈ rest, other < graph.nodes.length := fun other member =>
        inside other (by simp [member])
      exact ih laid' bare' fits' later few env grants

/-- What the workspace nodes of the graph ask for, in this order. -/
def MgGraph.needs (graph : MgGraph) (order : List Nat) : List Need := needsOf (graph.listed order)

/-- The greedy layout ends inside the address space and inside the arena. -/
structure LayoutFits (graph : MgGraph) (order : List Nat) : Prop where
  representable : placedEnd 0 (graph.needs order) ≤ 2 ^ 64 - 1
  size : ∀ arena, graph.arena = some arena →
    placedEnd 0 (graph.needs order) ≤ arena.size.toNat
  alignment : ∀ arena, graph.arena = some arena →
    ∀ need ∈ graph.needs order, need.alignment ≤ arena.alignment.toNat

/-- The plan is the greedy layout, attached to the arena of the graph. -/
structure GreedyPlan (graph : MgGraph) (order : List Nat) (plan : MgWorkspacePlan) : Prop where
  records : List.Forall₂ RecordFor ((graph.listed order).filter needsWorkspace) plan.records
  placed : plan.records.map MgWorkspaceRecord.block = place 0 (graph.needs order)
  total : plan.totalSize.toNat = placedEnd 0 (graph.needs order)
  alignment : plan.alignment.toNat = widest (graph.needs order)
  aligned : ∀ record ∈ plan.records, record.alignment.toNat ∣ record.offset.toNat
  disjoint : plan.records.Pairwise fun first second =>
    first.offset.toNat + first.size.toNat ≤ second.offset.toNat
  inside : ∀ record ∈ plan.records,
    record.offset.toNat + record.size.toNat ≤ plan.totalSize.toNat
  arena : plan.arena = graph.arena
  backend : plan.backendImpl = none

theorem LaidOut.greedy {order : List Nat} (laid : LaidOut (graph.listed order) plan)
    (valid : NodesValid graph.nodes) {arena : Option MgArena} (same : arena = graph.arena) :
    GreedyPlan graph order { plan with arena := arena } := by
  have aligned : Aligned (graph.needs order) := needsOf_aligned (listed_valid valid order)
  have member : ∀ record ∈ plan.records, record.block ∈ place 0 (graph.needs order) := by
    intro record listed
    rw [MgGraph.needs, ← laid.blocks]
    exact List.mem_map_of_mem listed
  have disjoint : (plan.records.map MgWorkspaceRecord.block).Pairwise
      fun first second => first.finish ≤ second.offset := by
    rw [laid.blocks]
    exact place_disjoint aligned
  refine ⟨laid.records, laid.blocks, laid.total, laid.widest, ?_, ?_, ?_, same, laid.backend⟩
  · exact fun record listed => place_aligned _ (member record listed)
  · exact List.pairwise_map.mp disjoint
  · intro record listed
    have within := (place_within aligned _ (member record listed)).2
    rwa [MgGraph.needs, ← laid.total] at within

/-- The heap once the plan refers to the arena. -/
def attached (heap : RefHeap Object) (arena : Option MgArena) : RefHeap Object :=
  arena.elim heap fun arena => heap.retain arena.address

theorem mgGraphPlanWorkspace_decides {order : List Nat} (valid : NodesValid graph.nodes)
    (inside : ∀ index ∈ order, index < graph.nodes.length)
    (few : ((graph.listed order).filter needsWorkspace).length < 2 ^ 59) :
    Triple (Grants heap) (mgGraphPlanWorkspace graph order)
      (fun plan env => LayoutFits graph order ∧ GreedyPlan graph order plan ∧
        env.heap = attached heap graph.arena)
      (fun _ env => ¬ LayoutFits graph order ∧ env.heap = heap) := by
  have empty : Representable (graph.listed []) := Nat.zero_le _
  have loop : Plans heap (graph.listed ([] ++ order)) _ :=
    planLoop_plans valid laidOut_nil rfl empty inside few
  refine Triple.bind (loop.weaken (fun _ grants => grants) (fun _ _ planned => planned)
    fun _ _ stopped => ⟨fun fits => stopped.1 fits.representable, stopped.2⟩) fun plan => ?_
  rintro env ⟨fits, laid, bare, grants⟩
  rcases given : graph.arena with _ | arena
  · have fits' : LayoutFits graph order := ⟨fits, by simp [given], by simp [given]⟩
    have greedy := laid.greedy valid given.symm
    rw [← bare] at greedy
    exact ⟨fits', greedy, grants.2⟩
  · have small : ¬ plan.totalSize > arena.size ↔
        placedEnd 0 (graph.needs order) ≤ arena.size.toNat := by
      rw [UInt64.not_lt, UInt64.le_iff_toNat_le, laid.total]
      rfl
    have narrow : ¬ plan.alignment > arena.alignment ↔
        ∀ need ∈ graph.needs order, need.alignment ≤ arena.alignment.toNat := by
      rw [UInt64.not_lt, UInt64.le_iff_toNat_le, laid.widest, widest_le_iff]
      rfl
    have attach : Triple (Grants heap) (attachArena plan arena)
        (fun plan env => LayoutFits graph order ∧ GreedyPlan graph order plan ∧
          env.heap = attached heap (some arena))
        (fun _ env => ¬ LayoutFits graph order ∧ env.heap = heap) := by
      refine Triple.require (fun size => ?_) fun large _ grants =>
        ⟨fun fits => large (small.mpr (fits.size arena given)), grants.2⟩
      refine Triple.require (fun alignment => ?_) fun wide _ grants =>
        ⟨fun fits => wide (narrow.mpr (fits.alignment arena given)), grants.2⟩
      have fits' : LayoutFits graph order := by
        refine ⟨fits, ?_, ?_⟩ <;> intro other same <;> cases given.symm.trans same
        · exact small.mp size
        · exact narrow.mp alignment
      refine Triple.bind (Triple.update fun env grants => ?_) fun _ => Triple.pure fun _ kept =>
        ⟨fits', laid.greedy valid given.symm, kept⟩
      exact congrArg (RefHeap.retain · arena.address) grants.2
    refine Triple.catching attach (fun reason => ?_) env grants
    unfold mgWorkspacePlanClear
    rw [bare]
    exact Triple.bind (Triple.pure fun _ kept => kept) fun _ => Triple.fail fun _ kept => kept

end Planning

/-! ### The out parameter -/

section Out

variable {graph : MgGraph} {plan before : MgWorkspacePlan} {env : Env}

/-- What the caller finds: the plan, or a zeroed one after a failure. -/
def filledPlan : Except Fault MgWorkspacePlan × Env → Except Fault Unit × Focus MgWorkspacePlan
  | (.ok plan, env) => (.ok (), ⟨plan, env⟩)
  | (.error reason, env) => (.error reason, ⟨MgWorkspacePlan.zero, env⟩)

theorem mgWorkspacePlanClear_total (plan : MgWorkspacePlan) : Total (mgWorkspacePlanClear plan) :=
  mgArenaRelease_total plan.arena

/-- A failed step gives up the plan it has found. -/
theorem clearingOutPlan_step (body : Run MgWorkspacePlan) :
    (do
      let next ← clearingOutPlan (onEnv body)
      modifySelf fun _ => next : Over MgWorkspacePlan Unit) ⟨plan, env⟩ =
      filledPlan (cleaning body (mgWorkspacePlanClear plan) env) := by
  simp only [bind_apply, clearingOutPlan, cleaning, Eff.catching, onEnv_apply]
  rcases ran : body env with ⟨reason | next, reached⟩
  · obtain ⟨cleared, released⟩ := mgWorkspacePlanClear_total plan reached
    simp only [clearOutPlan, bind_apply, self_apply, onEnv_apply, released, modifySelf_apply,
      fail_apply, filledPlan]
  · simp only [modifySelf_apply, filledPlan]

theorem planWorkspaceNodeOut_eq (node : MgNode) :
    planWorkspaceNodeOut node ⟨plan, env⟩ = filledPlan (planWorkspaceNode plan node env) := by
  unfold planWorkspaceNodeOut planWorkspaceNode
  rcases node.workspaceNeed with _ | ⟨size, alignment⟩
  · rfl
  · dsimp only
    rcases checked : mgWorkspaceDescValidate (some ⟨sizeofMgWorkspaceDesc, size, alignment⟩)
      .planMemory with reason | desc
    · obtain ⟨cleared, released⟩ := mgWorkspacePlanClear_total plan env
      simp only [bind_apply, clearingOutPlan, cleaning, Eff.catching, ofExcept_apply, clearOutPlan,
        self_apply, onEnv_apply, released, modifySelf_apply, fail_apply, filledPlan]
    · exact clearingOutPlan_step (mgWorkspacePlanAppend plan node.id size alignment)

theorem planLoopOut_eq {order : List Nat} (inside : ∀ index ∈ order, index < graph.nodes.length) :
    forEach
        (fun index => do
          let node ← onEnv (nodeAt graph index)
          planWorkspaceNodeOut node)
        order ⟨plan, env⟩ =
      filledPlan (foldEach
        (fun plan index => do
          let node ← nodeAt graph index
          planWorkspaceNode plan node)
        plan order env) := by
  induction order generalizing plan env with
  | nil => rfl
  | cons index rest ih =>
      obtain ⟨node, present⟩ : ∃ node, graph.nodes[index]? = some node :=
        ⟨_, List.getElem?_eq_getElem (inside index (by simp))⟩
      have others := fun other member => inside other (List.mem_cons_of_mem index member)
      have found : nodeAt graph index env = (.ok node, env) := nodeAt_ok.mpr ⟨present, rfl⟩
      have read : onEnv (nodeAt graph index) ⟨plan, env⟩ = (.ok node, ⟨plan, env⟩) :=
        onEnv_ok.mpr ⟨found, rfl⟩
      have stepOut := (bind_of_ok _ read planWorkspaceNodeOut).trans (planWorkspaceNodeOut_eq node)
      have step := bind_of_ok env found (planWorkspaceNode plan)
      rcases ran : planWorkspaceNode plan node env with ⟨reason | next, reached⟩ <;>
        rw [ran] at step stepOut
      · exact (bind_of_error _ stepOut _).trans
          (congrArg filledPlan (bind_of_error env step _).symm)
      · exact ((bind_of_ok _ stepOut _).trans (ih others)).trans
          (congrArg filledPlan (bind_of_ok env step _).symm)

/-- Both forms of the function do the same, whatever the out parameter held before. -/
theorem mgGraphPlanWorkspaceOut_eq {order : List Nat}
    (inside : ∀ index ∈ order, index < graph.nodes.length) :
    mgGraphPlanWorkspaceOut graph order ⟨before, env⟩ =
      filledPlan (mgGraphPlanWorkspace graph order env) := by
  have loop := @planLoopOut_eq graph .zero env order inside
  simp only [mgGraphPlanWorkspaceOut, mgGraphPlanWorkspace, bind_apply, modifySelf_apply, loop]
  rcases foldEach _ MgWorkspacePlan.zero order env with ⟨reason | plan, reached⟩
  · rfl
  · rcases graph.arena with _ | arena
    · rfl
    · exact clearingOutPlan_step (attachArena plan arena)

end Out

/-! ### Reachable graphs -/

theorem Reachable.nodesValid {system : System} (reachable : Reachable system) {address : GraphPtr}
    {graph : MgGraph} (live : system.world.graphs.get? address = some graph) :
    NodesValid graph.nodes := by
  intro node member
  obtain ⟨index, present⟩ := List.mem_iff_getElem?.mp member
  exact ((reachable.graphsWf address graph live).nodes index node present).valid

/-- An order of all positions lists all nodes. -/
theorem listed_perm {graph : MgGraph} {order : List Nat}
    (permutation : order.Perm (List.range graph.nodes.length)) :
    (graph.listed order).Perm graph.nodes := by
  have whole : graph.listed (List.range graph.nodes.length) = graph.nodes :=
    filterMap_getElem?_range graph.nodes
  exact whole ▸ permutation.filterMap _

/-- Planning a reachable graph succeeds exactly if the greedy layout over unbounded numbers
fits the address space and the arena. The plan is then that layout, and the arena is
retained once; otherwise the plan is zeroed and no count has changed. -/
theorem plan_iff_layout_fits {system : System} (reachable : Reachable system)
    {address : GraphPtr} {graph : MgGraph} (live : system.world.graphs.get? address = some graph)
    {order : List Nat} (permutation : order.Perm (List.range graph.nodes.length))
    (few : (graph.nodes.filter needsWorkspace).length < 2 ^ 59) {env : Env}
    (granting : env.Granting) (before : MgWorkspacePlan) :
    ∃ result plan reached,
      mgGraphPlanWorkspaceOut graph order ⟨before, env⟩ = (result, ⟨plan, reached⟩) ∧
      (graph.listed order).Perm graph.nodes ∧
      (result = .ok () ↔ LayoutFits graph order) ∧
      (result = .ok () → GreedyPlan graph order plan ∧
        reached.heap = attached env.heap graph.arena) ∧
      (result ≠ .ok () → plan = MgWorkspacePlan.zero ∧ reached.heap = env.heap) := by
  have listed := listed_perm permutation
  have inside : ∀ index ∈ order, index < graph.nodes.length := fun index member =>
    List.mem_range.mp (permutation.mem_iff.mp member)
  have few' : ((graph.listed order).filter needsWorkspace).length < 2 ^ 59 := by
    rwa [(listed.filter needsWorkspace).length_eq]
  have start : Grants env.heap env := ⟨granting, rfl⟩
  have decides := mgGraphPlanWorkspace_decides (reachable.nodesValid live) inside few' env start
  rw [mgGraphPlanWorkspaceOut_eq inside]
  rcases ran : mgGraphPlanWorkspace graph order env with ⟨reason | plan, reached⟩ <;>
    rw [ran] at decides
  · exact ⟨_, _, _, rfl, listed, by simpa using decides.1, by simp, fun _ => ⟨rfl, decides.2⟩⟩
  · exact ⟨_, _, _, rfl, listed, by simpa using decides.1, fun _ => decides.2, by simp⟩

/-! Two blocks that are planned against the order of their nodes. -/

def blocksCalls : List Call :=
  [.counted (.arenaCreate (some ⟨some 7⟩) (some ⟨24, 256, 64⟩)), .graphCreate,
    .graphEdit (some 0) (.setArena (some ⟨0, 256, 64⟩)),
    .graphEdit (some 0) (.addNode (.workspace (some ⟨24, 16, 64⟩))),
    .graphEdit (some 0) (.addNode .barrier),
    .graphEdit (some 0) (.addNode (.workspace (some ⟨24, 24, 8⟩)))]

def blocksGraph : MgGraph where
  address := 0
  nodes := [⟨0, 1, 0, 0, .workspace ⟨16, 64⟩⟩, ⟨0, 2, 1, 0, .barrier⟩,
    ⟨0, 3, 2, 0, .workspace ⟨24, 8⟩⟩]
  nodeCapacity := 4
  edges := []
  edgeCapacity := 0
  arena := some ⟨0, 256, 64⟩

theorem plan_of_blocks :
    LayoutFits blocksGraph [2, 1, 0] ∧
      (mgGraphPlanWorkspaceOut blocksGraph [2, 1, 0]
        ⟨MgWorkspacePlan.zero, (grantAll.run blocksCalls).world.env⟩).1 = .ok () := by
  have reachable : Reachable (grantAll.run blocksCalls) :=
    (Reachable.start _ _ _).run (by decide +kernel)
  have live : (grantAll.run blocksCalls).world.graphs.get? 0 = some blocksGraph := by
    decide +kernel
  have granting : (grantAll.run blocksCalls).world.env.Granting := fun _ => rfl
  have fits : LayoutFits blocksGraph [2, 1, 0] := by
    refine ⟨by decide, ?_, ?_⟩ <;> rintro arena ⟨⟩
    · decide
    · decide
  have permutation : [2, 1, 0].Perm (List.range blocksGraph.nodes.length) := by decide
  obtain ⟨result, plan, reached, ran, _, decides, _⟩ :=
    plan_iff_layout_fits reachable live permutation (by decide) granting MgWorkspacePlan.zero
  rw [ran]
  exact ⟨fits, decides.mpr fits⟩

end MetalGraph
