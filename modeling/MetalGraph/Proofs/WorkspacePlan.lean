import MetalGraph.Base.Pairing
import MetalGraph.Proofs.GraphInvariant

set_option autoImplicit false

/- The workspace plan of an ordered graph: one record for each workspace node, in
order, each inside the planned size. -/
namespace MetalGraph

open Eff

theorem mgAlignUpSize_ge {value alignment aligned : UInt64}
    (success : mgAlignUpSize value alignment = some aligned) : value.toNat ≤ aligned.toNat := by
  unfold mgAlignUpSize at success
  split at success
  · cases success
  · dsimp only at success
    split at success
    · cases success
    · rename_i bounded
      cases success
      have sum := toNat_add_of_not_gt bounded
      have parts := toNat_and_add_and_not (value + (alignment - 1)) (alignment - 1)
      have low := toNat_and_le (value + (alignment - 1)) (alignment - 1)
      omega

/-! ### Records -/

/-- The record made for a workspace node. -/
def RecordFor (node : MgNode) (record : MgWorkspaceRecord) : Prop :=
  record.nodeId = node.id ∧ node.workspaceNeed = some (record.size, record.alignment)

def needsWorkspace (node : MgNode) : Bool := node.workspaceNeed.isSome

/-- The plan of some nodes, taken in this order. -/
structure PlanFor (nodes : List MgNode) (plan : MgWorkspacePlan) : Prop where
  records : List.Forall₂ RecordFor (nodes.filter needsWorkspace) plan.records
  inside : ∀ record ∈ plan.records, record.offset.toNat + record.size.toNat ≤ plan.totalSize.toNat
  backend : plan.backendImpl = none

theorem planFor_nil : PlanFor [] MgWorkspacePlan.zero where
  records := .nil
  inside := by simp [MgWorkspacePlan.zero]
  backend := rfl

theorem mgWorkspacePlanAppend_ok {nodes : List MgNode} {plan next : MgWorkspacePlan}
    {node : MgNode} {size alignment : UInt64} {env reached : Env} (planned : PlanFor nodes plan)
    (need : node.workspaceNeed = some (size, alignment))
    (success : mgWorkspacePlanAppend plan node.id size alignment env = (.ok next, reached)) :
    PlanFor (nodes ++ [node]) next := by
  simp only [mgWorkspacePlanAppend, bind_ok, orFail_ok, require_ok, pure_ok] at success
  obtain ⟨offset, _, ⟨aligned, _⟩, _, _, ⟨bounded, _⟩, _, _, _, _, _, _, rfl, _⟩ := success
  have grows := mgAlignUpSize_ge aligned
  have sum := toNat_add_of_not_gt bounded
  have listed :
      (nodes ++ [node]).filter needsWorkspace = nodes.filter needsWorkspace ++ [node] := by
    simp [needsWorkspace, need]
  refine ⟨?_, ?_, planned.backend⟩
  · rw [listed]
    exact List.rel_append planned.records (.cons ⟨rfl, need⟩ .nil)
  · intro record member
    simp only [sum]
    rcases List.mem_append.mp member with old | new
    · have := planned.inside record old
      omega
    · cases List.mem_singleton.mp new
      exact Nat.le_refl _

theorem planWorkspaceNode_ok {nodes : List MgNode} {plan next : MgWorkspacePlan} {node : MgNode}
    {env reached : Env} (planned : PlanFor nodes plan)
    (success : planWorkspaceNode plan node env = (.ok next, reached)) :
    PlanFor (nodes ++ [node]) next := by
  rcases need : node.workspaceNeed with _ | ⟨size, alignment⟩ <;>
    simp only [planWorkspaceNode, need] at success
  · obtain ⟨rfl, _⟩ := pure_ok.mp success
    refine ⟨?_, planned.inside, planned.backend⟩
    simpa [List.filter_append, needsWorkspace, need] using planned.records
  · simp only [cleaning_ok, bind_ok] at success
    obtain ⟨_, _, _, appended⟩ := success
    exact mgWorkspacePlanAppend_ok planned need appended

/-- The nodes at the given positions. -/
def MgGraph.listed (graph : MgGraph) (order : List Nat) : List MgNode :=
  order.filterMap fun index => graph.nodes[index]?

theorem MgGraph.listed_append (graph : MgGraph) (order : List Nat) {index : Nat} {node : MgNode}
    (present : graph.nodes[index]? = some node) :
    graph.listed (order ++ [index]) = graph.listed order ++ [node] := by
  simp [MgGraph.listed, List.filterMap_append, present]

theorem MgGraph.mem_listed {graph : MgGraph} {order : List Nat} {node : MgNode} :
    node ∈ graph.listed order ↔ ∃ index ∈ order, graph.nodes[index]? = some node := by
  simp [MgGraph.listed]

theorem nodeAt_ok {graph : MgGraph} {index : Nat} {node : MgNode} {env reached : Env} :
    nodeAt graph index env = (.ok node, reached) ↔
      graph.nodes[index]? = some node ∧ env = reached := orFail_ok

/-- Attaching the arena keeps the records and the size. -/
theorem attachArena_ok {nodes : List MgNode} {plan next : MgWorkspacePlan} {arena : MgArena}
    {env reached : Env} (planned : PlanFor nodes plan)
    (success : attachArena plan arena env = (.ok next, reached)) : PlanFor nodes next := by
  simp only [attachArena, bind_ok, require_ok, pure_ok] at success
  obtain ⟨_, _, _, _, _, _, _, _, _, rfl, _⟩ := success
  exact ⟨planned.records, planned.inside, planned.backend⟩

theorem mgGraphPlanWorkspace_ok {graph : MgGraph} {order : List Nat} {plan : MgWorkspacePlan}
    {env reached : Env}
    (success : mgGraphPlanWorkspace graph order env = (.ok plan, reached)) :
    PlanFor (graph.listed order) plan := by
  simp only [mgGraphPlanWorkspace, bind_ok] at success
  obtain ⟨laidOut, middle, looped, attached⟩ := success
  have planned : PlanFor (graph.listed order) laidOut := by
    refine Triple.foldEach_ok (fun done plan => PlanFor (graph.listed done) plan) ?_ planFor_nil
      looped
    intro done index plan next state after _ held ran
    simp only [bind_ok, nodeAt_ok] at ran
    obtain ⟨node, _, ⟨present, _⟩, placed⟩ := ran
    rw [graph.listed_append done present]
    exact planWorkspaceNode_ok held placed
  rcases attachment : graph.arena with _ | arena <;> simp only [attachment] at attached
  · obtain ⟨rfl, _⟩ := pure_ok.mp attached
    exact planned
  · exact attachArena_ok planned (cleaning_ok.mp attached)

/-! ### Offsets -/

section Offsets

variable {nodes : List MgNode} {plan : MgWorkspacePlan} {node : MgNode}

theorem mgWorkspacePlanOffsetForNode_ok {nodeId : MgNodeId} {offset : UInt64}
    (success : mgWorkspacePlanOffsetForNode plan nodeId = .ok offset) :
    ∃ record ∈ plan.records, record.nodeId = nodeId ∧ record.offset = offset := by
  unfold mgWorkspacePlanOffsetForNode at success
  split at success
  · rename_i record found
    cases success
    exact ⟨record, List.mem_of_find?_eq_some found, by simpa using List.find?_some found, rfl⟩
  · cases success

/-- Every workspace node that was planned has a record. -/
theorem PlanFor.record_of_mem (planned : PlanFor nodes plan) (member : node ∈ nodes)
    (needs : needsWorkspace node = true) : ∃ record ∈ plan.records, RecordFor node record :=
  mem_of_forall₂ planned.records (List.mem_filter.mpr ⟨member, needs⟩)

theorem PlanFor.node_of_record (planned : PlanFor nodes plan) {record : MgWorkspaceRecord}
    (member : record ∈ plan.records) : ∃ node ∈ nodes, RecordFor node record := by
  obtain ⟨node, listed, made⟩ := mem_of_forall₂' planned.records member
  exact ⟨node, (List.mem_filter.mp listed).1, made⟩

/-- The lookup by id cannot fail for a node that was planned. -/
theorem PlanFor.offset_of_mem (planned : PlanFor nodes plan) (member : node ∈ nodes)
    (needs : needsWorkspace node = true) :
    ∃ offset, mgWorkspacePlanOffsetForNode plan node.id = .ok offset := by
  obtain ⟨record, listed, made⟩ := planned.record_of_mem member needs
  unfold mgWorkspacePlanOffsetForNode
  rcases found : plan.records.find? fun record => record.nodeId == node.id with _ | first
  · have absent := List.find?_eq_none.mp found record listed
    simp [made.1] at absent
  · exact ⟨first.offset, by rw [found]⟩

end Offsets

end MetalGraph
