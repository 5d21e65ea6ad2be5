import MetalGraph.Proofs.Meaning
import MetalGraph.Proofs.WorkspacePlan

set_option autoImplicit false

/- What a graph means: any order of its nodes that respects the dependencies, when nodes
that interfere are ordered by them. -/
namespace MetalGraph

/-! ### Graphs -/

/-- Of two nodes one of which writes what the other touches, one depends on the other. -/
def MgGraph.ConflictsOrdered (graph : MgGraph) : Prop :=
  ∀ first second node other, graph.nodes[first]? = some node →
    graph.nodes[second]? = some other → first ≠ second →
    ¬ node.as.footprint.Apart other.as.footprint →
      Relation.TransGen (dependsOn graph.edges) first second ∨
        Relation.TransGen (dependsOn graph.edges) second first

/-- The nodes of a graph performed in an order of their indices. -/
def Programs.graph (programs : Programs) (graph : MgGraph) (order : List Nat) (memory : Memory) :
    Memory :=
  programs.perform ((graph.listed order).map MgNode.as) memory

section Orders

variable {programs : Programs} {graph : MgGraph} {order : List Nat} {memory : Memory}

/-- What one index of an order stands for. -/
def Programs.atIndex (programs : Programs) (graph : MgGraph) (memory : Memory) (index : Nat) :
    Memory :=
  (graph.nodes[index]?).elim memory fun node => programs.node node.as memory

theorem graph_eq_foldl :
    programs.graph graph order memory = order.foldl (programs.atIndex graph) memory := by
  induction order generalizing memory with
  | nil => rfl
  | cons index rest ih =>
      rw [List.foldl_cons, ← ih]
      unfold Programs.graph Programs.atIndex MgGraph.listed
      rcases present : graph.nodes[index]? with _ | node
      · simp [present]
      · simp [present, Programs.perform]

theorem IsTopologicalOrder.pairwise {count : Nat} {edges : List MgEdge}
    (sorted : IsTopologicalOrder count edges order) :
    order.Pairwise fun earlier later =>
      ¬ Relation.TransGen (dependsOn edges) later earlier := by
  apply Respects.pairwise (sorted.perm.nodup_iff.mpr List.nodup_range)
  intro before after edge _
  exact sorted.respects ⟨before, after⟩ edge

theorem atIndex_commute (honest : ∀ node ∈ graph.nodes, programs.Honest node.as)
    (ordered : graph.ConflictsOrdered) {first second : Nat}
    (free : ¬ Relation.TransGen (dependsOn graph.edges) first second)
    (free' : ¬ Relation.TransGen (dependsOn graph.edges) second first) (memory : Memory) :
    programs.atIndex graph (programs.atIndex graph memory first) second =
      programs.atIndex graph (programs.atIndex graph memory second) first := by
  by_cases same : first = second
  · rw [same]
  unfold Programs.atIndex
  rcases present : graph.nodes[first]? with _ | node
  · rfl
  rcases present' : graph.nodes[second]? with _ | other
  · rfl
  have apart : node.as.footprint.Apart other.as.footprint := by
    by_contra conflict
    exact (ordered first second node other present present' same conflict).elim free free'
  have confined := Programs.node_confined (honest node (List.mem_of_getElem? present))
  have confined' := Programs.node_confined (honest other (List.mem_of_getElem? present'))
  exact (confined.commute confined' apart memory).symm

/-- A graph whose conflicts are ordered does the same in every order of its dependencies. -/
theorem graph_order_irrelevant (honest : ∀ node ∈ graph.nodes, programs.Honest node.as)
    (ordered : graph.ConflictsOrdered) {other : List Nat}
    (sorted : IsTopologicalOrder graph.nodes.length graph.edges order)
    (sorted' : IsTopologicalOrder graph.nodes.length graph.edges other) :
    programs.graph graph order memory = programs.graph graph other memory := by
  rw [graph_eq_foldl, graph_eq_foldl]
  apply foldl_eq_of_ordered (sorted.perm.trans sorted'.perm.symm) sorted.pairwise sorted'.pairwise
  intro first _ second _ free free' memory
  exact atIndex_commute honest ordered free free' memory

end Orders

end MetalGraph
