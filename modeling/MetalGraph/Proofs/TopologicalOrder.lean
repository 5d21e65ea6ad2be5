import Mathlib.Data.List.Count
import MetalGraph.Base.Precedence
import MetalGraph.Model.Topology

set_option autoImplicit false

/- The queue loop. A counter holds the number of edges into its node from nodes that
have not been dequeued yet. -/
namespace MetalGraph

/-- The dependency relation that a list of edges records. -/
def dependsOn (edges : List MgEdge) (before after : Nat) : Prop := ⟨before, after⟩ ∈ edges

def EdgesInside (count : Nat) (edges : List MgEdge) : Prop :=
  ∀ edge ∈ edges, edge.before < count ∧ edge.after < count

/-! ### Counting -/

def intoNode (node : Nat) (edge : MgEdge) : Bool := edge.after == node

def waitsFor (order : List Nat) (node : Nat) (edge : MgEdge) : Bool :=
  edge.after == node && !order.contains edge.before

def leads (current node : Nat) (edge : MgEdge) : Bool :=
  edge.before == current && edge.after == node

theorem countIndegrees_eq {count : Nat} {edges : List MgEdge} (inside : EdgesInside count edges)
    (indegree : Nat → Nat) :
    countIndegrees count edges indegree =
      some fun node => indegree node + edges.countP (intoNode node) := by
  induction edges generalizing indegree with
  | nil => rfl
  | cons edge rest ih =>
      have valid := inside edge (by simp)
      have tail : EdgesInside count rest := fun other member =>
        inside other (List.mem_cons_of_mem _ member)
      simp only [countIndegrees, ge_iff_le, show ¬ (count ≤ edge.before ∨ count ≤ edge.after) by
        omega, ↓reduceIte, ih tail, Option.some.injEq]
      funext node
      simp only [List.countP_cons, intoNode, beq_iff_eq]
      by_cases same : node = edge.after
      · simp only [same, ↓reduceIte]
        omega
      · simp only [same, Ne.symm same, ↓reduceIte]
        omega

/-- Dequeuing a node moves its edges from the waiting ones to the ones to release. -/
theorem countP_waitsFor_dequeue {order : List Nat} {current : Nat} (fresh : current ∉ order)
    (edges : List MgEdge) (node : Nat) :
    edges.countP (waitsFor order node) =
      edges.countP (waitsFor (order ++ [current]) node) + edges.countP (leads current node) := by
  induction edges with
  | nil => rfl
  | cons edge rest ih =>
      simp only [List.countP_cons, ih]
      have split : (if waitsFor order node edge = true then 1 else 0) =
          (if waitsFor (order ++ [current]) node edge = true then 1 else 0) +
            (if leads current node edge = true then 1 else 0) := by
        simp only [waitsFor, leads, Bool.and_eq_true, beq_iff_eq, Bool.not_eq_true',
          List.contains_eq_mem, decide_eq_false_iff_not, List.mem_append, List.mem_singleton]
        by_cases source : edge.before = current
        · simp [source, fresh]
        · simp [source]
      omega

/-! ### The invariant -/

/-- The state between rounds, where `rest` is the part of the current node's edges
that is still to be released. -/
structure Kahn (count : Nat) (edges rest : List MgEdge) (current : Nat)
    (state : TopologicalState) : Prop where
  order_eq : state.order = state.queue.take state.head
  head_le : state.head ≤ state.queue.length
  distinct : state.queue.Nodup
  bounded : ∀ node ∈ state.queue, node < count
  degree : ∀ node, state.indegree node =
    edges.countP (waitsFor state.order node) + rest.countP (leads current node)
  queued : ∀ node, node < count → (node ∈ state.queue ↔ state.indegree node = 0)
  closed : ∀ before after, dependsOn edges before after → after ∈ state.queue →
    before ∈ state.order
  respects : Respects state.queue (dependsOn edges)

theorem countP_waitsFor_eq_zero {edges : List MgEdge} {order : List Nat} {node : Nat} :
    edges.countP (waitsFor order node) = 0 ↔
      ∀ before, dependsOn edges before node → before ∈ order := by
  simp only [List.countP_eq_zero, waitsFor, dependsOn, Bool.and_eq_true, beq_iff_eq,
    Bool.not_eq_true', List.contains_eq_mem, decide_eq_false_iff_not, not_and, not_not]
  constructor
  · exact fun none before edge => none ⟨before, node⟩ edge rfl
  · rintro all ⟨before, after⟩ edge rfl
    exact all before edge

theorem decrementSize_of_pos {value : Nat} (positive : 0 < value) :
    decrementSize value = value - 1 := by
  simp only [decrementSize, show value ≠ 0 by omega, ↓reduceIte]

section Release

variable {count current : Nat} {edges rest : List MgEdge} {edge : MgEdge}
  {state : TopologicalState}

theorem countP_leads_cons (leaves : edge.before = current) :
    (edge :: rest).countP (leads current edge.after) =
      rest.countP (leads current edge.after) + 1 := by
  simp [leads, leaves]

/-- A counter that is about to be decremented is positive. -/
theorem Kahn.pos_of_leads (kahn : Kahn count edges (edge :: rest) current state)
    (leaves : edge.before = current) : 0 < state.indegree edge.after := by
  rw [kahn.degree, countP_leads_cons leaves]
  omega

theorem Kahn.skip (kahn : Kahn count edges (edge :: rest) current state)
    (other : edge.before ≠ current) : Kahn count edges rest current state :=
  { kahn with
    degree := by
      intro node
      rw [kahn.degree]
      simp [leads, other] }

theorem Kahn.decremented_degree (kahn : Kahn count edges (edge :: rest) current state)
    (leaves : edge.before = current) (node : Nat) :
    (state.decrement edge.after).indegree node =
      edges.countP (waitsFor state.order node) + rest.countP (leads current node) := by
  have positive := kahn.pos_of_leads leaves
  have before := kahn.degree node
  simp only [TopologicalState.decrement]
  by_cases target : node = edge.after
  · subst target
    rw [countP_leads_cons leaves] at before
    simp only [↓reduceIte]
    rw [decrementSize_of_pos positive, before]
    omega
  · simp only [target, ↓reduceIte, before]
    simp [leads, Ne.symm target]

/-- The released node was not queued, because its counter was positive. -/
theorem Kahn.fresh_of_leads (kahn : Kahn count edges (edge :: rest) current state)
    (leaves : edge.before = current) (inside : edge.after < count) :
    edge.after ∉ state.queue := by
  intro member
  have zero := (kahn.queued edge.after inside).mp member
  have positive := kahn.pos_of_leads leaves
  omega

theorem Kahn.release_waiting (kahn : Kahn count edges (edge :: rest) current state)
    (leaves : edge.before = current) (inside : edge.after < count)
    (waiting : (state.decrement edge.after).indegree edge.after ≠ 0) :
    Kahn count edges rest current (state.decrement edge.after) :=
  { kahn with
    degree := kahn.decremented_degree leaves
    queued := by
      intro node below
      by_cases target : node = edge.after
      · subst target
        exact ⟨fun member => absurd member (kahn.fresh_of_leads leaves inside),
          fun zero => absurd zero waiting⟩
      · have same : (state.decrement edge.after).indegree node = state.indegree node := by
          simp only [TopologicalState.decrement, target, ↓reduceIte]
        rw [same]
        exact kahn.queued node below }

/-- A counter that reaches zero has waited for the listed nodes only. -/
theorem Kahn.listed_of_ready (kahn : Kahn count edges (edge :: rest) current state)
    (leaves : edge.before = current)
    (ready : (state.decrement edge.after).indegree edge.after = 0) :
    ∀ before, dependsOn edges before edge.after → before ∈ state.order := by
  have zero := kahn.decremented_degree leaves edge.after
  rw [ready] at zero
  exact countP_waitsFor_eq_zero.mp (by omega)

theorem Kahn.release_ready (kahn : Kahn count edges (edge :: rest) current state)
    (leaves : edge.before = current) (inside : edge.after < count)
    (ready : (state.decrement edge.after).indegree edge.after = 0) :
    Kahn count edges rest current ((state.decrement edge.after).enqueue edge.after) := by
  have fresh := kahn.fresh_of_leads leaves inside
  have listed := kahn.listed_of_ready leaves ready
  have order_subset : ∀ node ∈ state.order, node ∈ state.queue := fun node member =>
    List.mem_of_mem_take (kahn.order_eq ▸ member)
  exact
    { order_eq := by
        change state.order = (state.queue ++ [edge.after]).take state.head
        rw [List.take_append_of_le_length kahn.head_le, kahn.order_eq]
      head_le := by
        have := kahn.head_le
        simp only [TopologicalState.enqueue, TopologicalState.decrement, List.length_append]
        omega
      distinct := List.nodup_append'.mpr
        ⟨kahn.distinct, List.nodup_singleton _, List.disjoint_singleton.mpr fresh⟩
      bounded := by
        intro node member
        rcases List.mem_append.mp member with old | new
        · exact kahn.bounded node old
        · exact List.mem_singleton.mp new ▸ inside
      degree := kahn.decremented_degree leaves
      queued := by
        intro node below
        simp only [TopologicalState.enqueue, TopologicalState.decrement, List.mem_append,
          List.mem_singleton] at ready ⊢
        by_cases target : node = edge.after
        · subst target
          simpa using ready
        · simp only [target, or_false, ↓reduceIte]
          exact kahn.queued node below
      closed := by
        intro before after depends member
        rcases List.mem_append.mp member with old | new
        · exact kahn.closed before after depends old
        · cases List.mem_singleton.mp new
          exact listed before depends
      respects := kahn.respects.append
        (fun before after depends member =>
          order_subset before (kahn.closed before after depends member))
        fresh fun before depends => order_subset before (listed before depends) }

/-- Releasing the edges of a node never writes past the end of the queue. -/
theorem releaseEdges_spec (kahn : Kahn count edges rest current state)
    (inside : EdgesInside count rest) :
    ∃ released, releaseEdges count current rest state = some released ∧
      Kahn count edges [] current released ∧ released.head = state.head := by
  induction rest generalizing state with
  | nil => exact ⟨state, rfl, kahn, rfl⟩
  | cons edge rest ih =>
      have tail : EdgesInside count rest := fun other member =>
        inside other (List.mem_cons_of_mem _ member)
      by_cases leaves : edge.before = current
      · have below := (inside edge (by simp)).2
        by_cases waiting : (state.decrement edge.after).indegree edge.after = 0
        · have next := kahn.release_ready leaves below waiting
          have room : (state.decrement edge.after).queue.length < count := by
            have fits := length_le_of_nodup next.distinct next.bounded
            simp only [TopologicalState.enqueue, List.length_append,
              List.length_singleton] at fits
            omega
          obtain ⟨released, ran, result, head⟩ := ih next tail
          refine ⟨released, ?_, result, head⟩
          simp only [releaseEdges, leaves, ne_eq, not_true_eq_false, ↓reduceIte, waiting, room]
          exact ran
        · obtain ⟨released, ran, result, head⟩ :=
            ih (kahn.release_waiting leaves below waiting) tail
          refine ⟨released, ?_, result, head⟩
          simp only [releaseEdges, leaves, ne_eq, not_true_eq_false, ↓reduceIte, waiting,
            not_false_eq_true]
          exact ran
      · obtain ⟨released, ran, result, head⟩ := ih (kahn.skip leaves) tail
        refine ⟨released, ?_, result, head⟩
        simp only [releaseEdges, ne_eq, leaves, not_false_eq_true, ↓reduceIte]
        exact ran

end Release

section Loop

variable {count : Nat} {edges : List MgEdge} {state : TopologicalState}

/-- Between rounds no edge is pending, whatever the current node was. -/
theorem Kahn.start_round {current last : Nat} (kahn : Kahn count edges [] last state)
    (next : state.queue[state.head]? = some current) :
    Kahn count edges edges current (state.dequeue current) := by
  obtain ⟨inside, at_head⟩ := List.getElem?_eq_some_iff.mp next
  have fresh : current ∉ state.order := by
    rw [kahn.order_eq, ← at_head]
    intro member
    obtain ⟨index, bound, same⟩ := List.mem_take_iff_getElem.mp member
    have equal := (kahn.distinct.getElem_inj_iff).mp same
    omega
  exact
    { kahn with
      order_eq := by
        change state.order ++ [current] = state.queue.take (state.head + 1)
        rw [List.take_add_one, next, kahn.order_eq]
        rfl
      head_le := inside
      degree := by
        intro node
        change state.indegree node = _
        rw [kahn.degree, List.countP_nil, Nat.add_zero]
        exact countP_waitsFor_dequeue fresh edges node
      closed := fun before after depends member =>
        List.mem_append_left _ (kahn.closed before after depends member) }

theorem queueLoop_of_ended (rounds : Nat) (ended : state.queue[state.head]? = none) :
    queueLoop count edges rounds state = some state := by
  unfold queueLoop
  rw [ended]

theorem queueLoop_of_next (rounds : Nat) {current : Nat} {released : TopologicalState}
    (next : state.queue[state.head]? = some current)
    (ran : releaseEdges count current edges (state.dequeue current) = some released) :
    queueLoop count edges (rounds + 1) state = queueLoop count edges rounds released := by
  rw [queueLoop]
  simp only [next, ran, Option.bind_eq_bind, Option.bind_some]

theorem Kahn.all_listed {last : Nat} (kahn : Kahn count edges [] last state)
    (ended : state.queue[state.head]? = none) : state.order = state.queue := by
  rw [kahn.order_eq, List.take_of_length_le (List.getElem?_eq_none_iff.mp ended)]

/-- The loop ends within its rounds, with every queued node listed. -/
theorem queueLoop_spec {last rounds : Nat} (kahn : Kahn count edges [] last state)
    (inside : EdgesInside count edges) (enough : count ≤ rounds + state.head) :
    ∃ final last, queueLoop count edges rounds state = some final ∧
      Kahn count edges [] last final ∧ final.order = final.queue := by
  induction rounds generalizing state last with
  | zero =>
      have full := length_le_of_nodup kahn.distinct kahn.bounded
      have ended : state.queue[state.head]? = none := List.getElem?_eq_none (by omega)
      exact ⟨state, last, queueLoop_of_ended 0 ended, kahn, kahn.all_listed ended⟩
  | succ rounds ih =>
      rcases next : state.queue[state.head]? with _ | current
      · exact ⟨state, last, queueLoop_of_ended _ next, kahn, kahn.all_listed next⟩
      · obtain ⟨released, ran, result, head⟩ :=
          releaseEdges_spec (kahn.start_round next) inside
        have remaining : count ≤ rounds + released.head := by
          rw [head]
          change count ≤ rounds + (state.head + 1)
          omega
        obtain ⟨final, last, looped, finished, listed⟩ := ih result remaining
        exact ⟨final, last, by rw [queueLoop_of_next rounds next ran, looped], finished, listed⟩

theorem kahn_initial (count : Nat) (edges : List MgEdge) :
    Kahn count edges [] 0 (initialState count fun node => 0 + edges.countP (intoNode node)) where
  order_eq := rfl
  head_le := Nat.zero_le _
  distinct := List.nodup_range.filter _
  bounded := fun node member => List.mem_range.mp (List.mem_of_mem_filter member)
  degree := by
    intro node
    simp only [initialState, List.countP_nil, Nat.add_zero, Nat.zero_add]
    apply List.countP_congr
    intro edge _
    simp [intoNode, waitsFor]
  queued := by
    intro node below
    simp [initialState, below]
  closed := by
    intro before after depends member
    have zero : edges.countP (intoNode after) = 0 := by
      simpa [initialState] using List.of_mem_filter member
    exact absurd (by simp [intoNode]) (List.countP_eq_zero.mp zero _ depends)
  respects := by
    intro before after depends member
    have zero : edges.countP (intoNode after) = 0 := by
      simpa [initialState] using List.of_mem_filter member
    exact absurd (by simp [intoNode]) (List.countP_eq_zero.mp zero _ depends)

end Loop

/-! ### The order -/

/-- `order` lists the nodes below `count` once each, predecessors first. -/
structure IsTopologicalOrder (count : Nat) (edges : List MgEdge) (order : List Nat) : Prop where
  perm : order.Perm (List.range count)
  respects : ∀ edge ∈ edges, order.idxOf edge.before < order.idxOf edge.after

theorem IsTopologicalOrder.acyclic {count : Nat} {edges : List MgEdge} {order : List Nat}
    (sorted : IsTopologicalOrder count edges order) : Acyclic (dependsOn edges) :=
  acyclic_of_rank order.idxOf fun before after depends => sorted.respects ⟨before, after⟩ depends

theorem invalidTopology_of_cycle {count : Nat} {edges : List MgEdge} {final : TopologicalState}
    {last : Nat} (kahn : Kahn count edges [] last final) (inside : EdgesInside count edges)
    (listed : final.order = final.queue) (short : final.order.length ≠ count) :
    ¬ Acyclic (dependsOn edges) := by
  let residual : Set Nat := {node | node < count ∧ node ∉ final.queue}
  have finite : residual.Finite := (Set.finite_lt_nat count).subset fun node member => member.1
  have inhabited : residual.Nonempty := by
    by_contra empty
    have all : ∀ node < count, node ∈ final.queue := by
      intro node below
      by_contra missing
      exact empty ⟨node, below, missing⟩
    have covers : (List.range count).Subperm final.queue :=
      List.nodup_range.subperm fun node member => all node (List.mem_range.mp member)
    have long := covers.length_le
    have fits := length_le_of_nodup kahn.distinct kahn.bounded
    rw [List.length_range] at long
    rw [listed] at short
    omega
  apply not_acyclic_of_residual finite inhabited
  intro node member
  have waiting : edges.countP (waitsFor final.order node) ≠ 0 := by
    intro zero
    refine member.2 ((kahn.queued node member.1).mpr ?_)
    rw [kahn.degree, zero, List.countP_nil]
  rw [ne_eq, countP_waitsFor_eq_zero] at waiting
  push Not at waiting
  obtain ⟨before, depends, missing⟩ := waiting
  exact ⟨before, ⟨(inside _ depends).1, listed ▸ missing⟩, depends⟩

/-- The sort answers with an order exactly when the dependencies have no cycle. -/
theorem topologicalOrder_cases {count : Nat} {edges : List MgEdge}
    (inside : EdgesInside count edges) :
    (Acyclic (dependsOn edges) ∧ ∃ order, topologicalOrder count edges = .ok order ∧
        IsTopologicalOrder count edges order) ∨
      (¬ Acyclic (dependsOn edges) ∧ topologicalOrder count edges =
        .error (mgSetError .invalidTopology .validate mgNodeIdInvalid
          "graph contains a dependency cycle")) := by
  obtain ⟨final, last, looped, kahn, listed⟩ :=
    queueLoop_spec (kahn_initial count edges) inside (Nat.le_refl count)
  have ran : topologicalOrder count edges =
      if final.order.length ≠ count then
        .error (mgSetError .invalidTopology .validate mgNodeIdInvalid
          "graph contains a dependency cycle")
      else .ok final.order := by
    simp only [topologicalOrder, countIndegrees_eq inside, looped]
  by_cases full : final.order.length = count
  · have sorted : IsTopologicalOrder count edges final.order :=
      { perm := perm_range_of_nodup (listed ▸ kahn.distinct)
          (fun node member => kahn.bounded node (listed ▸ member)) full
        respects := by
          intro edge member
          rw [listed]
          apply kahn.respects edge.before edge.after member
          have perm := perm_range_of_nodup kahn.distinct kahn.bounded (listed ▸ full)
          exact perm.mem_iff.mpr (List.mem_range.mpr (inside edge member).2) }
    exact .inl ⟨sorted.acyclic, final.order, by rw [ran, if_neg (by simpa using full)], sorted⟩
  · exact .inr ⟨invalidTopology_of_cycle kahn inside listed full, by rw [ran, if_pos full]⟩

end MetalGraph
