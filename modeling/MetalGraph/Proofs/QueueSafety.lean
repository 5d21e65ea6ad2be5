import MetalGraph.Proofs.TopologicalOrder

set_option autoImplicit false

/- The queue loop on any edges with valid ends: it stays within its arrays, no counter
wraps and it ends. -/
namespace MetalGraph

variable {count steps : Nat} {edges : List MgEdge} {point next : LoopPoint}

/-! ### Steps -/

theorem LoopPoint.after_add (first second : Nat) (point : LoopPoint) :
    point.after edges (first + second) =
      (point.after edges first).bind (LoopPoint.after edges second) := by
  induction first generalizing point with
  | zero => rw [Nat.zero_add]; rfl
  | succ first ih =>
      rw [Nat.add_right_comm, LoopPoint.after, LoopPoint.after, Option.bind_assoc]
      exact congrArg _ (funext ih)

theorem LoopPoint.after_one (point : LoopPoint) : point.after edges 1 = point.advance edges := by
  simp only [LoopPoint.after, Option.bind_fun_some]

/-- What a step of the loop does: it starts a round, or handles one edge. -/
inductive LoopStep (edges : List MgEdge) : LoopPoint → LoopPoint → Prop
  | dequeue {current node : Nat} {state : TopologicalState}
      (first : state.queue[state.head]? = some node) :
      LoopStep edges ⟨[], current, state⟩ ⟨edges, node, state.dequeue node⟩
  | skip {edge : MgEdge} {rest : List MgEdge} {current : Nat} {state : TopologicalState}
      (elsewhere : edge.before ≠ current) :
      LoopStep edges ⟨edge :: rest, current, state⟩ ⟨rest, current, state⟩
  | wait {edge : MgEdge} {rest : List MgEdge} {current : Nat} {state : TopologicalState}
      (leaves : edge.before = current)
      (waiting : (state.decrement edge.after).indegree edge.after ≠ 0) :
      LoopStep edges ⟨edge :: rest, current, state⟩ ⟨rest, current, state.decrement edge.after⟩
  | enqueue {edge : MgEdge} {rest : List MgEdge} {current : Nat} {state : TopologicalState}
      (leaves : edge.before = current)
      (ready : (state.decrement edge.after).indegree edge.after = 0) :
      LoopStep edges ⟨edge :: rest, current, state⟩
        ⟨rest, current, (state.decrement edge.after).enqueue edge.after⟩

theorem LoopPoint.advance_step (advanced : point.advance edges = some next) :
    LoopStep edges point next := by
  obtain ⟨pending, current, state⟩ := point
  cases pending with
  | nil =>
      rcases first : state.queue[state.head]? with _ | node
      · simp only [LoopPoint.advance, first, reduceCtorEq] at advanced
      · simp only [LoopPoint.advance, first, Option.some.injEq] at advanced
        exact advanced ▸ .dequeue first
  | cons edge rest =>
      by_cases leaves : edge.before = current
      · by_cases ready : (state.decrement edge.after).indegree edge.after = 0
        · simp only [LoopPoint.advance, leaves, ready, ne_eq, not_true_eq_false, ↓reduceIte,
            Option.some.injEq] at advanced
          exact advanced ▸ .enqueue leaves ready
        · simp only [LoopPoint.advance, leaves, ready, ne_eq, not_true_eq_false,
            not_false_eq_true, ↓reduceIte, Option.some.injEq] at advanced
          exact advanced ▸ .wait leaves ready
      · simp only [LoopPoint.advance, leaves, ne_eq, not_false_eq_true, ↓reduceIte,
          Option.some.injEq] at advanced
        exact advanced ▸ .skip leaves

/-- The invariant of the loop at a point, in the middle of a scan or between two rounds. -/
structure LoopPoint.Counted (count : Nat) (edges : List MgEdge) (point : LoopPoint) : Prop where
  kahn : Kahn count edges point.pending point.current point.state
  inside : EdgesInside count point.pending

/-- The steps that are left if every node is still to be dequeued that has not been. -/
def LoopPoint.left (count : Nat) (edges : List MgEdge) (point : LoopPoint) : Nat :=
  (count - point.state.head) * (edges.length + 1) + point.pending.length

theorem EdgesInside.tail {edge : MgEdge} {rest : List MgEdge}
    (inside : EdgesInside count (edge :: rest)) : EdgesInside count rest :=
  fun other member => inside other (List.mem_cons_of_mem _ member)

theorem LoopPoint.Counted.tail_le (counted : point.Counted count edges) :
    point.state.queue.length ≤ count :=
  length_le_of_nodup counted.kahn.distinct counted.kahn.bounded

theorem LoopPoint.Counted.advance (counted : point.Counted count edges)
    (inside : EdgesInside count edges) (advanced : point.advance edges = some next) :
    next.Counted count edges ∧ next.left count edges + 1 = point.left count edges := by
  obtain ⟨kahn, within⟩ := counted
  cases LoopPoint.advance_step advanced with
  | @dequeue current node state first =>
      have round := kahn.start_round first
      have below : state.head + 1 ≤ count :=
        round.head_le.trans (length_le_of_nodup round.distinct round.bounded)
      have remaining : count - state.head = count - (state.head + 1) + 1 := by omega
      refine ⟨⟨round, inside⟩, ?_⟩
      simp only [LoopPoint.left, TopologicalState.dequeue, remaining, Nat.add_mul,
        List.length_nil]
      omega
  | skip elsewhere =>
      exact ⟨⟨kahn.skip elsewhere, within.tail⟩, rfl⟩
  | wait leaves waiting =>
      exact ⟨⟨kahn.release_waiting leaves (within _ (.head _)).2 waiting, within.tail⟩, rfl⟩
  | enqueue leaves ready =>
      exact ⟨⟨kahn.release_ready leaves (within _ (.head _)).2 ready, within.tail⟩, rfl⟩

theorem LoopPoint.Counted.after (counted : point.Counted count edges)
    (inside : EdgesInside count edges) (ran : point.after edges steps = some next) :
    next.Counted count edges ∧ next.left count edges + steps = point.left count edges := by
  induction steps generalizing point with
  | zero =>
      cases ran
      exact ⟨counted, rfl⟩
  | succ steps ih =>
      obtain ⟨middle, advanced, rest⟩ := Option.bind_eq_some_iff.mp ran
      obtain ⟨first, shorter⟩ := counted.advance inside advanced
      obtain ⟨result, remaining⟩ := ih first rest
      exact ⟨result, by omega⟩

/-! ### Safety -/

/-- The cursors and the queue at a point, and what the next step touches. -/
structure LoopPoint.Safe (count : Nat) (point : LoopPoint) : Prop where
  tail : point.state.queue.length ≤ count
  head : point.state.head ≤ count
  produced : point.state.order.length ≤ count
  once : point.state.queue.Nodup
  nodes : ∀ node ∈ point.state.queue, node < count
  dequeues : point.pending = [] → point.state.head < point.state.queue.length →
    point.state.order.length < count
  decrements : ∀ edge rest, point.pending = edge :: rest → edge.before = point.current →
    edge.after < count ∧ 0 < point.state.indegree edge.after
  enqueues : ∀ edge rest, point.pending = edge :: rest → edge.before = point.current →
    (point.state.decrement edge.after).indegree edge.after = 0 →
    point.state.queue.length < count ∧ edge.after ∉ point.state.queue

theorem LoopPoint.Counted.safe (counted : point.Counted count edges) : point.Safe count := by
  have tail := counted.tail_le
  have head := counted.kahn.head_le
  have produced : point.state.order.length = point.state.head := by
    rw [counted.kahn.order_eq, List.length_take, Nat.min_eq_left head]
  exact
    { tail := tail
      head := head.trans tail
      produced := by omega
      once := counted.kahn.distinct
      nodes := counted.kahn.bounded
      dequeues := by
        intro _ some
        omega
      decrements := by
        intro edge rest scanned leaves
        have kahn := counted.kahn
        rw [scanned] at kahn
        exact ⟨(counted.inside edge (by simp [scanned])).2, kahn.pos_of_leads leaves⟩
      enqueues := by
        intro edge rest scanned leaves ready
        have kahn := counted.kahn
        rw [scanned] at kahn
        have target := (counted.inside edge (by simp [scanned])).2
        have grown := kahn.release_ready leaves target ready
        have room := length_le_of_nodup grown.distinct grown.bounded
        simp only [TopologicalState.enqueue, TopologicalState.decrement, List.length_append,
          List.length_singleton] at room
        exact ⟨room, kahn.fresh_of_leads leaves target⟩ }

/-! ### The loop of the model -/

theorem releaseEdges_after {current : Nat} {state released : TopologicalState}
    (ran : releaseEdges count current edges state = some released) (all : List MgEdge) :
    LoopPoint.after all edges.length ⟨edges, current, state⟩ =
      some ⟨[], current, released⟩ := by
  induction edges generalizing state with
  | nil =>
      cases ran
      rfl
  | cons edge rest ih =>
      rw [List.length_cons, LoopPoint.after, LoopPoint.advance]
      rw [releaseEdges] at ran
      by_cases leaves : edge.before = current
      · simp only [leaves, ne_eq, not_true_eq_false, ↓reduceIte] at ran ⊢
        by_cases ready : (state.decrement edge.after).indegree edge.after = 0
        · simp only [ready, not_true_eq_false, ↓reduceIte] at ran ⊢
          split at ran
          · exact ih ran
          · cases ran
        · simp only [ready, not_false_eq_true, ↓reduceIte] at ran ⊢
          exact ih ran
      · simp only [leaves, ne_eq, not_false_eq_true, ↓reduceIte] at ran ⊢
        exact ih ran

theorem queueLoop_after {rounds : Nat} {state final : TopologicalState}
    (looped : queueLoop count edges rounds state = some final) (last : Nat) :
    ∃ steps current, LoopPoint.after edges steps ⟨[], last, state⟩ = some ⟨[], current, final⟩ ∧
      LoopPoint.advance edges ⟨[], current, final⟩ = none := by
  induction rounds generalizing state last with
  | zero =>
      rw [queueLoop] at looped
      rcases first : state.queue[state.head]? with _ | node
      · simp only [first, Option.some.injEq] at looped
        subst looped
        exact ⟨0, last, rfl, by simp only [LoopPoint.advance, first]⟩
      · simp only [first, reduceCtorEq] at looped
  | succ rounds ih =>
      rw [queueLoop] at looped
      rcases first : state.queue[state.head]? with _ | node
      · simp only [first, Option.some.injEq] at looped
        subst looped
        exact ⟨0, last, rfl, by simp only [LoopPoint.advance, first]⟩
      · simp only [first, Option.bind_eq_bind] at looped
        obtain ⟨released, ran, rest⟩ := Option.bind_eq_some_iff.mp looped
        obtain ⟨steps, current, reached, ended⟩ := ih rest node
        refine ⟨1 + (edges.length + steps), current, ?_, ended⟩
        rw [LoopPoint.after_add, LoopPoint.after_one, LoopPoint.advance]
        simp only [first, Option.bind_some]
        rw [LoopPoint.after_add, releaseEdges_after ran, Option.bind_some, reached]

/-- With valid ends, cyclic or not, the loop is safe at every point that it comes to, ends after
a bounded number of steps, and is the loop that the topological order is read from. -/
theorem queueLoop_index_safe (count : Nat) (edges : List MgEdge)
    (inside : EdgesInside count edges) :
    ∃ indegree, countIndegrees count edges (fun _ => 0) = some indegree ∧
      (∀ steps point,
        LoopPoint.after edges steps ⟨[], 0, initialState count indegree⟩ = some point →
        point.Safe count ∧ steps ≤ count * (edges.length + 1)) ∧
      ∃ steps current final,
        LoopPoint.after edges steps ⟨[], 0, initialState count indegree⟩ =
          some ⟨[], current, final⟩ ∧
        LoopPoint.advance edges ⟨[], current, final⟩ = none ∧
        queueLoop count edges count (initialState count indegree) = some final := by
  have initial : LoopPoint.Counted count edges
      ⟨[], 0, initialState count fun node => 0 + edges.countP (intoNode node)⟩ :=
    ⟨kahn_initial count edges, by simp [EdgesInside]⟩
  refine ⟨_, countIndegrees_eq inside _, ?_, ?_⟩
  · intro steps point reached
    obtain ⟨counted, remaining⟩ := initial.after inside reached
    have total : LoopPoint.left count edges
        ⟨[], 0, initialState count fun node => 0 + edges.countP (intoNode node)⟩ =
          count * (edges.length + 1) := rfl
    exact ⟨counted.safe, by omega⟩
  · obtain ⟨final, _, looped, _⟩ :=
      queueLoop_spec initial.kahn inside (Nat.le_refl count)
    obtain ⟨steps, current, reached, ended⟩ := queueLoop_after looped 0
    exact ⟨steps, current, final, reached, ended, looped⟩

/-- Three nodes with a repeated edge, a cycle and an edge from a node to itself. -/
theorem queueLoop_index_safe_cycle :
    ∃ indegree, countIndegrees 3 [⟨0, 1⟩, ⟨0, 1⟩, ⟨1, 2⟩, ⟨2, 1⟩, ⟨2, 2⟩] (fun _ => 0) =
        some indegree ∧
      (∀ steps point, LoopPoint.after [⟨0, 1⟩, ⟨0, 1⟩, ⟨1, 2⟩, ⟨2, 1⟩, ⟨2, 2⟩] steps
          ⟨[], 0, initialState 3 indegree⟩ = some point →
        point.Safe 3 ∧ steps ≤ 18) ∧
      ∃ steps current final, LoopPoint.after [⟨0, 1⟩, ⟨0, 1⟩, ⟨1, 2⟩, ⟨2, 1⟩, ⟨2, 2⟩] steps
          ⟨[], 0, initialState 3 indegree⟩ = some ⟨[], current, final⟩ ∧
        LoopPoint.advance [⟨0, 1⟩, ⟨0, 1⟩, ⟨1, 2⟩, ⟨2, 1⟩, ⟨2, 2⟩] ⟨[], current, final⟩ = none ∧
        queueLoop 3 [⟨0, 1⟩, ⟨0, 1⟩, ⟨1, 2⟩, ⟨2, 1⟩, ⟨2, 2⟩] 3 (initialState 3 indegree) =
          some final :=
  queueLoop_index_safe 3 [⟨0, 1⟩, ⟨0, 1⟩, ⟨1, 2⟩, ⟨2, 1⟩, ⟨2, 2⟩] (by simp [EdgesInside])

end MetalGraph
