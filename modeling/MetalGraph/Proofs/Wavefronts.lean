import MetalGraph.Proofs.Instantiation
import MetalGraph.Proofs.QueueSafety

set_option autoImplicit false

/- The queue of the topological order is first in, first out: it lists the nodes in the
order of the longest dependency paths that end at them. -/
namespace MetalGraph

open Eff

/-- The nodes that no edge ends at, in the order of their indices. -/
def sourceNodes (count : Nat) (edges : List MgEdge) : List Nat :=
  (List.range count).filter fun node => ∀ edge ∈ edges, edge.after ≠ node

theorem mem_sourceNodes {count node : Nat} {edges : List MgEdge} :
    node ∈ sourceNodes count edges ↔ node < count ∧ ∀ edge ∈ edges, edge.after ≠ node := by
  simp [sourceNodes]

/-- The queue in the middle of the wave of the nodes of one depth. -/
structure Waves (edges : List MgEdge) (depth : Nat → Nat) (sources : List Nat) (wave : Nat)
    (point : LoopPoint) : Prop where
  sorted : point.state.queue.Pairwise fun first second => depth first ≤ depth second
  listed : ∀ node ∈ point.state.order, depth node ≤ wave
  ahead : ∀ node ∈ point.state.queue.drop point.state.head, wave ≤ depth node
  near : ∀ node ∈ point.state.queue, depth node ≤ wave + 1
  sources : sources <+: point.state.queue
  scans : ∀ edge ∈ point.pending, edge ∈ edges ∧ depth point.current = wave

section Steps

variable {count current wave steps : Nat} {edges rest : List MgEdge} {edge : MgEdge}
  {depth : Nat → Nat} {sources : List Nat} {state : TopologicalState} {point next : LoopPoint}

/-- A released node has waited for the current node, and for no deeper one. -/
theorem Waves.depth_released
    (waves : Waves edges depth sources wave ⟨edge :: rest, current, state⟩)
    (kahn : Kahn count edges (edge :: rest) current state)
    (isDepth : IsDepth (dependsOn edges) depth) (leaves : edge.before = current)
    (ready : (state.decrement edge.after).indegree edge.after = 0) :
    depth edge.after = wave + 1 := by
  obtain ⟨recorded, level⟩ := waves.scans edge (by simp)
  have deeper := isDepth.increases edge.before edge.after recorded
  rw [leaves, level] at deeper
  rcases isDepth.attained edge.after with zero | ⟨before, depends, exactly⟩
  · omega
  · have shallow := waves.listed before (kahn.listed_of_ready leaves ready before depends)
    omega

theorem Waves.enqueue (waves : Waves edges depth sources wave ⟨edge :: rest, current, state⟩)
    (kahn : Kahn count edges (edge :: rest) current state)
    (deeper : depth edge.after = wave + 1) :
    Waves edges depth sources wave
      ⟨rest, current, (state.decrement edge.after).enqueue edge.after⟩ where
  sorted := by
    apply List.pairwise_append.mpr
    refine ⟨waves.sorted, List.pairwise_singleton _ _, ?_⟩
    intro node member other new
    rw [List.mem_singleton.mp new, deeper]
    exact waves.near node member
  listed := waves.listed
  ahead := by
    intro node member
    change node ∈ (state.queue ++ [edge.after]).drop state.head at member
    rw [List.drop_append_of_le_length kahn.head_le] at member
    rcases List.mem_append.mp member with old | new
    · exact waves.ahead node old
    · rw [List.mem_singleton.mp new, deeper]
      omega
  near := by
    intro node member
    rcases List.mem_append.mp member with old | new
    · exact waves.near node old
    · rw [List.mem_singleton.mp new, deeper]
  sources := List.prefix_append_of_prefix waves.sources
  scans := fun other member => waves.scans other (List.mem_cons_of_mem _ member)

/-- The next node to dequeue begins a wave or continues the one before. -/
theorem Waves.dequeue {last : Nat} (waves : Waves edges depth sources wave ⟨[], last, state⟩)
    (first : state.queue[state.head]? = some current) :
    Waves edges depth sources (depth current) ⟨edges, current, state.dequeue current⟩ := by
  obtain ⟨inside, at_head⟩ := List.getElem?_eq_some_iff.mp first
  have parts := List.drop_eq_getElem_cons inside
  rw [at_head] at parts
  have reached : wave ≤ depth current := waves.ahead current (by simp [parts])
  exact
    { sorted := waves.sorted
      listed := by
        intro node member
        rcases List.mem_append.mp member with old | new
        · exact (waves.listed node old).trans reached
        · rw [List.mem_singleton.mp new]
      ahead := by
        have sorted := waves.sorted.drop (i := state.head)
        rw [parts] at sorted
        exact (List.pairwise_cons.mp sorted).1
      near := by
        intro node member
        have level := waves.near node member
        omega
      sources := waves.sources
      scans := fun edge member => ⟨member, rfl⟩ }

theorem Waves.scanned (waves : Waves edges depth sources wave ⟨edge :: rest, current, state⟩) :
    Waves edges depth sources wave ⟨rest, current, state⟩ :=
  { waves with scans := fun other member => waves.scans other (List.mem_cons_of_mem _ member) }

theorem Waves.advance (waves : Waves edges depth sources wave point)
    (counted : point.Counted count edges) (isDepth : IsDepth (dependsOn edges) depth)
    (advanced : point.advance edges = some next) :
    ∃ wave, Waves edges depth sources wave next := by
  cases LoopPoint.advance_step advanced with
  | dequeue first => exact ⟨_, waves.dequeue first⟩
  | skip elsewhere => exact ⟨wave, waves.scanned⟩
  | wait leaves waiting => exact ⟨wave, { waves.scanned with }⟩
  | enqueue leaves ready =>
      have deeper := waves.depth_released counted.kahn isDepth leaves ready
      exact ⟨wave, waves.enqueue counted.kahn deeper⟩

theorem Waves.after (waves : Waves edges depth sources wave point)
    (counted : point.Counted count edges) (inside : EdgesInside count edges)
    (isDepth : IsDepth (dependsOn edges) depth) (ran : point.after edges steps = some next) :
    ∃ wave, Waves edges depth sources wave next := by
  induction steps generalizing point wave with
  | zero =>
      cases ran
      exact ⟨wave, waves⟩
  | succ steps ih =>
      obtain ⟨middle, advanced, rest⟩ := Option.bind_eq_some_iff.mp ran
      obtain ⟨wave, reached⟩ := waves.advance counted isDepth advanced
      exact ih reached (counted.advance inside advanced).1 rest

end Steps

/-! ### The order -/

section Order

variable {count : Nat} {edges : List MgEdge} {depth : Nat → Nat} {order : List Nat}

theorem initialState_queue (count : Nat) (edges : List MgEdge) :
    (initialState count fun node => 0 + edges.countP (intoNode node)).queue =
      sourceNodes count edges := by
  apply List.filter_congr
  intro node _
  simp [intoNode, List.countP_eq_zero]

theorem depth_eq_zero (isDepth : IsDepth (dependsOn edges) depth) {node : Nat}
    (source : node ∈ sourceNodes count edges) : depth node = 0 := by
  rcases isDepth.attained node with zero | ⟨before, depends, _⟩
  · exact zero
  · exact absurd rfl ((mem_sourceNodes.mp source).2 ⟨before, node⟩ depends)

theorem waves_initial (isDepth : IsDepth (dependsOn edges) depth) :
    Waves edges depth (sourceNodes count edges) 0
      ⟨[], 0, initialState count fun node => 0 + edges.countP (intoNode node)⟩ where
  sorted := by
    apply List.pairwise_of_forall_mem_list
    rw [initialState_queue]
    intro first member second _
    rw [depth_eq_zero isDepth member]
    exact Nat.zero_le _
  listed := fun node member => absurd member List.not_mem_nil
  ahead := fun node _ => Nat.zero_le _
  near := by
    rw [initialState_queue]
    intro node member
    rw [depth_eq_zero isDepth member]
    exact Nat.zero_le _
  sources := by rw [initialState_queue]
  scans := fun edge member => absurd member List.not_mem_nil

/-- The order has the depths in sequence, and begins with the nodes that wait for none. -/
theorem topologicalOrder_waves (inside : EdgesInside count edges)
    (isDepth : IsDepth (dependsOn edges) depth) (ran : topologicalOrder count edges = .ok order) :
    (order.Pairwise fun first second => depth first ≤ depth second) ∧
      sourceNodes count edges <+: order := by
  have initial : LoopPoint.Counted count edges
      ⟨[], 0, initialState count fun node => 0 + edges.countP (intoNode node)⟩ :=
    ⟨kahn_initial count edges, by simp [EdgesInside]⟩
  obtain ⟨final, _, looped, _, listed⟩ := queueLoop_spec initial.kahn inside (Nat.le_refl count)
  obtain ⟨steps, current, reached, _⟩ := queueLoop_after looped 0
  obtain ⟨wave, waves⟩ := (waves_initial isDepth).after initial inside isDepth reached
  simp only [topologicalOrder, countIndegrees_eq inside, looped] at ran
  split at ran
  · cases ran
  · cases ran
    rw [listed]
    exact ⟨waves.sorted, waves.sources⟩

end Order

/-- An order in the sequence of the longest dependency paths. -/
structure Wavefronts (count : Nat) (edges : List MgEdge) (order : List Nat) : Prop where
  perm : order.Perm (List.range count)
  longest : ∀ node, IsGreatest {length | PathInto (dependsOn edges) length node}
    (longestPath (dependsOn edges) node)
  sorted : (order.map (longestPath (dependsOn edges))).Pairwise (· ≤ ·)
  sources : sourceNodes count edges <+: order
  deeper : ∀ first ∈ order, ∀ second ∈ order,
    longestPath (dependsOn edges) first < longestPath (dependsOn edges) second →
    order.idxOf first < order.idxOf second

theorem idxOf_lt_of_sorted {order : List Nat} {depth : Nat → Nat} {first second : Nat}
    (sorted : order.Pairwise fun first second => depth first ≤ depth second)
    (member : first ∈ order) (other : second ∈ order) (deeper : depth first < depth second) :
    order.idxOf first < order.idxOf second := by
  have inside := List.idxOf_lt_length_iff.mpr member
  have inside' := List.idxOf_lt_length_iff.mpr other
  by_contra later
  have different : order.idxOf second ≠ order.idxOf first := by
    intro same
    have equal := List.getElem_idxOf inside
    simp only [← same, List.getElem_idxOf] at equal
    rw [equal] at deeper
    omega
  have level := List.pairwise_iff_getElem.mp sorted _ _ inside' inside (by omega)
  rw [List.getElem_idxOf, List.getElem_idxOf] at level
  omega

theorem topologicalOrder_wavefronts {count : Nat} {edges : List MgEdge} {order : List Nat}
    (inside : EdgesInside count edges) (ran : topologicalOrder count edges = .ok order) :
    Wavefronts count edges order := by
  rcases topologicalOrder_cases inside with ⟨_, found, same, sorted⟩ | ⟨_, same⟩
  · rw [same] at ran
    cases ran
    have ranked : ∀ before after, dependsOn edges before after →
        order.idxOf before < order.idxOf after := fun before after depends =>
      sorted.respects ⟨before, after⟩ depends
    obtain ⟨levels, sources⟩ :=
      topologicalOrder_waves inside (isDepth_longestPath ranked) same
    exact
      { perm := sorted.perm
        longest := isGreatest_longestPath ranked
        sorted := List.pairwise_map.mpr levels
        sources := sources
        deeper := fun first member second other => idxOf_lt_of_sorted levels member other }
  · rw [same] at ran
    cases ran

section Graphs

variable {address : GraphPtr} {graph : MgGraph} {order : List Nat} {env : Env}

theorem mgGraphTopologicalOrder_ok (wf : GraphWf address graph)
    (success : (mgGraphTopologicalOrder graph env).1 = .ok order) :
    topologicalOrder graph.nodes.length graph.edges = .ok order := by
  by_cases empty : graph.nodes = []
  · have edgeless : graph.edges = [] := List.eq_nil_iff_forall_not_mem.mpr fun edge member => by
      have inside := (wf.inside edge member).1
      simp [empty] at inside
    simp only [mgGraphTopologicalOrder, empty, List.length_nil, ↓reduceIte] at success
    cases success
    simp only [empty, edgeless]
    rfl
  · rcases ran : mgGraphTopologicalOrder graph env with ⟨result, reached⟩
    rw [ran] at success
    simp only at success
    subst success
    rw [mgGraphTopologicalOrder, if_neg (by simpa using empty)] at ran
    simp only [bind_ok, ofExcept_ok] at ran
    obtain ⟨_, _, _, found, _⟩ := ran
    exact found

theorem instantiateOrder_sorted {reached : Env} (wf : GraphWf address graph)
    (success : instantiateOrder graph env = (.ok order, reached)) :
    topologicalOrder graph.nodes.length graph.edges = .ok order := by
  unfold instantiateOrder at success
  split at success
  · rename_i empty
    obtain ⟨rfl, _⟩ := pure_ok.mp success
    have ordered : (mgGraphTopologicalOrder graph env).1 = .ok [] := by
      simp [mgGraphTopologicalOrder, empty]
    exact mgGraphTopologicalOrder_ok wf ordered
  · simp only [bind_ok] at success
    obtain ⟨_, _, _, ran⟩ := success
    exact mgGraphTopologicalOrder_ok wf (congrArg Prod.fst ran)

end Graphs

/-- Every acyclic graph is ordered, and its nodes copied for encoding, wave by wave. -/
theorem topological_order_wavefronts {system : System} {address : GraphPtr} {graph : MgGraph}
    (reachable : Reachable system) (live : system.world.graphs.get? address = some graph)
    (acyclic : Acyclic (dependsOn graph.edges)) :
    (∀ env : Env, env.Granting → ∃ order, (mgGraphTopologicalOrder graph env).1 = .ok order) ∧
    (∀ env order, (mgGraphTopologicalOrder graph env).1 = .ok order →
      Wavefronts graph.nodes.length graph.edges order) ∧
    ∀ device env exec reached, mgGraphInstantiate graph device env = (.ok exec, reached) →
      ∃ order, Wavefronts graph.nodes.length graph.edges order ∧
        List.Forall₂ (ClonedFrom graph exec.workspace) order exec.nodes := by
  have wf := reachable.graphsWf address graph live
  refine ⟨?_, ?_, ?_⟩
  · intro env granted
    rcases wf.order_cases granted with ⟨_, _, order, ran, _⟩ | ⟨cyclic, _⟩
    · exact ⟨order, ran⟩
    · exact absurd acyclic cyclic
  · intro env order ran
    exact topologicalOrder_wavefronts wf.inside (mgGraphTopologicalOrder_ok wf ran)
  · intro device env exec reached success
    obtain ⟨order, _, _, ordered, made⟩ := mgGraphInstantiate_ordered wf success
    exact ⟨order, topologicalOrder_wavefronts wf.inside (instantiateOrder_sorted wf ordered),
      made.nodes⟩

theorem topological_order_wavefronts_of_chain :
    ∃ order, (mgGraphTopologicalOrder chainGraph grantAll.world.env).1 = .ok order ∧
      Wavefronts 2 [⟨0, 1⟩] order := by
  have acyclic : Acyclic (dependsOn chainGraph.edges) :=
    acyclic_of_rank id fun before after depends => by
      obtain ⟨rfl, rfl⟩ := (MgEdge.mk.injEq ..).mp (List.mem_singleton.mp depends)
      decide
  obtain ⟨ordered, waves, _⟩ := topological_order_wavefronts chain_reachable chain_built acyclic
  obtain ⟨order, ran⟩ := ordered grantAll.world.env fun _ => rfl
  exact ⟨order, ran, waves _ order ran⟩

end MetalGraph
