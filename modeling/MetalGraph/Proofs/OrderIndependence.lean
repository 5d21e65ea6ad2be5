import MetalGraph.Proofs.Wavefronts
import MetalGraph.Proofs.WorkspaceLayout

set_option autoImplicit false

/- Two graphs whose dependencies were added in different orders: where their topological
orders and the layouts of their workspaces can differ. -/
namespace MetalGraph

open Eff

/-- The same nodes, arena and dependencies, whatever the order the dependencies are in. -/
structure SameUpToEdgeOrder (first second : MgGraph) : Prop where
  nodes : first.nodes.map MgNode.as = second.nodes.map MgNode.as
  arena : first.arena = second.arena
  edges : ∀ edge, edge ∈ first.edges ↔ edge ∈ second.edges

/-- The topological order followed by the plan of the workspace. -/
def orderAndPlan (graph : MgGraph) : Run MgWorkspacePlan := do
  let order ← mgGraphTopologicalOrder graph
  mgGraphPlanWorkspace graph order

/-- The topological sort answers with an order. -/
def Orders (graph : MgGraph) (env : Env) : Prop :=
  ∃ order, (mgGraphTopologicalOrder graph env).1 = .ok order

/-- The topological sort and the planning after it both succeed. -/
def OrdersAndPlans (graph : MgGraph) (env : Env) : Prop :=
  ∃ plan, (orderAndPlan graph env).1 = .ok plan

/-- Laid out alone, the two nodes end at the same place in either order. Nodes without a
workspace do so always. -/
def Interchangeable (graph : MgGraph) (first second : Nat) : Prop :=
  placedEnd 0 (graph.needs [first, second]) = placedEnd 0 (graph.needs [second, first])

/-- The layout fits in whatever order the nodes come: below `2 ^ 64` and inside the arena, if
there is one, is room for every workspace with all the padding that it can take. -/
structure Roomy (graph : MgGraph) : Prop where
  representable : roomFor (graph.needs (List.range graph.nodes.length)) ≤ 2 ^ 64 - 1
  size : ∀ arena, graph.arena = some arena →
    roomFor (graph.needs (List.range graph.nodes.length)) ≤ arena.size.toNat

/-- The first list has the nodes in this order, the second one in the opposite one. -/
def Inverted (order order' : List Nat) (first second : Nat) : Prop :=
  [first, second].Sublist order ∧ [second, first].Sublist order'

/-! ### Layouts in another order -/

section Layouts

variable {graph : MgGraph} {order order' : List Nat}

theorem needs_append (graph : MgGraph) (order order' : List Nat) :
    graph.needs (order ++ order') = graph.needs order ++ graph.needs order' := by
  simp only [MgGraph.needs, MgGraph.listed, needsOf, List.filterMap_append]

theorem placedEnd_needs (start : Nat) : placedEnd start (graph.needs order) =
    order.foldl (fun start index => placedEnd start (graph.needs [index])) start := by
  induction order generalizing start with
  | nil => rfl
  | cons index rest ih =>
      rw [← List.singleton_append, needs_append, placedEnd_append, ih]
      rfl

/-- A node asks for at most one block, with a power of two as its alignment. -/
theorem needs_singleton (valid : NodesValid graph.nodes) (index : Nat) :
    graph.needs [index] = [] ∨
      ∃ need : Need, graph.needs [index] = [need] ∧ need.alignment.isPowerOfTwo := by
  rcases present : graph.nodes[index]? with _ | node
  · exact .inl (by simp [MgGraph.needs, MgGraph.listed, needsOf, present])
  · rcases stored : node.workspaceNeed with _ | ⟨size, alignment⟩
    · exact .inl (by simp [MgGraph.needs, MgGraph.listed, needsOf, MgNode.need, present, stored])
    · have wanted := need_valid (valid node (List.mem_of_getElem? present)) stored
      exact .inr ⟨⟨size.toNat, alignment.toNat⟩,
        by simp [MgGraph.needs, MgGraph.listed, needsOf, MgNode.need, present, stored],
        mgAlignmentValid_isPowerOfTwo wanted.alignment⟩

theorem isPowerOfTwo_dvd_or_dvd {first second : Nat} (power : first.isPowerOfTwo)
    (power' : second.isPowerOfTwo) : first ∣ second ∨ second ∣ first := by
  obtain ⟨exponent, rfl⟩ := power
  obtain ⟨exponent', rfl⟩ := power'
  rcases Nat.le_total exponent exponent' with below | below
  · exact .inl (Nat.pow_dvd_pow 2 below)
  · exact .inr (Nat.pow_dvd_pow 2 below)

theorem Interchangeable.everywhere (valid : NodesValid graph.nodes) {first second : Nat}
    (same : Interchangeable graph first second) (start : Nat) :
    placedEnd (placedEnd start (graph.needs [first])) (graph.needs [second]) =
      placedEnd (placedEnd start (graph.needs [second])) (graph.needs [first]) := by
  unfold Interchangeable at same
  rw [← List.singleton_append, needs_append, ← List.singleton_append (l := [first]),
    needs_append] at same
  rw [← placedEnd_append, ← placedEnd_append]
  rcases needs_singleton valid first with none | ⟨need, some, power⟩
  · simp only [none, List.nil_append, List.append_nil]
  rcases needs_singleton valid second with none' | ⟨need', some', power'⟩
  · simp only [none', List.nil_append, List.append_nil]
  have positive := Nat.pos_of_isPowerOfTwo power
  have positive' := Nat.pos_of_isPowerOfTwo power'
  rw [some, some'] at same ⊢
  rcases isPowerOfTwo_dvd_or_dvd power power' with divides | divides
  · exact placedEnd_swap positive positive' divides same start
  · exact (placedEnd_swap positive' positive divides same.symm start).symm

/-- The layout ends at the same place if the nodes in opposite orders are interchangeable. -/
theorem placedEnd_of_interchangeable (valid : NodesValid graph.nodes) (perm : order.Perm order')
    (swaps : ∀ first second, Inverted order order' first second →
      Interchangeable graph first second) :
    placedEnd 0 (graph.needs order) = placedEnd 0 (graph.needs order') := by
  rw [placedEnd_needs, placedEnd_needs]
  apply foldl_eq_of_inversions perm
  intro first second listed listed'
  exact (swaps first second ⟨listed, listed'⟩).everywhere valid

theorem needs_perm (graph : MgGraph) (perm : order.Perm order') :
    (graph.needs order).Perm (graph.needs order') := (perm.filterMap _).filterMap _

theorem LayoutFits.of_end (perm : order.Perm order')
    (ends : placedEnd 0 (graph.needs order) = placedEnd 0 (graph.needs order'))
    (fits : LayoutFits graph order) : LayoutFits graph order' where
  representable := ends ▸ fits.representable
  size := fun arena given => ends ▸ fits.size arena given
  alignment := fun arena given need member =>
    fits.alignment arena given need ((needs_perm graph perm).mem_iff.mpr member)

/-- Where there is room for every order, only the alignments decide. -/
theorem LayoutFits.of_roomy (valid : NodesValid graph.nodes) (roomy : Roomy graph)
    (perm : order.Perm order') (all : order'.Perm (List.range graph.nodes.length))
    (fits : LayoutFits graph order) : LayoutFits graph order' := by
  have below : placedEnd 0 (graph.needs order') ≤
      roomFor (graph.needs (List.range graph.nodes.length)) := by
    rw [← roomFor_perm (needs_perm graph all), ← Nat.zero_add (roomFor (graph.needs order'))]
    exact placedEnd_le_roomFor (needsOf_aligned (listed_valid valid order'))
  exact
    { representable := below.trans roomy.representable
      size := fun arena given => below.trans (roomy.size arena given)
      alignment := fun arena given need member =>
        fits.alignment arena given need ((needs_perm graph perm).mem_iff.mpr member) }

end Layouts

/-! ### Orders of the same graph -/

section Orders

variable {count : Nat} {edges edges' : List MgEdge} {order order' : List Nat}

theorem sourceNodes_eq (same : ∀ edge, edge ∈ edges ↔ edge ∈ edges') :
    sourceNodes count edges = sourceNodes count edges' := by
  simp only [sourceNodes, same]

theorem dependsOn_eq (same : ∀ edge, edge ∈ edges ↔ edge ∈ edges') :
    dependsOn edges = dependsOn edges' :=
  funext fun _ => funext fun _ => propext (same _)

/-- The nodes without dependencies are listed in the order of their indices. -/
theorem Wavefronts.sources_increasing (waves : Wavefronts count edges order) :
    order.Pairwise fun first second => first ∈ sourceNodes count edges →
      second ∈ sourceNodes count edges → first < second := by
  obtain ⟨rest, rfl⟩ := waves.sources
  have distinct : (sourceNodes count edges ++ rest).Nodup :=
    waves.perm.nodup_iff.mpr List.nodup_range
  have apart := (List.nodup_append'.mp distinct).2.2
  have increasing : (sourceNodes count edges).Pairwise (· < ·) :=
    List.pairwise_lt_range.filter _
  apply List.pairwise_append.mpr
  refine ⟨increasing.imp fun below _ _ => below, ?_, ?_⟩
  · exact List.pairwise_of_forall_mem_list fun first member second _ source =>
      absurd member (apart source)
  · intro first _ second member _ source
    exact absurd member (apart source)

theorem Wavefronts.source_of_zero (waves : Wavefronts count edges order) {node : Nat}
    (listed : node ∈ order) (zero : longestPath (dependsOn edges) node = 0) :
    node ∈ sourceNodes count edges := by
  refine mem_sourceNodes.mpr ⟨List.mem_range.mp (waves.perm.mem_iff.mp listed), ?_⟩
  intro edge member into
  have path : PathInto (dependsOn edges) 1 node := .step (.start edge.before) (into ▸ member)
  have bound := (waves.longest node).2 path
  omega

/-- Two orders of the same dependencies differ within one wave only, and not in the first. -/
theorem Inverted.same_depth (same : ∀ edge, edge ∈ edges ↔ edge ∈ edges')
    (waves : Wavefronts count edges order) (waves' : Wavefronts count edges' order')
    {first second : Nat} (inverted : Inverted order order' first second) :
    longestPath (dependsOn edges) first = longestPath (dependsOn edges) second ∧
      0 < longestPath (dependsOn edges) first := by
  have levels := List.pairwise_map.mp waves.sorted
  have levels' := List.pairwise_map.mp waves'.sorted
  have below := List.pairwise_iff_forall_sublist.mp levels inverted.1
  have below' := List.pairwise_iff_forall_sublist.mp levels' inverted.2
  rw [← dependsOn_eq same] at below'
  have equal := Nat.le_antisymm below below'
  refine ⟨equal, Nat.pos_of_ne_zero fun zero => ?_⟩
  have source := waves.source_of_zero (inverted.1.subset (by simp)) zero
  have source' := waves.source_of_zero (inverted.1.subset (by simp)) (equal ▸ zero)
  have before := List.pairwise_iff_forall_sublist.mp waves.sources_increasing inverted.1
    source source'
  have increasing' := waves'.sources_increasing
  rw [← sourceNodes_eq same] at increasing'
  have after := List.pairwise_iff_forall_sublist.mp increasing' inverted.2 source' source
  omega

end Orders

/-! ### Ordering and planning -/

section Graphs

variable {address : GraphPtr} {graph first second : MgGraph} {order : List Nat} {env : Env}

theorem mgGraphTopologicalOrder_granting (granting : env.Granting) :
    (mgGraphTopologicalOrder graph env).2.Granting := by
  rw [mgGraphTopologicalOrder]
  split
  · exact granting
  · rw [bind_of_ok env (attemptBoth_granted granting)]
    exact granting.tick.tick

theorem GraphWf.few (wf : GraphWf address graph)
    (perm : order.Perm (List.range graph.nodes.length)) :
    ((graph.listed order).filter needsWorkspace).length < 2 ^ 59 := by
  have room := wf.room
  have shorter := List.length_filter_le needsWorkspace (graph.listed order)
  rw [(listed_perm perm).length_eq] at shorter
  simp only [sizeofMgNode] at room
  omega

/-- Both succeed exactly if the layout of the order fits. -/
theorem ordersAndPlans_iff (wf : GraphWf address graph) (valid : NodesValid graph.nodes)
    (granting : env.Granting) : OrdersAndPlans graph env ↔
      ∃ order, (mgGraphTopologicalOrder graph env).1 = .ok order ∧ LayoutFits graph order := by
  have granting' := @mgGraphTopologicalOrder_granting graph env granting
  rcases ran : mgGraphTopologicalOrder graph env with ⟨reason | order, reached⟩ <;>
    rw [ran] at granting'
  · rw [OrdersAndPlans, orderAndPlan, bind_of_error env ran]
    simp
  · rw [OrdersAndPlans, orderAndPlan, bind_of_ok env ran]
    have waves := topologicalOrder_wavefronts wf.inside
      (mgGraphTopologicalOrder_ok wf (congrArg Prod.fst ran))
    have inside : ∀ index ∈ order, index < graph.nodes.length := fun index member =>
      List.mem_range.mp (waves.perm.mem_iff.mp member)
    have decides := mgGraphPlanWorkspace_decides valid inside (wf.few waves.perm) reached
      ⟨granting', rfl⟩
    rcases planned : mgGraphPlanWorkspace graph order reached with ⟨reason | plan, after⟩ <;>
      rw [planned] at decides <;> simp [decides.1]

theorem SameUpToEdgeOrder.count (same : SameUpToEdgeOrder first second) :
    first.nodes.length = second.nodes.length := by
  simpa using congrArg List.length same.nodes

theorem SameUpToEdgeOrder.needs (same : SameUpToEdgeOrder first second) (order : List Nat) :
    first.needs order = second.needs order := by
  simp only [MgGraph.needs, MgGraph.listed, needsOf, List.filterMap_filterMap]
  congr 1
  funext index
  have stored := congrArg (fun nodes : List MgNodeAs => nodes[index]?) same.nodes
  simp only [List.getElem?_map] at stored
  rcases one : first.nodes[index]? with _ | node <;>
    rcases two : second.nodes[index]? with _ | other <;>
    rw [one, two] at stored <;> simp only [Option.map_some, Option.map_none, reduceCtorEq,
      Option.some.injEq] at stored
  simp only [Option.bind_some, MgNode.need, MgNode.workspaceNeed, stored]

theorem SameUpToEdgeOrder.fits_iff (same : SameUpToEdgeOrder first second) :
    LayoutFits first order ↔ LayoutFits second order := by
  have needs := same.needs order
  constructor
  · rintro ⟨representable, size, alignment⟩
    exact ⟨needs ▸ representable, needs ▸ same.arena ▸ size, needs ▸ same.arena ▸ alignment⟩
  · rintro ⟨representable, size, alignment⟩
    exact ⟨needs ▸ representable, needs ▸ same.arena ▸ size, needs ▸ same.arena ▸ alignment⟩

end Graphs

/-- Whatever order the dependencies were added in, the same graphs can be ordered, and their
orders differ within waves only. Where the nodes that they have in opposite orders are
interchangeable, or where there is room for every order, the same graphs can be planned too. -/
theorem order_of_dependencies_irrelevant {system system' : System} {address address' : GraphPtr}
    {first second : MgGraph} {env env' : Env} (reachable : Reachable system)
    (reachable' : Reachable system') (live : system.world.graphs.get? address = some first)
    (live' : system'.world.graphs.get? address' = some second)
    (same : SameUpToEdgeOrder first second) (granting : env.Granting)
    (granting' : env'.Granting) :
    (Orders first env ↔ Orders second env') ∧
    ∀ order order', (mgGraphTopologicalOrder first env).1 = .ok order →
      (mgGraphTopologicalOrder second env').1 = .ok order' →
      (∀ node node', Inverted order order' node node' →
        longestPath (dependsOn first.edges) node = longestPath (dependsOn first.edges) node' ∧
          0 < longestPath (dependsOn first.edges) node) ∧
      ((∀ node node', Inverted order order' node node' → Interchangeable first node node') ∨
          Roomy first →
        (OrdersAndPlans first env ↔ OrdersAndPlans second env')) := by
  have wf := reachable.graphsWf address first live
  have wf' := reachable'.graphsWf address' second live'
  have valid := reachable.nodesValid live
  have valid' := reachable'.nodesValid live'
  constructor
  · rcases wf.order_cases granting with
      ⟨acyclic, _, order, ran, _⟩ | ⟨cyclic, _, _, ran, _⟩ <;>
      rcases wf'.order_cases granting' with
        ⟨acyclic', _, order', ran', _⟩ | ⟨cyclic', _, _, ran', _⟩ <;>
      rw [Orders, Orders, ran, ran']
    · simp
    · exact absurd (dependsOn_eq same.edges ▸ acyclic) cyclic'
    · exact absurd (dependsOn_eq same.edges ▸ acyclic') cyclic
    · simp
  · intro order order' ran ran'
    have waves := topologicalOrder_wavefronts wf.inside (mgGraphTopologicalOrder_ok wf ran)
    have waves' := topologicalOrder_wavefronts wf'.inside (mgGraphTopologicalOrder_ok wf' ran')
    rw [← same.count] at waves'
    have perm : order.Perm order' := waves.perm.trans waves'.perm.symm
    refine ⟨fun node node' => Inverted.same_depth same.edges waves waves', fun condition => ?_⟩
    have reordered : LayoutFits first order ↔ LayoutFits first order' := by
      rcases condition with swaps | roomy
      · have ends := placedEnd_of_interchangeable valid perm swaps
        exact ⟨LayoutFits.of_end perm ends, LayoutFits.of_end perm.symm ends.symm⟩
      · exact ⟨LayoutFits.of_roomy valid roomy perm waves'.perm,
          LayoutFits.of_roomy valid roomy perm.symm waves.perm⟩
    have fits : LayoutFits first order ↔ LayoutFits second order' := reordered.trans same.fits_iff
    rw [ordersAndPlans_iff wf valid granting, ordersAndPlans_iff wf' valid' granting', ran, ran']
    simpa using fits

/-! Two workspaces that both wait for a barrier, with their dependencies in either order. -/

def forkCalls (sizes : UInt64 × UInt64) (edges : List (Nat × Nat)) : List Call :=
  [.counted (.arenaCreate (some ⟨some 7⟩) (some ⟨24, 12, 8⟩)), .graphCreate,
    .graphEdit (some 0) (.setArena (some ⟨0, 12, 8⟩)),
    .graphEdit (some 0) (.addNode .barrier),
    .graphEdit (some 0) (.addNode (.workspace (some ⟨24, sizes.1, sizes.1⟩))),
    .graphEdit (some 0) (.addNode (.workspace (some ⟨24, sizes.2, sizes.2⟩)))] ++
  edges.map fun edge => .graphEdit (some 0) (.addDependency
    (some ⟨0, edge.1, UInt64.ofNat (edge.1 + 1)⟩) (some ⟨0, edge.2, UInt64.ofNat (edge.2 + 1)⟩))

def forkGraph (sizes : UInt64 × UInt64) (edges : List MgEdge) : MgGraph where
  address := 0
  nodes := [⟨0, 1, 0, 0, .barrier⟩, ⟨0, 2, 1, 0, .workspace ⟨sizes.1, sizes.1⟩⟩,
    ⟨0, 3, 2, 0, .workspace ⟨sizes.2, sizes.2⟩⟩]
  nodeCapacity := 4
  edges := edges
  edgeCapacity := 4
  arena := some ⟨0, 12, 8⟩

def forkEnv : Env := grantAll.world.env

theorem fork_sameUpToEdgeOrder (sizes : UInt64 × UInt64) :
    SameUpToEdgeOrder (forkGraph sizes [⟨0, 1⟩, ⟨0, 2⟩]) (forkGraph sizes [⟨0, 2⟩, ⟨0, 1⟩]) where
  nodes := rfl
  arena := rfl
  edges := by
    intro edge
    simp only [forkGraph, List.mem_cons, List.not_mem_nil, or_false]
    exact or_comm

theorem fork_interchangeable {node node' : Nat}
    (inverted : Inverted [0, 1, 2] [0, 2, 1] node node') :
    Interchangeable (forkGraph (4, 4) [⟨0, 1⟩, ⟨0, 2⟩]) node node' := by
  have listed : node ∈ [0, 1, 2] := inverted.1.subset (by simp)
  have listed' : node' ∈ [0, 1, 2] := inverted.1.subset (by simp)
  simp only [List.mem_cons, List.not_mem_nil, or_false] at listed listed'
  unfold Interchangeable
  rcases listed with rfl | rfl | rfl <;> rcases listed' with rfl | rfl | rfl <;> decide

theorem fork_roomy : Roomy (forkGraph (1, 4) [⟨0, 1⟩, ⟨0, 2⟩]) where
  representable := by decide
  size := by
    rintro arena ⟨⟩
    decide

/-- Two blocks of four bytes are interchangeable, and for one of one byte and one of four the
arena has room in either order. -/
theorem order_of_dependencies_irrelevant_of_fork :
    (OrdersAndPlans (forkGraph (4, 4) [⟨0, 1⟩, ⟨0, 2⟩]) forkEnv ↔
        OrdersAndPlans (forkGraph (4, 4) [⟨0, 2⟩, ⟨0, 1⟩]) forkEnv) ∧
      (OrdersAndPlans (forkGraph (1, 4) [⟨0, 1⟩, ⟨0, 2⟩]) forkEnv ↔
        OrdersAndPlans (forkGraph (1, 4) [⟨0, 2⟩, ⟨0, 1⟩]) forkEnv) := by
  have agree : ∀ sizes, grantAll.permitsRun (forkCalls sizes [(0, 1), (0, 2)]) = true →
      grantAll.permitsRun (forkCalls sizes [(0, 2), (0, 1)]) = true →
      (grantAll.run (forkCalls sizes [(0, 1), (0, 2)])).world.graphs.get? 0 =
        some (forkGraph sizes [⟨0, 1⟩, ⟨0, 2⟩]) →
      (grantAll.run (forkCalls sizes [(0, 2), (0, 1)])).world.graphs.get? 0 =
        some (forkGraph sizes [⟨0, 2⟩, ⟨0, 1⟩]) →
      (∀ node node', Inverted [0, 1, 2] [0, 2, 1] node node' →
          Interchangeable (forkGraph sizes [⟨0, 1⟩, ⟨0, 2⟩]) node node') ∨
        Roomy (forkGraph sizes [⟨0, 1⟩, ⟨0, 2⟩]) →
      (OrdersAndPlans (forkGraph sizes [⟨0, 1⟩, ⟨0, 2⟩]) forkEnv ↔
        OrdersAndPlans (forkGraph sizes [⟨0, 2⟩, ⟨0, 1⟩]) forkEnv) := by
    intro sizes permitted permitted' live live'
    exact ((order_of_dependencies_irrelevant ((Reachable.start _ _ _).run permitted)
      ((Reachable.start _ _ _).run permitted') live live' (fork_sameUpToEdgeOrder _)
      (fun _ => rfl) (fun _ => rfl)).2 [0, 1, 2] [0, 2, 1] rfl rfl).2
  constructor
  · exact agree (4, 4) (by decide +kernel) (by decide +kernel) (by decide +kernel)
      (by decide +kernel) (.inl fun _ _ => fork_interchangeable)
  · exact agree (1, 4) (by decide +kernel) (by decide +kernel) (by decide +kernel)
      (by decide +kernel) (.inr fork_roomy)

/-- A block of one byte before one of eight ends at sixteen, after it at nine. -/
theorem order_of_dependencies_matters :
    ¬ ∀ (system system' : System) (address address' : GraphPtr) (first second : MgGraph)
      (env env' : Env), Reachable system → Reachable system' →
      system.world.graphs.get? address = some first →
      system'.world.graphs.get? address' = some second → SameUpToEdgeOrder first second →
      Acyclic (dependsOn first.edges) → env.Granting → env'.Granting →
      (OrdersAndPlans first env ↔ OrdersAndPlans second env') := by
  intro independent
  have decided := independent (grantAll.run (forkCalls (1, 8) [(0, 1), (0, 2)]))
    (grantAll.run (forkCalls (1, 8) [(0, 2), (0, 1)])) 0 0
    (forkGraph (1, 8) [⟨0, 1⟩, ⟨0, 2⟩]) (forkGraph (1, 8) [⟨0, 2⟩, ⟨0, 1⟩]) forkEnv forkEnv
    ((Reachable.start _ _ _).run (by decide +kernel))
    ((Reachable.start _ _ _).run (by decide +kernel)) (by decide +kernel) (by decide +kernel)
    (fork_sameUpToEdgeOrder _)
    (acyclic_of_rank id fun before after depends => by
      simp only [dependsOn, forkGraph, List.mem_cons, MgEdge.mk.injEq, List.not_mem_nil,
        or_false] at depends
      simp only [id_eq]
      omega)
    (fun _ => rfl) (fun _ => rfl)
  have refused : (orderAndPlan (forkGraph (1, 8) [⟨0, 1⟩, ⟨0, 2⟩]) forkEnv).1.toOption = none := by
    decide +kernel
  have planned : (orderAndPlan (forkGraph (1, 8) [⟨0, 2⟩, ⟨0, 1⟩]) forkEnv).1.toOption.isSome =
      true := by
    decide +kernel
  obtain ⟨plan, present⟩ := Option.isSome_iff_exists.mp planned
  obtain ⟨plan', answered⟩ := decided.mpr ⟨plan, by
    rcases result : (orderAndPlan (forkGraph (1, 8) [⟨0, 2⟩, ⟨0, 1⟩]) forkEnv).1 with _ | value
    · rw [result] at present
      cases present
    · rw [result] at present
      cases present
      rfl⟩
  rw [answered] at refused
  cases refused

end MetalGraph
