import MetalGraph.Proofs.GraphValidation

set_option autoImplicit false

/- The edges of a graph as a record of the calls that added them. -/
namespace MetalGraph

open Eff

/-! ### One call -/

/-- Two different nodes of this graph. -/
structure MayJoin (address : GraphPtr) (before after : NodePtr) : Prop where
  here : before.graph = address ∧ after.graph = address
  distinct : before ≠ after

def edgeOf (before after : NodePtr) : MgEdge := ⟨before.index, after.index⟩

/-- The edge that a call with these arguments asks for, if it may. -/
def Requests (address : GraphPtr) (before after : Option NodePtr) (edge : MgEdge) : Prop :=
  ∃ first second, before = some first ∧ after = some second ∧ MayJoin address first second ∧
    edge = edgeOf first second

section Dependency

variable {graph : MgGraph} {before after : Option NodePtr}

theorem edges_any_iff {edges : List MgEdge} {first second : NodePtr} :
    (edges.any fun edge => edge.before == first.index && edge.after == second.index) = true ↔
      edgeOf first second ∈ edges := by
  rw [List.any_eq_true]
  constructor
  · rintro ⟨⟨left, right⟩, member, same⟩
    simp only [Bool.and_eq_true, beq_iff_eq] at same
    obtain ⟨rfl, rfl⟩ := same
    exact member
  · intro member
    exact ⟨_, member, by simp [edgeOf]⟩

/-- A dependency that is answered OK adds the edge it asks for and no other. -/
theorem mgGraphAddDependency_requests :
    Triple (Has (· = graph)) (mgGraphAddDependency before after)
      (fun _ => Has fun object => object.address = graph.address ∧
        ∃ asked, Requests graph.address before after asked ∧
          ∀ edge, edge ∈ object.edges ↔ edge ∈ graph.edges ∨ edge = asked)
      (fun _ => Has (SameContents graph)) := by
  apply self_rule
  intro object same
  subst same
  refine Triple.orFail (fun first firstGiven => ?_) fun _ => eq_stops
  refine Triple.orFail (fun second secondGiven => ?_) fun _ => eq_stops
  refine Triple.require (fun here => ?_) fun _ => eq_stops
  refine Triple.require (fun distinct => ?_) fun _ => eq_stops
  have asked : Requests object.address before after (edgeOf first second) :=
    ⟨first, second, firstGiven, secondGiven, ⟨here, distinct⟩, rfl⟩
  split
  · rename_i present
    have member := edges_any_iff.mp present
    apply Triple.pure
    intro focus same
    unfold Has at same ⊢
    rw [same]
    exact ⟨rfl, _, asked, fun edge => (or_iff_left_of_imp fun equal => equal ▸ member).symm⟩
  · apply Triple.bind (mgGraphReserveEdges_spec object _)
    intro _
    refine modifySelf_last fun focus contents => ⟨contents.address, _, asked, fun edge => ?_⟩
    simp only [contents.edges, List.mem_append, List.mem_singleton, edgeOf]

theorem mgGraphReserveEdges_ready {failed : Fault → Focus MgGraph → Prop} (required : Nat) :
    Triple (Ready (· = graph)) (mgGraphReserveEdges required) (fun _ => Ready (SameContents graph))
      failed := by
  apply ready_self
  intro object same
  subst same
  split
  · refine Triple.pure fun focus ready => ⟨?_, ready.2⟩
    rw [ready.1]
    exact .refl object
  · apply ready_onEnv (attemptOr_yields _)
    intro _ _
    apply ready_modifySelf
    intro other same
    rw [same]
    exact ⟨rfl, rfl, rfl, rfl⟩

/-- A granting machine refuses only calls that ask for no edge. -/
theorem mgGraphAddDependency_ready :
    Triple (Ready (· = graph)) (mgGraphAddDependency before after)
      (fun _ focus => focus.env.Granting)
      (fun _ focus => focus.env.Granting ∧ ∀ edge, ¬ Requests graph.address before after edge) := by
  apply ready_self
  intro object same
  subst same
  refine Triple.orFail (fun first firstGiven => ?_) fun missing focus ready => ⟨ready.2, ?_⟩
  · refine Triple.orFail (fun second secondGiven => ?_) fun missing focus ready => ⟨ready.2, ?_⟩
    · refine Triple.require (fun here => ?_) fun elsewhere focus ready => ⟨ready.2, ?_⟩
      · refine Triple.require (fun distinct => ?_) fun equal focus ready => ⟨ready.2, ?_⟩
        · split
          · exact Triple.pure fun _ ready => ready.2
          · apply Triple.bind (mgGraphReserveEdges_ready _)
            intro _
            exact Triple.update fun _ ready => ready.2
        · rintro edge ⟨left, right, leftGiven, rightGiven, may, rfl⟩
          cases firstGiven.symm.trans leftGiven
          cases secondGiven.symm.trans rightGiven
          exact equal may.distinct
      · rintro edge ⟨left, right, leftGiven, rightGiven, may, rfl⟩
        cases firstGiven.symm.trans leftGiven
        cases secondGiven.symm.trans rightGiven
        exact elsewhere may.here
    · rintro edge ⟨left, right, _, rightGiven, _⟩
      cases missing.symm.trans rightGiven
  · rintro edge ⟨left, right, leftGiven, _⟩
    cases missing.symm.trans leftGiven

/-- Asking again for an edge that is there changes nothing. -/
theorem mgGraphAddDependency_present {first second : NodePtr}
    (may : MayJoin graph.address first second) (present : edgeOf first second ∈ graph.edges)
    (env : Env) :
    mgGraphAddDependency (some first) (some second) ⟨graph, env⟩ = (.ok (), ⟨graph, env⟩) := by
  simp only [mgGraphAddDependency, bind_apply, self_apply, orFail_some, may.here, and_self,
    require_of, ne_eq, may.distinct, not_false_eq_true, edges_any_iff.mpr present, ↓reduceIte,
    pure_apply]

end Dependency

/-! ### Many calls -/

/-- A sequence of dependency calls, each of which may fail. -/
def addDependencies : List (Option NodePtr × Option NodePtr) → Focus MgGraph → Focus MgGraph
  | [], focus => focus
  | (before, after) :: rest, focus =>
      addDependencies rest (mgGraphAddDependency before after focus).2

theorem Requests.eq {address : GraphPtr} {before after : Option NodePtr} {first second : MgEdge}
    (left : Requests address before after first) (right : Requests address before after second) :
    first = second := by
  obtain ⟨_, _, rfl, rfl, _, rfl⟩ := left
  obtain ⟨_, _, same, same', _, rfl⟩ := right
  cases same
  cases same'
  rfl

/-- What one call does on a granting machine, whether it is answered OK or not. -/
theorem mgGraphAddDependency_granting (before after : Option NodePtr) (graph : MgGraph) {env : Env}
    (granting : env.Granting) :
    Has (fun object => object.address = graph.address ∧ ∀ edge, edge ∈ object.edges ↔
        edge ∈ graph.edges ∨ Requests graph.address before after edge)
      (mgGraphAddDependency before after ⟨graph, env⟩).2 ∧
    (mgGraphAddDependency before after ⟨graph, env⟩).2.env.Granting := by
  have requests : Triple (Has (· = graph)) (mgGraphAddDependency before after) _ _ :=
    mgGraphAddDependency_requests
  have ready : Triple (Ready (· = graph)) (mgGraphAddDependency before after) _ _ :=
    mgGraphAddDependency_ready
  have edges := requests ⟨graph, env⟩ rfl
  have still := ready ⟨graph, env⟩ ⟨rfl, granting⟩
  rcases ran : mgGraphAddDependency before after ⟨graph, env⟩ with ⟨reason | ⟨⟩, reached⟩ <;>
    simp only [ran] at edges still ⊢
  · refine ⟨⟨edges.address, fun edge => ?_⟩, still.1⟩
    rw [edges.edges]
    exact (or_iff_left (still.2 edge)).symm
  · obtain ⟨address, asked, asks, edges⟩ := edges
    refine ⟨⟨address, fun edge => ?_⟩, still⟩
    have same : Requests graph.address before after edge ↔ edge = asked :=
      ⟨fun other => other.eq asks, fun equal => equal ▸ asks⟩
    rw [edges, same]

theorem mem_addDependencies {calls : List (Option NodePtr × Option NodePtr)} {graph : MgGraph}
    {env : Env} (granting : env.Granting) (edge : MgEdge) :
    edge ∈ (addDependencies calls ⟨graph, env⟩).object.edges ↔
      edge ∈ graph.edges ∨ ∃ call ∈ calls, Requests graph.address call.1 call.2 edge := by
  induction calls generalizing graph env with
  | nil => simp [addDependencies]
  | cons call rest ih =>
      obtain ⟨before, after⟩ := call
      obtain ⟨⟨address, edges⟩, still⟩ := mgGraphAddDependency_granting before after graph granting
      rw [addDependencies, ih still, address, edges, List.exists_mem_cons_iff, or_assoc]

theorem addDependencies_nodup {calls : List (Option NodePtr × Option NodePtr)} {graph : MgGraph}
    {env : Env} (distinct : graph.edges.Nodup) :
    (addDependencies calls ⟨graph, env⟩).object.edges.Nodup := by
  induction calls generalizing graph env with
  | nil => exact distinct
  | cons call rest ih =>
      have changes : Changes (fun _ => True) graph (mgGraphAddDependency call.1 call.2) :=
        mgGraphAddDependency_changes _ _ graph fun _ _ => trivial
      have changed := changes ⟨graph, env⟩ rfl
      apply ih
      rcases ran : mgGraphAddDependency call.1 call.2 ⟨graph, env⟩ with ⟨reason | ⟨⟩, reached⟩ <;>
        simp only [ran] at changed
      · exact changed.edges ▸ distinct
      · exact GraphChange.nodup changed distinct

/-- The order of the calls does not matter for the set of edges. -/
theorem addDependencies_perm {calls calls' : List (Option NodePtr × Option NodePtr)}
    (permuted : calls.Perm calls') {graph : MgGraph} (distinct : graph.edges.Nodup)
    {env env' : Env} (granting : env.Granting) (granting' : env'.Granting) :
    (addDependencies calls ⟨graph, env⟩).object.edges.Perm
      (addDependencies calls' ⟨graph, env'⟩).object.edges := by
  refine (List.perm_ext_iff_of_nodup (addDependencies_nodup distinct)
    (addDependencies_nodup distinct)).mpr fun edge => ?_
  simp only [mem_addDependencies granting, mem_addDependencies granting', permuted.mem_iff]

/-! ### The log -/

/-- The call asked for this edge and was answered OK. -/
def Entry.Joins (entry : Entry) (address : GraphPtr) (edge : MgEdge) : Prop :=
  entry.result = .ok .done ∧ ∃ before after,
    entry.call = .graphEdit (some address) (.addDependency (some before) (some after)) ∧
      edge = edgeOf before after

def Linked (log : List Entry) (address : GraphPtr) (edge : MgEdge) : Prop :=
  ∃ entry ∈ log, entry.Joins address edge

/-- Every graph has the edges of the log, and every call in the log that was answered OK
could ask for one. -/
structure EdgesLogged (log : List Entry) (world : World) : Prop where
  asked : ∀ entry ∈ log, entry.result = .ok .done → ∀ address before after,
    entry.call = .graphEdit (some address) (.addDependency before after) →
      address < world.graphs.size ∧ ∃ edge, Requests address before after edge
  edges : ∀ address graph, world.graphs.get? address = some graph →
    ∀ edge, edge ∈ graph.edges ↔ Linked log address edge

section Log

variable {log : List Entry} {entry : Entry} {world world' : World} {address : GraphPtr}
  {edge : MgEdge}

theorem joined_append_singleton :
    Linked (log ++ [entry]) address edge ↔ Linked log address edge ∨ entry.Joins address edge := by
  simp only [Linked, List.mem_append, List.mem_singleton, or_and_right, exists_or, exists_eq_left]

theorem CallStep.graphs_size {call : Call} {result : Except Fault Response}
    (step : CallStep world call result world') : world.graphs.size ≤ world'.graphs.size := by
  cases step with
  | launchSynchronize =>
      unfold World.putLaunch
      split <;> simp
  | refused | nothing | counted | graphCreate | graphNotCreated | graphDestroy | graphEdit
  | graphValidate | graphInstantiate | graphNotInstantiated | execDestroy | execPatch
  | graphLaunch | graphNotLaunched | launchDestroy => simp

theorem EdgesLogged.known (logged : EdgesLogged log world) (joined : Linked log address edge) :
    address < world.graphs.size := by
  obtain ⟨entry, member, answered, before, after, named, _⟩ := joined
  exact (logged.asked entry member answered _ _ _ named).1

theorem not_joins {entry : Entry}
    (other : ∀ before after,
      entry.call ≠ .graphEdit (some address) (.addDependency before after)) :
    ¬ entry.Joins address edge := by
  rintro ⟨_, before, after, named, _⟩
  exact other _ _ named

theorem GraphChange.edges_kept {before after : MgGraph}
    (change : GraphChange (fun _ => False) before after) : after.edges = before.edges := by
  cases change with
  | same contents => exact contents.edges
  | addNode as valid room address nodes edges => exact edges
  | addEdge first second given => exact given.1.elim
  | setArena | setFlags => rfl

/-- An edit that is not a dependency adds no edge. -/
theorem GraphEdit.edges_kept {edit : GraphEdit}
    (other : ∀ before after, edit ≠ .addDependency before after) (graph : MgGraph) (env : Env) :
    (edit.run ⟨graph, env⟩).2.object.edges = graph.edges := by
  refine GraphChange.edges_kept (edit.graphChange graph env fun pointer passed => ?_)
  cases edit with
  | addDependency before after => exact other _ _ rfl
  | addNode | setArena | setNodePatchFlags => exact passed

/-- The answer to a dependency call, and the edges it leaves. -/
theorem addDependency_answer {graph : MgGraph} {env : Env} {before after : Option NodePtr}
    {result : Except Fault Response} {focus : Focus MgGraph}
    (ran : (GraphEdit.addDependency before after).run ⟨graph, env⟩ = (result, focus)) :
    (result = .ok .done ∧ ∃ asked, Requests graph.address before after asked ∧
      ∀ edge, edge ∈ focus.object.edges ↔ edge ∈ graph.edges ∨ edge = asked) ∨
    (result ≠ .ok .done ∧ focus.object.edges = graph.edges) := by
  have requests : Triple (Has (· = graph)) (mgGraphAddDependency before after) _ _ :=
    mgGraphAddDependency_requests
  have edges := requests ⟨graph, env⟩ rfl
  rw [GraphEdit.run, bind_apply] at ran
  rcases inner : mgGraphAddDependency before after ⟨graph, env⟩ with ⟨reason | ⟨⟩, reached⟩ <;>
    simp only [inner, pure_apply] at ran edges <;> cases ran
  · exact .inr ⟨nofun, edges.edges⟩
  · obtain ⟨_, asked, asks, joined⟩ := edges
    exact .inl ⟨rfl, asked, asks, joined⟩

/-- An edit adds the edge it asks for, if it is answered OK. -/
theorem edited_edges {before : MgGraph} {env : Env} {edit : GraphEdit} {focus : Focus MgGraph}
    (named : entry.call = .graphEdit (some address) edit)
    (ran : edit.run ⟨before, env⟩ = (entry.result, focus)) :
    edge ∈ focus.object.edges ↔ edge ∈ before.edges ∨ entry.Joins address edge := by
  by_cases dependency : ∃ first second, edit = .addDependency first second
  · obtain ⟨first, second, rfl⟩ := dependency
    rcases addDependency_answer ran with ⟨answered, asked, asks, joined⟩ | ⟨refused, kept⟩
    · rw [joined]
      have joins : entry.Joins address edge ↔ edge = asked := by
        obtain ⟨left, right, rfl, rfl, _, rfl⟩ := asks
        constructor
        · rintro ⟨_, before, after, called, rfl⟩
          rw [named] at called
          cases called
          rfl
        · rintro rfl
          exact ⟨answered, left, right, named, rfl⟩
      rw [joins]
    · rw [kept, or_iff_left fun joins => refused joins.1]
  · have other : ∀ first second, edit ≠ .addDependency first second :=
      fun first second same => dependency ⟨first, second, same⟩
    have kept := GraphEdit.edges_kept other before env
    rw [ran] at kept
    rw [kept, or_iff_left]
    apply not_joins
    intro first second called
    rw [named] at called
    cases called
    exact other first second rfl

/-- A dependency call on a live graph that is answered OK asked for an edge. -/
theorem CallStep.requested {graph : MgGraph} {before after : Option NodePtr}
    (wf : GraphsWf world) (live : world.graphs.get? address = some graph)
    (step : CallStep world (.graphEdit (some address) (.addDependency before after)) (.ok .done)
      world') : ∃ edge, Requests address before after edge := by
  generalize answered : (.ok .done : Except Fault Response) = result at step
  cases step with
  | refused reason missed => exact (Call.misses_edit missed live).elim
  | nothing missed => exact (Call.misses_edit missed live).elim
  | graphEdit present ran =>
      rcases addDependency_answer ran with ⟨_, edge, asks, _⟩ | ⟨refused, _⟩
      · rw [(wf _ _ present).here] at asks
        exact ⟨edge, asks⟩
      · exact absurd answered.symm refused

theorem EdgesLogged.step (wf : GraphsWf world) (logged : EdgesLogged log world)
    (step : CallStep world entry.call entry.result world')
    (alive : ∀ address edit, entry.call = .graphEdit (some address) edit →
      ∃ graph, world.graphs.get? address = some graph) :
    EdgesLogged (log ++ [entry]) world' where
  asked := by
    intro other member answered address before after named
    rcases List.mem_append.mp member with old | new
    · obtain ⟨known, asked⟩ := logged.asked other old answered address before after named
      exact ⟨known.trans_le step.graphs_size, asked⟩
    · cases List.mem_singleton.mp new
      obtain ⟨graph, live⟩ := alive address _ named
      rw [named, answered] at step
      exact ⟨(Slots.lt_size_of_get? live).trans_le step.graphs_size, step.requested wf live⟩
  edges := by
    intro address graph live edge
    rw [joined_append_singleton]
    cases step.graphOrigin live with
    | kept live other =>
        rw [logged.edges address graph live, or_iff_left (not_joins fun _ _ => other _)]
    | made fresh created empty =>
        subst empty
        have unlogged : ¬ Linked log address edge := fun joined =>
          (logged.known joined).ne fresh
        have unasked : ¬ entry.Joins address edge := not_joins (by simp [created])
        simp [unlogged, unasked]
    | @edited before edit focus named live ran same =>
        rw [← logged.edges address before live, same]
        exact edited_edges named ran

end Log

theorem permits_edit {system : System} {address : GraphPtr} {edit : GraphEdit}
    (permitted : system.permits (.graphEdit (some address) edit) = true) :
    ∃ graph, system.world.graphs.get? address = some graph := by
  simp only [System.permits, Bool.and_eq_true] at permitted
  exact Option.isSome_iff_exists.mp permitted.1

theorem Reachable.edgesLogged {system : System} (reachable : Reachable system) :
    EdgesLogged system.log system.world := by
  refine @Reachable.system_invariant (fun system => EdgesLogged system.log system.world) ?_ ?_ _
    reachable
  · intro oracle commandBufferFails mpsgraphEnabled
    refine ⟨fun entry member => ?_, fun address graph live => ?_⟩
    · cases member
    · simp [System.initial, World.initial] at live
  · intro system call earlier logged permitted step
    apply logged.step earlier.graphsWf step
    intro address edit named
    have allowed : system.permits call = true := permitted
    rw [show call = .graphEdit (some address) edit from named] at allowed
    exact permits_edit allowed

/-! ### Reachable graphs -/

def invalidNode : Fault :=
  mgSetError .invalidTopology .validate mgNodeIdInvalid "dependency references an invalid node"

theorem GraphWf.never_invalidNode {address : GraphPtr} {graph : MgGraph}
    (wf : GraphWf address graph) (env : Env) :
    (mgGraphTopologicalOrder graph env).1 ≠ .error invalidNode := by
  intro failed
  have fails : FailsOnly (· ≠ invalidNode) (mgGraphTopologicalOrder graph) := by
    unfold mgGraphTopologicalOrder
    split
    · exact .pure _
    · refine .bind (attemptBoth_fails (by decide)) fun _ _ _ _ => .ofExcept fun reason refused => ?_
      rcases topologicalOrder_cases wf.inside with ⟨_, order, ran, _⟩ | ⟨_, ran⟩
      · cases ran.symm.trans refused
      · cases ran.symm.trans refused
        decide
  exact fails env _ _ (Prod.ext failed rfl) rfl

/-- The edges of a graph are the dependencies that calls were answered OK for. -/
structure EdgesRecorded (log : List Entry) (address : GraphPtr) (graph : MgGraph) : Prop where
  distinct : graph.edges.Nodup
  irreflexive : ∀ edge ∈ graph.edges, edge.before ≠ edge.after
  inside : EdgesInside graph.nodes.length graph.edges
  recorded : ∀ edge, edge ∈ graph.edges ↔ Linked log address edge
  repeated : ∀ entry ∈ log, entry.result = .ok .done → ∀ before after,
    entry.call = .graphEdit (some address) (.addDependency before after) → ∀ env,
      mgGraphAddDependency before after ⟨graph, env⟩ = (.ok (), ⟨graph, env⟩)
  unordered : ∀ calls calls' env env', calls.Perm calls' → env.Granting → env'.Granting →
    (addDependencies calls ⟨graph, env⟩).object.edges.Perm
      (addDependencies calls' ⟨graph, env'⟩).object.edges
  valid : ∀ env, (mgGraphTopologicalOrder graph env).1 ≠ .error invalidNode

theorem edges_eq_dependencies {system : System} (reachable : Reachable system)
    {address : GraphPtr} {graph : MgGraph}
    (live : system.world.graphs.get? address = some graph) :
    EdgesRecorded system.log address graph := by
  have wf := reachable.graphsWf address graph live
  have logged := reachable.edgesLogged
  refine ⟨wf.distinct, wf.irreflexive, wf.inside, logged.edges address graph live, ?_, ?_,
    wf.never_invalidNode⟩
  · intro entry member answered before after named env
    obtain ⟨_, edge, first, second, rfl, rfl, may, rfl⟩ :=
      logged.asked entry member answered address before after named
    have joined : Linked system.log address (edgeOf first second) :=
      ⟨entry, member, answered, first, second, named, rfl⟩
    exact mgGraphAddDependency_present (wf.here ▸ may)
      ((logged.edges address graph live _).mpr joined) env
  · intro calls calls' env env' permuted granting granting'
    exact addDependencies_perm permuted wf.distinct granting granting'

theorem edges_eq_dependencies_of_chain :
    EdgesRecorded (grantAll.run chainCalls).log 0 chainGraph :=
  edges_eq_dependencies chain_reachable chain_built

end MetalGraph
