import MetalGraph.Proofs.GraphMeaning
import MetalGraph.Proofs.Replay

set_option autoImplicit false

/- A patched plan is the plan of a patched graph: changing nodes of a plan and changing the
nodes of its graph before it is instantiated come to the same. -/
namespace MetalGraph

/-! ### Patches of graphs -/

/-- The node a patch names, and what it does to the contents. -/
def ExecPatch.revision : ExecPatch → Option (MgNodeId × (MgNodeAs → MgNodeAs))
  | .dispatchGrid nodeId (some grid) => some (nodeId, MgNodeAs.withGrid grid)
  | .dispatchBuffer nodeId index (some buffer) offset =>
    some (nodeId, MgNodeAs.withBuffer index buffer offset)
  | .dispatchScalar nodeId index (some data) => some (nodeId, MgNodeAs.withScalar index data)
  | .copyNode nodeId desc =>
    (desc.bind MgCopyDesc.stored).map fun copy => (nodeId, fun _ => .copy copy)
  | .fillNode nodeId desc =>
    (desc.bind MgFillDesc.stored).map fun fill => (nodeId, fun _ => .fill fill)
  | .eventValue nodeId value => some (nodeId, MgNodeAs.withValue value)
  | .dispatchGrid _ none | .dispatchBuffer _ _ none _ | .dispatchScalar _ _ none
  | .optimizationFlags _ => none

/-- What a patch makes of the contents of the node with this id. -/
def ExecPatch.contents (patch : ExecPatch) (id : MgNodeId) (as : MgNodeAs) : MgNodeAs :=
  patch.revision.elim as fun revision => if id = revision.1 then revision.2 as else as

def MgNode.patched (patch : ExecPatch) (node : MgNode) : MgNode :=
  { node with as := patch.contents node.id node.as }

/-- The graph as it would be if its nodes had been added with the patched contents. -/
def MgGraph.patched (graph : MgGraph) (patch : ExecPatch) : MgGraph :=
  { graph with nodes := graph.nodes.map (MgNode.patched patch) }

def MgGraph.patchedBy (graph : MgGraph) (patches : List ExecPatch) : MgGraph :=
  patches.foldl MgGraph.patched graph

/-- The call as a successful patch of this plan. -/
def Entry.patchOf (address : ExecPtr) (entry : Entry) : Option ExecPatch :=
  match entry.call with
  | .execPatch (some pointer) patch =>
    if pointer = address ∧ entry.result.isOk = true then some patch else none
  | _ => none

/-- The calls of a run with their answers. -/
def System.entries (system : System) : List Call → List Entry
  | [] => []
  | call :: rest => system.record call :: (system.step call).entries rest

theorem System.run_log (system : System) (calls : List Call) :
    (system.run calls).log = system.log ++ system.entries calls := by
  induction calls generalizing system with
  | nil => simp [System.run, System.entries]
  | cons call rest ih =>
      rw [System.run, ih, System.entries]
      simp [System.step]

/-! ### Plans -/

def PlanItem.patched (patch : ExecPatch) (item : PlanItem) : PlanItem :=
  { item with contents := patch.contents item.id item.contents }

theorem patched_of_revision {plan : PlanRecord} {nodeId : MgNodeId} {patch : ExecPatch}
    {change : MgNodeAs → MgNodeAs} (revises : patch.revision = some (nodeId, change)) :
    (plan.revise nodeId change).items = plan.items.map (PlanItem.patched patch) := by
  apply List.map_congr_left
  intro item _
  unfold PlanItem.patched ExecPatch.contents
  rw [revises, Option.elim_some]
  split <;> rfl

theorem patched_of_none {items : List PlanItem} {patch : ExecPatch}
    (nothing : patch.revision = none) : items.map (PlanItem.patched patch) = items := by
  have same : PlanItem.patched patch = id := by
    funext item
    unfold PlanItem.patched ExecPatch.contents
    rw [nothing]
    rfl
  rw [same, List.map_id]

/-- A patch of a plan changes each item by itself. -/
theorem PlanRecord.patched_items (plan : PlanRecord) (patch : ExecPatch) :
    (plan.patched patch).items = plan.items.map (PlanItem.patched patch) := by
  cases patch with
  | dispatchGrid nodeId grid | dispatchScalar nodeId _ grid =>
      cases grid with
      | none => exact (patched_of_none rfl).symm
      | some grid => exact patched_of_revision rfl
  | dispatchBuffer nodeId _ buffer =>
      cases buffer with
      | none => exact (patched_of_none rfl).symm
      | some buffer => exact patched_of_revision rfl
  | copyNode nodeId desc =>
      rcases stored : desc.bind MgCopyDesc.stored with _ | copy
      · rw [patched_of_none (by simp [ExecPatch.revision, stored]), PlanRecord.patched, stored]
        rfl
      · rw [PlanRecord.patched, stored, Option.elim_some]
        exact patched_of_revision (by simp [ExecPatch.revision, stored])
  | fillNode nodeId desc =>
      rcases stored : desc.bind MgFillDesc.stored with _ | fill
      · rw [patched_of_none (by simp [ExecPatch.revision, stored]), PlanRecord.patched, stored]
        rfl
      · rw [PlanRecord.patched, stored, Option.elim_some]
        exact patched_of_revision (by simp [ExecPatch.revision, stored])
  | eventValue nodeId value => exact patched_of_revision rfl
  | optimizationFlags flags => exact (patched_of_none rfl).symm

section Graphs

variable {graph : MgGraph} {order : List Nat} {patches : List ExecPatch}

theorem patched_listed (graph : MgGraph) (patch : ExecPatch) (order : List Nat) :
    (graph.patched patch).listed order = (graph.listed order).map (MgNode.patched patch) := by
  simp [MgGraph.listed, MgGraph.patched, List.map_filterMap]

@[simp] theorem patchedBy_length (graph : MgGraph) (patches : List ExecPatch) :
    (graph.patchedBy patches).nodes.length = graph.nodes.length := by
  induction patches generalizing graph with
  | nil => rfl
  | cons patch rest ih => exact (ih (graph.patched patch)).trans (List.length_map _)

@[simp] theorem patchedBy_edges (graph : MgGraph) (patches : List ExecPatch) :
    (graph.patchedBy patches).edges = graph.edges := by
  induction patches generalizing graph with
  | nil => rfl
  | cons patch rest ih => exact ih (graph.patched patch)

/-- Every node has the id of its position. -/
def MgGraph.Numbered (graph : MgGraph) : Prop :=
  ∀ index node, graph.nodes[index]? = some node → node.id = UInt64.ofNat (index + 1)

theorem MgGraph.Numbered.patchedBy (numbered : graph.Numbered) (patches : List ExecPatch) :
    (graph.patchedBy patches).Numbered := by
  induction patches generalizing graph with
  | nil => exact numbered
  | cons patch rest ih =>
      apply ih
      intro index node present
      simp only [MgGraph.patched, List.getElem?_map, Option.map_eq_some_iff] at present
      obtain ⟨before, present, rfl⟩ := present
      exact numbered index before present

def MgNode.item (node : MgNode) : PlanItem := ⟨node.id, node.patchFlags, node.as⟩

/-- Patching the graph first patches every item that is listed of it. -/
theorem patchedBy_items {plan : PlanRecord}
    (listed : plan.items = (graph.listed order).map MgNode.item) :
    (patches.foldl PlanRecord.patched plan).items =
      ((graph.patchedBy patches).listed order).map MgNode.item := by
  induction patches generalizing graph plan with
  | nil => exact listed
  | cons patch rest ih =>
      apply ih
      rw [PlanRecord.patched_items, listed, patched_listed, List.map_map, List.map_map]
      rfl

end Graphs

/-! ### Plans along a log -/

section Logs

variable {chronicle : Chronicle} {address : ExecPtr} {plan : PlanRecord}

/-- The plans that a call leaves as they are, as far as this one goes. -/
theorem perform_exec {call : Call} (old : address < chronicle.execs.size)
    (unpatched : ∀ patch, call ≠ .execPatch (some address) patch)
    (reached : (chronicle.perform call).execs.get? address = some plan) :
    chronicle.execs.get? address = some plan := by
  cases call with
  | execDestroy handle =>
      cases handle with
      | none => exact reached
      | some pointer =>
          simp only [Chronicle.perform, Slots.get?_free] at reached
          split at reached
          · cases reached
          · exact reached
  | execPatch handle patch =>
      cases handle with
      | none => exact reached
      | some pointer =>
          have other : address ≠ pointer := by
            rintro rfl
            exact unpatched patch rfl
          simp only [Chronicle.perform, Slots.get?_adjust] at reached
          rwa [if_neg other] at reached
  | graphInstantiate handle device =>
      cases handle with
      | none => exact reached
      | some pointer =>
          simp only [Chronicle.perform] at reached
          rcases found : chronicle.graphs.get? pointer with _ | graph <;>
            simp only [found, Option.elim_none, Option.elim_some] at reached
          · exact reached
          · rw [Slots.get?_push, if_neg old.ne] at reached
            exact reached
  | graphDestroy handle | graphEdit handle _ | graphLaunch handle _ | launchSynchronize handle
  | launchDestroy handle => cases handle <;> exact reached
  | counted | graphCreate | graphValidate => exact reached

theorem perform_execs_size (chronicle : Chronicle) (call : Call) :
    chronicle.execs.size ≤ (chronicle.perform call).execs.size := by
  cases call with
  | graphInstantiate handle device =>
      cases handle with
      | none => exact le_rfl
      | some pointer =>
          simp only [Chronicle.perform]
          rcases chronicle.graphs.get? pointer with _ | graph
          · exact le_rfl
          · simp
  | execDestroy handle | execPatch handle _ => cases handle <;> simp [Chronicle.perform]
  | graphDestroy handle | graphEdit handle _ | graphLaunch handle _ | launchSynchronize handle
  | launchDestroy handle => cases handle <;> exact le_rfl
  | counted | graphCreate | graphValidate => exact le_rfl

theorem advance_execs_size (chronicle : Chronicle) (entry : Entry) :
    chronicle.execs.size ≤ (chronicle.advance entry).execs.size := by
  unfold Chronicle.advance
  split
  · exact perform_execs_size chronicle entry.call
  · exact le_rfl

/-- One entry does to a plan what it patches of it. -/
theorem advance_exec {entry : Entry} (old : address < chronicle.execs.size)
    (reached : (chronicle.advance entry).execs.get? address = some plan) :
    ∃ before, chronicle.execs.get? address = some before ∧
      plan = (entry.patchOf address).toList.foldl PlanRecord.patched before := by
  obtain ⟨call, result, events⟩ := entry
  by_cases patches : ∃ patch, call = .execPatch (some address) patch
  · obtain ⟨patch, rfl⟩ := patches
    by_cases success : result.isOk = true
    · simp only [Chronicle.advance, Entry.tookEffect, success, ↓reduceIte, Chronicle.perform,
        Slots.get?_adjust, Option.map_eq_some_iff] at reached
      obtain ⟨before, present, rfl⟩ := reached
      exact ⟨before, present, by simp [Entry.patchOf, success]⟩
    · simp only [Chronicle.advance, Entry.tookEffect, success] at reached
      exact ⟨plan, reached, by simp [Entry.patchOf, success]⟩
  · have unpatched : ∀ patch, call ≠ .execPatch (some address) patch :=
      fun patch same => patches ⟨patch, same⟩
    have nothing : Entry.patchOf address ⟨call, result, events⟩ = none := by
      unfold Entry.patchOf
      split
      · rename_i pointer patch same
        apply if_neg
        rintro ⟨rfl, _⟩
        exact unpatched patch same
      · rfl
    rw [nothing]
    unfold Chronicle.advance at reached
    split at reached
    · exact ⟨plan, perform_exec old unpatched reached, rfl⟩
    · exact ⟨plan, reached, rfl⟩

/-- A run of entries does to a plan what it patches of it, in order. -/
theorem foldl_advance_exec {entries : List Entry} (old : address < chronicle.execs.size)
    (reached : (entries.foldl Chronicle.advance chronicle).execs.get? address = some plan) :
    ∃ before, chronicle.execs.get? address = some before ∧
      plan = (entries.filterMap (Entry.patchOf address)).foldl PlanRecord.patched before := by
  induction entries generalizing chronicle with
  | nil => exact ⟨plan, reached, rfl⟩
  | cons entry rest ih =>
      obtain ⟨middle, present, rfl⟩ :=
        ih (old.trans_le (advance_execs_size chronicle entry)) reached
      obtain ⟨before, present', rfl⟩ := advance_exec old present
      apply Exists.intro before
      apply And.intro present'
      rcases patched : entry.patchOf address with _ | patch <;> simp [patched]

end Logs

/-! ### Runs -/

section Runs

variable {system : System} {pointer : GraphPtr} {graph : MgGraph} {device : Option MgDevice}
  {address : ExecPtr} {calls : List Call} {exec : MgGraphExec}

/-- The patches of this plan that succeed in a run. -/
def System.patchesOf (system : System) (address : ExecPtr) (calls : List Call) :
    List ExecPatch :=
  (system.entries calls).filterMap (Entry.patchOf address)

theorem GraphWf.numbered (wf : GraphWf pointer graph) : graph.Numbered :=
  fun index node present => (wf.nodes index node present).id

theorem instantiate_recorded (reachable : Reachable system)
    (live : system.world.graphs.get? pointer = some graph)
    (success : (system.record (.graphInstantiate (some pointer) device)).result =
      .ok (.exec address)) :
    ∃ order exec, topologicalOrder graph.nodes.length graph.edges = .ok order ∧
      Instantiates graph order exec ∧ (system.step
        (.graphInstantiate (some pointer) device)).world.execs.get? address = some exec := by
  obtain ⟨world, same, step⟩ := recorded_step success
  cases step with
  | graphInstantiate present ran =>
      rw [live] at present
      cases present
      have wf := reachable.graphsWf pointer graph live
      obtain ⟨order, _, _, ordered, made⟩ := mgGraphInstantiate_ordered wf ran
      refine ⟨order, _, instantiateOrder_topological wf ordered, made, ?_⟩
      rw [same, Slots.get?_push, if_pos rfl]

theorem listed_items (numbered : graph.Numbered) (order : List Nat) :
    order.filterMap graph.record.item = (graph.listed order).map MgNode.item := by
  induction order with
  | nil => rfl
  | cons index rest ih =>
      rcases present : graph.nodes[index]? with _ | node
      · have absent : graph.record.item index = none := by
          simp [GraphRecord.item, MgGraph.record, present]
        simp only [List.filterMap_cons, absent, ih]
        simp [MgGraph.listed, present]
      · have named := numbered index node present
        simp only [List.filterMap_cons, record_item present, ih]
        simp [MgGraph.listed, present, MgNode.item, named]

/-- The plan lists the patched graph as long as both are patched alike. -/
theorem patched_items (reachable : Reachable system)
    (live : system.world.graphs.get? pointer = some graph)
    (instantiated : (system.record (.graphInstantiate (some pointer) device)).result =
      .ok (.exec address))
    (permitted : system.permitsRun (.graphInstantiate (some pointer) device :: calls) = true)
    (live' : (system.run (.graphInstantiate (some pointer) device :: calls)).world.execs.get?
      address = some exec) :
    ∃ order, topologicalOrder graph.nodes.length graph.edges = .ok order ∧
      IsTopologicalOrder graph.nodes.length graph.edges order ∧
      exec.record.items = ((graph.patchedBy ((system.step
        (.graphInstantiate (some pointer) device)).patchesOf address calls)).listed order).map
          MgNode.item := by
  obtain ⟨order, built, ordered, made, present⟩ :=
    instantiate_recorded reachable live instantiated
  have wf := reachable.graphsWf pointer graph live
  simp only [System.permitsRun, Bool.and_eq_true] at permitted
  have reachable' := reachable.step permitted.1
  have start := replay_exec reachable' present
  have finish := replay_exec (reachable'.run permitted.2) live'
  rw [System.run_log, replay, List.foldl_append] at finish
  obtain ⟨before, found, patched⟩ :=
    foldl_advance_exec (Slots.lt_size_of_get? start) finish
  have same : before = built.record := Option.some.inj (found.symm.trans start)
  refine ⟨order, ordered, made.sorted, ?_⟩
  rw [patched, same]
  apply patchedBy_items
  exact (made.items wf).trans (listed_items wf.numbered order)

/-- A plan that has been patched in a run is the plan of the graph with the same patches. -/
theorem patched_plan_is_patched_graph {system : System} (reachable : Reachable system)
    {pointer : GraphPtr} {graph : MgGraph}
    (live : system.world.graphs.get? pointer = some graph) {device : Option MgDevice}
    {address : ExecPtr} (instantiated : (system.record
      (.graphInstantiate (some pointer) device)).result = .ok (.exec address))
    {calls : List Call}
    (permitted : system.permitsRun (.graphInstantiate (some pointer) device :: calls) = true)
    {exec : MgGraphExec}
    (live' : (system.run (.graphInstantiate (some pointer) device :: calls)).world.execs.get?
      address = some exec) :
    exec.record.items = (graph.patchedBy ((system.step
      (.graphInstantiate (some pointer) device)).patchesOf address
        calls)).record.instantiated.items := by
  obtain ⟨order, ordered, _, items⟩ := patched_items reachable live instantiated permitted live'
  generalize (system.step (.graphInstantiate (some pointer) device)).patchesOf address calls =
    patches at items ⊢
  have numbered := (reachable.graphsWf pointer graph live).numbered.patchedBy patches
  rw [items, ← listed_items numbered, GraphRecord.instantiated]
  have same : topologicalOrder (graph.patchedBy patches).record.nodes.length
      (graph.patchedBy patches).record.edges = .ok order := by
    simpa [MgGraph.record] using ordered
  rw [same]

/-- Launching a plan does what its graph means once that has the patches of the plan. The
graph and everything else may have changed since it was instantiated. -/
theorem launch_does_its_graph {programs : Programs} {system : System}
    (reachable : Reachable system) {pointer : GraphPtr} {graph : MgGraph}
    (live : system.world.graphs.get? pointer = some graph) {device : Option MgDevice}
    {address : ExecPtr} (instantiated : (system.record
      (.graphInstantiate (some pointer) device)).result = .ok (.exec address))
    {calls : List Call}
    (permitted : system.permitsRun (.graphInstantiate (some pointer) device :: calls) = true)
    {patched : MgGraph} (patches : patched = graph.patchedBy ((system.step
      (.graphInstantiate (some pointer) device)).patchesOf address calls))
    {stream : Option MgStream} {launch : LaunchPtr} {exec : MgGraphExec}
    (live' : (system.run (.graphInstantiate (some pointer) device :: calls)).world.execs.get?
      address = some exec)
    (success : ((system.run (.graphInstantiate (some pointer) device :: calls)).record
      (.graphLaunch (some address) stream)).result = .ok (.launch launch))
    (avoids : ∀ node ∈ exec.nodes, node.AvoidsWorkspace exec.workspace.backendImpl)
    (honest : ∀ node ∈ patched.nodes, programs.Honest node.as)
    (ordered : patched.ConflictsOrdered) {order : List Nat}
    (sorted : IsTopologicalOrder graph.nodes.length graph.edges order) (memory : Memory) :
    AgreeOff exec.workspace.backendImpl
      (programs.run (committedCommands ((system.run
        (.graphInstantiate (some pointer) device :: calls)).record
          (.graphLaunch (some address) stream)).events) memory)
      (programs.graph patched order memory) := by
  obtain ⟨made, _, sorted', items⟩ := patched_items reachable live instantiated permitted live'
  rw [← patches] at items
  have contents : exec.nodes.map MgExecNode.contents = (patched.listed made).map MgNode.as := by
    have viewed : exec.record.items.map PlanItem.contents =
        exec.nodes.map MgExecNode.contents := by
      simp [MgGraphExec.record, Function.comp_def]
    rw [← viewed, items, List.map_map]
    rfl
  have honest' : ∀ node ∈ exec.nodes, programs.Honest node.contents := by
    intro node member
    have listed : node.contents ∈ (patched.listed made).map MgNode.as :=
      contents ▸ List.mem_map_of_mem member
    obtain ⟨src, member', same⟩ := List.mem_map.mp listed
    obtain ⟨index, _, present⟩ := MgGraph.mem_listed.mp member'
    exact same ▸ honest src (List.mem_of_getElem? present)
  have launched := launch_does_nodes (reachable.run permitted) live' success avoids honest' memory
  rw [contents] at launched
  have count : patched.nodes.length = graph.nodes.length := by simp [patches]
  have edges : patched.edges = graph.edges := by simp [patches]
  rw [← count, ← edges] at sorted sorted'
  rw [graph_order_irrelevant honest ordered sorted sorted']
  exact launched

end Runs

/-! The graph of a plan whose fill was patched to another value before the graph was
destroyed. -/

def relayGraph (value : UInt8) : MgGraph where
  address := 0
  nodes :=
    [⟨0, 1, 0, mgPatchFillValue, .fill ⟨relayBuffer 0, 0, 16, value⟩⟩,
      ⟨0, 2, 1, 0, .copy ⟨relayBuffer 0, 0, relayBuffer 1, 0, 16⟩⟩,
      ⟨0, 3, 2, 0, .dispatch relayDispatch⟩]
  nodeCapacity := 4
  edges := [⟨0, 1⟩]
  edgeCapacity := 4
  arena := none

/-- What the first calls build, what instantiating it answers, and which later patch succeeds. -/
theorem relay_built :
    (grantAll.run relayCalls).world.graphs.get? 0 = some (relayGraph 7) ∧
      ((grantAll.run relayCalls).record
        (.graphInstantiate (some 0) (some ⟨some 7⟩))).result = .ok (.exec 0) ∧
      ((grantAll.run relayCalls).step
        (.graphInstantiate (some 0) (some ⟨some 7⟩))).patchesOf 0 relayLater = [relayPatch] := by
  decide +kernel

theorem addOnePrograms_honest (value : UInt8) :
    ∀ node ∈ (relayGraph value).nodes, addOnePrograms.Honest node.as := by
  intro node member
  simp only [relayGraph, List.mem_cons, List.not_mem_nil, or_false] at member
  rcases member with rfl | rfl | rfl
  · trivial
  · trivial
  · exact relayDispatch_honest

theorem range_disjoint {buffer other : MetalBuffer} {offset size offset' size' : Nat}
    (apart : buffer.id ≠ other.id) :
    Disjoint (buffer.range offset size) (other.range offset' size') := by
  rw [Set.disjoint_left]
  rintro location ⟨position, rfl, _⟩ ⟨position', same, _⟩
  injection same with same
  exact apart same

theorem relay_apart (value : UInt8) {as : MgNodeAs}
    (member : as = .fill ⟨relayBuffer 0, 0, 16, value⟩ ∨
      as = .copy ⟨relayBuffer 0, 0, relayBuffer 1, 0, 16⟩) :
    as.footprint.Apart (MgNodeAs.dispatch relayDispatch).footprint := by
  rw [relayDispatch_footprint]
  unfold Footprint.Apart Footprint.touches
  rcases member with rfl | rfl
  · simp only [MgNodeAs.footprint, Set.disjoint_union_right]
    have here : Disjoint ((relayBuffer 0).impl.range 0 16) ((relayBuffer 2).impl.range 0 16) :=
      range_disjoint (by decide)
    exact ⟨⟨here, here⟩, Set.disjoint_empty _, here.symm⟩
  · simp only [MgNodeAs.footprint, Set.disjoint_union_right]
    have src : Disjoint ((relayBuffer 0).impl.range 0 16) ((relayBuffer 2).impl.range 0 16) :=
      range_disjoint (by decide)
    have dst : Disjoint ((relayBuffer 1).impl.range 0 16) ((relayBuffer 2).impl.range 0 16) :=
      range_disjoint (by decide)
    exact ⟨⟨dst, dst⟩, src.symm, dst.symm⟩

theorem relay_ordered (value : UInt8) : (relayGraph value).ConflictsOrdered := by
  have edge : Relation.TransGen (dependsOn (relayGraph value).edges) 0 1 :=
    .single (List.mem_singleton_self _)
  intro first second node other present present' distinct conflict
  match first, second, present, present' with
  | 0, 0, _, _ | 1, 1, _, _ | 2, 2, _, _ => exact absurd rfl distinct
  | 0, 1, _, _ => exact .inl edge
  | 1, 0, _, _ => exact .inr edge
  | 0, 2, rfl, rfl => exact absurd (relay_apart value (.inl rfl)) conflict
  | 1, 2, rfl, rfl => exact absurd (relay_apart value (.inr rfl)) conflict
  | 2, 0, rfl, rfl => exact absurd (relay_apart value (.inl rfl)).symm conflict
  | 2, 1, rfl, rfl => exact absurd (relay_apart value (.inr rfl)).symm conflict
  | _ + 3, _, present, _ => exact absurd present (by simp [relayGraph])
  | _, _ + 3, _, present' => exact absurd present' (by simp [relayGraph])

theorem relay_sorted :
    IsTopologicalOrder (relayGraph 7).nodes.length (relayGraph 7).edges [2, 0, 1] where
  perm := by decide
  respects := by decide

theorem relay_patched :
    relayGraph 9 = (relayGraph 7).patchedBy (((grantAll.run relayCalls).step
      (.graphInstantiate (some 0) (some ⟨some 7⟩))).patchesOf 0 relayLater) := by
  rw [relay_built.2.2]
  rfl

theorem patched_plan_is_patched_graph_of_relay :
    relayExec.record.items = (relayGraph 9).record.instantiated.items := by
  rw [relay_patched]
  exact @patched_plan_is_patched_graph (grantAll.run relayCalls) relay_reachable 0 (relayGraph 7)
    relay_built.1 (some ⟨some 7⟩) 0 relay_built.2.1 relayLater relay_permitted relayExec
    relay_planned

theorem launch_does_its_graph_of_relay :
    addOnePrograms.run (committedCommands (relayRun.record launchRelay).events) blankMemory =
      addOnePrograms.graph (relayGraph 9) [2, 0, 1] blankMemory := by
  funext location
  have meant := @launch_does_its_graph addOnePrograms (grantAll.run relayCalls) relay_reachable 0
    (relayGraph 7) relay_built.1 (some ⟨some 7⟩) 0 relay_built.2.1 relayLater relay_permitted
    (relayGraph 9) relay_patched (some ⟨some 7⟩) 0 relayExec relay_planned relay_launched
    relay_avoids (addOnePrograms_honest 9) (relay_ordered 9) [2, 0, 1] relay_sorted blankMemory
  exact meant location (relay_outside location)

end MetalGraph
