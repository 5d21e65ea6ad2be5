import MetalGraph.Model.Patch
import MetalGraph.Proofs.Instantiation

set_option autoImplicit false

/- Finding the node a patch addresses, and the plan as a copy of the graph. -/
namespace MetalGraph

open Eff

section Find

variable {nodes : List MgExecNode} {nodeId : MgNodeId} {position : Nat} {node : MgExecNode}

theorem mgPatchFindNode_ok (success : mgPatchFindNode nodes nodeId = .ok (position, node)) :
    nodes[position]? = some node ∧ node.patchId = some nodeId := by
  unfold mgPatchFindNode at success
  split at success
  · cases success
  · split at success
    · rename_i stored place found
      cases success
      have member := List.mem_of_find?_eq_some found
      exact ⟨List.mem_zipIdx_iff_getElem?.mp member, by simpa using List.find?_some found⟩
    · cases success

/-- An id that one node has and no other finds this node. -/
theorem mgPatchFindNode_of_unique (valid : nodeId ≠ mgNodeIdInvalid)
    (present : nodes[position]? = some node) (named : node.patchId = some nodeId)
    (only : ∀ other stored, nodes[other]? = some stored → stored.patchId = some nodeId →
      other = position) : mgPatchFindNode nodes nodeId = .ok (position, node) := by
  rcases found : nodes.zipIdx.find? fun entry => entry.1.patchId == some nodeId with
    _ | ⟨stored, place⟩
  · have absent := List.find?_eq_none.mp found (node, position)
      (List.mem_zipIdx_iff_getElem?.mpr present)
    simp [named] at absent
  · have stored' : nodes[place]? = some stored :=
      List.mem_zipIdx_iff_getElem?.mp (List.mem_of_find?_eq_some found)
    have same := only place stored stored' (by simpa using List.find?_some found)
    subst same
    rw [present] at stored'
    cases stored'
    simp only [mgPatchFindNode, valid, ↓reduceIte, found]

theorem mgPatchFindNode_of_absent (absent : ∀ node ∈ nodes, node.patchId ≠ some nodeId) :
    statusOf (mgPatchFindNode nodes nodeId) = some .invalidArgument := by
  unfold mgPatchFindNode
  split
  · rfl
  · split
    · rename_i stored place found
      have present := List.mem_zipIdx_iff_getElem?.mp (List.mem_of_find?_eq_some found)
      exact absurd (by simpa using List.find?_some found)
        (absent stored (List.mem_of_getElem? present))
    · rfl

end Find

/-- The kinds of node that a patch may address. -/
def MgNode.patchable (src : MgNode) : Bool :=
  match src.as with
  | .dispatch _ | .copy _ | .fill _ | .eventWait _ | .eventSignal _ | .barrier => true
  | .mpsgraph _ | .workspace _ | .workspaceFill _ | .unknown _ => false

@[simp] theorem patchId_instantiated (src : MgNode) (offset : UInt64) :
    (src.instantiated offset).patchId = if src.patchable then some src.id else none := by
  obtain ⟨graph, id, index, flags, as⟩ := src
  cases as <;> rfl

section Copy

variable {address : GraphPtr} {graph : MgGraph} {order : List Nat} {exec : MgGraphExec}

theorem Instantiates.node_at (made : Instantiates graph order exec) {position index : Nat}
    {src : MgNode} (listed : order[position]? = some index)
    (present : graph.nodes[index]? = some src) :
    ∃ offset, exec.nodes[position]? = some (src.instantiated offset) := by
  obtain ⟨node, stored, source, offset, present', rfl, _⟩ :=
    getElem?_of_forall₂ made.nodes listed
  rw [present] at present'
  cases present'
  exact ⟨offset, stored⟩

theorem Instantiates.source_at (made : Instantiates graph order exec) {position : Nat}
    {node : MgExecNode} (stored : exec.nodes[position]? = some node) :
    ∃ index src offset, order[position]? = some index ∧ graph.nodes[index]? = some src ∧
      node = src.instantiated offset := by
  obtain ⟨index, listed, src, offset, present, rfl, _⟩ :=
    getElem?_of_forall₂' made.nodes stored
  exact ⟨index, src, offset, listed, present, rfl⟩

theorem Instantiates.find_patchable (wf : GraphWf address graph)
    (made : Instantiates graph order exec) {position index : Nat} {src : MgNode}
    (listed : order[position]? = some index) (present : graph.nodes[index]? = some src)
    (patchable : src.patchable = true) :
    ∃ node, exec.nodes[position]? = some node ∧
      mgPatchFindNode exec.nodes src.id = .ok (position, node) := by
  obtain ⟨offset, stored⟩ := made.node_at listed present
  refine ⟨_, stored, mgPatchFindNode_of_unique
    (wf.id_ne_invalid (List.mem_of_getElem? present)) stored (by simp [patchable]) ?_⟩
  intro other node stored' named
  obtain ⟨index', src', offset', listed', present', rfl⟩ := made.source_at stored'
  have sameId : src'.id = src.id := by
    simpa [Option.ite_none_right_eq_some] using And.right (by simpa using named)
  have sameIndex := wf.index_of_id present' present sameId
  subst sameIndex
  -- the order lists every index once
  have once : order.Nodup := made.sorted.perm.nodup_iff.mpr List.nodup_range
  exact (List.getElem?_inj (List.getElem?_eq_some_iff.mp listed').1 once).mp
    (listed'.trans listed.symm)

theorem Instantiates.find_nothing (made : Instantiates graph order exec) {nodeId : MgNodeId}
    (absent : ∀ src ∈ graph.nodes, src.id = nodeId → src.patchable = false) :
    statusOf (mgPatchFindNode exec.nodes nodeId) = some .invalidArgument := by
  apply mgPatchFindNode_of_absent
  intro node member named
  obtain ⟨position, stored⟩ := List.mem_iff_getElem?.mp member
  obtain ⟨index, src, offset, _, present, rfl⟩ := made.source_at stored
  rw [patchId_instantiated, Option.ite_none_right_eq_some, Option.some.injEq] at named
  have fixed := absent src (List.mem_of_getElem? present) named.2
  rw [named.1] at fixed
  cases fixed

end Copy

/-- Instantiating a reachable graph copies its nodes along a topological order, each
with its own workspace offset, and patches find the copies by the ids of the nodes. -/
theorem mgGraphInstantiate_refines_graph {system : System} {address : GraphPtr} {graph : MgGraph}
    {device : Option MgDevice} (reachable : Reachable system)
    (live : system.world.graphs.get? address = some graph) :
    (∀ env, statusOf (mgGraphInstantiate graph device env).1 ≠ some .internalError) ∧
    ∀ env exec reached, mgGraphInstantiate graph device env = (.ok exec, reached) →
      (graph.nodes.map MgNode.id).Nodup ∧
      (∀ node ∈ graph.nodes, node.id ≠ mgNodeIdInvalid) ∧
      (∃ order : List Nat, order.Perm (List.range graph.nodes.length) ∧
        (∀ edge ∈ graph.edges, order.idxOf edge.before < order.idxOf edge.after) ∧
        List.Forall₂ (ClonedFrom graph exec.workspace) order exec.nodes ∧
        ∀ position index src, order[position]? = some index →
          graph.nodes[index]? = some src → src.patchable = true →
          ∃ node, exec.nodes[position]? = some node ∧
            mgPatchFindNode exec.nodes src.id = .ok (position, node)) ∧
      ∀ nodeId, (∀ src ∈ graph.nodes, src.id = nodeId → src.patchable = false) →
        statusOf (mgPatchFindNode exec.nodes nodeId) = some .invalidArgument := by
  have wf := reachable.graphsWf address graph live
  refine ⟨fun env internal => ?_, fun env exec reached success => ?_⟩
  · rcases ran : mgGraphInstantiate graph device env with ⟨reason | exec, reached⟩ <;>
      rw [ran] at internal
    · have ordinary := mgGraphInstantiate_fails wf device env reason reached ran
      cases reason with
      | error reported => exact ordinary (by simpa [statusOf] using internal)
      | undefined => cases internal
    · cases internal
  · obtain ⟨order, made⟩ := mgGraphInstantiate_ok wf success
    exact ⟨wf.ids_distinct, fun node => wf.id_ne_invalid,
      ⟨order, made.sorted.perm, made.sorted.respects, made.nodes,
        fun position index src => made.find_patchable wf⟩,
      fun nodeId => made.find_nothing⟩

/-! A kernel, a fill of what it wrote that goes through the workspace, and a signal, added in
the opposite order. -/

def sharedBuffer : MgBuffer where
  address := 0
  impl := ⟨0, 7, 16, true⟩
  deviceImpl := some 7
  length := 16
  byteOffset := 0
  originKind := .libraryOwned
  isZeroCopy := false
  isExternal := false
  isHostVisible := true
  isMutable := true
  sourceFramework := "Metal Graph"
  window := by decide

def stationDispatch : MgDispatchDesc where
  size := sizeofMgDispatchDesc
  metallibPath := some "phase0_test_kernels.metallib"
  kernelName := some "mg_phase0_add_one"
  gridSize := ⟨4, 1, 1⟩
  threadsPerThreadgroup := ⟨1, 1, 1⟩
  buffers := some [⟨0, some sharedBuffer, 0⟩]
  scalars := some []
  maxGridSize := ⟨8, 1, 1⟩
  resources := some [⟨40, 0, .readWrite, 0, 16, 4⟩]

def stationKernel (gridSize : Dims) : MgDispatchNode where
  metallibPath := "phase0_test_kernels.metallib"
  kernelName := "mg_phase0_add_one"
  gridSize := gridSize
  threadsPerThreadgroup := ⟨1, 1, 1⟩
  maxGridSize := ⟨8, 1, 1⟩
  buffers := [⟨0, sharedBuffer, 0⟩]
  scalars := []
  resources := [⟨40, 0, .readWrite, 0, 16, 4⟩]

def stationCalls : List Call :=
  [.counted (.bufferCreateShared (some ⟨some 7⟩) 16), .counted (.eventCreate (some ⟨some 7⟩)),
    .graphCreate, .graphEdit (some 0) (.addNode (.eventSignal (some ⟨1, 1⟩) 5)),
    .graphEdit (some 0) (.addNode (.workspaceFill (some ⟨24, 16, 8⟩) 3 (some sharedBuffer) 0)),
    .graphEdit (some 0) (.addNode (.dispatch (some stationDispatch))),
    .graphEdit (some 0) (.addDependency (some ⟨0, 2, 3⟩) (some ⟨0, 1, 2⟩)),
    .graphEdit (some 0) (.addDependency (some ⟨0, 1, 2⟩) (some ⟨0, 0, 1⟩)),
    .graphEdit (some 0) (.setNodePatchFlags (some ⟨0, 2, 3⟩) mgPatchDispatchGrid)]

def stationGraph : MgGraph where
  address := 0
  nodes :=
    [⟨0, 1, 0, 0, .eventSignal ⟨⟨1, 1⟩, 5⟩⟩,
      ⟨0, 2, 1, 0, .workspaceFill ⟨16, 8, 3, sharedBuffer, 0⟩⟩,
      ⟨0, 3, 2, mgPatchDispatchGrid, .dispatch (stationKernel ⟨4, 1, 1⟩)⟩]
  nodeCapacity := 4
  edges := [⟨2, 1⟩, ⟨1, 0⟩]
  edgeCapacity := 4
  arena := none

def stationEnv : Env := (grantAll.run stationCalls).world.env

theorem station_reachable : Reachable (grantAll.run stationCalls) :=
  (Reachable.start _ _ _).run (by decide +kernel)

theorem station_built : (grantAll.run stationCalls).world.graphs.get? 0 = some stationGraph := by
  decide +kernel

def stationRun : System :=
  grantAll.run (stationCalls ++ [.graphInstantiate (some 0) (some ⟨some 7⟩)])

def stationExec (gridSize : Dims) : MgGraphExec where
  nodes :=
    [.dispatch { stationKernel gridSize with
        id := 3
        patchFlags := mgPatchDispatchGrid
        pipelineImpl := some ⟨"phase0_test_kernels.metallib", "mg_phase0_add_one"⟩ },
      .workspaceFill ⟨⟨16, 8, 3, sharedBuffer, 0⟩, 2, 0⟩, .eventSignal ⟨⟨⟨1, 1⟩, 5⟩, 1, 0⟩]
  deviceImpl := some 7
  workspace := ⟨[⟨2, 16, 8, 0⟩], 16, 8, none, some ⟨2, 7, 16, false⟩⟩
  icb := (MgIcbPlan.fallBack
    { MgIcbPlan.zero with enabledFlags := mgOptimizationIcb, available := true } .ineligibleNode)
  inFlightCount := 0

theorem station_instantiates : (mgGraphInstantiate stationGraph (some ⟨some 7⟩) stationEnv).1 =
    .ok (stationExec ⟨4, 1, 1⟩) := by
  decide +kernel

/-- The nodes are reversed, and no patch may name the fill. -/
theorem mgGraphInstantiate_refines_station :
    (∃ order : List Nat, order.idxOf 2 < order.idxOf 1 ∧ order.idxOf 1 < order.idxOf 0 ∧
      List.Forall₂ (ClonedFrom stationGraph (stationExec ⟨4, 1, 1⟩).workspace) order
        (stationExec ⟨4, 1, 1⟩).nodes) ∧
      statusOf (mgPatchFindNode (stationExec ⟨4, 1, 1⟩).nodes 2) = some .invalidArgument := by
  have made := station_instantiates
  rcases ran : mgGraphInstantiate stationGraph (some ⟨some 7⟩) stationEnv with ⟨result, reached⟩
  rw [ran] at made
  subst made
  obtain ⟨_, _, ⟨order, _, respects, copies, _⟩, unknown⟩ :=
    (mgGraphInstantiate_refines_graph station_reachable station_built).2 _ _ _ ran
  refine ⟨⟨order, respects ⟨2, 1⟩ ?_, respects ⟨1, 0⟩ ?_, copies⟩, unknown 2 ?_⟩
  · exact List.mem_cons_self
  · exact List.mem_cons_of_mem _ List.mem_cons_self
  · intro src member same
    simp only [stationGraph, List.mem_cons, List.not_mem_nil, or_false] at member
    rcases member with rfl | rfl | rfl
    · cases same
    · rfl
    · cases same

theorem stationRun_reachable : Reachable stationRun :=
  (Reachable.start _ _ _).run (by decide +kernel)

theorem station_planned : stationRun.world.execs.get? 0 = some (stationExec ⟨4, 1, 1⟩) := by
  decide +kernel

end MetalGraph
