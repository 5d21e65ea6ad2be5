import MetalGraph.Proofs.GraphChanges
import MetalGraph.Proofs.Reachability
import MetalGraph.Proofs.TopologicalOrder

set_option autoImplicit false

/- Graphs that calls can build: positions and ids agree, nodes satisfy their checks,
and every dependency joins two different nodes. -/
namespace MetalGraph

open Eff

/-- What holds of the node stored at `index` of the graph at `address`. -/
structure NodeWf (address : GraphPtr) (index : Nat) (node : MgNode) : Prop where
  owner : node.graph = address
  position : node.index = index
  id : node.id = UInt64.ofNat (index + 1)
  valid : node.as.Valid
  allowed : mgPatchFlagsAllowed node.kind node.patchFlags = true
  ranges : node.lacksRanges node.patchFlags = false

structure GraphWf (address : GraphPtr) (graph : MgGraph) : Prop where
  here : graph.address = address
  nodes : ∀ index node, graph.nodes[index]? = some node → NodeWf address index node
  room : graph.nodes.length * sizeofMgNode ≤ 2 ^ 64
  inside : EdgesInside graph.nodes.length graph.edges
  distinct : graph.edges.Nodup
  irreflexive : ∀ edge ∈ graph.edges, edge.before ≠ edge.after

theorem mgPatchFlagsAllowed_zero (kind : MgNodeKind) : mgPatchFlagsAllowed kind 0 = true := by
  simp [mgPatchFlagsAllowed]

theorem lacksRanges_zero (node : MgNode) : node.lacksRanges 0 = false := by
  unfold MgNode.lacksRanges
  split <;> simp

theorem newNode_wf {graph : MgGraph} {as : MgNodeAs} {address : GraphPtr}
    (here : graph.address = address) (valid : as.Valid) :
    NodeWf address graph.nodes.length (newNode graph as) where
  owner := here
  position := rfl
  id := rfl
  valid := valid
  allowed := mgPatchFlagsAllowed_zero _
  ranges := lacksRanges_zero _

theorem emptyGraph_wf (address : GraphPtr) : GraphWf address ⟨address, [], 0, [], 0, none⟩ where
  here := rfl
  nodes := by simp
  room := by simp
  inside := by simp [EdgesInside]
  distinct := .nil
  irreflexive := by simp

theorem EdgesInside.mono {count more : Nat} {edges : List MgEdge} (inside : EdgesInside count edges)
    (grows : count ≤ more) : EdgesInside more edges := by
  intro edge member
  have := inside edge member
  omega

/-- The caller's pointer names a node of this graph. -/
def Names (address : GraphPtr) (graph : MgGraph) (pointer : NodePtr) : Prop :=
  pointer.graph = address →
    ∃ node, graph.nodes[pointer.index]? = some node ∧ node.id = pointer.id

section Change

variable {address : GraphPtr} {graph after : MgGraph}

theorem GraphWf.of_same (wf : GraphWf address graph) (contents : SameContents graph after) :
    GraphWf address after := by
  obtain ⟨same, nodes, edges, _⟩ := contents
  exact
    { here := same.trans wf.here
      nodes := nodes ▸ wf.nodes
      room := nodes ▸ wf.room
      inside := by rw [nodes, edges]; exact wf.inside
      distinct := edges ▸ wf.distinct
      irreflexive := edges ▸ wf.irreflexive }

theorem GraphWf.withNode {as : MgNodeAs} (wf : GraphWf address graph) (valid : as.Valid)
    (room : (graph.nodes.length + 1) * sizeofMgNode ≤ 2 ^ 64)
    (same : after.address = graph.address) (nodes : after.nodes = graph.nodes ++ [newNode graph as])
    (edges : after.edges = graph.edges) : GraphWf address after where
  here := same.trans wf.here
  nodes := by
    intro index node present
    rw [nodes, List.getElem?_append] at present
    split at present
    · exact wf.nodes index node present
    · obtain ⟨last, stored⟩ := List.getElem?_eq_some_iff.mp present
      rw [List.length_singleton] at last
      have position : index = graph.nodes.length := by omega
      subst position
      simp only [Nat.sub_self, List.getElem_singleton] at stored
      exact stored ▸ newNode_wf wf.here valid
  room := by
    rw [nodes, List.length_append, List.length_singleton]
    exact room
  inside := by
    rw [nodes, edges, List.length_append]
    exact wf.inside.mono (by omega)
  distinct := edges ▸ wf.distinct
  irreflexive := edges ▸ wf.irreflexive

theorem GraphWf.withEdge {edge : MgEdge} (wf : GraphWf address graph)
    (below : edge.before < graph.nodes.length ∧ edge.after < graph.nodes.length)
    (unequal : edge.before ≠ edge.after) (distinct : after.edges.Nodup)
    (same : after.address = graph.address) (nodes : after.nodes = graph.nodes)
    (edges : after.edges = graph.edges ++ [edge]) : GraphWf address after where
  here := same.trans wf.here
  nodes := nodes ▸ wf.nodes
  room := nodes ▸ wf.room
  inside := by
    rw [nodes, edges]
    intro other member
    rcases List.mem_append.mp member with old | new
    · exact wf.inside other old
    · exact List.mem_singleton.mp new ▸ below
  distinct := distinct
  irreflexive := by
    rw [edges]
    intro other member
    rcases List.mem_append.mp member with old | new
    · exact wf.irreflexive other old
    · exact List.mem_singleton.mp new ▸ unequal

theorem GraphWf.withFlags {index : Nat} {node : MgNode} {flags : MgPatchFlags}
    (wf : GraphWf address graph) (present : graph.nodes[index]? = some node)
    (allowed : mgPatchFlagsAllowed node.kind flags = true)
    (ranges : node.lacksRanges flags = false) :
    GraphWf address
      { graph with nodes := graph.nodes.set index { node with patchFlags := flags } } where
  here := wf.here
  nodes := by
    intro other stored found
    rw [List.getElem?_set] at found
    split at found
    · rename_i position
      subst position
      split at found
      · cases found
        exact { wf.nodes index node present with allowed := allowed, ranges := ranges }
      · cases found
    · exact wf.nodes other stored found
  room := by simpa using wf.room
  inside := by simpa using wf.inside
  distinct := wf.distinct
  irreflexive := wf.irreflexive

/-- Pointers to nodes of one graph differ in their positions if they differ at all. -/
theorem index_ne_of_names {first second : NodePtr} {left right : MgNode}
    (graphs : first.graph = second.graph) (distinct : first ≠ second)
    (leftAt : graph.nodes[first.index]? = some left) (leftId : left.id = first.id)
    (rightAt : graph.nodes[second.index]? = some right) (rightId : right.id = second.id) :
    first.index ≠ second.index := by
  intro equal
  rw [equal, rightAt] at leftAt
  cases leftAt
  apply distinct
  obtain ⟨graph₁, index₁, id₁⟩ := first
  obtain ⟨graph₂, index₂, id₂⟩ := second
  simp only [NodePtr.mk.injEq]
  exact ⟨graphs, equal, leftId.symm.trans rightId⟩

/-- Every change keeps a graph well formed. -/
theorem GraphWf.change {known : NodePtr → Prop} (wf : GraphWf address graph)
    (names : ∀ pointer, known pointer → Names address graph pointer)
    (change : GraphChange known graph after) : GraphWf address after := by
  have unrepeated := change.nodup wf.distinct
  cases change with
  | same contents => exact wf.of_same contents
  | addNode as valid room same nodes edges => exact wf.withNode valid room same nodes edges
  | addEdge first second given here distinct fresh same nodes edges =>
      obtain ⟨left, leftAt, leftId⟩ := names first given.1 (here.1.trans wf.here)
      obtain ⟨right, rightAt, rightId⟩ := names second given.2 (here.2.trans wf.here)
      have below := (List.getElem?_eq_some_iff.mp leftAt).1
      have below' := (List.getElem?_eq_some_iff.mp rightAt).1
      have unequal := index_ne_of_names (here.1.trans here.2.symm) distinct leftAt leftId rightAt
        rightId
      exact wf.withEdge ⟨below, below'⟩ unequal unrepeated same nodes edges
  | setArena arena => exact { wf with }
  | setFlags index node flags present allowed ranges =>
      exact wf.withFlags present allowed ranges

end Change

/-! ### Reachable worlds -/

def GraphsWf (world : World) : Prop :=
  ∀ address graph, world.graphs.get? address = some graph → GraphWf address graph

theorem nodeAlive_names {world : World} {address : GraphPtr} {graph : MgGraph}
    (live : world.graphs.get? address = some graph) {pointer : NodePtr}
    (alive : world.nodeAlive (some pointer) = true) : Names address graph pointer := by
  intro here
  simp only [World.nodeAlive, Option.elim_some, here, live] at alive
  rcases found : graph.nodes[pointer.index]? with _ | node
  · simp [found] at alive
  · exact ⟨node, rfl, by simpa [found] using alive⟩

theorem permits_passes {system : System} {graph : Option GraphPtr} {edit : GraphEdit}
    (permitted : system.permits (.graphEdit graph edit) = true) (pointer : NodePtr)
    (passed : edit.Passes pointer) : system.world.nodeAlive (some pointer) = true := by
  simp only [System.permits, Bool.and_eq_true] at permitted
  cases edit with
  | addDependency before after =>
      simp only [World.editAlive, Bool.and_eq_true] at permitted
      rcases passed with rfl | rfl
      · exact permitted.2.1
      · exact permitted.2.2
  | addNode addition => exact passed.elim
  | setArena arena => exact passed.elim
  | setNodePatchFlags node flags => exact passed.elim

theorem Reachable.graphsWf {system : System} (reachable : Reachable system) :
    GraphsWf system.world := by
  refine reachable.invariant (fun _ _ _ address graph live => ?_) ?_
  · simp [System.initial, World.initial] at live
  · intro system call result world _ wf permitted step address after live
    cases step.graphOrigin live with
    | kept live => exact wf address after live
    | made _ _ empty => exact empty ▸ emptyGraph_wf address
    | @edited before edit focus named present ran same =>
        subst named
        have change := edit.graphChange before system.world.env (permits_passes permitted)
        rw [ran] at change
        rw [same]
        exact (wf address before present).change
          (fun pointer alive => nodeAlive_names present alive) change

end MetalGraph
