import MetalGraph.Model.Graph

set_option autoImplicit false

/- The topological order of a graph: in-degree counters and an array queue. -/
namespace MetalGraph

open Eff

structure TopologicalState where
  indegree : Nat → Nat
  queue : List Nat
  head : Nat
  order : List Nat

/-- The index check and the counting of incoming edges. -/
def countIndegrees (count : Nat) : List MgEdge → (Nat → Nat) → Option (Nat → Nat)
  | [], indegree => some indegree
  | edge :: rest, indegree =>
    if edge.before ≥ count ∨ edge.after ≥ count then none
    else countIndegrees count rest fun node =>
      if node = edge.after then indegree node + 1 else indegree node

/-- Decrements a `size_t`. -/
def decrementSize (value : Nat) : Nat := if value = 0 then 2 ^ 64 - 1 else value - 1

def TopologicalState.decrement (state : TopologicalState) (next : Nat) : TopologicalState :=
  { state with indegree := fun node =>
      if node = next then decrementSize (state.indegree node) else state.indegree node }

def TopologicalState.enqueue (state : TopologicalState) (next : Nat) : TopologicalState :=
  { state with queue := state.queue ++ [next] }

/-- The edge loop of one round. A write past the queue's `count` cells is `none`. -/
def releaseEdges (count current : Nat) : List MgEdge → TopologicalState → Option TopologicalState
  | [], state => some state
  | edge :: rest, state =>
    if edge.before ≠ current then releaseEdges count current rest state
    else
      let state := state.decrement edge.after
      if state.indegree edge.after ≠ 0 then releaseEdges count current rest state
      else if state.queue.length < count then
        releaseEdges count current rest (state.enqueue edge.after)
      else none

/-- One round of the queue loop, at the node `current`. -/
def TopologicalState.dequeue (state : TopologicalState) (current : Nat) : TopologicalState :=
  { state with head := state.head + 1, order := state.order ++ [current] }

/-- The queue has `count` cells, so the head passes it within `count` rounds. -/
def queueLoop (count : Nat) (edges : List MgEdge) : Nat → TopologicalState → Option TopologicalState
  | rounds, state =>
    match state.queue[state.head]? with
    | none => some state
    | some current =>
      match rounds with
      | 0 => none
      | rounds + 1 => do
        let state ← releaseEdges count current edges (state.dequeue current)
        queueLoop count edges rounds state

/-- A point of the queue loop: the part of the edge array that the round of `current` has
not scanned yet. -/
structure LoopPoint where
  pending : List MgEdge
  current : Nat
  state : TopologicalState

/-- The loop from one point to the next, without a look at the sizes of the arrays. -/
def LoopPoint.advance (edges : List MgEdge) (point : LoopPoint) : Option LoopPoint :=
  match point.pending with
  | [] =>
    match point.state.queue[point.state.head]? with
    | none => none
    | some current => some ⟨edges, current, point.state.dequeue current⟩
  | edge :: rest =>
    if edge.before ≠ point.current then some { point with pending := rest }
    else
      let state := point.state.decrement edge.after
      if state.indegree edge.after ≠ 0 then some ⟨rest, point.current, state⟩
      else some ⟨rest, point.current, state.enqueue edge.after⟩

/-- The point that the loop has come to after some steps. -/
def LoopPoint.after (edges : List MgEdge) : Nat → LoopPoint → Option LoopPoint
  | 0, point => some point
  | steps + 1, point => (point.advance edges).bind (LoopPoint.after edges steps)

def initialState (count : Nat) (indegree : Nat → Nat) : TopologicalState :=
  ⟨indegree, (List.range count).filter fun node => indegree node = 0, 0, []⟩

def topologicalOrder (count : Nat) (edges : List MgEdge) : Except Fault (List Nat) :=
  match countIndegrees count edges fun _ => 0 with
  | none => .error (mgSetError .invalidTopology .validate mgNodeIdInvalid
      "dependency references an invalid node")
  | some indegree =>
    match queueLoop count edges count (initialState count indegree) with
    | none => .error .undefined
    | some state =>
      if state.order.length ≠ count then
        .error (mgSetError .invalidTopology .validate mgNodeIdInvalid
          "graph contains a dependency cycle")
      else .ok state.order

def mgGraphTopologicalOrder (graph : MgGraph) : Run (List Nat) :=
  if graph.nodes.length = 0 then pure []
  else do
    attemptBoth (mgSetOom .validate)
    ofExcept (topologicalOrder graph.nodes.length graph.edges)

def mgGraphValidate (graph : MgGraph) : Run Unit :=
  if graph.nodes.length = 0 then pure ()
  else do
    attemptOr (mgSetOom .validate)
    let _ ← mgGraphTopologicalOrder graph
    pure ()

end MetalGraph
