import MetalGraph.Proofs.Granting
import MetalGraph.Proofs.GraphInvariant

set_option autoImplicit false

/- Validation of reachable graphs: it accepts exactly the acyclic ones. -/
namespace MetalGraph

open Eff

def Env.tick (env : Env) : Env := { env with clock := env.clock + 1 }

theorem Env.Granting.tick {env : Env} (granted : env.Granting) : env.tick.Granting := granted

theorem attempt_granted {ε : Type} {env : Env} (granted : env.Granting) :
    (attempt : Eff Env ε Bool) env = (.ok true, env.tick) := by
  simp only [attempt, granted env.clock, ↓reduceIte, Env.tick]

theorem attemptOr_granted {ε : Type} {reason : ε} {env : Env} (granted : env.Granting) :
    attemptOr reason env = (.ok (), env.tick) :=
  attemptOr_at (granted _)

theorem attemptBoth_granted {ε : Type} {reason : ε} {env : Env} (granted : env.Granting) :
    attemptBoth reason env = (.ok (), env.tick.tick) := by
  rw [attemptBoth, bind_of_ok env (attempt_granted granted),
    bind_of_ok env.tick (attempt_granted granted.tick)]
  exact require_of _ _ _ ⟨rfl, rfl⟩

section Granted

variable {graph : MgGraph} {env : Env}

theorem mgGraphTopologicalOrder_granted (granted : env.Granting) (filled : graph.nodes ≠ []) :
    (mgGraphTopologicalOrder graph env).1 =
      topologicalOrder graph.nodes.length graph.edges := by
  rw [mgGraphTopologicalOrder, if_neg (by simpa using filled),
    bind_of_ok env (attemptBoth_granted granted), ofExcept_apply]

theorem mgGraphValidate_granted (granted : env.Granting) (filled : graph.nodes ≠ []) :
    (mgGraphValidate graph env).1 =
      (topologicalOrder graph.nodes.length graph.edges).map fun _ => () := by
  have ordered := mgGraphTopologicalOrder_granted granted.tick filled
  rw [mgGraphValidate, if_neg (by simpa using filled),
    bind_of_ok env (attemptOr_granted granted), bind_apply]
  rcases ran : mgGraphTopologicalOrder graph env.tick with ⟨reason | order, reached⟩ <;>
    rw [ran] at ordered <;> rw [← ordered] <;> rfl

end Granted

/-- Without nodes there are no dependencies, and the empty order lists them all. -/
theorem GraphWf.isTopologicalOrder_nil {address : GraphPtr} {graph : MgGraph}
    (wf : GraphWf address graph) (empty : graph.nodes = []) :
    IsTopologicalOrder graph.nodes.length graph.edges [] where
  perm := by simp [empty]
  respects := by
    intro edge member
    have inside := (wf.inside edge member).1
    simp [empty] at inside

/-- Both functions answer from the graph alone when nothing is refused. -/
theorem GraphWf.order_cases {address : GraphPtr} {graph : MgGraph} {env : Env}
    (wf : GraphWf address graph) (granted : env.Granting) :
    (Acyclic (dependsOn graph.edges) ∧ (mgGraphValidate graph env).1 = .ok () ∧
        ∃ order, (mgGraphTopologicalOrder graph env).1 = .ok order ∧
          IsTopologicalOrder graph.nodes.length graph.edges order) ∨
      (¬ Acyclic (dependsOn graph.edges) ∧ ∃ reason,
        (mgGraphValidate graph env).1 = .error (.error reason) ∧
        (mgGraphTopologicalOrder graph env).1 = .error (.error reason) ∧
        reason.status = .invalidTopology) := by
  by_cases empty : graph.nodes = []
  · have sorted := wf.isTopologicalOrder_nil empty
    refine .inl ⟨sorted.acyclic, ?_, [], ?_, sorted⟩
    · simp [mgGraphValidate, empty]
    · simp [mgGraphTopologicalOrder, empty]
  · rw [mgGraphValidate_granted granted empty, mgGraphTopologicalOrder_granted granted empty]
    rcases topologicalOrder_cases wf.inside with ⟨acyclic, order, ran, sorted⟩ | ⟨cyclic, ran⟩
    · exact .inl ⟨acyclic, by rw [ran]; rfl, order, ran, sorted⟩
    · exact .inr ⟨cyclic, _, by rw [ran]; rfl, ran, rfl⟩

/-- A reachable graph is ordered, and validated, exactly when it has no cycle. -/
theorem topological_order_iff_acyclic {system : System} {address : GraphPtr} {graph : MgGraph}
    {env : Env} (reachable : Reachable system)
    (live : system.world.graphs.get? address = some graph) (granted : env.Granting) :
    (statusOf (mgGraphTopologicalOrder graph env).1 = some .ok ↔
      Acyclic (dependsOn graph.edges)) ∧
    (statusOf (mgGraphValidate graph env).1 = some .ok ↔ Acyclic (dependsOn graph.edges)) ∧
    (¬ Acyclic (dependsOn graph.edges) →
      statusOf (mgGraphTopologicalOrder graph env).1 = some .invalidTopology ∧
      statusOf (mgGraphValidate graph env).1 = some .invalidTopology) ∧
    ∀ order, (mgGraphTopologicalOrder graph env).1 = .ok order →
      order.Perm (List.range graph.nodes.length) ∧
      ∀ edge ∈ graph.edges, order.idxOf edge.before < order.idxOf edge.after := by
  have wf := reachable.graphsWf address graph live
  rcases wf.order_cases granted with
    ⟨acyclic, valid, order, ran, sorted⟩ | ⟨cyclic, reason, valid, ran, status⟩
  · rw [valid, ran]
    refine ⟨by simp [statusOf, acyclic], by simp [statusOf, acyclic],
      fun cyclic => absurd acyclic cyclic, ?_⟩
    rintro found ⟨⟩
    exact ⟨sorted.perm, sorted.respects⟩
  · rw [valid, ran]
    refine ⟨by simp [statusOf, status, cyclic], by simp [statusOf, status, cyclic],
      fun _ => by simp [statusOf, status], ?_⟩
    rintro found ⟨⟩

/-! A run that builds two barriers and a dependency between them. -/

def grantAll : System := System.initial (fun _ => true) (fun _ => false) true

def chainCalls : List Call :=
  [.graphCreate, .graphEdit (some 0) (.addNode .barrier), .graphEdit (some 0) (.addNode .barrier),
    .graphEdit (some 0) (.addDependency (some ⟨0, 0, 1⟩) (some ⟨0, 1, 2⟩))]

def chainGraph : MgGraph :=
  ⟨0, [⟨0, 1, 0, 0, .barrier⟩, ⟨0, 2, 1, 0, .barrier⟩], 4, [⟨0, 1⟩], 4, none⟩

theorem chain_reachable : Reachable (grantAll.run chainCalls) :=
  (Reachable.start _ _ _).run (by decide)

theorem chain_built : (grantAll.run chainCalls).world.graphs.get? 0 = some chainGraph := by decide

theorem topological_order_of_chain :
    statusOf (mgGraphValidate chainGraph grantAll.world.env).1 = some .ok ↔
      Acyclic (dependsOn chainGraph.edges) :=
  (topological_order_iff_acyclic chain_reachable chain_built (fun _ => rfl)).2.1

end MetalGraph
