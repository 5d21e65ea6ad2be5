import MetalGraph.Base.Decision
import MetalGraph.Proofs.OrderIndependence
import MetalGraph.Proofs.Rebuilding
import MetalGraph.Proofs.Synchronization

set_option autoImplicit false

/- What the library answers when the allocator and the device refuse nothing: a call of a
plan's life fails only for what its arguments ask. -/
namespace MetalGraph

open Eff

/-- Every request is granted and no command buffer fails. -/
structure Env.Willing (enabled : Bool) (env : Env) : Prop where
  granting : env.Granting
  completes : ∀ commandBuffer, env.commandBufferFails commandBuffer = false
  enabled : env.mpsgraphEnabled = enabled

variable {enabled : Bool}

section Settling

variable {ε α β : Type} {condition : Prop} {fact : α → Prop}

theorem Env.Willing.of_ge {before after : Env} (willing : before.Willing enabled)
    (grown : before ≤ after) : after.Willing enabled where
  granting := fun tick => (congrFun grown.oracle tick).trans (willing.granting tick)
  completes := by
    rw [grown.fails]
    exact willing.completes
  enabled := grown.enabled.trans willing.enabled

/-- What a granting machine always returns, a willing one returns. -/
theorem Yields.settles {body : Eff Env ε α} (yields : Yields body fact) (grows : Grows body) :
    Settles (Env.Willing enabled) True body fact := by
  apply Triple.of_outcomes
  · intro env value reached willing ran
    obtain ⟨known, _⟩ := yields.ok willing.granting ran
    exact ⟨trivial, known, willing.of_ge (grows.of_run ran)⟩
  · intro env reason reached willing ran
    exact (yields.error willing.granting ran).elim

end Settling

/-! ### Instantiating a node -/

section Nodes

variable {src : MgNode} {plan : MgWorkspacePlan}

theorem Yields.foldEach {ε α β : Type} {body : β → α → Eff Env ε β}
    (each : ∀ result value, Yields (body result value) Whatever) (start : β) (values : List α) :
    Yields (Eff.foldEach body start values) Whatever := by
  induction values generalizing start with
  | nil => exact .pure trivial
  | cons value rest ih => exact (each start value).bind fun next _ => ih next

def MgExecNode.isMpsgraph : MgExecNode → Bool
  | .mpsgraph _ => true
  | _ => false

def MgNodeAs.isMpsgraph : MgNodeAs → Bool
  | .mpsgraph _ => true
  | _ => false

end Nodes

/-! ### Instantiating a graph -/

section Graphs

variable {address : GraphPtr} {graph : MgGraph} {order : List Nat}

end Graphs

/-! ### Launching a plan -/

section Launches

variable {exec : MgGraphExec} {buffers events : Nat}

end Launches

/-! ### Waiting for a launch -/

section Calls

variable {system : System}

end Calls

end MetalGraph
