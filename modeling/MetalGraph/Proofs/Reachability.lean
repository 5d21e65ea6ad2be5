import MetalGraph.Proofs.CallSteps

set_option autoImplicit false

/- Runs of the library under a caller who keeps to the rules. -/
namespace MetalGraph

def System.run (system : System) : List Call → System
  | [] => system
  | call :: rest => (system.step call).run rest

def System.permitsRun (system : System) : List Call → Bool
  | [] => true
  | call :: rest => system.permits call && (system.step call).permitsRun rest

theorem System.run_concat (system : System) (calls : List Call) (last : Call) :
    system.run (calls ++ [last]) = (system.run calls).step last := by
  induction calls generalizing system with
  | nil => rfl
  | cons call rest ih => exact ih (system.step call)

theorem Reachable.run {system : System} (reachable : Reachable system) {calls : List Call}
    (permitted : system.permitsRun calls = true) : Reachable (system.run calls) := by
  induction calls generalizing system with
  | nil => exact reachable
  | cons call rest ih =>
      simp only [System.permitsRun, Bool.and_eq_true] at permitted
      exact ih (reachable.step permitted.1) permitted.2

/-- A property of worlds that every permitted call keeps holds in every reachable state. -/
theorem Reachable.invariant {property : World → Prop}
    (start : ∀ oracle commandBufferFails mpsgraphEnabled,
      property (System.initial oracle commandBufferFails mpsgraphEnabled).world)
    (step : ∀ system call result world, Reachable system → property system.world →
      system.permits call = true → CallStep system.world call result world → property world)
    {system : System} (reachable : Reachable system) : property system.world := by
  induction reachable with
  | start oracle commandBufferFails mpsgraphEnabled =>
      exact start oracle commandBufferFails mpsgraphEnabled
  | @step system call earlier permitted ih =>
      exact step system call _ _ earlier ih permitted (call.eval_step system.world)

/-- The same for properties of the whole state, of which a call rewrites every part. -/
theorem Reachable.system_invariant {property : System → Prop}
    (start : ∀ oracle commandBufferFails mpsgraphEnabled,
      property (System.initial oracle commandBufferFails mpsgraphEnabled))
    (step : ∀ system call, Reachable system → property system → system.permits call = true →
      CallStep system.world call (system.record call).result (system.step call).world →
      property (system.step call))
    {system : System} (reachable : Reachable system) : property system := by
  induction reachable with
  | start oracle commandBufferFails mpsgraphEnabled =>
      exact start oracle commandBufferFails mpsgraphEnabled
  | @step system call earlier permitted ih =>
      exact step system call earlier ih permitted (call.eval_step system.world)

end MetalGraph
