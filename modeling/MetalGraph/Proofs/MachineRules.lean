import MetalGraph.Model.Machine

set_option autoImplicit false

/- Rules for the machine's primitives, and for code that updates an object in place. -/
namespace MetalGraph

open Eff

variable {τ α β ε : Type}

/-! ### Running a primitive -/

@[simp] theorem emit_apply (event : MetalEvent) (env : Env) :
    emit event env = (.ok (), { env with trace := env.trace ++ [event] }) := rfl

theorem attempt_ok {granted : Bool} {env reached : Env} :
    (attempt : Eff Env ε Bool) env = (.ok granted, reached) ↔
      granted = env.oracle env.clock ∧
        reached = { env with
          clock := env.clock + 1
          trace := env.trace ++ if env.oracle env.clock then [] else [.refused] } := by
  unfold attempt
  split
  · rename_i yes
    simp [yes, eq_comm]
  · rename_i no
    simp [no, eq_comm]

theorem attempt_not_error {reason : ε} {env reached : Env} :
    (attempt : Eff Env ε Bool) env ≠ (.error reason, reached) := by
  unfold attempt
  split <;> simp

theorem attemptOr_ok {reason : ε} {result : Unit} {env reached : Env} :
    attemptOr reason env = (.ok result, reached) ↔
      env.oracle env.clock = true ∧ reached = { env with clock := env.clock + 1 } := by
  simp only [attemptOr, bind_ok, attempt_ok, require_ok]
  constructor
  · rintro ⟨granted, middle, ⟨rfl, rfl⟩, yes, rfl⟩
    simp [yes]
  · rintro ⟨yes, rfl⟩
    simp [yes]

theorem attemptOr_error {reason failed : ε} {env reached : Env} :
    attemptOr reason env = (.error failed, reached) ↔
      env.oracle env.clock = false ∧ failed = reason ∧
        reached = { env with clock := env.clock + 1, trace := env.trace ++ [.refused] } := by
  simp only [attemptOr, bind_error, attempt_not_error, attempt_ok, require_error, false_or]
  constructor
  · rintro ⟨granted, middle, ⟨rfl, rfl⟩, no, rfl, rfl⟩
    simp only [Bool.not_eq_true] at no
    simp [no]
  · rintro ⟨no, rfl, rfl⟩
    simp [no]

theorem attemptOr_at {reason : ε} {env : Env} (granted : env.oracle env.clock = true) :
    attemptOr reason env = (.ok (), { env with clock := env.clock + 1 }) :=
  attemptOr_ok.mpr ⟨granted, rfl⟩

@[simp] theorem retainObject_apply (address : Nat) (env : Env) :
    retainObject address env = (.ok (), { env with heap := env.heap.retain address }) := rfl

@[simp] theorem releaseObject_apply (address : Nat) (env : Env) :
    releaseObject address env = (.ok (), env.release address) := rfl

/-- Releases every address in turn. -/
def Env.releaseAll (env : Env) (addresses : List Nat) : Env := addresses.foldl Env.release env

theorem forEach_release_apply (address : α → Nat) (values : List α) (env : Env) :
    forEach (fun value => releaseObject (address value)) values env =
      (.ok (), env.releaseAll (values.map address)) := by
  induction values generalizing env with
  | nil => rfl
  | cons value rest ih => exact ih (env.release (address value))

@[simp] theorem releaseAll_trace (env : Env) (addresses : List Nat) :
    (env.releaseAll addresses).trace = env.trace := by
  induction addresses generalizing env with
  | nil => rfl
  | cons address rest ih => exact ih (env.release address)

theorem cleaning_ok {body : Run α} {cleanup : Run Unit} {value : α} {env reached : Env} :
    cleaning body cleanup env = (.ok value, reached) ↔ body env = (.ok value, reached) := by
  simp [cleaning, catching_ok, bind_ok]

theorem holding_ok {body : Run α} {held : β} {value : α} {env reached : Env} :
    holding body held env = (.ok value, reached) ↔ body env = (.ok value, reached) := by
  simp [holding, catching_ok]

theorem onEnv_apply (body : Run α) (focus : Focus τ) :
    onEnv body focus = ((body focus.env).1, { focus with env := (body focus.env).2 }) := rfl

theorem onEnv_bind (first : Run α) (next : α → Run β) :
    (onEnv (first >>= next) : Over τ β) = onEnv first >>= fun value => onEnv (next value) := by
  funext focus
  rw [bind_apply, onEnv_apply, onEnv_apply, bind_apply]
  rcases first focus.env with ⟨_ | value, env⟩ <;> rfl

theorem onEnv_ok {body : Run α} {value : α} {focus reached : Focus τ} :
    onEnv body focus = (.ok value, reached) ↔
      body focus.env = (.ok value, reached.env) ∧ reached.object = focus.object := by
  obtain ⟨object, env⟩ := focus
  obtain ⟨object', env'⟩ := reached
  simp only [onEnv, zoom, Focus.mk.injEq, Prod.ext_iff]
  tauto

theorem onEnv_error {body : Run α} {reason : Fault} {focus reached : Focus τ} :
    onEnv body focus = (.error reason, reached) ↔
      body focus.env = (.error reason, reached.env) ∧ reached.object = focus.object := by
  obtain ⟨object, env⟩ := focus
  obtain ⟨object', env'⟩ := reached
  simp only [onEnv, zoom, Focus.mk.injEq, Prod.ext_iff]
  tauto

theorem withLocal_ok {object reachedObject : τ} {body : Over τ α} {cleanup : τ → Run Unit}
    {value : α} {env reached : Env} :
    withLocal object body cleanup env = (.ok (value, reachedObject), reached) ↔
      body ⟨object, env⟩ = (.ok value, ⟨reachedObject, reached⟩) := by
  unfold withLocal
  rcases body ⟨object, env⟩ with ⟨_ | _, _, _⟩ <;> simp [bind_ok, and_assoc]

theorem withLocal_error {object : τ} {body : Over τ α} {cleanup : τ → Run Unit} {reason : Fault}
    {env reached : Env} (total : ∀ object, FailsOnly (fun _ => False) (cleanup object))
    (stopped : withLocal object body cleanup env = (.error reason, reached)) :
    ∃ focus, body ⟨object, env⟩ = (.error reason, focus) ∧
      cleanup focus.object focus.env = (.ok (), reached) := by
  unfold withLocal at stopped
  rcases ran : body ⟨object, env⟩ with ⟨cause | value, focus⟩ <;> rw [ran] at stopped
  · refine ⟨focus, ?_⟩
    rcases bind_error.mp stopped with early | ⟨_, middle, cleaned, last⟩
    · exact (total focus.object focus.env reason reached early).elim
    · cases last
      exact ⟨rfl, cleaned⟩
  · cases stopped

/-- Work on a local object may be done in two parts. -/
theorem withLocal_bind (object : τ) (first : Over τ Unit) (next : Over τ α)
    (cleanup : τ → Run Unit) :
    withLocal object (first >>= fun _ => next) cleanup =
      withLocal object first cleanup >>= fun result => withLocal result.2 next cleanup := by
  funext env
  simp only [withLocal, bind_apply]
  rcases first ⟨object, env⟩ with ⟨_ | _, reached⟩
  · dsimp only
    rcases cleanup reached.object reached.env with ⟨_ | _, _⟩ <;> rfl
  · rfl

theorem newCommandBuffer_ok {commandBuffer : Nat} {env reached : Env}
    (success : newCommandBuffer env = (.ok (some commandBuffer), reached)) :
    commandBuffer = env.nextCommandBuffer ∧
      reached = { env with
        clock := env.clock + 1, nextCommandBuffer := env.nextCommandBuffer + 1 } := by
  simp only [newCommandBuffer, bind_ok, attempt_ok] at success
  obtain ⟨granted, middle, ⟨rfl, rfl⟩, created⟩ := success
  cases asked : env.oracle env.clock with
  | false => simp [asked] at created
  | true =>
      simp only [asked, ↓reduceIte, List.append_nil, Prod.mk.injEq, Except.ok.injEq,
        Option.some.injEq] at created
      exact ⟨created.1.symm, created.2.symm⟩

theorem newCommandBuffer_refused {env reached : Env}
    (refused : newCommandBuffer env = (.ok none, reached)) :
    reached = { env with clock := env.clock + 1, trace := env.trace ++ [.refused] } := by
  simp only [newCommandBuffer, bind_ok, attempt_ok] at refused
  obtain ⟨granted, middle, ⟨rfl, rfl⟩, created⟩ := refused
  cases asked : env.oracle env.clock with
  | false =>
      simp only [asked, Bool.false_eq_true, ↓reduceIte, pure_ok] at created
      exact created.2.symm
  | true => simp [asked] at created

@[simp] theorem waitUntilCompleted_ok {commandBuffer : Nat} {failed : Bool} {env reached : Env} :
    waitUntilCompleted commandBuffer env = (.ok failed, reached) ↔
      failed = env.commandBufferFails commandBuffer ∧
        reached = { env with trace := env.trace ++ [.wait commandBuffer failed] } := by
  unfold waitUntilCompleted
  constructor
  · rintro ⟨⟩
    exact ⟨rfl, rfl⟩
  · rintro ⟨rfl, rfl⟩
    rfl

@[simp] theorem self_apply (focus : Focus τ) : self focus = (.ok focus.object, focus) := rfl

@[simp] theorem modifySelf_apply (change : τ → τ) (focus : Focus τ) :
    modifySelf change focus = (.ok (), { focus with object := change focus.object }) := rfl

/-! ### Failures of a primitive -/

section Failures

variable {expected : Fault → Prop}

theorem attempt_fails {expected : ε → Prop} : FailsOnly expected (attempt : Eff Env ε Bool) :=
  fun _ _ _ stopped => absurd stopped attempt_not_error

theorem attemptOr_fails {expected : ε → Prop} {reason : ε} (known : expected reason) :
    FailsOnly expected (attemptOr reason) :=
  .bind attempt_fails fun _ _ _ _ => .require known

theorem attemptBoth_fails {expected : ε → Prop} {reason : ε} (known : expected reason) :
    FailsOnly expected (attemptBoth reason) :=
  .bind attempt_fails fun _ _ _ _ => .bind attempt_fails fun _ _ _ _ => .require known

theorem newCommandBuffer_never : FailsOnly (fun _ => False) newCommandBuffer := by
  refine .bind attempt_fails fun granted _ _ _ => ?_
  cases granted
  · exact .pure _
  · exact fun _ _ _ stopped => by cases stopped

/-- A cleanup that does not fail keeps the reason. -/
theorem cleaning_fails {body : Run α} {cleanup : Run Unit} (inner : FailsOnly expected body)
    (total : FailsOnly (fun _ => False) cleanup) : FailsOnly expected (cleaning body cleanup) :=
  .catching inner fun _ known =>
    .bind (fun state reason reached stopped => (total state reason reached stopped).elim)
      fun _ _ _ _ => .fail known

theorem holding_fails {body : Run α} {held : β} (inner : FailsOnly expected body) :
    FailsOnly (fun failure => expected failure.1) (holding body held) :=
  .catching inner fun _ known => .fail known

end Failures

/-! ### Rules for objects -/

/-- A property of the object alone. -/
def Has (property : τ → Prop) (focus : Focus τ) : Prop := property focus.object

section Rules

variable {property : τ → Prop} {failed : Fault → Focus τ → Prop}

/-- A step on the machine leaves the object as it is. -/
theorem onEnv_rule {body : Run α} {next : α → Over τ β} {after : β → Focus τ → Prop}
    (stops : ∀ reason focus, Has property focus → failed reason focus)
    (rest : ∀ value env reached, body env = (.ok value, reached) →
      Triple (Has property) (next value) after failed) :
    Triple (Has property) (onEnv body >>= next) after failed := by
  intro focus holds
  rcases outcome : onEnv (τ := τ) body focus with ⟨reason | value, reached⟩
  · rw [bind_of_error focus outcome]
    have same := (onEnv_error.mp outcome).2
    exact stops reason reached (by unfold Has at *; rwa [same])
  · rw [bind_of_ok focus outcome]
    obtain ⟨ran, same⟩ := onEnv_ok.mp outcome
    exact rest value focus.env reached.env ran reached (by unfold Has at *; rwa [same])

theorem self_rule {next : τ → Over τ β} {after : β → Focus τ → Prop}
    (rest : ∀ object, property object → Triple (Has (· = object)) (next object) after failed) :
    Triple (Has property) (self >>= next) after failed := fun focus holds =>
  rest focus.object holds focus rfl

/-- Reading the object keeps what is known of it. -/
theorem self_keeps {next : τ → Over τ β} {after : β → Focus τ → Prop}
    (rest : ∀ object, property object → Triple (Has property) (next object) after failed) :
    Triple (Has property) (self >>= next) after failed := fun focus holds =>
  rest focus.object holds focus holds

theorem self_then {before : Focus τ → Prop} {next : τ → Over τ β} {after : β → Focus τ → Prop}
    (rest : ∀ object, Triple before (next object) after failed) :
    Triple before (self >>= next) after failed := fun focus holds => rest focus.object focus holds

theorem modifySelf_rule {change : τ → τ} {next : Unit → Over τ β} {after : β → Focus τ → Prop}
    {property' : τ → Prop} (changes : ∀ object, property object → property' (change object))
    (rest : Triple (Has property') (next ()) after failed) :
    Triple (Has property) (modifySelf change >>= next) after failed := fun focus holds =>
  rest { focus with object := change focus.object } (changes focus.object holds)

theorem modifySelf_last {change : τ → τ} {after : Unit → Focus τ → Prop}
    (changes : ∀ focus, Has property focus →
      after () { focus with object := change focus.object }) :
    Triple (Has property) (modifySelf change) after failed := changes

end Rules

end MetalGraph
