import Mathlib.Data.Prod.Basic
import Mathlib.Order.Basic

set_option autoImplicit false

/- Computations over a state that survives failure, and the rules of pre- and
postconditions for them. Nothing here depends on what the state is. -/
namespace MetalGraph

/-- A check without a state. -/
def demand {ε : Type} (condition : Prop) [Decidable condition] (reason : ε) : Except ε Unit :=
  if condition then .ok () else .error reason

section Except

variable {ε α β : Type}

@[simp] theorem demand_ok {condition : Prop} [Decidable condition] {reason : ε} {result : Unit} :
    demand condition reason = .ok result ↔ condition := by
  unfold demand
  split <;> simp_all

@[simp] theorem demand_error {condition : Prop} [Decidable condition] {reason failed : ε} :
    demand condition reason = .error failed ↔ ¬ condition ∧ reason = failed := by
  unfold demand
  split <;> simp_all

theorem except_bind_ok {first : Except ε α} {next : α → Except ε β} {result : β} :
    (first >>= next) = .ok result ↔ ∃ value, first = .ok value ∧ next value = .ok result := by
  cases first <;> simp [bind, Except.bind]

theorem except_bind_error {first : Except ε α} {next : α → Except ε β} {reason : ε} :
    (first >>= next) = .error reason ↔
      first = .error reason ∨ ∃ value, first = .ok value ∧ next value = .error reason := by
  cases first <;> simp [bind, Except.bind]

@[simp] theorem except_pure_ok {value result : α} :
    (pure value : Except ε α) = .ok result ↔ value = result := by
  simp [pure, Except.pure]

end Except

/-- A computation that reads and writes a state and may stop early. The state
reached when it stops is returned as well, so writes made before a failure stay. -/
def Eff (σ ε α : Type) : Type := σ → Except ε α × σ

namespace Eff

variable {σ τ ε δ α β γ : Type}

protected def pure (value : α) : Eff σ ε α := fun state => (.ok value, state)

protected def bind (first : Eff σ ε α) (next : α → Eff σ ε β) : Eff σ ε β := fun state =>
  match first state with
  | (.ok value, reached) => next value reached
  | (.error reason, reached) => (.error reason, reached)

instance : Monad (Eff σ ε) where
  pure := Eff.pure
  bind := Eff.bind

def fail (reason : ε) : Eff σ ε α := fun state => (.error reason, state)

def read : Eff σ ε σ := fun state => (.ok state, state)

def update (change : σ → σ) : Eff σ ε Unit := fun state => (.ok (), change state)

def require (condition : Prop) [Decidable condition] (reason : ε) : Eff σ ε Unit := fun state =>
  if condition then (.ok (), state) else (.error reason, state)

def orFail (value : Option α) (reason : ε) : Eff σ ε α := fun state =>
  match value with
  | some value => (.ok value, state)
  | none => (.error reason, state)

def ofExcept (result : Except ε α) : Eff σ ε α := fun state => (result, state)

def whenever (condition : Prop) [Decidable condition] (body : Eff σ ε Unit) : Eff σ ε Unit :=
  if condition then body else Eff.pure ()

/-- Runs `handler` from the state in which `first` stopped. -/
def catching (first : Eff σ ε α) (handler : ε → Eff σ δ α) : Eff σ δ α := fun state =>
  match first state with
  | (.ok value, reached) => (.ok value, reached)
  | (.error reason, reached) => handler reason reached

/-- Runs a computation on one component of the state. -/
def zoom (get : σ → τ) (put : τ → σ → σ) (inner : Eff τ ε α) : Eff σ ε α := fun state =>
  ((inner (get state)).1, put (inner (get state)).2 state)

def forEach (body : α → Eff σ ε Unit) : List α → Eff σ ε Unit
  | [] => Eff.pure ()
  | value :: rest => Eff.bind (body value) fun _ => forEach body rest

def foldEach (body : β → α → Eff σ ε β) : β → List α → Eff σ ε β
  | state, [] => Eff.pure state
  | state, value :: rest => Eff.bind (body state value) fun next => foldEach body next rest

section Apply

variable (state : σ)

@[simp] theorem pure_apply (value : α) :
    (pure value : Eff σ ε α) state = (.ok value, state) := rfl

@[simp] theorem fail_apply (reason : ε) :
    (fail reason : Eff σ ε α) state = (.error reason, state) := rfl

@[simp] theorem read_apply : (read : Eff σ ε σ) state = (.ok state, state) := rfl

@[simp] theorem update_apply (change : σ → σ) :
    (update change : Eff σ ε Unit) state = (.ok (), change state) := rfl

@[simp] theorem ofExcept_apply (result : Except ε α) :
    (ofExcept result : Eff σ ε α) state = (result, state) := rfl

@[simp] theorem require_of (condition : Prop) [Decidable condition] (reason : ε)
    (holds : condition) : (require condition reason : Eff σ ε Unit) state = (.ok (), state) := by
  simp only [require, holds, ↓reduceIte]

@[simp] theorem require_of_not (condition : Prop) [Decidable condition] (reason : ε)
    (fails : ¬ condition) :
    (require condition reason : Eff σ ε Unit) state = (.error reason, state) := by
  simp only [require, fails, ↓reduceIte]

@[simp] theorem orFail_some (value : α) (reason : ε) :
    (orFail (some value) reason : Eff σ ε α) state = (.ok value, state) := rfl

@[simp] theorem orFail_none (reason : ε) :
    (orFail none reason : Eff σ ε α) state = (.error reason, state) := rfl

theorem bind_apply (first : Eff σ ε α) (next : α → Eff σ ε β) :
    (first >>= next) state = match first state with
      | (.ok value, reached) => next value reached
      | (.error reason, reached) => (.error reason, reached) := rfl

theorem bind_assoc (first : Eff σ ε α) (next : α → Eff σ ε β) (last : β → Eff σ ε γ) :
    (first >>= next) >>= last = first >>= fun value => next value >>= last := by
  funext start
  simp only [bind_apply]
  rcases first start with ⟨_ | _, _⟩ <;> rfl

theorem bind_of_ok {first : Eff σ ε α} {value : α} {reached : σ}
    (success : first state = (.ok value, reached)) (next : α → Eff σ ε β) :
    (first >>= next) state = next value reached := by
  rw [bind_apply, success]

theorem bind_of_error {first : Eff σ ε α} {reason : ε} {reached : σ}
    (failed : first state = (.error reason, reached)) (next : α → Eff σ ε β) :
    (first >>= next) state = (.error reason, reached) := by
  rw [bind_apply, failed]

end Apply

section Inversion

variable {state reached : σ}

theorem bind_ok {first : Eff σ ε α} {next : α → Eff σ ε β} {result : β} :
    (first >>= next) state = (.ok result, reached) ↔
      ∃ value middle, first state = (.ok value, middle) ∧
        next value middle = (.ok result, reached) := by
  rw [bind_apply]
  rcases first state with ⟨_ | value, middle⟩ <;> simp [and_assoc]

theorem bind_error {first : Eff σ ε α} {next : α → Eff σ ε β} {reason : ε} :
    (first >>= next) state = (.error reason, reached) ↔
      first state = (.error reason, reached) ∨
        ∃ value middle, first state = (.ok value, middle) ∧
          next value middle = (.error reason, reached) := by
  rw [bind_apply]
  rcases first state with ⟨_ | value, middle⟩ <;> simp [and_assoc]

@[simp] theorem pure_ok {value result : α} :
    (pure value : Eff σ ε α) state = (.ok result, reached) ↔
      value = result ∧ state = reached := by
  simp [pure_apply]

@[simp] theorem fail_ok {reason : ε} {result : α} :
    (fail reason : Eff σ ε α) state = (.ok result, reached) ↔ False := by
  simp [fail_apply]

@[simp] theorem read_ok {result : σ} :
    (read : Eff σ ε σ) state = (.ok result, reached) ↔ state = result ∧ state = reached := by
  simp [read_apply]

@[simp] theorem require_ok {condition : Prop} [Decidable condition] {reason : ε} {result : Unit} :
    (require condition reason : Eff σ ε Unit) state = (.ok result, reached) ↔
      condition ∧ state = reached := by
  unfold require
  split <;> simp_all

@[simp] theorem require_error {condition : Prop} [Decidable condition] {reason failed : ε} :
    (require condition reason : Eff σ ε Unit) state = (.error failed, reached) ↔
      ¬ condition ∧ reason = failed ∧ state = reached := by
  unfold require
  split <;> simp_all

@[simp] theorem orFail_ok {value : Option α} {reason : ε} {result : α} :
    (orFail value reason : Eff σ ε α) state = (.ok result, reached) ↔
      value = some result ∧ state = reached := by
  cases value <;> simp [orFail]

@[simp] theorem orFail_error {value : Option α} {reason failed : ε} :
    (orFail value reason : Eff σ ε α) state = (.error failed, reached) ↔
      value = none ∧ reason = failed ∧ state = reached := by
  cases value <;> simp [orFail]

@[simp] theorem ofExcept_ok {value : Except ε α} {result : α} :
    (ofExcept value : Eff σ ε α) state = (.ok result, reached) ↔
      value = .ok result ∧ state = reached := by
  simp [ofExcept_apply]

@[simp] theorem ofExcept_error {value : Except ε α} {failed : ε} :
    (ofExcept value : Eff σ ε α) state = (.error failed, reached) ↔
      value = .error failed ∧ state = reached := by
  simp [ofExcept_apply]

theorem whenever_ok {condition : Prop} [Decidable condition] {body : Eff σ ε Unit}
    {result : Unit} : whenever condition body state = (.ok result, reached) ↔
      (condition ∧ body state = (.ok result, reached)) ∨ (¬ condition ∧ state = reached) := by
  unfold whenever
  split
  · rename_i holds
    simp [holds]
  · rename_i fails
    simp [fails, Eff.pure]

theorem whenever_error {condition : Prop} [Decidable condition] {body : Eff σ ε Unit}
    {reason : ε} : whenever condition body state = (.error reason, reached) ↔
      condition ∧ body state = (.error reason, reached) := by
  unfold whenever
  split
  · rename_i holds
    simp [holds]
  · rename_i fails
    simp [fails, Eff.pure]

theorem catching_ok {first : Eff σ ε α} {handler : ε → Eff σ δ α} {result : α} :
    catching first handler state = (.ok result, reached) ↔
      first state = (.ok result, reached) ∨
        ∃ reason middle, first state = (.error reason, middle) ∧
          handler reason middle = (.ok result, reached) := by
  unfold catching
  rcases first state with ⟨_ | value, middle⟩ <;> simp [and_assoc]

theorem catching_error {first : Eff σ ε α} {handler : ε → Eff σ δ α} {reason : δ} :
    catching first handler state = (.error reason, reached) ↔
      ∃ cause middle, first state = (.error cause, middle) ∧
        handler cause middle = (.error reason, reached) := by
  unfold catching
  rcases first state with ⟨_ | value, middle⟩ <;> simp [and_assoc]

end Inversion

/-- From a state satisfying `before`, the computation returns a value and a state
satisfying `after`, or stops with a reason and a state satisfying `failed`. -/
def Triple (before : σ → Prop) (body : Eff σ ε α) (after : α → σ → Prop)
    (failed : ε → σ → Prop) : Prop :=
  ∀ state, before state →
    match body state with
    | (.ok value, reached) => after value reached
    | (.error reason, reached) => failed reason reached

namespace Triple

variable {before : σ → Prop} {failed : ε → σ → Prop}

theorem ok {body : Eff σ ε α} {after : α → σ → Prop} (spec : Triple before body after failed)
    {state reached : σ} {value : α} (start : before state)
    (success : body state = (.ok value, reached)) : after value reached := by
  have result := spec state start
  rwa [success] at result

theorem error {body : Eff σ ε α} {after : α → σ → Prop} (spec : Triple before body after failed)
    {state reached : σ} {reason : ε} (start : before state)
    (stopped : body state = (.error reason, reached)) : failed reason reached := by
  have result := spec state start
  rwa [stopped] at result

theorem of_outcomes {body : Eff σ ε α} {after : α → σ → Prop}
    (returns : ∀ state value reached, before state → body state = (.ok value, reached) →
      after value reached)
    (stops : ∀ state reason reached, before state → body state = (.error reason, reached) →
      failed reason reached) : Triple before body after failed := by
  intro state start
  rcases outcome : body state with ⟨reason | value, reached⟩
  · exact stops state reason reached start outcome
  · exact returns state value reached start outcome

/-- Where only returns matter, nothing is to be shown of a failure. -/
theorem of_ok {body : Eff σ ε α} {after : α → σ → Prop}
    (returns : ∀ state value reached, before state → body state = (.ok value, reached) →
      after value reached) : Triple before body after fun _ _ => True :=
  of_outcomes returns fun _ _ _ _ _ => trivial

theorem pure {value : α} {after : α → σ → Prop}
    (holds : ∀ state, before state → after value state) :
    Triple before (Pure.pure value) after failed := fun state start => holds state start

theorem fail {reason : ε} {after : α → σ → Prop}
    (holds : ∀ state, before state → failed reason state) :
    Triple before (Eff.fail reason) after failed := fun state start => holds state start

theorem update {change : σ → σ} {after : Unit → σ → Prop}
    (holds : ∀ state, before state → after () (change state)) :
    Triple before (Eff.update change) after failed := fun state start => holds state start

theorem bind {first : Eff σ ε α} {next : α → Eff σ ε β} {middle : α → σ → Prop}
    {after : β → σ → Prop} (head : Triple before first middle failed)
    (tail : ∀ value, Triple (middle value) (next value) after failed) :
    Triple before (first >>= next) after failed := by
  intro state start
  have reached := head state start
  rw [bind_apply]
  rcases outcome : first state with ⟨reason | value, inner⟩
  · simpa only [outcome] using reached
  · rw [outcome] at reached
    exact tail value inner reached

theorem require {condition : Prop} [Decidable condition] {reason : ε} {next : Unit → Eff σ ε β}
    {after : β → σ → Prop} (holds : condition → Triple before (next ()) after failed)
    (stops : ¬ condition → ∀ state, before state → failed reason state) :
    Triple before (Eff.require condition reason >>= next) after failed := by
  intro state start
  by_cases met : condition
  · rw [bind_of_ok state (require_of state condition reason met)]
    exact holds met state start
  · rw [bind_of_error state (require_of_not state condition reason met)]
    exact stops met state start

theorem orFail {value : Option α} {reason : ε} {next : α → Eff σ ε β} {after : β → σ → Prop}
    (holds : ∀ inner, value = some inner → Triple before (next inner) after failed)
    (stops : value = none → ∀ state, before state → failed reason state) :
    Triple before (Eff.orFail value reason >>= next) after failed := by
  cases value with
  | none => exact fun state start => stops rfl state start
  | some inner => exact fun state start => holds inner rfl state start

theorem ofExcept {value : Except ε α} {next : α → Eff σ ε β} {after : β → σ → Prop}
    (holds : ∀ inner, value = .ok inner → Triple before (next inner) after failed)
    (stops : ∀ reason, value = .error reason → ∀ state, before state → failed reason state) :
    Triple before (Eff.ofExcept value >>= next) after failed := by
  cases value with
  | error reason => exact fun state start => stops reason rfl state start
  | ok inner => exact fun state start => holds inner rfl state start

theorem whenever {condition : Prop} [Decidable condition] {body : Eff σ ε Unit}
    {after : Unit → σ → Prop} (holds : condition → Triple before body after failed)
    (skips : ¬ condition → ∀ state, before state → after () state) :
    Triple before (Eff.whenever condition body) after failed := by
  unfold Eff.whenever
  split
  · rename_i met
    exact holds met
  · rename_i unmet
    exact skips unmet

theorem weaken {body : Eff σ ε α} {after after' : α → σ → Prop} {before' : σ → Prop}
    {failed' : ε → σ → Prop} (spec : Triple before body after failed)
    (start : ∀ state, before' state → before state)
    (finish : ∀ value state, after value state → after' value state)
    (stop : ∀ reason state, failed reason state → failed' reason state) :
    Triple before' body after' failed' := by
  intro state entry
  have result := spec state (start state entry)
  rcases outcome : body state with ⟨reason | value, reached⟩ <;> rw [outcome] at result
  · exact stop reason reached result
  · exact finish value reached result

/-- What the precondition knows of values alone is a hypothesis of the rest. -/
theorem known {fact : Prop} {body : Eff σ ε α} {after : α → σ → Prop}
    (spec : fact → Triple before body after failed) :
    Triple (fun state => fact ∧ before state) body after failed :=
  fun state start => spec start.1 state start.2

theorem remember {fact : Prop} {body : Eff σ ε α} {after : α → σ → Prop}
    (spec : Triple before body after failed) (holds : fact) :
    Triple before body (fun value state => fact ∧ after value state) failed :=
  spec.weaken (fun _ start => start) (fun _ _ finish => ⟨holds, finish⟩) fun _ _ stop => stop

theorem catching {first : Eff σ ε α} {handler : ε → Eff σ δ α} {after : α → σ → Prop}
    {failed' : δ → σ → Prop} (body : Triple before first after failed)
    (recover : ∀ reason, Triple (failed reason) (handler reason) after failed') :
    Triple before (Eff.catching first handler) after failed' := by
  intro state start
  have result := body state start
  unfold Eff.catching
  rcases outcome : first state with ⟨reason | value, reached⟩ <;> rw [outcome] at result
  · exact recover reason reached result
  · exact result

private theorem foldEach_from {body : β → α → Eff σ ε β} {invariant : List α → β → σ → Prop}
    {done values : List α} {start : β}
    (step : ∀ done value result, value ∈ values →
      Triple (invariant done result) (body result value) (invariant (done ++ [value])) failed) :
    Triple (invariant done start) (Eff.foldEach body start values)
      (invariant (done ++ values)) failed := by
  induction values generalizing done start with
  | nil =>
      simp only [List.append_nil]
      exact Triple.pure fun state holds => holds
  | cons value rest ih =>
      apply Triple.bind (step done value start (by simp))
      intro next
      rw [show done ++ value :: rest = done ++ [value] ++ rest by simp]
      exact ih fun done value result member => step done value result (.tail _ member)

/-- A loop keeps an invariant indexed by the values it has consumed. -/
theorem foldEach (invariant : List α → β → σ → Prop) {body : β → α → Eff σ ε β}
    {values : List α} {start : β}
    (step : ∀ done value result, value ∈ values →
      Triple (invariant done result) (body result value) (invariant (done ++ [value])) failed) :
    Triple (invariant [] start) (Eff.foldEach body start values) (invariant values) failed :=
  foldEach_from step

/-- What every finished round establishes about the value built so far. -/
theorem foldEach_ok (invariant : List α → β → Prop) {body : β → α → Eff σ ε β} {values : List α}
    {start final : β} {state reached : σ}
    (step : ∀ done value result next state reached, value ∈ values → invariant done result →
      body result value state = (.ok next, reached) → invariant (done ++ [value]) next)
    (entry : invariant [] start)
    (ran : Eff.foldEach body start values state = (.ok final, reached)) :
    invariant values final := by
  have loop : Triple (fun _ => invariant [] start) (Eff.foldEach body start values)
      (fun result _ => invariant values result) fun _ _ => True :=
    foldEach (fun done result _ => invariant done result) fun done value result member =>
      of_ok fun state next reached held finished =>
        step done value result next state reached member held finished
  exact loop.ok entry ran

private theorem forEach_from {body : α → Eff σ ε Unit} {invariant : List α → σ → Prop}
    {done values : List α}
    (step : ∀ done value, value ∈ values →
      Triple (invariant done) (body value) (fun _ => invariant (done ++ [value])) failed) :
    Triple (invariant done) (Eff.forEach body values)
      (fun _ => invariant (done ++ values)) failed := by
  induction values generalizing done with
  | nil =>
      simp only [List.append_nil]
      exact Triple.pure fun state holds => holds
  | cons value rest ih =>
      apply Triple.bind (step done value (by simp))
      intro _
      rw [show done ++ value :: rest = done ++ [value] ++ rest by simp]
      exact ih fun done value member => step done value (.tail _ member)

theorem forEach (invariant : List α → σ → Prop) {body : α → Eff σ ε Unit} {values : List α}
    (step : ∀ done value, value ∈ values →
      Triple (invariant done) (body value) (fun _ => invariant (done ++ [value])) failed) :
    Triple (invariant []) (Eff.forEach body values) (fun _ => invariant values) failed :=
  forEach_from step

end Triple

/-- Whatever the state, the computation stops only for an expected reason. -/
def FailsOnly (expected : ε → Prop) (body : Eff σ ε α) : Prop :=
  ∀ state reason reached, body state = (.error reason, reached) → expected reason

namespace FailsOnly

variable {expected : ε → Prop}

theorem pure (value : α) : FailsOnly expected (Pure.pure value : Eff σ ε α) := by
  intro state reason reached stopped
  cases stopped

theorem fail {reason : ε} (known : expected reason) :
    FailsOnly expected (Eff.fail reason : Eff σ ε α) := by
  rintro state cause reached ⟨⟩
  exact known

theorem update (change : σ → σ) : FailsOnly expected (Eff.update change) := by
  intro state reason reached stopped
  cases stopped

theorem require {condition : Prop} [Decidable condition] {reason : ε} (known : expected reason) :
    FailsOnly expected (Eff.require condition reason : Eff σ ε Unit) := by
  intro state cause reached stopped
  obtain ⟨_, rfl, _⟩ := require_error.mp stopped
  exact known

theorem orFail {value : Option α} {reason : ε} (known : value = none → expected reason) :
    FailsOnly expected (Eff.orFail value reason : Eff σ ε α) := by
  intro state cause reached stopped
  obtain ⟨missing, rfl, _⟩ := orFail_error.mp stopped
  exact known missing

theorem ofExcept {value : Except ε α} (known : ∀ reason, value = .error reason → expected reason) :
    FailsOnly expected (Eff.ofExcept value : Eff σ ε α) := by
  intro state reason reached stopped
  exact known reason (ofExcept_error.mp stopped).1

/-- The second part runs on a value that the first has returned. -/
theorem bind {first : Eff σ ε α} {next : α → Eff σ ε β} (head : FailsOnly expected first)
    (tail : ∀ value state reached, first state = (.ok value, reached) →
      FailsOnly expected (next value)) : FailsOnly expected (first >>= next) := by
  intro state reason reached stopped
  rcases bind_error.mp stopped with early | ⟨value, middle, ran, late⟩
  · exact head state reason reached early
  · exact tail value state middle ran middle reason reached late

theorem whenever {condition : Prop} [Decidable condition] {body : Eff σ ε Unit}
    (inner : FailsOnly expected body) : FailsOnly expected (Eff.whenever condition body) := by
  intro state reason reached stopped
  exact inner state reason reached (whenever_error.mp stopped).2

theorem catching {expected' : δ → Prop} {first : Eff σ ε α} {handler : ε → Eff σ δ α}
    (inner : FailsOnly expected first)
    (recover : ∀ reason, expected reason → FailsOnly expected' (handler reason)) :
    FailsOnly expected' (Eff.catching first handler) := by
  intro state reason reached stopped
  obtain ⟨cause, middle, failed, handled⟩ := catching_error.mp stopped
  exact recover cause (inner state cause middle failed) middle reason reached handled

theorem foldEach {body : β → α → Eff σ ε β} {values : List α} (start : β)
    (step : ∀ result, ∀ value ∈ values, FailsOnly expected (body result value)) :
    FailsOnly expected (Eff.foldEach body start values) := by
  induction values generalizing start with
  | nil => exact pure start
  | cons value rest ih =>
      exact bind (step start value (by simp)) fun next _ _ _ =>
        ih next fun result value member => step result value (.tail _ member)

theorem forEach {body : α → Eff σ ε Unit} {values : List α}
    (step : ∀ value ∈ values, FailsOnly expected (body value)) :
    FailsOnly expected (Eff.forEach body values) := by
  induction values with
  | nil => exact pure ()
  | cons value rest ih =>
      exact bind (step value (by simp)) fun _ _ _ _ =>
        ih fun value member => step value (.tail _ member)

end FailsOnly

/-- The computation only looks at the state. -/
def ReadOnly (body : Eff σ ε α) : Prop := ∀ state, (body state).2 = state

namespace ReadOnly

theorem pure (value : α) : ReadOnly (Pure.pure value : Eff σ ε α) := fun _ => rfl

theorem require {condition : Prop} [Decidable condition] {reason : ε} :
    ReadOnly (Eff.require condition reason : Eff σ ε Unit) := by
  intro state
  unfold Eff.require
  split <;> rfl

theorem orFail {value : Option α} {reason : ε} :
    ReadOnly (Eff.orFail value reason : Eff σ ε α) := by
  intro state
  cases value <;> rfl

theorem ofExcept {value : Except ε α} : ReadOnly (Eff.ofExcept value : Eff σ ε α) := fun _ => rfl

theorem bind {first : Eff σ ε α} {next : α → Eff σ ε β} (head : ReadOnly first)
    (tail : ∀ value, ReadOnly (next value)) : ReadOnly (first >>= next) := by
  intro state
  have same := head state
  rw [bind_apply]
  rcases outcome : first state with ⟨reason | value, reached⟩ <;> rw [outcome] at same
  · exact same
  · exact (tail value reached).trans same

end ReadOnly

/-- A failure leaves the state as it was. -/
def FailsClean (body : Eff σ ε α) : Prop :=
  ∀ state reason reached, body state = (.error reason, reached) → reached = state

namespace FailsClean

theorem of_readOnly {body : Eff σ ε α} (readOnly : ReadOnly body) : FailsClean body := by
  intro state reason reached stopped
  have same := readOnly state
  rwa [stopped] at same

theorem of_fails {body : Eff σ ε α} (never : FailsOnly (fun _ => False) body) :
    FailsClean body :=
  fun state reason reached stopped => (never state reason reached stopped).elim

/-- Checks come before changes. -/
theorem bind {first : Eff σ ε α} {next : α → Eff σ ε β} (head : ReadOnly first)
    (tail : ∀ value, FailsClean (next value)) : FailsClean (first >>= next) := by
  intro state reason reached stopped
  rcases bind_error.mp stopped with early | ⟨value, middle, ran, late⟩
  · exact of_readOnly head state reason reached early
  · have same := head state
    rw [ran] at same
    exact (tail value middle reason reached late).trans same

end FailsClean

/-- However it ends, the computation only moves the state upwards. -/
def Grows [Preorder σ] (body : Eff σ ε α) : Prop := ∀ state, state ≤ (body state).2

namespace Grows

variable [Preorder σ]

theorem of_run {body : Eff σ ε α} (grows : Grows body) {state reached : σ} {result : Except ε α}
    (ran : body state = (result, reached)) : state ≤ reached := by
  have grown := grows state
  rwa [ran] at grown

theorem of_readOnly {body : Eff σ ε α} (readOnly : ReadOnly body) : Grows body :=
  fun state => (readOnly state).ge

theorem pure (value : α) : Grows (Pure.pure value : Eff σ ε α) := of_readOnly (.pure value)

theorem fail (reason : ε) : Grows (Eff.fail reason : Eff σ ε α) := fun _ => le_rfl

theorem read : Grows (Eff.read : Eff σ ε σ) := fun _ => le_rfl

theorem require {condition : Prop} [Decidable condition] {reason : ε} :
    Grows (Eff.require condition reason : Eff σ ε Unit) := of_readOnly .require

theorem orFail {value : Option α} {reason : ε} :
    Grows (Eff.orFail value reason : Eff σ ε α) := of_readOnly .orFail

theorem ofExcept {value : Except ε α} : Grows (Eff.ofExcept value : Eff σ ε α) := fun _ => le_rfl

theorem update {change : σ → σ} (upwards : ∀ state, state ≤ change state) :
    Grows (Eff.update change : Eff σ ε Unit) := upwards

theorem bind {first : Eff σ ε α} {next : α → Eff σ ε β} (head : Grows first)
    (tail : ∀ value, Grows (next value)) : Grows (first >>= next) := by
  intro state
  have start := head state
  rw [bind_apply]
  rcases outcome : first state with ⟨reason | value, reached⟩ <;> rw [outcome] at start
  · exact start
  · exact start.trans (tail value reached)

theorem whenever {condition : Prop} [Decidable condition] {body : Eff σ ε Unit}
    (inner : Grows body) : Grows (Eff.whenever condition body) := by
  unfold Eff.whenever
  split
  · exact inner
  · exact pure ()

theorem catching {first : Eff σ ε α} {handler : ε → Eff σ δ α} (inner : Grows first)
    (recover : ∀ reason, Grows (handler reason)) : Grows (Eff.catching first handler) := by
  intro state
  have start := inner state
  unfold Eff.catching
  rcases outcome : first state with ⟨reason | value, reached⟩ <;> rw [outcome] at start
  · exact start.trans (recover reason reached)
  · exact start

theorem foldEach {body : β → α → Eff σ ε β} (each : ∀ result value, Grows (body result value))
    (start : β) (values : List α) : Grows (Eff.foldEach body start values) := by
  induction values generalizing start with
  | nil => exact pure start
  | cons value rest ih => exact bind (each start value) ih

theorem forEach {body : α → Eff σ ε Unit} (each : ∀ value, Grows (body value))
    (values : List α) : Grows (Eff.forEach body values) := by
  induction values with
  | nil => exact pure ()
  | cons value rest ih => exact bind (each value) fun _ => ih

end Grows

/-- A failure for an excused reason, or one that leaves the property true. -/
def Stops (excused : ε → Prop) (property : σ → Prop) (reason : ε) (state : σ) : Prop :=
  excused reason ∨ property state

/-- However it ends, the computation keeps the property, unless the failure is excused. -/
def Stable (excused : ε → Prop) (property : σ → Prop) (body : Eff σ ε α) : Prop :=
  Triple property body (fun _ => property) (Stops excused property)

namespace Stable

variable {excused : ε → Prop} {property : σ → Prop}

theorem pure (value : α) : Stable excused property (Pure.pure value) :=
  Triple.pure fun _ holds => holds

theorem of_readOnly {body : Eff σ ε α} (readOnly : ReadOnly body) :
    Stable excused property body := by
  refine Triple.of_outcomes ?_ ?_
  · intro state value reached holds ran
    have same : reached = state := by simpa only [ran] using readOnly state
    exact same ▸ holds
  · intro state reason reached holds ran
    have same : reached = state := by simpa only [ran] using readOnly state
    exact .inr (same ▸ holds)

theorem fail (reason : ε) : Stable excused property (Eff.fail reason : Eff σ ε α) :=
  Triple.fail fun _ holds => .inr holds

theorem read : Stable excused property (Eff.read : Eff σ ε σ) := fun _ holds => holds

theorem require {condition : Prop} [Decidable condition] {reason : ε} :
    Stable excused property (Eff.require condition reason : Eff σ ε Unit) := of_readOnly .require

theorem orFail {value : Option α} {reason : ε} :
    Stable excused property (Eff.orFail value reason) := of_readOnly .orFail

theorem ofExcept {value : Except ε α} : Stable excused property (Eff.ofExcept value : Eff σ ε α) :=
  of_readOnly .ofExcept

theorem update {change : σ → σ} (kept : ∀ state, property state → property (change state)) :
    Stable excused property (Eff.update change) := Triple.update kept

theorem bind {first : Eff σ ε α} {next : α → Eff σ ε β} (head : Stable excused property first)
    (tail : ∀ value, Stable excused property (next value)) :
    Stable excused property (first >>= next) := Triple.bind head tail

theorem whenever {condition : Prop} [Decidable condition] {body : Eff σ ε Unit}
    (inner : condition → Stable excused property body) :
    Stable excused property (Eff.whenever condition body) :=
  Triple.whenever inner fun _ _ holds => holds

theorem forEach {body : α → Eff σ ε Unit} {values : List α}
    (step : ∀ value ∈ values, Stable excused property (body value)) :
    Stable excused property (Eff.forEach body values) :=
  Triple.forEach (fun _ => property) fun _ value member => step value member

theorem foldEach {body : β → α → Eff σ ε β} {values : List α} {start : β}
    (step : ∀ result, ∀ value ∈ values, Stable excused property (body result value)) :
    Stable excused property (Eff.foldEach body start values) :=
  Triple.foldEach (fun _ _ => property) fun _ value result member => step result value member

theorem catching {ε' : Type} {body : Eff σ ε' α} {handler : ε' → Eff σ ε α}
    (inner : Stable (fun _ => False) property body)
    (handled : ∀ reason, Stable excused property (handler reason)) :
    Stable excused property (Eff.catching body handler) := by
  apply Triple.catching (Triple.weaken inner (fun _ holds => holds) (fun _ _ holds => holds) _)
    handled
  exact fun _ _ stopped => stopped.resolve_left id

/-- What is known of the value and what is kept of the state. -/
theorem returns {body : Eff σ ε α} {fact : α → Prop} (stable : Stable excused property body)
    (known : ∀ state value reached, body state = (.ok value, reached) → fact value) :
    Triple property body (fun value state => fact value ∧ property state)
      (Stops excused property) :=
  Triple.of_outcomes (fun state value reached holds ran =>
    ⟨known state value reached ran, stable.ok holds ran⟩)
    fun _ _ _ holds ran => stable.error holds ran

/-- Without excuses the property is kept whatever the result. -/
theorem of_run {body : Eff σ ε α} (stable : Stable (fun _ => False) property body)
    {state reached : σ} {result : Except ε α} (holds : property state)
    (ran : body state = (result, reached)) : property reached := by
  rcases result with reason | value
  · exact (stable.error holds ran).resolve_left id
  · exact stable.ok holds ran

/-- A body that cannot fail keeps the property. -/
theorem certain {body : Eff σ ε α} (stable : Stable (fun _ => False) property body)
    (never : FailsOnly (fun _ => False) body) {failed : ε → σ → Prop} :
    Triple property body (fun _ => property) failed :=
  Triple.of_outcomes (fun _ _ _ holds ran => stable.ok holds ran)
    fun state reason reached _ ran => (never state reason reached ran).elim

end Stable

end Eff

end MetalGraph
