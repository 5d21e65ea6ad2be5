import MetalGraph.Base.Effect

set_option autoImplicit false

/- Computations whose answer is settled before they run: from every state with some
property they return a value exactly if a condition holds. -/
namespace MetalGraph

namespace Eff

variable {σ ε δ α β : Type} {property : σ → Prop} {condition : Prop} {fact : α → Prop}

/-- From a state with the property the computation returns exactly if the condition holds.
What it returns has the fact, and the state keeps the property then. -/
def Settles (property : σ → Prop) (condition : Prop) (body : Eff σ ε α) (fact : α → Prop) : Prop :=
  Triple property body (fun value state => condition ∧ fact value ∧ property state)
    fun _ _ => ¬ condition

namespace Settles

theorem answers {body : Eff σ ε α} (settles : Settles property condition body fact) {state : σ}
    (start : property state) :
    (∃ value reached, body state = (.ok value, reached)) ↔ condition := by
  have result := settles state start
  rcases outcome : body state with ⟨reason | value, reached⟩ <;> rw [outcome] at result
  · simpa using result
  · simpa using result.1

/-- What a computation whose condition holds gives back. -/
theorem returns {body : Eff σ ε α} (settles : Settles property condition body fact) {state : σ}
    (start : property state) (holds : condition) :
    ∃ value reached, body state = (.ok value, reached) ∧ fact value ∧ property reached := by
  obtain ⟨value, reached, ran⟩ := (settles.answers start).mpr holds
  exact ⟨value, reached, ran, (settles.ok start ran).2⟩

theorem of_iff {other : Prop} {body : Eff σ ε α} (settles : Settles property condition body fact)
    (same : condition ↔ other) : Settles property other body fact := by
  have := propext same
  rwa [this] at settles

theorem pure {value : α} (known : fact value) :
    Settles property True (Pure.pure value : Eff σ ε α) fact :=
  Triple.pure fun _ start => ⟨trivial, known, start⟩

theorem require {wanted : Prop} [Decidable wanted] {reason : ε} :
    Settles property wanted (Eff.require wanted reason : Eff σ ε Unit) fun _ => wanted := by
  intro state start
  by_cases met : wanted
  · rw [require_of state wanted reason met]
    exact ⟨met, met, start⟩
  · rw [require_of_not state wanted reason met]
    exact met

theorem orFail {value : Option α} {reason : ε} :
    Settles property (value.isSome = true) (Eff.orFail value reason : Eff σ ε α)
      (value = some ·) := by
  intro state start
  cases value with
  | none => simp [Eff.orFail]
  | some value => exact ⟨rfl, rfl, start⟩

/-- Both parts have to return. -/
theorem bind {condition' : Prop} {fact' : β → Prop} {first : Eff σ ε α} {next : α → Eff σ ε β}
    (head : Settles property condition first fact)
    (tail : ∀ value, condition → fact value → Settles property condition' (next value) fact') :
    Settles property (condition ∧ condition') (first >>= next) fact' := by
  intro state start
  have result := head state start
  rw [bind_apply]
  rcases outcome : first state with ⟨reason | value, middle⟩ <;> rw [outcome] at result
  · exact fun both => result both.1
  · obtain ⟨holds, given, kept⟩ := result
    have result' := tail value holds given middle kept
    rcases outcome' : next value middle with ⟨reason | value', reached⟩ <;>
      simp only [outcome'] at result' ⊢
    · exact fun both => result' both.2
    · exact ⟨⟨holds, result'.1⟩, result'.2⟩

/-- The first part always returns. -/
theorem after {fact' : β → Prop} {first : Eff σ ε α} {next : α → Eff σ ε β}
    (head : Settles property True first fact)
    (tail : ∀ value, fact value → Settles property condition (next value) fact') :
    Settles property condition (first >>= next) fact' :=
  (head.bind fun value _ => tail value).of_iff (by rw [true_and])

theorem whenever {wanted : Prop} [Decidable wanted] {body : Eff σ ε Unit}
    (inner : Settles property True body fun _ => True) :
    Settles property True (Eff.whenever wanted body) fun _ => True :=
  Triple.whenever (fun _ => inner) fun _ _ start => ⟨trivial, trivial, start⟩

/-- A handler that gives up does not change the answer. -/
theorem catching {first : Eff σ ε α} {handler : ε → Eff σ δ α}
    (inner : Settles property condition first fact)
    (gives_up : ∀ reason state value reached, handler reason state ≠ (.ok value, reached)) :
    Settles property condition (Eff.catching first handler) fact := by
  apply Triple.catching inner
  intro reason
  apply Triple.of_outcomes
  · intro state value reached _ ran
    exact absurd ran (gives_up reason state value reached)
  · intro state cause reached stopped _
    exact stopped

private theorem foldEach_from {invariant : List α → β → Prop} {holds : α → Prop}
    {body : β → α → Eff σ ε β} {done values : List α} {start : β}
    (step : ∀ done value result, value ∈ values → invariant done result →
      Settles property (holds value) (body result value) (invariant (done ++ [value])))
    (entry : invariant done start) :
    Settles property (∀ value ∈ values, holds value) (Eff.foldEach body start values)
      (invariant (done ++ values)) := by
  induction values generalizing done start with
  | nil => exact (pure (by simpa using entry)).of_iff (by simp)
  | cons value rest ih =>
      apply of_iff _ List.forall_mem_cons.symm
      apply (step done value start (by simp) entry).bind
      intro next _ reached
      rw [show done ++ value :: rest = done ++ [value] ++ rest by simp]
      exact ih (fun done value result member => step done value result (.tail _ member)) reached

/-- A loop returns exactly if every one of its rounds does. -/
theorem foldEach (invariant : List α → β → Prop) {holds : α → Prop} {body : β → α → Eff σ ε β}
    {values : List α} {start : β}
    (step : ∀ done value result, value ∈ values → invariant done result →
      Settles property (holds value) (body result value) (invariant (done ++ [value])))
    (entry : invariant [] start) :
    Settles property (∀ value ∈ values, holds value) (Eff.foldEach body start values)
      (invariant values) :=
  foldEach_from step entry

end Settles

end Eff

end MetalGraph
