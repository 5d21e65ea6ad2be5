import MetalGraph.Base.Effect

set_option autoImplicit false

/- Two computations side by side, and the rules that take them through the same steps.
Nothing here depends on what the states are. -/
namespace MetalGraph.Eff

variable {σ τ ε δ α β γ κ : Type}

/-- From related states both computations return related values, or both stop. -/
def Lockstep (before : σ → τ → Prop) (left : Eff σ ε α) (right : Eff τ δ β)
    (after : α → β → σ → τ → Prop) (stopped : σ → τ → Prop) : Prop :=
  ∀ first second, before first second →
    match left first, right second with
    | (.ok value, reached), (.ok other, reached') => after value other reached reached'
    | (.error _, reached), (.error _, reached') => stopped reached reached'
    | _, _ => False

namespace Lockstep

variable {before : σ → τ → Prop} {stopped : σ → τ → Prop}

theorem bind {left : Eff σ ε α} {right : Eff τ δ β} {next : α → Eff σ ε γ}
    {next' : β → Eff τ δ κ} {middle : α → β → σ → τ → Prop} {after : γ → κ → σ → τ → Prop}
    (head : Lockstep before left right middle stopped)
    (tail : ∀ value other, Lockstep (middle value other) (next value) (next' other) after stopped) :
    Lockstep before (left >>= next) (right >>= next') after stopped := by
  intro first second start
  have reached := head first second start
  rw [bind_apply, bind_apply]
  rcases outcome : left first with ⟨reason | value, inner⟩ <;>
    rcases outcome' : right second with ⟨reason' | value', inner'⟩ <;>
    simp only [outcome, outcome'] at reached ⊢
  · exact reached
  · exact tail value value' inner inner' reached

/-- The left side may change its state alone. -/
theorem update_left (middle : σ → τ → Prop) {change : σ → σ} {next : Unit → Eff σ ε α}
    {right : Eff τ δ β} {after : α → β → σ → τ → Prop}
    (moves : ∀ first second, before first second → middle (change first) second)
    (rest : Lockstep middle (next ()) right after stopped) :
    Lockstep before (Eff.update change >>= next) right after stopped :=
  fun first second start => rest (change first) second (moves first second start)

/-- What is known of the values does not depend on the states. -/
theorem known {fact : Prop} {left : Eff σ ε α} {right : Eff τ δ β}
    {after : α → β → σ → τ → Prop} (rest : fact → Lockstep before left right after stopped) :
    Lockstep (fun first second => fact ∧ before first second) left right after stopped :=
  fun first second start => rest start.1 first second start.2

end Lockstep

/-- Both sides return the same value in related states, or stop in related states. -/
def InStep (related : σ → τ → Prop) (left : Eff σ ε α) (right : Eff τ δ α) : Prop :=
  Lockstep related left right (fun value other first second => value = other ∧ related first second)
    related

namespace InStep

variable {related : σ → τ → Prop}

theorem pure (value : α) :
    InStep related (Pure.pure value : Eff σ ε α) (Pure.pure value : Eff τ δ α) :=
  fun _ _ start => ⟨rfl, start⟩

theorem update {change : σ → σ} {change' : τ → τ}
    (kept : ∀ first second, related first second → related (change first) (change' second)) :
    InStep related (Eff.update change : Eff σ ε Unit) (Eff.update change' : Eff τ δ Unit) :=
  fun first second start => ⟨rfl, kept first second start⟩

theorem stops {left : Eff σ ε α} {right : Eff τ δ α} {stopped : σ → τ → Prop}
    (steps : InStep related left right)
    (halts : ∀ first second, related first second → stopped first second) :
    Lockstep related left right
      (fun value other first second => value = other ∧ related first second)
      stopped := by
  intro first second start
  have ran := steps first second start
  rcases outcome : left first with ⟨reason | value, reached⟩ <;>
    rcases outcome' : right second with ⟨reason' | value', reached'⟩ <;>
    simp only [outcome, outcome'] at ran ⊢
  · exact halts reached reached' ran
  · exact ran

/-- After equal values the rest may depend on the value. -/
theorem andThen {left : Eff σ ε α} {right : Eff τ δ α} {next : α → Eff σ ε β}
    {next' : α → Eff τ δ γ} {after : β → γ → σ → τ → Prop} {stopped : σ → τ → Prop}
    (head : InStep related left right)
    (halts : ∀ first second, related first second → stopped first second)
    (tail : ∀ value, Lockstep related (next value) (next' value) after stopped) :
    Lockstep related (left >>= next) (right >>= next') after stopped := by
  refine Lockstep.bind (head.stops halts) fun value other => .known ?_
  rintro rfl
  exact tail value

theorem bind {left : Eff σ ε α} {right : Eff τ δ α} {next : α → Eff σ ε β}
    {next' : α → Eff τ δ β} (head : InStep related left right)
    (tail : ∀ value, InStep related (next value) (next' value)) :
    InStep related (left >>= next) (right >>= next') := andThen head (fun _ _ kept => kept) tail

theorem orFail {value : Option α} {reason : ε} {reason' : δ} :
    InStep related (Eff.orFail value reason) (Eff.orFail value reason') := by
  intro first second start
  cases value with
  | none => exact start
  | some inner => exact ⟨rfl, start⟩

/-- Both sides make the same check. -/
theorem require {condition : Prop} [Decidable condition] {reason : ε} {reason' : δ} :
    InStep related (Eff.require condition reason) (Eff.require condition reason') := by
  intro first second start
  by_cases met : condition
  · rw [require_of first condition reason met, require_of second condition reason' met]
    exact ⟨rfl, start⟩
  · rw [require_of_not first condition reason met, require_of_not second condition reason' met]
    exact start

theorem whenever {condition : Prop} [Decidable condition] {body : Eff σ ε Unit}
    {body' : Eff τ δ Unit} (inner : InStep related body body') :
    InStep related (Eff.whenever condition body) (Eff.whenever condition body') := by
  unfold Eff.whenever
  by_cases met : condition
  · rw [if_pos met, if_pos met]
    exact inner
  · rw [if_neg met, if_neg met]
    exact pure ()

theorem forEach {body : γ → Eff σ ε Unit} {body' : γ → Eff τ δ Unit}
    (step : ∀ value, InStep related (body value) (body' value)) (values : List γ) :
    InStep related (Eff.forEach body values) (Eff.forEach body' values) := by
  induction values with
  | nil => exact pure ()
  | cons value rest ih => exact bind (step value) fun _ => ih

end InStep

end MetalGraph.Eff
