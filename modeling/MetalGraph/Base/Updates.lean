import Mathlib.Data.List.Nodup

set_option autoImplicit false

/- Writes to one position of a list, told by what stands there instead of by the position. -/
namespace MetalGraph

variable {α β γ : Type}

theorem set_find_from {values : List α} {matching : α → Bool} {replace : α → Option α}
    {change : α → α}
    (agree : ∀ value, replace value = if matching value = true then some (change value) else none)
    {start position : Nat} {found : α}
    (first : (values.zipIdx start).find? (fun entry => matching entry.1) =
      some (found, start + position)) :
    values.set position (change found) = values.replaceF replace := by
  induction values generalizing start position with
  | nil => cases first
  | cons value rest ih =>
      rw [List.zipIdx_cons, List.find?_cons] at first
      by_cases here : matching value = true
      · simp only [here, Option.some.injEq, Prod.mk.injEq] at first
        obtain ⟨rfl, place⟩ := first
        have zero : position = 0 := by omega
        subst zero
        simp [List.replaceF, agree, here]
      · simp only [here] at first
        have later : start + 1 ≤ start + position := by
          have member := List.mem_of_find?_eq_some first
          exact (List.mem_zipIdx member).1
        obtain ⟨before, rfl⟩ : ∃ before, position = before + 1 := ⟨position - 1, by omega⟩
        have place : start + (before + 1) = start + 1 + before := by omega
        rw [place] at first
        simp [List.replaceF, agree, here, ih first]

/-- Writing where a search has stopped is replacing the first match. -/
theorem set_find_eq_replaceF {values : List α} {matching : α → Bool} {replace : α → Option α}
    {change : α → α}
    (agree : ∀ value, replace value = if matching value = true then some (change value) else none)
    {position : Nat} {found : α}
    (first : values.zipIdx.find? (fun entry => matching entry.1) = some (found, position)) :
    values.set position (change found) = values.replaceF replace := by
  apply set_find_from agree
  rwa [Nat.zero_add]

/-- Where no two values have the same key, a write is a change of what has this key. -/
theorem map_set_of_distinct [DecidableEq γ] {view : α → β} (key : β → γ) {values : List α}
    (distinct : (values.map fun value => key (view value)).Nodup) {position : Nat} {old fresh : α}
    (present : values[position]? = some old) (change : β → β)
    (changed : view fresh = change (view old)) :
    (values.set position fresh).map view =
      (values.map view).map fun item =>
        if key item = key (view old) then change item else item := by
  apply List.ext_getElem?
  intro other
  simp only [List.getElem?_map, List.getElem?_set]
  by_cases same : position = other
  · subst same
    obtain ⟨inside, here⟩ := List.getElem?_eq_some_iff.mp present
    simp [inside, here, changed]
  · rw [if_neg same]
    rcases stored : values[other]? with _ | value
    · rfl
    · have apart : key (view value) ≠ key (view old) := by
        intro equal
        apply same
        have keys : (values.map fun value => key (view value))[position]? =
            (values.map fun value => key (view value))[other]? := by
          simp [present, stored, equal]
        have inside : position < (values.map fun value => key (view value)).length := by
          rw [List.length_map]
          exact (List.getElem?_eq_some_iff.mp present).choose
        exact (List.getElem?_inj inside distinct).mp keys
      simp [apart]

end MetalGraph
