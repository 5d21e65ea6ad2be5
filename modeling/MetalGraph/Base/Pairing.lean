import Mathlib.Data.List.Forall2
import Mathlib.Data.List.Induction
import Mathlib.Logic.Function.Basic

set_option autoImplicit false

/- Two lists related entry by entry, lists with one entry replaced, lists in which a key
names one entry, and tables that later entries overwrite. -/
namespace MetalGraph

variable {α β : Type} {related : α → β → Prop} {left : List α} {right : List β}

theorem getElem?_of_forall₂ (pairs : List.Forall₂ related left right) {index : Nat} {value : α}
    (present : left[index]? = some value) :
    ∃ other, right[index]? = some other ∧ related value other := by
  induction pairs generalizing index with
  | nil => simp at present
  | cons head _ ih =>
      cases index with
      | zero =>
          cases present
          exact ⟨_, rfl, head⟩
      | succ index => exact ih present

theorem getElem?_of_forall₂' (pairs : List.Forall₂ related left right) {index : Nat} {value : β}
    (present : right[index]? = some value) :
    ∃ other, left[index]? = some other ∧ related other value :=
  getElem?_of_forall₂ pairs.flip present

theorem mem_of_forall₂ (pairs : List.Forall₂ related left right) {value : α}
    (member : value ∈ left) : ∃ other ∈ right, related value other := by
  obtain ⟨index, present⟩ := List.mem_iff_getElem?.mp member
  obtain ⟨other, found, holds⟩ := getElem?_of_forall₂ pairs present
  exact ⟨other, List.mem_of_getElem? found, holds⟩

theorem mem_of_forall₂' (pairs : List.Forall₂ related left right) {value : β}
    (member : value ∈ right) : ∃ other ∈ left, related other value :=
  mem_of_forall₂ pairs.flip member

theorem forall₂_set {values : List α} {related : α → α → Prop} {index : Nat} {old fresh : α}
    (same : ∀ value, related value value) (present : values[index]? = some old)
    (changed : related old fresh) : List.Forall₂ related values (values.set index fresh) := by
  induction values generalizing index with
  | nil => cases present
  | cons head rest ih =>
      cases index with
      | zero =>
          have here : head = old := by simpa using present
          exact .cons (here ▸ changed) (List.forall₂_same.mpr fun value _ => same value)
      | succ index => exact .cons (same head) (ih (by simpa using present))

theorem forall₂_trans {γ : Type} {first : List α} {second : List β} {third : List γ}
    {left : α → β → Prop} {right : β → γ → Prop} {both : α → γ → Prop}
    (joined : ∀ a b c, left a b → right b c → both a c) (head : List.Forall₂ left first second)
    (tail : List.Forall₂ right second third) : List.Forall₂ both first third := by
  induction head generalizing third with
  | nil =>
      cases tail
      exact .nil
  | cons related _ ih =>
      cases tail with
      | cons next rest => exact .cons (joined _ _ _ related next) (ih rest)

/-- Reading every position of a list in turn gives the list. -/
theorem filterMap_getElem?_range (values : List α) :
    (List.range values.length).filterMap (fun index => values[index]?) = values := by
  induction values using List.reverseRecOn with
  | nil => rfl
  | append_singleton rest value ih =>
      have inside : (List.range rest.length).filterMap (fun index => (rest ++ [value])[index]?) =
          (List.range rest.length).filterMap fun index => rest[index]? :=
        List.filterMap_congr fun index member =>
          List.getElem?_append_left (List.mem_range.mp member)
      rw [List.length_append, List.length_singleton, List.range_succ, List.filterMap_append, inside,
        ih]
      simp

theorem find?_zipIdx_some {values : List α} (test : α → Bool) {value : α} {index : Nat}
    (found : values.zipIdx.find? (fun entry => test entry.1) = some (value, index)) :
    values[index]? = some value ∧ test value = true := by
  have passes := List.find?_some found
  exact ⟨List.mem_zipIdx_iff_getElem?.mp (List.mem_of_find?_eq_some found), passes⟩

theorem find?_zipIdx_none {values : List α} (test : α → Bool)
    (missing : values.zipIdx.find? (fun entry => test entry.1) = none) :
    ∀ value ∈ values, test value = false := by
  intro value member
  obtain ⟨index, present⟩ := List.mem_iff_getElem?.mp member
  have unequal := List.find?_eq_none.mp missing (value, index)
    (List.mem_zipIdx_iff_getElem?.mpr present)
  simpa using unequal

theorem map_set_of_eq {values : List α} {index : Nat} {old fresh : α} {key : α → β}
    (present : values[index]? = some old) (same : key fresh = key old) :
    (values.set index fresh).map key = values.map key := by
  induction values generalizing index with
  | nil => rfl
  | cons head rest ih =>
      cases index with
      | zero =>
          cases present
          rw [List.set_cons_zero, List.map_cons, List.map_cons, same]
      | succ index =>
          rw [List.set_cons_succ, List.map_cons, List.map_cons,
            ih (by simpa using present)]

/-- With distinct keys, the entry found for a key is the only one. -/
theorem find?_of_distinct [DecidableEq β] {values : List α} {key : α → β}
    (distinct : values.Pairwise fun first second => key first ≠ key second) {value : α}
    (member : value ∈ values) :
    values.find? (fun other => key other == key value) = some value := by
  induction values with
  | nil => cases member
  | cons first rest ih =>
      obtain ⟨unlike, later⟩ := List.pairwise_cons.mp distinct
      rcases List.mem_cons.mp member with rfl | inside
      · simp
      · rw [List.find?_cons_of_neg (by simpa using unlike _ inside)]
        exact ih later inside

/-- Dropping a key from a list without repeated keys drops one entry. -/
theorem countP_drop_key [DecidableEq β] {values : List α} {key : α → β}
    (distinct : (values.map key).Nodup) {value : α} (member : value ∈ values) (p : α → Bool) :
    (values.filter fun other => key other ≠ key value).countP p + (if p value then 1 else 0) =
      values.countP p := by
  induction values with
  | nil => cases member
  | cons first rest ih =>
      rw [List.map_cons, List.nodup_cons] at distinct
      obtain ⟨fresh, later⟩ := distinct
      rw [List.countP_cons]
      by_cases same : key first = key value
      · have only : first = value := by
          rcases List.mem_cons.mp member with rfl | inside
          · rfl
          · exact absurd (List.mem_map.mpr ⟨value, inside, same.symm⟩) fresh
        have kept : rest.filter (fun other => key other ≠ key value) = rest := by
          refine List.filter_eq_self.mpr fun other inside => decide_eq_true fun equal => fresh ?_
          exact List.mem_map.mpr ⟨other, inside, equal.trans same.symm⟩
        rw [List.filter_cons_of_neg (by simpa using same), kept, only]
      · have inside : value ∈ rest := by
          rcases List.mem_cons.mp member with rfl | inside
          · exact absurd rfl same
          · exact inside
        rw [List.filter_cons_of_pos (by simpa using same), List.countP_cons, ← ih later inside]
        omega

/-- The table that writes leave, a later one replacing an earlier one of the same key. -/
def tableOf [DecidableEq β] (key : α → β) (writes : List α) : β → Option α :=
  writes.foldl (fun table write => Function.update table (key write) (some write)) fun _ => none

section Table

variable [DecidableEq β] {key : α → β} {writes : List α}

end Table

end MetalGraph
