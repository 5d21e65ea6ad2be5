import Mathlib.Algebra.BigOperators.Group.List.Basic

set_option autoImplicit false

/- Handle tables. A handle is a position; freeing a position leaves it empty for
good, so a handle never comes to name a second object. -/
namespace MetalGraph

structure Slots (α : Type) where
  cells : List (Option α)
deriving DecidableEq, Repr

namespace Slots

variable {α M : Type}

def empty : Slots α := ⟨[]⟩

def size (slots : Slots α) : Nat := slots.cells.length

def get? (slots : Slots α) (index : Nat) : Option α := slots.cells[index]?.join

def put (slots : Slots α) (index : Nat) (value : α) : Slots α :=
  ⟨slots.cells.set index (some value)⟩

def free (slots : Slots α) (index : Nat) : Slots α := ⟨slots.cells.set index none⟩

def push (slots : Slots α) (value : α) : Slots α := ⟨slots.cells ++ [some value]⟩

/-- Changes the object at a position, if there is one. -/
def adjust (slots : Slots α) (index : Nat) (change : α → α) : Slots α :=
  ⟨slots.cells.modify index (Option.map change)⟩

def map {β : Type} (view : α → β) (slots : Slots α) : Slots β := ⟨slots.cells.map (Option.map view)⟩

/-- The sum of a measure over the occupied positions. -/
def total [AddCommMonoid M] (measure : α → M) (slots : Slots α) : M :=
  (slots.cells.map fun cell => cell.elim 0 measure).sum

@[simp] theorem get?_empty (index : Nat) : (empty : Slots α).get? index = none := rfl

@[simp] theorem size_put (slots : Slots α) (index : Nat) (value : α) :
    (slots.put index value).size = slots.size := by
  simp only [put, size, List.length_set]

@[simp] theorem size_free (slots : Slots α) (index : Nat) :
    (slots.free index).size = slots.size := by
  simp only [free, size, List.length_set]

@[simp] theorem size_push (slots : Slots α) (value : α) :
    (slots.push value).size = slots.size + 1 := by
  simp only [push, size, List.length_append, List.length_singleton]

theorem get?_eq_some {slots : Slots α} {index : Nat} {value : α} :
    slots.get? index = some value ↔ slots.cells[index]? = some (some value) := by
  simp only [get?, Option.join_eq_some_iff]

theorem lt_size_of_get? {slots : Slots α} {index : Nat} {value : α}
    (occupied : slots.get? index = some value) : index < slots.size := by
  rw [get?_eq_some] at occupied
  exact (List.getElem?_eq_some_iff.mp occupied).choose

@[simp] theorem get?_size (slots : Slots α) : slots.get? slots.size = none := by
  simp [get?, size]

theorem get?_push (slots : Slots α) (value : α) (index : Nat) :
    (slots.push value).get? index =
      if index = slots.size then some value else slots.get? index := by
  unfold get? push size
  split
  · rename_i last
    simp [last]
  · rename_i other
    rcases Nat.lt_or_ge index slots.cells.length with inside | outside
    · rw [List.getElem?_append_left inside]
    · have beyond : slots.cells.length < index := by omega
      simp [List.getElem?_eq_none outside, List.getElem?_append_right outside,
        show index - slots.cells.length ≠ 0 by omega]

theorem get?_put {slots : Slots α} {index : Nat} {old : α} (occupied : slots.get? index = some old)
    (value : α) (other : Nat) :
    (slots.put index value).get? other =
      if other = index then some value else slots.get? other := by
  have inside := lt_size_of_get? occupied
  unfold size at inside
  unfold get? put
  rw [List.getElem?_set]
  by_cases same : index = other
  · subst same
    simp [inside]
  · simp [same, Ne.symm same]

theorem get?_free (slots : Slots α) (index other : Nat) :
    (slots.free index).get? other = if other = index then none else slots.get? other := by
  unfold get? free
  rw [List.getElem?_set]
  by_cases same : index = other
  · subst same
    by_cases inside : index < slots.cells.length <;> simp [inside]
  · simp [same, Ne.symm same]

theorem get?_adjust (slots : Slots α) (index : Nat) (change : α → α) (other : Nat) :
    (slots.adjust index change).get? other =
      if other = index then (slots.get? other).map change else slots.get? other := by
  unfold get? adjust
  rw [List.getElem?_modify]
  by_cases same : index = other
  · subst same
    rcases slots.cells[index]? with _ | _ | value <;> simp
  · rw [if_neg (Ne.symm same)]
    rcases slots.cells[other]? with _ | cell <;> simp [same]

@[simp] theorem size_adjust (slots : Slots α) (index : Nat) (change : α → α) :
    (slots.adjust index change).size = slots.size := by
  simp only [adjust, size, List.length_modify]

section Occupied

variable {slots : Slots α} {index other : Nat}

theorem isSome_push (value : α) :
    ((slots.push value).get? other).isSome = true ↔
      (slots.get? other).isSome = true ∨ slots.size = other := by
  rw [get?_push]
  split
  · rename_i last
    simp [last]
  · rename_i old
    simp [Ne.symm old]

theorem isSome_put {old : α} (occupied : slots.get? index = some old) (value : α) :
    ((slots.put index value).get? other).isSome = true ↔ (slots.get? other).isSome = true := by
  rw [get?_put occupied]
  split
  · rename_i same
    simp [same, occupied]
  · rfl

theorem isSome_free :
    ((slots.free index).get? other).isSome = true ↔
      (slots.get? other).isSome = true ∧ index ≠ other := by
  rw [get?_free]
  split
  · rename_i same
    simp [same]
  · rename_i away
    simp [Ne.symm away]

end Occupied

/-- A table is its size and what its positions hold. -/
theorem ext_get? {first second : Slots α} (sizes : first.size = second.size)
    (same : ∀ index, first.get? index = second.get? index) : first = second := by
  obtain ⟨cells⟩ := first
  obtain ⟨cells'⟩ := second
  congr 1
  apply List.ext_getElem sizes
  intro index here there
  have stored := same index
  simpa [get?, List.getElem?_eq_getElem here, List.getElem?_eq_getElem there] using stored

/-- Writing back what was read changes nothing. -/
theorem put_same {slots : Slots α} {index : Nat} {value : α}
    (occupied : slots.get? index = some value) : slots.put index value = slots := by
  have stored := get?_eq_some.mp occupied
  have inside := (List.getElem?_eq_some_iff.mp stored).choose
  have same : slots.cells[index] = some value := (List.getElem?_eq_some_iff.mp stored).choose_spec
  unfold put
  rw [← same, List.set_getElem_self]

section Map

variable {β : Type} (view : α → β)

@[simp] theorem map_empty : (empty : Slots α).map view = empty := rfl

theorem get?_map (slots : Slots α) (index : Nat) :
    (slots.map view).get? index = (slots.get? index).map view := by
  unfold map get?
  rw [List.getElem?_map]
  rcases slots.cells[index]? with _ | _ | value <;> rfl

@[simp] theorem map_push (slots : Slots α) (value : α) :
    (slots.push value).map view = (slots.map view).push (view value) := by
  simp [push, map]

@[simp] theorem map_free (slots : Slots α) (index : Nat) :
    (slots.free index).map view = (slots.map view).free index := by
  simp [free, map, List.map_set]

@[simp] theorem size_map (slots : Slots α) : (slots.map view).size = slots.size := by
  simp [map, size]

theorem map_put (slots : Slots α) (index : Nat) (value : α) :
    (slots.put index value).map view = (slots.map view).put index (view value) := by
  simp [put, map, List.map_set]

/-- A write that the view does not see. -/
theorem map_put_same {slots : Slots α} {index : Nat} {old value : α}
    (occupied : slots.get? index = some old) (same : view value = view old) :
    (slots.put index value).map view = slots.map view := by
  rw [map_put, same]
  apply put_same
  rw [get?_map, occupied]
  rfl

/-- A write that the view sees as a change. -/
theorem map_put_adjust {slots : Slots α} {index : Nat} {old value : α}
    (occupied : slots.get? index = some old) (change : β → β)
    (changed : view value = change (view old)) :
    (slots.put index value).map view = (slots.map view).adjust index change := by
  rw [map_put]
  have stored := get?_eq_some.mp ((get?_map view slots index).trans (by rw [occupied]; rfl))
  unfold put adjust
  rw [List.modify_eq_set_getElem?, stored, changed]
  rfl

end Map

section Total

variable [AddCommMonoid M] (measure : α → M)

theorem total_push (slots : Slots α) (value : α) :
    (slots.push value).total measure = slots.total measure + measure value := by
  simp [total, push]

private theorem sum_set (cells : List (Option α)) (index : Nat) (old fresh : Option α)
    (present : cells[index]? = some old) :
    ((cells.set index fresh).map fun cell => cell.elim 0 measure).sum + old.elim 0 measure =
      (cells.map fun cell => cell.elim 0 measure).sum + fresh.elim 0 measure := by
  induction cells generalizing index with
  | nil => simp at present
  | cons cell rest ih =>
      cases index with
      | zero =>
          cases Option.some.inj (by simpa using present : some cell = some old)
          simp only [List.set_cons_zero, List.map_cons, List.sum_cons]
          ac_rfl
      | succ index =>
          simp only [List.set_cons_succ, List.map_cons, List.sum_cons]
          rw [add_assoc, ih index (by simpa using present), add_assoc]

theorem total_free {slots : Slots α} {index : Nat} {old : α}
    (occupied : slots.get? index = some old) :
    slots.total measure = (slots.free index).total measure + measure old := by
  have emptied := sum_set measure slots.cells index (some old) none (get?_eq_some.mp occupied)
  rw [Option.elim_none, add_zero] at emptied
  exact emptied.symm

/-- What a position contributes is exchanged when it is written. -/
theorem total_put_free {slots : Slots α} {index : Nat} {old : α}
    (occupied : slots.get? index = some old) (value : α) :
    (slots.put index value).total measure = (slots.free index).total measure + measure value := by
  have written : (slots.put index value).get? index = some value := by
    rw [get?_put occupied, if_pos rfl]
  rw [total_free measure written]
  simp only [put, free, List.set_set]

theorem total_of_measures {first second : Slots α} (sizes : first.size = second.size)
    (same : ∀ index, (first.get? index).elim 0 measure = (second.get? index).elim 0 measure) :
    first.total measure = second.total measure := by
  have inside : ∀ (slots : Slots α) (index : Nat) (bound : index < slots.cells.length),
      (slots.get? index).elim 0 measure = (slots.cells[index]).elim 0 measure := by
    intro slots index bound
    simp only [get?, List.getElem?_eq_getElem bound, Option.join_some]
  unfold total
  congr 1
  apply List.ext_getElem (by simpa [size] using sizes)
  intro index here there
  rw [List.length_map] at here there
  rw [List.getElem_map, List.getElem_map, ← inside first index here, ← inside second index there]
  exact same index

theorem total_of_none {slots : Slots α} (vacant : ∀ index, slots.get? index = none) :
    slots.total measure = 0 := by
  apply List.sum_eq_zero
  intro value listed
  obtain ⟨cell, member, rfl⟩ := List.mem_map.mp listed
  obtain ⟨index, bound, rfl⟩ := List.mem_iff_getElem.mp member
  have absent := vacant index
  rw [get?, List.getElem?_eq_getElem bound, Option.join_some] at absent
  rw [absent]
  rfl

end Total

end Slots

end MetalGraph
