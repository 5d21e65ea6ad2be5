import Mathlib.Algebra.Order.Group.Multiset
import Mathlib.Data.Multiset.Count
import MetalGraph.Base.Slots

set_option autoImplicit false

/- Objects with 32-bit reference counts, and the law that each count is the number
of references held to the object. -/
namespace MetalGraph

structure Counted (α : Type) where
  count : UInt32
  payload : α
deriving DecidableEq, Repr

/-- `dangling` and `overflowed` only record what has happened: an object was
retained or released after it had been freed, or a count reached `2 ^ 32`. -/
structure RefHeap (α : Type) where
  cells : Slots (Counted α)
  dangling : Bool
  overflowed : Bool
deriving DecidableEq, Repr

namespace RefHeap

variable {α : Type}

def empty : RefHeap α := ⟨.empty, false, false⟩

def alloc (heap : RefHeap α) (payload : α) : RefHeap α :=
  { heap with cells := heap.cells.push ⟨1, payload⟩ }

def retain (heap : RefHeap α) (address : Nat) : RefHeap α :=
  match heap.cells.get? address with
  | none => { heap with dangling := true }
  | some cell =>
    { heap with
      cells := heap.cells.put address { cell with count := cell.count + 1 }
      overflowed := heap.overflowed || cell.count == 0xFFFFFFFF }

def release (heap : RefHeap α) (address : Nat) : RefHeap α :=
  match heap.cells.get? address with
  | none => { heap with dangling := true }
  | some cell =>
    if cell.count > 1 then
      { heap with cells := heap.cells.put address { cell with count := cell.count - 1 } }
    else { heap with cells := heap.cells.free address }

/-- What a release at this address would free. -/
def lastReference (heap : RefHeap α) (address : Nat) : Option α :=
  match heap.cells.get? address with
  | none => none
  | some cell => if cell.count > 1 then none else some cell.payload

def countAt (heap : RefHeap α) (address : Nat) : Nat :=
  (heap.cells.get? address).elim 0 fun cell => cell.count.toNat

/-- Every count is the number of references held, and nothing freed is still held. -/
structure Balanced (heap : RefHeap α) (held : Multiset Nat) : Prop where
  sound : heap.dangling = false
  counts : ∀ address, heap.countAt address = held.count address
  positive : ∀ address cell, heap.cells.get? address = some cell → 0 < cell.count.toNat

theorem retain_overflowed (heap : RefHeap α) (address : Nat) (wrapped : heap.overflowed = true) :
    (heap.retain address).overflowed = true := by
  unfold retain
  split <;> simp [wrapped]

@[simp] theorem release_overflowed (heap : RefHeap α) (address : Nat) :
    (heap.release address).overflowed = heap.overflowed := by
  unfold release
  split
  · rfl
  · split <;> rfl

theorem countAt_of_live {heap : RefHeap α} {address : Nat} {cell : Counted α}
    (live : heap.cells.get? address = some cell) : heap.countAt address = cell.count.toNat := by
  simp only [countAt, live, Option.elim_some]

theorem countAt_of_dead {heap : RefHeap α} {address : Nat}
    (dead : heap.cells.get? address = none) : heap.countAt address = 0 := by
  simp only [countAt, dead, Option.elim_none]

theorem empty_balanced : Balanced (empty : RefHeap α) 0 where
  sound := rfl
  counts := fun address => by simp [countAt, empty]
  positive := fun address cell live => by simp [empty] at live

namespace Balanced

variable {heap : RefHeap α} {held : Multiset Nat} {address : Nat}

theorem live_of_mem (balanced : Balanced heap held) (member : address ∈ held) :
    ∃ cell, heap.cells.get? address = some cell := by
  rcases lookup : heap.cells.get? address with _ | cell
  · have zero := balanced.counts address
    rw [countAt_of_dead lookup] at zero
    exact absurd (Multiset.count_pos.mpr member) (by omega)
  · exact ⟨cell, rfl⟩

theorem mem_of_live (balanced : Balanced heap held) {cell : Counted α}
    (live : heap.cells.get? address = some cell) : address ∈ held := by
  rw [← Multiset.count_pos, ← balanced.counts, countAt_of_live live]
  exact balanced.positive address cell live

theorem alloc (balanced : Balanced heap held) (payload : α) :
    Balanced (heap.alloc payload) (heap.cells.size ::ₘ held) where
  sound := balanced.sound
  counts := by
    intro address
    have old := balanced.counts address
    simp only [countAt, RefHeap.alloc, Slots.get?_push] at old ⊢
    split
    · rename_i fresh
      subst fresh
      simp only [Slots.get?_size, Option.elim_none] at old
      simp only [Option.elim_some, Multiset.count_cons_self, ← old]
      rfl
    · rename_i other
      rw [Multiset.count_cons_of_ne other]
      exact old
  positive := by
    intro address cell live
    simp only [RefHeap.alloc, Slots.get?_push] at live
    split at live
    · cases live
      exact Nat.zero_lt_one
    · exact balanced.positive address cell live

theorem retain (balanced : Balanced heap held) (member : address ∈ held)
    (room : (heap.retain address).overflowed = false) :
    Balanced (heap.retain address) (address ::ₘ held) := by
  obtain ⟨cell, live⟩ := balanced.live_of_mem member
  have small : cell.count.toNat + 1 < 2 ^ 32 := by
    simp only [RefHeap.retain, live, Bool.or_eq_false_iff, beq_eq_false_iff_ne, ne_eq] at room
    have bound := cell.count.toNat_lt
    have distinct : cell.count.toNat ≠ 0xFFFFFFFF := fun same =>
      room.2 (UInt32.toNat_inj.mp same)
    omega
  have grown : (cell.count + 1).toNat = cell.count.toNat + 1 := by
    rw [UInt32.toNat_add]
    exact Nat.mod_eq_of_lt small
  have cells : (heap.retain address).cells =
      heap.cells.put address { cell with count := cell.count + 1 } := by
    simp only [RefHeap.retain, live]
  refine ⟨?_, ?_, ?_⟩
  · simp only [RefHeap.retain, live]
    exact balanced.sound
  · intro other
    have old := balanced.counts other
    simp only [countAt, cells, Slots.get?_put live] at old ⊢
    split
    · rename_i same
      subst same
      simp only [live, Option.elim_some] at old
      simp only [Option.elim_some, Multiset.count_cons_self, grown, old]
    · rename_i different
      rw [Multiset.count_cons_of_ne different]
      exact old
  · intro other found present
    rw [cells, Slots.get?_put live] at present
    split at present
    · cases present
      simp only [grown]
      omega
    · exact balanced.positive other found present

theorem release (balanced : Balanced heap (address ::ₘ held)) :
    Balanced (heap.release address) held := by
  obtain ⟨cell, live⟩ := balanced.live_of_mem (Multiset.mem_cons_self address held)
  have here := balanced.counts address
  rw [countAt_of_live live, Multiset.count_cons_self] at here
  by_cases several : cell.count > 1
  · have many : 1 < cell.count.toNat := UInt32.lt_iff_toNat_lt.mp several
    have fewer : (cell.count - 1).toNat = cell.count.toNat - 1 := by
      rw [UInt32.toNat_sub_of_le _ _ (UInt32.le_iff_toNat_le.mpr (by simpa using many.le))]
      rfl
    have cells : (heap.release address).cells =
        heap.cells.put address { cell with count := cell.count - 1 } := by
      simp only [RefHeap.release, live, several, ↓reduceIte]
    refine ⟨?_, ?_, ?_⟩
    · simp only [RefHeap.release, live, several, ↓reduceIte]
      exact balanced.sound
    · intro other
      have old := balanced.counts other
      simp only [countAt, cells, Slots.get?_put live] at old ⊢
      split
      · rename_i same
        subst same
        simp only [Option.elim_some, fewer]
        omega
      · rename_i different
        rw [old, Multiset.count_cons_of_ne different]
    · intro other found present
      rw [cells, Slots.get?_put live] at present
      split at present
      · cases present
        simp only [fewer]
        omega
      · exact balanced.positive other found present
  · have single : ¬ 1 < cell.count.toNat := fun more =>
      several (UInt32.lt_iff_toNat_lt.mpr more)
    have cells : (heap.release address).cells = heap.cells.free address := by
      simp only [RefHeap.release, live, several, ↓reduceIte]
    refine ⟨?_, ?_, ?_⟩
    · simp only [RefHeap.release, live, several, ↓reduceIte]
      exact balanced.sound
    · intro other
      have old := balanced.counts other
      simp only [countAt, cells, Slots.get?_free] at old ⊢
      split
      · rename_i same
        subst same
        simp only [Option.elim_none]
        omega
      · rename_i different
        rw [old, Multiset.count_cons_of_ne different]
    · intro other found present
      rw [cells, Slots.get?_free] at present
      split at present
      · cases present
      · exact balanced.positive other found present

end Balanced

/-! ### What a heap keeps -/

/-- The heap has grown, and what is still at an old address is what was there before. -/
structure Keeps (before after : RefHeap α) : Prop where
  size : before.cells.size ≤ after.cells.size
  payloads : ∀ address cell, address < before.cells.size →
    after.cells.get? address = some cell →
      ∃ old, before.cells.get? address = some old ∧ old.payload = cell.payload

namespace Keeps

variable {heap before middle after : RefHeap α}

theorem refl (heap : RefHeap α) : Keeps heap heap :=
  ⟨le_rfl, fun _ cell _ live => ⟨cell, live, rfl⟩⟩

theorem trans (first : Keeps before middle) (last : Keeps middle after) : Keeps before after where
  size := first.size.trans last.size
  payloads := by
    intro address cell old live
    obtain ⟨between, present, same⟩ := last.payloads address cell (old.trans_le first.size) live
    obtain ⟨found, there, equal⟩ := first.payloads address between old present
    exact ⟨found, there, equal.trans same⟩

theorem alloc (payload : α) : Keeps heap (heap.alloc payload) where
  size := by simp [RefHeap.alloc]
  payloads := by
    intro address cell old live
    simp only [RefHeap.alloc, Slots.get?_push, old.ne, ↓reduceIte] at live
    exact ⟨cell, live, rfl⟩

/-- A count may change, the object it counts does not. -/
theorem recounted {address : Nat} {cell : Counted α} {count : UInt32}
    (live : heap.cells.get? address = some cell)
    (cells : after.cells = heap.cells.put address { cell with count := count }) :
    Keeps heap after where
  size := by rw [cells, Slots.size_put]
  payloads := by
    intro other found _ present
    rw [cells, Slots.get?_put live] at present
    split at present
    · rename_i same
      cases present
      exact ⟨cell, same ▸ live, rfl⟩
    · exact ⟨found, present, rfl⟩

theorem retain (heap : RefHeap α) (address : Nat) : Keeps heap (heap.retain address) := by
  unfold RefHeap.retain
  split
  · exact ⟨le_rfl, (refl heap).payloads⟩
  · rename_i cell live
    exact recounted live rfl

theorem release (heap : RefHeap α) (address : Nat) : Keeps heap (heap.release address) := by
  unfold RefHeap.release
  split
  · exact ⟨le_rfl, (refl heap).payloads⟩
  · rename_i cell live
    split
    · exact recounted live rfl
    · constructor
      · simp
      · intro other found _ present
        rw [Slots.get?_free] at present
        split at present
        · cases present
        · exact ⟨found, present, rfl⟩

end Keeps

end RefHeap

/-! ### References in lists -/

theorem coe_pair_add {α : Type} (first second : α) (held : Multiset α) :
    (([first, second] : List α) : Multiset α) + held = first ::ₘ second ::ₘ held := by
  rw [← Multiset.cons_coe, ← Multiset.cons_coe, Multiset.coe_nil, Multiset.cons_add,
    Multiset.cons_add, zero_add]

/-- Replacing one holder of a list exchanges its references. -/
theorem coe_flatMap_set {α β : Type} {values : List α} {index : Nat} {old : α}
    (references : α → List β) (present : values[index]? = some old) (fresh : α) :
    (((values.set index fresh).flatMap references : List β) : Multiset β) + references old =
      (values.flatMap references : List β) + references fresh := by
  induction values generalizing index with
  | nil => cases present
  | cons head rest ih =>
      cases index with
      | zero =>
          cases present
          simp only [List.set_cons_zero, List.flatMap_cons, ← Multiset.coe_add]
          ac_rfl
      | succ index =>
          simp only [List.set_cons_succ, List.flatMap_cons, ← Multiset.coe_add]
          rw [add_assoc, ih present, add_assoc]

end MetalGraph
