import Mathlib.Algebra.Order.Group.Multiset
import MetalGraph.Base.Effect
import MetalGraph.Base.Slots

set_option autoImplicit false

/- A heap of blocks under an allocator that may refuse. An assertion lists the blocks that
are there; the rule of each operation says which block it adds to the list or takes away. -/
namespace MetalGraph

open Eff

structure Blocks (τ : Type) where
  cells : Slots τ
  oracle : Nat → Bool
  clock : Nat

namespace Blocks

variable {τ ε : Type}

/-- One answer of the allocator, or of whoever else is asked. -/
def ask : Eff (Blocks τ) ε Bool := fun heap =>
  (.ok (heap.oracle heap.clock), { heap with clock := heap.clock + 1 })

/-- A null pointer when refused. -/
def malloc (content : τ) : Eff (Blocks τ) ε (Option Nat) := do
  let granted ← ask
  if granted then
    fun heap => (.ok (some heap.cells.size), { heap with cells := heap.cells.push content })
  else pure none

def load (dangling : ε) (address : Nat) : Eff (Blocks τ) ε τ := do
  let heap ← read
  orFail (heap.cells.get? address) dangling

def store (dangling : ε) (address : Nat) (content : τ) : Eff (Blocks τ) ε Unit := do
  let _ ← load dangling address
  update fun heap => { heap with cells := heap.cells.put address content }

/-- A null pointer is ignored, and a block that is not there cannot be freed. -/
def free (dangling : ε) : Option Nat → Eff (Blocks τ) ε Unit
  | none => pure ()
  | some address => do
    let _ ← load dangling address
    update fun heap => { heap with cells := heap.cells.free address }

/-- The heap consists of these blocks, each at an address of its own. -/
structure Owns (owned : Multiset (Nat × τ)) (heap : Blocks τ) : Prop where
  distinct : (owned.map Prod.fst).Nodup
  blocks : ∀ address content,
    heap.cells.get? address = some content ↔ (address, content) ∈ owned
  total : heap.cells.total (fun _ => 1) = owned.card

/-- The allocator is at this request. -/
def Ticks (oracle : Nat → Bool) (clock : Nat) (heap : Blocks τ) : Prop :=
  heap.oracle = oracle ∧ heap.clock = clock

/-- What a pointer that may be null adds. -/
def pointed (address : Option Nat) (content : τ) : Multiset (Nat × τ) :=
  address.elim 0 fun address => {(address, content)}

@[simp] theorem pointed_none (content : τ) : pointed none content = 0 := rfl

@[simp] theorem pointed_some (address : Nat) (content : τ) :
    pointed (some address) content = {(address, content)} := rfl

theorem owns_empty (oracle : Nat → Bool) : Owns (0 : Multiset (Nat × τ)) ⟨.empty, oracle, 0⟩ where
  distinct := Multiset.nodup_zero
  blocks := by simp
  total := rfl

namespace Owns

variable {owned : Multiset (Nat × τ)} {heap : Blocks τ} {address : Nat} {content : τ}

theorem live (owns : Owns owned heap) (member : (address, content) ∈ owned) :
    heap.cells.get? address = some content := (owns.blocks address content).mpr member

/-- No other block is at the address of an owned one. -/
theorem apart (owns : Owns ((address, content) ::ₘ owned) heap) {other : τ} :
    (address, other) ∉ owned := by
  intro member
  have distinct := owns.distinct
  rw [Multiset.map_cons, Multiset.nodup_cons] at distinct
  exact distinct.1 (Multiset.mem_map.mpr ⟨(address, other), member, rfl⟩)

theorem rest_distinct (owns : Owns ((address, content) ::ₘ owned) heap) :
    (owned.map Prod.fst).Nodup := by
  have distinct := owns.distinct
  rw [Multiset.map_cons, Multiset.nodup_cons] at distinct
  exact distinct.2

theorem pushed (owns : Owns owned heap) (content : τ) :
    Owns ((heap.cells.size, content) ::ₘ owned)
      { heap with cells := heap.cells.push content } where
  distinct := by
    rw [Multiset.map_cons, Multiset.nodup_cons]
    refine ⟨?_, owns.distinct⟩
    intro member
    obtain ⟨⟨address, other⟩, listed, same⟩ := Multiset.mem_map.mp member
    have inside := Slots.lt_size_of_get? (owns.live listed)
    change address = _ at same
    omega
  blocks := by
    intro address other
    rw [Slots.get?_push, Multiset.mem_cons]
    split
    · rename_i fresh
      subst fresh
      have absent : (heap.cells.size, other) ∉ owned := by
        intro member
        have inside := Slots.lt_size_of_get? (owns.live member)
        omega
      simp [absent, eq_comm]
    · rename_i old
      simp [old, owns.blocks]
  total := by
    rw [Slots.total_push, owns.total, Multiset.card_cons]

theorem replaced (owns : Owns ((address, content) ::ₘ owned) heap) (fresh : τ) :
    Owns ((address, fresh) ::ₘ owned) { heap with cells := heap.cells.put address fresh } where
  distinct := by
    have distinct := owns.distinct
    rwa [Multiset.map_cons] at distinct ⊢
  blocks := by
    intro other value
    rw [Slots.get?_put (owns.live (Multiset.mem_cons_self _ _)), Multiset.mem_cons]
    split
    · rename_i same
      subst same
      simp [owns.apart, eq_comm]
    · rename_i away
      rw [owns.blocks, Multiset.mem_cons]
      simp [away]
  total := by
    have present := owns.live (Multiset.mem_cons_self _ _)
    have before := Slots.total_free (fun _ => 1) present
    rw [Slots.total_put_free (fun _ => 1) present, ← before, owns.total]
    simp only [Multiset.card_cons]

theorem freed (owns : Owns ((address, content) ::ₘ owned) heap) :
    Owns owned { heap with cells := heap.cells.free address } where
  distinct := owns.rest_distinct
  blocks := by
    intro other value
    rw [Slots.get?_free]
    split
    · rename_i same
      subst same
      simp [owns.apart]
    · rename_i away
      rw [owns.blocks, Multiset.mem_cons]
      simp [away]
  total := by
    have before := Slots.total_free (fun _ => 1) (owns.live (Multiset.mem_cons_self _ _))
    rw [owns.total, Multiset.card_cons] at before
    exact (Nat.add_right_cancel before).symm

end Owns

section Rules

variable {owned : Multiset (Nat × τ)} {address : Nat} {content : τ} {failed : ε → Blocks τ → Prop}

theorem ask_owns : Triple (Owns owned) (ask : Eff (Blocks τ) ε Bool) (fun _ => Owns owned) failed :=
  fun _ owns => ⟨owns.distinct, owns.blocks, owns.total⟩

theorem malloc_owns (content : τ) :
    Triple (Owns owned) (malloc content) (fun address => Owns (pointed address content + owned))
      failed := by
  apply ask_owns.bind
  intro granted
  cases granted with
  | false => exact Triple.pure fun _ owns => by simpa using owns
  | true => exact fun _ owns => by simpa using owns.pushed content

theorem load_owns (dangling : ε) (member : (address, content) ∈ owned) :
    Triple (Owns owned) (load dangling address)
      (fun value heap => value = content ∧ Owns owned heap) failed := by
  intro heap owns
  have stored := owns.live member
  simp only [load, bind_apply, read_apply, stored, orFail_some]
  exact ⟨trivial, owns⟩

/-- Reading an owned block and going on with what it holds. -/
theorem load_then {α : Type} {next : τ → Eff (Blocks τ) ε α} {after : α → Blocks τ → Prop}
    (dangling : ε) (member : (address, content) ∈ owned)
    (rest : Triple (Owns owned) (next content) after failed) :
    Triple (Owns owned) (load dangling address >>= next) after failed := by
  apply (load_owns dangling member).bind
  intro value heap known
  rw [known.1]
  exact rest heap known.2

theorem store_owns (dangling : ε) (fresh : τ) :
    Triple (Owns ((address, content) ::ₘ owned)) (store dangling address fresh)
      (fun _ => Owns ((address, fresh) ::ₘ owned)) failed :=
  load_then dangling (Multiset.mem_cons_self _ _) <| Triple.update fun _ owns => owns.replaced fresh

theorem free_owns (dangling : ε) :
    Triple (Owns ((address, content) ::ₘ owned)) (free dangling (some address))
      (fun _ => Owns owned) failed :=
  load_then dangling (Multiset.mem_cons_self _ _) <| Triple.update fun _ owns => owns.freed

/-- Freeing a pointer that may be null takes away what it points to. -/
theorem free_pointed (dangling : ε) (address : Option Nat) :
    Triple (Owns (pointed address content + owned)) (free dangling address)
      (fun _ => Owns owned) failed := by
  cases address with
  | none => exact Triple.pure fun _ owns => by simpa using owns
  | some address => exact free_owns dangling

end Rules

section Requests

variable {oracle : Nat → Bool} {clock : Nat}

/-- A pointer is given exactly where the allocator grants the request. -/
theorem malloc_ticks (content : τ) {failed : ε → Blocks τ → Prop} :
    Triple (Ticks oracle clock) (malloc content)
      (fun address heap => address.isSome = oracle clock ∧ Ticks oracle (clock + 1) heap)
      failed := by
  intro heap ticks
  rcases granted : oracle clock <;>
    simp [malloc, ask, bind_apply, Ticks, ticks.1, ticks.2, granted]

end Requests

end Blocks

end MetalGraph
