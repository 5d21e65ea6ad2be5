import Mathlib.Algebra.Order.Floor.Div
import Mathlib.Order.Bounds.Basic
import MetalGraph.Base.Words

set_option autoImplicit false

/- Greedy layouts over unbounded numbers: blocks that are placed one after the other, each
at the first multiple of its alignment that is free. -/
namespace MetalGraph

/-! ### Rounding -/

/-- The first multiple of the alignment that is not below the value. -/
def alignUp (value alignment : Nat) : Nat := alignment * (value ⌈/⌉ alignment)

section Rounding

variable {value alignment : Nat}

theorem le_alignUp (positive : 0 < alignment) : value ≤ alignUp value alignment :=
  le_smul_ceilDiv positive

theorem dvd_alignUp : alignment ∣ alignUp value alignment := Nat.dvd_mul_right _ _

theorem alignUp_le {offset : Nat} (positive : 0 < alignment) (multiple : alignment ∣ offset)
    (above : value ≤ offset) : alignUp value alignment ≤ offset := by
  obtain ⟨count, rfl⟩ := multiple
  exact Nat.mul_le_mul_left _ ((ceilDiv_le_iff_le_mul positive).mpr above)

/-- The multiples of the alignment that are not below the value. -/
def multiplesFrom (value alignment : Nat) : Set Nat :=
  {multiple | alignment ∣ multiple ∧ value ≤ multiple}

theorem alignUp_isLeast (positive : 0 < alignment) :
    IsLeast (multiplesFrom value alignment) (alignUp value alignment) :=
  ⟨⟨dvd_alignUp, le_alignUp positive⟩, fun _ member => alignUp_le positive member.1 member.2⟩

theorem alignUp_lt (positive : 0 < alignment) : alignUp value alignment < value + alignment := by
  have below := Nat.mul_div_le (value + alignment - 1) alignment
  rw [alignUp, Nat.ceilDiv_eq_add_pred_div]
  omega

/-- The first multiple is the only one in its window. -/
theorem alignUp_eq_of_window {multiple : Nat} (positive : 0 < alignment)
    (divides : alignment ∣ multiple) (above : value ≤ multiple)
    (near : multiple < value + alignment) : alignUp value alignment = multiple := by
  have first : alignUp value alignment ≤ multiple := alignUp_le positive divides above
  have reached : value ≤ alignUp value alignment := le_alignUp positive
  have apart : alignment ∣ multiple - alignUp value alignment := Nat.dvd_sub divides dvd_alignUp
  have none := Nat.eq_zero_of_dvd_of_lt apart (by omega)
  omega

theorem alignUp_add {offset : Nat} (positive : 0 < alignment) (divides : alignment ∣ offset) :
    alignUp (offset + value) alignment = offset + alignUp value alignment := by
  have above : value ≤ alignUp value alignment := le_alignUp positive
  have near : alignUp value alignment < value + alignment := alignUp_lt positive
  exact alignUp_eq_of_window positive (Nat.dvd_add divides dvd_alignUp) (by omega) (by omega)

theorem alignUp_zero : alignUp 0 alignment = 0 := by
  rw [alignUp, zero_ceilDiv, Nat.mul_zero]

theorem alignUp_eq (value alignment : Nat) :
    alignUp value alignment = value + alignment - 1 - (value + alignment - 1) % alignment := by
  have parts := Nat.div_add_mod (value + alignment - 1) alignment
  rw [alignUp, Nat.ceilDiv_eq_add_pred_div]
  omega

end Rounding

/-! ### Masks -/

/-- Clearing the bits of a mask rounds down to a power of two. -/
theorem toNat_and_not_mask {value alignment : UInt64} (power : alignment.toNat.isPowerOfTwo) :
    (value &&& ~~~(alignment - 1)).toNat = value.toNat - value.toNat % alignment.toNat := by
  obtain ⟨exponent, power⟩ := power
  have positive : 1 ≤ alignment := UInt64.le_iff_toNat_le.mpr (power ▸ Nat.one_le_two_pow)
  have mask : (alignment - 1).toNat = 2 ^ exponent - 1 := by
    rw [UInt64.toNat_sub_of_le _ _ positive, power, UInt64.toNat_one]
  have low : (value &&& (alignment - 1)).toNat = value.toNat % 2 ^ exponent := by
    rw [UInt64.toNat_and, mask, Nat.and_two_pow_sub_one_eq_mod]
  have parts := toNat_and_add_and_not value (alignment - 1)
  rw [low] at parts
  rw [power]
  omega

/-- A power of two below `2 ^ 64` divides it. -/
theorem isPowerOfTwo_dvd {alignment : UInt64} (power : alignment.toNat.isPowerOfTwo) :
    alignment.toNat ∣ 2 ^ 64 := by
  have below := alignment.toNat_lt
  obtain ⟨exponent, power⟩ := power
  rw [power] at below ⊢
  exact Nat.pow_dvd_pow 2 ((Nat.pow_lt_pow_iff_right (by omega)).mp below).le

/-! ### Layouts -/

/-- What a block asks for. -/
structure Need where
  size : Nat
  alignment : Nat
deriving DecidableEq

structure Block extends Need where
  offset : Nat
deriving DecidableEq

def Block.finish (block : Block) : Nat := block.offset + block.size

/-- Places each block at the first aligned offset from `start` on. -/
def place : Nat → List Need → List Block
  | _, [] => []
  | start, need :: rest =>
    let block : Block := ⟨need, alignUp start need.alignment⟩
    block :: place block.finish rest

/-- Where the last block ends. -/
def placedEnd : Nat → List Need → Nat
  | start, [] => start
  | start, need :: rest => placedEnd (alignUp start need.alignment + need.size) rest

/-- Room for the needs in any order: each comes with all the padding that it can take. -/
def roomFor (needs : List Need) : Nat :=
  (needs.map fun need => need.size + (need.alignment - 1)).sum

/-- The largest alignment. -/
def widest (needs : List Need) : Nat := needs.foldl (fun widest need => max widest need.alignment) 0

def Aligned (needs : List Need) : Prop := ∀ need ∈ needs, 0 < need.alignment

section Layouts

variable {start : Nat} {needs more : List Need}

theorem place_append :
    place start (needs ++ more) = place start needs ++ place (placedEnd start needs) more := by
  induction needs generalizing start with
  | nil => rfl
  | cons need rest ih => exact congrArg (_ :: ·) ih

theorem placedEnd_append :
    placedEnd start (needs ++ more) = placedEnd (placedEnd start needs) more := by
  induction needs generalizing start with
  | nil => rfl
  | cons need rest ih => exact ih

theorem le_placedEnd (aligned : Aligned needs) : start ≤ placedEnd start needs := by
  induction needs generalizing start with
  | nil => exact Nat.le_refl start
  | cons need rest ih =>
      have first : start ≤ alignUp start need.alignment := le_alignUp (aligned need (by simp))
      have later : alignUp start need.alignment + need.size ≤
          placedEnd (alignUp start need.alignment + need.size) rest :=
        ih fun other member => aligned other (by simp [member])
      rw [placedEnd]
      omega

theorem placedEnd_le_roomFor (aligned : Aligned needs) :
    placedEnd start needs ≤ start + roomFor needs := by
  induction needs generalizing start with
  | nil => exact Nat.le_add_right start 0
  | cons need rest ih =>
      have padded : alignUp start need.alignment < start + need.alignment :=
        alignUp_lt (aligned need (by simp))
      have later : placedEnd (alignUp start need.alignment + need.size) rest ≤
          alignUp start need.alignment + need.size + roomFor rest :=
        ih fun other member => aligned other (by simp [member])
      simp only [placedEnd, roomFor, List.map_cons, List.sum_cons] at later ⊢
      omega

theorem roomFor_perm (perm : needs.Perm more) : roomFor needs = roomFor more :=
  (perm.map _).sum_nat

theorem place_aligned : ∀ block ∈ place start needs, block.alignment ∣ block.offset := by
  induction needs generalizing start with
  | nil => simp [place]
  | cons need rest ih =>
      intro block member
      rcases List.mem_cons.mp member with rfl | member
      · exact dvd_alignUp
      · exact ih block member

theorem place_within (aligned : Aligned needs) : ∀ block ∈ place start needs,
    start ≤ block.offset ∧ block.finish ≤ placedEnd start needs := by
  induction needs generalizing start with
  | nil => simp [place]
  | cons need rest ih =>
      have first : start ≤ alignUp start need.alignment := le_alignUp (aligned need (by simp))
      have others : Aligned rest := fun other member => aligned other (by simp [member])
      intro block member
      rcases List.mem_cons.mp member with rfl | member
      · exact ⟨first, le_placedEnd others⟩
      · obtain ⟨after, within⟩ := ih others block member
        simp only [Block.finish] at after
        exact ⟨by omega, within⟩

/-- Each block ends before the next ones begin. -/
theorem place_disjoint (aligned : Aligned needs) :
    (place start needs).Pairwise fun first second => first.finish ≤ second.offset := by
  induction needs generalizing start with
  | nil => exact .nil
  | cons need rest ih =>
      have others : Aligned rest := fun other member => aligned other (by simp [member])
      exact List.pairwise_cons.mpr
        ⟨fun block member => (place_within others block member).1, ih others⟩

@[simp] theorem widest_nil : widest [] = 0 := rfl

theorem widest_concat (need : Need) :
    widest (needs ++ [need]) = max (widest needs) need.alignment := by
  simp only [widest, List.foldl_append, List.foldl_cons, List.foldl_nil]

theorem widest_le_iff {bound : Nat} :
    widest needs ≤ bound ↔ ∀ need ∈ needs, need.alignment ≤ bound := by
  induction needs using List.reverseRecOn with
  | nil => simp
  | append_singleton rest need ih =>
      rw [widest_concat, max_le_iff, ih]
      simp only [List.mem_append, List.mem_singleton, or_imp, forall_and, forall_eq]

end Layouts

/-! ### Exchanges -/

section Exchanges

variable {α β : Type} {step : β → α → β} {start : β}

theorem foldl_move_front {before after : List α} {item : α}
    (commutes : ∀ other ∈ before, ∀ start,
      step (step start item) other = step (step start other) item) :
    (before ++ item :: after).foldl step start =
      (before ++ after).foldl step (step start item) := by
  induction before generalizing start with
  | nil => rfl
  | cons other rest ih =>
      have later : (rest ++ item :: after).foldl step (step start other) =
          (rest ++ after).foldl step (step (step start other) item) := ih fun another member =>
        commutes another (List.mem_cons_of_mem _ member)
      simp only [List.cons_append, List.foldl_cons]
      rw [later, commutes other (by simp)]

/-- Two sequences of the same items do the same if the items that they take in opposite
orders commute. -/
theorem foldl_eq_of_inversions {first second : List α} (perm : first.Perm second)
    (commutes : ∀ item other, [item, other].Sublist first → [other, item].Sublist second →
      ∀ start, step (step start item) other = step (step start other) item) :
    first.foldl step start = second.foldl step start := by
  induction first generalizing second start with
  | nil => rw [perm.nil_eq]
  | cons item rest ih =>
      obtain ⟨before, after, rfl⟩ := List.append_of_mem (perm.mem_iff.mp List.mem_cons_self)
      have others : rest.Perm (before ++ after) := (perm.trans List.perm_middle).cons_inv
      have fewer : (before ++ after).Sublist (before ++ item :: after) :=
        List.Sublist.append_left (List.sublist_cons_self item after) before
      rw [foldl_move_front, List.foldl_cons]
      · apply ih others
        intro item other listed listed'
        exact commutes item other (listed.cons _) (listed'.trans fewer)
      · intro other member
        have listed : other ∈ rest := others.mem_iff.mpr (List.mem_append_left _ member)
        apply commutes item other
        · exact List.Sublist.cons_cons item (List.singleton_sublist.mpr listed)
        · exact (List.singleton_sublist.mpr member).append
            (List.Sublist.cons_cons item (List.nil_sublist after))

/-- Two blocks that end at the same place in either order from zero, where the alignments
divide each other, do so from everywhere. -/
theorem placedEnd_swap {first second : Need} (positive : 0 < first.alignment)
    (positive' : 0 < second.alignment) (divides : first.alignment ∣ second.alignment)
    (same : placedEnd 0 [first, second] = placedEnd 0 [second, first]) (start : Nat) :
    placedEnd start [first, second] = placedEnd start [second, first] := by
  simp only [placedEnd, alignUp_zero, Nat.zero_add] at same ⊢
  have wide : second.alignment ∣ alignUp start second.alignment := dvd_alignUp
  have narrow : first.alignment ∣ alignUp start first.alignment := dvd_alignUp
  have inner : alignUp (alignUp start second.alignment + second.size) first.alignment =
      alignUp start second.alignment + alignUp second.size first.alignment :=
    alignUp_add positive (divides.trans wide)
  -- the padding after the first block is smaller than its alignment, so that the block can
  -- move up to the coarser multiple and leave the end of the second one where it is
  have outer : alignUp (alignUp start first.alignment + first.size) second.alignment =
      alignUp start second.alignment + alignUp first.size second.alignment := by
    have padding : alignUp second.size first.alignment < second.size + first.alignment :=
      alignUp_lt positive
    have above : first.size ≤ alignUp first.size second.alignment := le_alignUp positive'
    have reached : start ≤ alignUp start first.alignment := le_alignUp positive
    have near : alignUp start second.alignment < start + second.alignment := alignUp_lt positive'
    have before : alignUp start first.alignment ≤ alignUp start second.alignment :=
      alignUp_le positive (divides.trans wide) (le_alignUp positive')
    have gap : first.alignment ∣ alignUp start first.alignment + second.alignment -
        alignUp start second.alignment :=
      Nat.dvd_sub (Nat.dvd_add narrow divides) (divides.trans wide)
    have room := Nat.le_of_dvd (by omega) gap
    exact alignUp_eq_of_window positive' (Nat.dvd_add wide dvd_alignUp) (by omega) (by omega)
  rw [inner, outer]
  omega

end Exchanges

end MetalGraph
