import Mathlib.Data.Nat.Init
import Mathlib.Data.UInt

set_option autoImplicit false

/- Checked arithmetic of 64-bit words: the comparisons with the largest word that rule
out a wrap, and masks. -/
namespace MetalGraph

def sizeMax : UInt64 := 0xFFFFFFFFFFFFFFFF

@[simp] theorem toNat_sizeMax : sizeMax.toNat = 2 ^ 64 - 1 := rfl

theorem toNat_sizeMax_sub (word : UInt64) : (sizeMax - word).toNat = 2 ^ 64 - 1 - word.toNat := by
  have below := word.toNat_lt
  rw [UInt64.toNat_sub_of_le _ _ (UInt64.le_iff_toNat_le.mpr (by rw [toNat_sizeMax]; omega)),
    toNat_sizeMax]

/-- The difference to the largest word bounds a sum that does not wrap. -/
theorem not_gt_sizeMax_sub_iff {first second : UInt64} :
    ¬ first > sizeMax - second ↔ first.toNat + second.toNat < 2 ^ 64 := by
  have below := second.toNat_lt
  rw [gt_iff_lt, UInt64.lt_iff_toNat_lt, toNat_sizeMax_sub]
  omega

theorem toNat_add_of_not_gt {first second : UInt64} (bounded : ¬ first > sizeMax - second) :
    (first + second).toNat = first.toNat + second.toNat := by
  rw [UInt64.toNat_add, Nat.mod_eq_of_lt (not_gt_sizeMax_sub_iff.mp bounded)]

theorem toNat_add_of_le {first second limit : UInt64}
    (fits : first.toNat + second.toNat ≤ limit.toNat) :
    (first + second).toNat = first.toNat + second.toNat := by
  have below := limit.toNat_lt
  rw [UInt64.toNat_add, Nat.mod_eq_of_lt (by omega)]

/-- The quotient of the largest word bounds a product that does not wrap. -/
theorem not_gt_sizeMax_div_iff {first second : UInt64} (nonzero : second ≠ 0) :
    ¬ first > sizeMax / second ↔ first.toNat * second.toNat < 2 ^ 64 := by
  have positive : 0 < second.toNat :=
    Nat.pos_of_ne_zero fun zero => nonzero (UInt64.toNat_inj.mp zero)
  rw [gt_iff_lt, UInt64.lt_iff_toNat_lt, UInt64.toNat_div, toNat_sizeMax, Nat.not_lt,
    Nat.le_div_iff_mul_le positive]
  omega

theorem toNat_mul_of_not_gt {first second : UInt64} (nonzero : second ≠ 0)
    (bounded : ¬ first > sizeMax / second) :
    (first * second).toNat = first.toNat * second.toNat := by
  rw [UInt64.toNat_mul, Nat.mod_eq_of_lt ((not_gt_sizeMax_div_iff nonzero).mp bounded)]

/-- A word is the sum of its bits under a mask and its other bits. -/
theorem toNat_and_add_and_not (value mask : UInt64) :
    (value &&& mask).toNat + (value &&& ~~~mask).toNat = value.toNat := by
  have disjoint : (value.toBitVec &&& mask.toBitVec) &&&
      (value.toBitVec &&& ~~~mask.toBitVec) = 0#64 := by
    ext index
    simp only [BitVec.getElem_and, BitVec.getElem_not, BitVec.getElem_zero]
    grind
  have whole : (value.toBitVec &&& mask.toBitVec) |||
      (value.toBitVec &&& ~~~mask.toBitVec) = value.toBitVec := by
    ext index
    simp only [BitVec.getElem_and, BitVec.getElem_not, BitVec.getElem_or]
    grind
  have sum := BitVec.toNat_add_of_and_eq_zero disjoint
  rw [BitVec.add_eq_or_of_and_eq_zero _ _ disjoint, whole] at sum
  exact sum.symm

theorem toNat_and_le (value mask : UInt64) : (value &&& mask).toNat ≤ mask.toNat := by
  rw [UInt64.toNat_and]
  exact Nat.and_le_right

end MetalGraph
