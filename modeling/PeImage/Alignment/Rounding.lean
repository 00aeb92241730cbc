/-
Rounding in words, as arithmetic of natural numbers.

* `isPowerOfTwoOrZero_iff`: the test for an alignment means what it says.
* `toNat_alignDown`, `toNat_alignUp`: for a power of two, clearing the low bits of a word is a
  division followed by a multiplication, and the only loss is the wrap of the sum in front of it.
-/
import Mathlib
import PeImage.Alignment

namespace PeImage

/-- One less than a power of two, as a word. -/
theorem toNat_pred {alignment : UInt32} {k : Nat} (h : alignment.toNat = 2 ^ k) :
    (alignment - 1).toNat = 2 ^ k - 1 := by
  rw [UInt32.toNat_sub_of_le, h]
  · rfl
  · show 1 ≤ alignment.toNat
    rw [h]
    exact Nat.one_le_two_pow

/-- Clearing the low bits of a word rounds it down. -/
theorem toNat_alignDown {alignment : UInt32} {k : Nat} (h : alignment.toNat = 2 ^ k)
    (value : UInt32) : (alignDown value alignment).toNat = value.toNat / 2 ^ k * 2 ^ k := by
  have hlt : 2 ^ k < 2 ^ 32 := h ▸ alignment.toNat_lt
  have hpos : 0 < 2 ^ k := Nat.two_pow_pos k
  rw [alignDown, UInt32.toNat_and, UInt32.toNat_not, toNat_pred h]
  refine Nat.eq_of_testBit_eq fun i => ?_
  rw [Nat.testBit_and, show UInt32.size - 1 - (2 ^ k - 1) = 2 ^ 32 - ((2 ^ k - 1) + 1) by
      rw [show UInt32.size = 2 ^ 32 from rfl]
      omega,
    Nat.testBit_two_pow_sub_succ (by omega), Nat.testBit_two_pow_sub_one,
    Nat.testBit_mul_two_pow, Nat.testBit_div_two_pow]
  by_cases hki : k ≤ i
  · rw [Nat.sub_add_cancel hki]
    by_cases hi : i < 32
    · simp [hki, hi, Nat.not_lt.2 hki]
    · have hz : value.toNat.testBit i = false :=
        Nat.testBit_lt_two_pow (Nat.lt_of_lt_of_le value.toNat_lt
          (Nat.pow_le_pow_right (by decide) (Nat.le_of_not_lt hi)))
      simp [hz]
  · simp [hki, Nat.lt_of_not_le hki]

/-- Rounding up adds all but one of the alignment, which may wrap, and rounds down. -/
theorem toNat_alignUp {alignment : UInt32} {k : Nat} (h : alignment.toNat = 2 ^ k)
    (value : UInt32) :
    (alignUp value alignment).toNat = (value.toNat + (2 ^ k - 1)) % 2 ^ 32 / 2 ^ k * 2 ^ k := by
  show (alignDown (value + (alignment - 1)) alignment).toNat = _
  rw [toNat_alignDown h, UInt32.toNat_add, toNat_pred h]

/-- The test for a power of two means what it says, but for zero. -/
theorem isPowerOfTwoOrZero_iff (value : UInt32) :
    isPowerOfTwoOrZero value = true ↔ value = 0 ∨ ∃ k, value.toNat = 2 ^ k := by
  rw [isPowerOfTwoOrZero, beq_iff_eq]
  by_cases hz : value = 0
  · simp [hz]
  · have hpos : 1 ≤ value.toNat :=
      Nat.pos_of_ne_zero fun h => hz (UInt32.toNat_inj.1 h)
    have hand : (value &&& (value - 1)).toNat = value.toNat &&& (value.toNat - 1) := by
      rw [UInt32.toNat_and, UInt32.toNat_sub_of_le value 1 (UInt32.le_iff_toNat_le.2 hpos)]
      rfl
    have hiff : value &&& (value - 1) = 0 ↔ value.toNat &&& (value.toNat - 1) = 0 := by
      rw [← UInt32.toNat_inj, hand]
      rfl
    rw [hiff]
    simp only [hz, false_or]
    constructor
    · intro h
      refine Classical.byContradiction fun hn => ?_
      have hbit := Nat.and_sub_one_testBit_log2 (Nat.ne_of_gt hpos) hn
      rw [h, Nat.zero_testBit] at hbit
      exact Bool.false_ne_true hbit
    · rintro ⟨k, hk⟩
      rw [hk, Nat.and_two_pow_sub_one_eq_mod, Nat.mod_self]

end PeImage
