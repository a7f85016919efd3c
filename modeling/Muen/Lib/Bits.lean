import Mathlib.Tactic

/-!
# Bit fields

A field of a machine word is selected by a mask of consecutive ones. On numbers this is division
and remainder by powers of two.
-/

namespace Muen.Lib

/-- The field of `w` bits from bit `s` on, left in its place. -/
lemma and_mask_eq (n w s : Nat) : n &&& ((2 ^ w - 1) <<< s) = n / 2 ^ s % 2 ^ w * 2 ^ s := by
  apply Nat.eq_of_testBit_eq
  intro i
  rw [Nat.testBit_and, Nat.testBit_shiftLeft, Nat.testBit_two_pow_sub_one, Nat.testBit_mul_two_pow]
  by_cases hi : s ≤ i
  · rw [Nat.testBit_mod_two_pow, Nat.testBit_div_two_pow, Nat.sub_add_cancel hi]
    cases n.testBit i <;> simp [hi]
  · simp [hi]

lemma bitVec_and_mask_toNat {v : Nat} (x mask : BitVec v) (w s : Nat) (hmask : mask.toNat = (2 ^ w - 1) <<< s) :
    (x &&& mask).toNat = x.toNat / 2 ^ s % 2 ^ w * 2 ^ s := by
  rw [BitVec.toNat_and, hmask, and_mask_eq]

end Muen.Lib
