import Mathlib.Algebra.GroupWithZero.Nat

/-!
# Literals of bounded numbers

The bounds of the numbers that are written as literals are not zero. Each bound has an instance of its own, so that
a literal has no proof inside.
-/

namespace Muen.Lib

instance neZero_one : NeZero 1 := ⟨Nat.one_ne_zero⟩

instance neZero_two : NeZero 2 := ⟨Nat.succ_ne_zero 1⟩

instance neZero_three : NeZero 3 := ⟨Nat.succ_ne_zero 2⟩

instance neZero_four : NeZero 4 := ⟨Nat.succ_ne_zero 3⟩

instance neZero_six : NeZero 6 := ⟨Nat.succ_ne_zero 5⟩

instance neZero_seventeen : NeZero 17 := ⟨Nat.succ_ne_zero 16⟩

instance neZero_thirtyTwo : NeZero 32 := ⟨Nat.succ_ne_zero 31⟩

instance neZero_sixtyFour : NeZero 64 := ⟨Nat.succ_ne_zero 63⟩

instance neZero_twoHundredFiftySeven : NeZero 257 := ⟨Nat.succ_ne_zero 256⟩

instance neZero_fiveHundredTwelve : NeZero 512 := ⟨Nat.succ_ne_zero 511⟩

end Muen.Lib
