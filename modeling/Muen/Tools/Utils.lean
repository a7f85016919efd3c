import Mathlib.Data.BitVec

/-!
# Mutools.Utils

The 64-bit numbers of the tools, single bits of them, and their hexadecimal image in error messages.
-/

namespace Muen.Tools

/-- `Interfaces.Unsigned_64`. -/
abbrev Unsigned64 := BitVec 64

def hexDigits : List Char :=
  ['0', '1', '2', '3', '4', '5', '6', '7', '8', '9', 'a', 'b', 'c', 'd', 'e', 'f']

/-- The digit loop of `To_Hex` with `Normalize`: digits are written from the right in groups
of four. A 64-bit number has at most sixteen of them. -/
def toHexLoop : Nat → Nat → Nat → List Char → List Char
  | 0, _, _, numStr => numStr
  | fuel + 1, tmp, digit, numStr =>
    let numStr := hexDigits.getD (tmp % 16) '0' :: numStr
    let tmp := tmp / 16
    let digit := digit + 1
    if tmp = 0 ∧ digit % 4 = 0 then numStr
    else toHexLoop fuel tmp digit (if digit % 4 = 0 then '_' :: numStr else numStr)

def toHex (number : Unsigned64) : String :=
  "16#" ++ String.ofList (toHexLoop 16 number.toNat 0 ['#'])

example : toHex 0x12345 = "16#0001_2345#" := by decide

def bitSet (value : Unsigned64) (pos : Nat) : Unsigned64 := value ||| BitVec.twoPow 64 pos

def bitTest (value : Unsigned64) (pos : Nat) : Bool := value &&& BitVec.twoPow 64 pos ≠ 0

lemma bitTest_eq (value : Unsigned64) {pos : Nat} (hpos : pos < 64) : bitTest value pos = value.getLsbD pos := by
  have htwo : BitVec.twoPow 64 pos ≠ 0 := by
    intro h
    have hbit := congrArg (fun x => x.getLsbD pos) h
    simp [hpos] at hbit
  rw [bitTest, BitVec.and_twoPow]
  cases hbit : value.getLsbD pos with
  | false => simp
  | true => simpa using htwo

end Muen.Tools
