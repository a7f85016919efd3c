import Mathlib.Tactic

/-!
# Byte images

Numbers as little-endian bytes, and images that consist of blocks of one size: what stands in the
image at a multiple of the size is the block of that position.
-/

namespace Muen.Lib

abbrev Byte := BitVec 8

/-- The given number of bytes of a number, the lowest one first. -/
def leBytes : Nat → Nat → List Byte
  | 0, _ => []
  | k + 1, n => BitVec.ofNat 8 n :: leBytes k (n / 256)

def ofLeBytes : List Byte → Nat
  | [] => 0
  | b :: bs => b.toNat + 256 * ofLeBytes bs

@[simp] lemma leBytes_length (k : Nat) : ∀ n, (leBytes k n).length = k := by
  induction k with
  | zero => exact fun _ => rfl
  | succ k ih =>
    intro n
    rw [leBytes, List.length_cons, ih]

lemma ofLeBytes_leBytes (k : Nat) : ∀ n, n < 256 ^ k → ofLeBytes (leBytes k n) = n := by
  induction k with
  | zero =>
    intro n hn
    rw [pow_zero] at hn
    rw [leBytes, ofLeBytes]
    omega
  | succ k ih =>
    intro n hn
    rw [pow_succ] at hn
    rw [leBytes, ofLeBytes, ih (n / 256) (by omega), BitVec.toNat_ofNat]
    omega

lemma ofLeBytes_lt (bs : List Byte) : ofLeBytes bs < 256 ^ bs.length := by
  induction bs with
  | nil => exact Nat.one_pos
  | cons b bs ih =>
    have hb := b.isLt
    rw [ofLeBytes, List.length_cons, pow_succ]
    omega

lemma leBytes_ofLeBytes (bs : List Byte) : leBytes bs.length (ofLeBytes bs) = bs := by
  induction bs with
  | nil => rfl
  | cons b bs ih =>
    have hb := b.isLt
    have hhead : BitVec.ofNat 8 (b.toNat + 256 * ofLeBytes bs) = b := by
      rw [← BitVec.toNat_inj, BitVec.toNat_ofNat]
      omega
    have htail : (b.toNat + 256 * ofLeBytes bs) / 256 = ofLeBytes bs := by omega
    rw [ofLeBytes, List.length_cons, leBytes, hhead, htail, ih]

/-- A block of an image of blocks of one size. -/
lemma take_drop_flatMap {α β : Type} (f : α → List β) (size : Nat) (hsize : ∀ a, (f a).length = size) (l : List α) :
    ∀ {k : Nat} {a : α}, l[k]? = some a → ((l.flatMap f).drop (size * k)).take size = f a := by
  induction l with
  | nil =>
    intro k a h
    simp at h
  | cons b l ih =>
    intro k a h
    rw [List.flatMap_cons]
    cases k with
    | zero =>
      obtain rfl : b = a := by simpa using h
      rw [Nat.mul_zero, List.drop_zero, List.take_append_of_le_length (hsize b).ge, ← hsize b, List.take_length]
    | succ k =>
      have hk : size * (k + 1) = (f b).length + size * k := by
        rw [hsize b, Nat.mul_succ, Nat.add_comm]
      rw [hk, List.drop_append, Nat.add_sub_cancel_left, List.drop_eq_nil_of_le (by omega), List.nil_append]
      exact ih (by simpa using h)

lemma length_flatMap_const {α β : Type} (f : α → List β) (size : Nat) (hsize : ∀ a, (f a).length = size)
    (l : List α) : (l.flatMap f).length = size * l.length := by
  induction l with
  | nil => rfl
  | cons a l ih =>
    rw [List.flatMap_cons, List.length_append, hsize, ih, List.length_cons, Nat.mul_succ, Nat.add_comm]

end Muen.Lib
