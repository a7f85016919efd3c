import Mathlib.Data.Fin.Basic
import Mathlib.Algebra.Group.Fin.Basic
import Mathlib.Algebra.GroupWithZero.Nat
import Mathlib.Data.List.Basic

/-!
# Queues in a ring buffer

A queue is a buffer with a write and a read position that wrap around at its end. It is empty when the
positions are the same, so that one place of the buffer always stays free. The elements from the read
position up to the write position are the contents of the queue, oldest first.
-/

namespace Muen.Lib

structure RingQueue (N : Nat) (α : Type) where
  buffer : Fin N → α
  wp : Fin N
  rp : Fin N

namespace RingQueue

variable {N : Nat} [NeZero N] {α : Type}

def used (q : RingQueue N α) : Nat := (q.wp - q.rp).val

/-- The given number of elements of a buffer from a position on. -/
def segment (buffer : Fin N → α) : Fin N → Nat → List α
  | _, 0 => []
  | p, n + 1 => buffer p :: segment buffer (p + 1) n

def contents (q : RingQueue N α) : List α := segment q.buffer q.rp q.used

def push (q : RingQueue N α) (a : α) : RingQueue N α :=
  { q with buffer := Function.update q.buffer q.wp a, wp := q.wp + 1 }

/-- The oldest element is overwritten and given up. -/
def pop (q : RingQueue N α) (filler : α) : RingQueue N α :=
  { q with buffer := Function.update q.buffer q.rp filler, rp := q.rp + 1 }

@[simp] lemma length_segment (buffer : Fin N → α) (p : Fin N) (n : Nat) : (segment buffer p n).length = n := by
  induction n generalizing p with
  | zero => rfl
  | succ n ih => rw [segment, List.length_cons, ih]

@[simp] lemma length_contents (q : RingQueue N α) : q.contents.length = q.used := length_segment _ _ _

omit [NeZero N] in
lemma used_lt (q : RingQueue N α) : q.used < N := (q.wp - q.rp).isLt

lemma add_one_add (p : Fin N) (n : Nat) : p + 1 + Fin.ofNat N n = p + Fin.ofNat N (n + 1) := by
  rw [add_assoc]
  congr 1
  apply Fin.ext
  simp [Fin.val_add, Nat.add_comm]

lemma add_ofNat_ne (p : Fin N) {n : Nat} (hpos : 0 < n) (hlt : n < N) : p + Fin.ofNat N n ≠ p := by
  intro h
  have hzero := add_eq_left.mp h
  rw [Fin.ext_iff, Fin.val_ofNat, Nat.mod_eq_of_lt hlt, Fin.val_zero] at hzero
  omega

lemma segment_succ (buffer : Fin N → α) (p : Fin N) (n : Nat) :
    segment buffer p (n + 1) = segment buffer p n ++ [buffer (p + Fin.ofNat N n)] := by
  induction n generalizing p with
  | zero =>
    have hzero : Fin.ofNat N 0 = 0 := rfl
    rw [hzero, add_zero]
    rfl
  | succ n ih =>
    rw [segment, ih, segment, List.cons_append, add_one_add]

lemma segment_update (buffer : Fin N → α) (p i : Fin N) (n : Nat) (a : α)
    (h : ∀ k, k < n → p + Fin.ofNat N k ≠ i) :
    segment (Function.update buffer i a) p n = segment buffer p n := by
  induction n with
  | zero => rfl
  | succ n ih =>
    rw [segment_succ, segment_succ, ih (fun k hk => h k (by omega)), Function.update_of_ne (h n (by omega))]

lemma wp_eq (q : RingQueue N α) : q.wp = q.rp + Fin.ofNat N q.used := by
  have hcast : Fin.ofNat N q.used = q.wp - q.rp := by
    apply Fin.ext
    exact Nat.mod_eq_of_lt q.used_lt
  rw [hcast, add_sub_cancel]

lemma rp_add_ne {q : RingQueue N α} {k : Nat} (h : k < q.used) : q.rp + Fin.ofNat N k ≠ q.wp := by
  intro he
  rw [wp_eq, add_right_inj, Fin.ext_iff] at he
  have hlt := q.used_lt
  simp only [Fin.val_ofNat] at he
  rw [Nat.mod_eq_of_lt (by omega), Nat.mod_eq_of_lt hlt] at he
  omega

lemma val_one_of_lt (h : 1 < N) : (1 : Fin N).val = 1 := by
  rw [Fin.val_one', Nat.mod_eq_of_lt h]

lemma used_push {q : RingQueue N α} (a : α) (h : q.used + 1 < N) : (q.push a).used = q.used + 1 := by
  have hsub : q.wp + 1 - q.rp = q.wp - q.rp + 1 := by rw [add_sub_right_comm]
  change (q.wp + 1 - q.rp).val = _
  rw [hsub, Fin.val_add]
  change (q.used + (1 : Fin N).val) % N = q.used + 1
  have hone : (1 : Fin N).val = 1 := val_one_of_lt (by omega)
  rw [hone, Nat.mod_eq_of_lt h]

/-- An element that is pushed while a place is free comes behind all others. -/
lemma contents_push {q : RingQueue N α} (a : α) (h : q.used + 1 < N) : (q.push a).contents = q.contents ++ [a] := by
  unfold contents
  rw [used_push a h, segment_succ]
  change segment (Function.update q.buffer q.wp a) q.rp q.used ++
    [Function.update q.buffer q.wp a (q.rp + Fin.ofNat N q.used)] = _
  rw [segment_update _ _ _ _ _ (fun k hk => rp_add_ne hk), ← wp_eq, Function.update_self]

lemma used_pop {q : RingQueue N α} (filler : α) (h : 0 < q.used) : (q.pop filler).used = q.used - 1 := by
  have hlt := q.used_lt
  have hone : (1 : Fin N).val = 1 := val_one_of_lt (by omega)
  have hsub : q.wp - (q.rp + 1) = q.wp - q.rp - 1 := by rw [sub_add_eq_sub_sub]
  change (q.wp - (q.rp + 1)).val = _
  rw [hsub, Fin.sub_val_of_le]
  · rw [hone]
    rfl
  · rw [Fin.le_def, hone]
    exact h

lemma contents_pop {q : RingQueue N α} (filler : α) (h : 0 < q.used) :
    (q.pop filler).contents = q.contents.drop 1 := by
  unfold contents
  rw [used_pop filler h]
  obtain ⟨n, hn⟩ := Nat.exists_eq_add_of_lt h
  rw [Nat.zero_add] at hn
  have hfront : segment q.buffer q.rp q.used = q.buffer q.rp :: segment q.buffer (q.rp + 1) n := by rw [hn, segment]
  rw [hfront, hn, List.drop_one, List.tail_cons, Nat.add_sub_cancel]
  apply segment_update
  intro k hk he
  change q.rp + 1 + Fin.ofNat N k = q.rp at he
  have hlt := q.used_lt
  rw [add_one_add] at he
  exact add_ofNat_ne q.rp (by omega) (by omega) he

end RingQueue

end Muen.Lib
