import Muen.Lib.Literals
import Mathlib.Data.BitVec
import Muen.Lib.Machine
import Muen.Lib.RingQueue

/-!
# The byte queue of the debug server

Output is collected in a queue of bytes until a sink takes it. The sinks peek at the front of the queue
and drop what they have passed on. Within the preconditions of its operations the queue is first in,
first out.
-/

namespace Muen.Components.Dbgserver

abbrev Byte := BitVec 8

/-- The buffer has 2 ** 12 places. -/
abbrev Queue := Lib.RingQueue 4096 Byte

namespace ByteQueue

def initialized : Queue := ⟨fun _ => 0, 0, 0⟩

def bytesUsed (q : Queue) : Nat := q.used

def bytesFree (q : Queue) : Nat := (4096 - bytesUsed q) - 1

def append (q : Queue) (byte : Byte) : Queue := q.push byte

def appendBuffer (q : Queue) (buffer : List Byte) (length : Nat) : Queue := (buffer.take length).foldl append q

def dropBytes (q : Queue) : Nat → Queue
  | 0 => q
  | n + 1 => dropBytes (q.pop 0) n

/-- The loop of `Peek` from a read position on: the bytes that it copies. -/
def peekLoop (q : Queue) : Fin 4096 → Nat → List Byte
  | _, 0 => []
  | rp, n + 1 => q.buffer rp :: if rp + 1 = q.wp then [] else peekLoop q (rp + 1) n

/-- The buffer of the given size and the number of bytes that have been copied to it. -/
def peek (q : Queue) (size : Nat) : List Byte × Nat :=
  let copied := peekLoop q q.rp size
  (copied ++ List.replicate (size - copied.length) 0, copied.length)

def peekByte (q : Queue) : Byte := q.buffer q.rp

/-! Appending. -/

lemma bytesFree_eq (q : Queue) : bytesFree q = 4095 - q.contents.length := by
  rw [Lib.RingQueue.length_contents]
  unfold bytesFree bytesUsed
  omega

lemma length_contents_le (q : Queue) : q.contents.length ≤ 4095 := by
  have hlt := q.used_lt
  rw [Lib.RingQueue.length_contents]
  omega

lemma contents_append {q : Queue} (byte : Byte) (h : 0 < bytesFree q) :
    (append q byte).contents = q.contents ++ [byte] := by
  apply Lib.RingQueue.contents_push
  unfold bytesFree bytesUsed at h
  omega

/-- What is appended while there is room for it comes behind all other bytes. -/
lemma contents_foldl_append {q : Queue} (bytes : List Byte) (h : bytes.length ≤ bytesFree q) :
    (bytes.foldl append q).contents = q.contents ++ bytes := by
  induction bytes generalizing q with
  | nil => simp
  | cons b bytes ih =>
    rw [List.length_cons] at h
    have happend := contents_append b (by omega : 0 < bytesFree q)
    rw [List.foldl_cons, ih, happend, List.append_assoc]
    · rfl
    · rw [bytesFree_eq] at h ⊢
      rw [happend, List.length_append, List.length_singleton]
      omega

lemma contents_appendBuffer {q : Queue} (buffer : List Byte) (length : Nat) (h : length ≤ bytesFree q) :
    (appendBuffer q buffer length).contents = q.contents ++ buffer.take length := by
  apply contents_foldl_append
  have hle := List.length_take_le length buffer
  omega

/-! Taking. -/

lemma contents_dropBytes {q : Queue} (n : Nat) (h : n ≤ bytesUsed q) :
    (dropBytes q n).contents = q.contents.drop n := by
  induction n generalizing q with
  | zero => rfl
  | succ n ih =>
    unfold bytesUsed at h
    have hpop := Lib.RingQueue.used_pop (q := q) (0 : Byte) (by omega)
    rw [dropBytes, ih, Lib.RingQueue.contents_pop _ (by omega), List.drop_drop, Nat.add_comm]
    unfold bytesUsed
    omega

/-- The loop copies up to the write position. -/
lemma peekLoop_eq (q : Queue) (n m : Nat) (p : Fin 4096) (hpos : 0 < m) (hlt : m < 4096)
    (hwp : p + Fin.ofNat 4096 m = q.wp) : peekLoop q p n = (Lib.RingQueue.segment q.buffer p m).take n := by
  induction n generalizing p m with
  | zero => rw [peekLoop, List.take_zero]
  | succ n ih =>
    obtain ⟨m, rfl⟩ := Nat.exists_eq_add_of_lt hpos
    rw [Nat.zero_add] at hwp hlt ⊢
    rw [peekLoop, Lib.RingQueue.segment, List.take_succ_cons]
    rw [← Lib.RingQueue.add_one_add] at hwp
    by_cases hm : m = 0
    · subst hm
      have hend : p + 1 = q.wp := by
        rw [← hwp]
        exact (add_zero _).symm
      rw [if_pos hend, Lib.RingQueue.segment, List.take_nil]
    · have hmore : p + 1 ≠ q.wp := by
        rw [← hwp]
        exact (Lib.RingQueue.add_ofNat_ne (p + 1) (by omega) (by omega)).symm
      rw [if_neg hmore, ih m (p + 1) (by omega) (by omega) hwp]

/-- A peek at a queue that is not empty shows its front and clears the rest of the buffer. -/
lemma peek_eq {q : Queue} (size : Nat) (h : 0 < bytesUsed q) :
    peek q size = (q.contents.take size ++ List.replicate (size - q.contents.length) 0,
      min size q.contents.length) := by
  have hcopied : peekLoop q q.rp size = q.contents.take size :=
    peekLoop_eq q size q.used q.rp h q.used_lt q.wp_eq.symm
  unfold peek
  rw [hcopied]
  dsimp only
  rw [List.length_take]
  congr 3
  omega

lemma peekByte_eq {q : Queue} (h : 0 < bytesUsed q) : q.contents.head? = some (peekByte q) := by
  unfold bytesUsed at h
  obtain ⟨n, hn⟩ := Nat.exists_eq_add_of_lt h
  unfold Lib.RingQueue.contents
  rw [hn, Nat.zero_add]
  rfl

lemma contents_initialized : initialized.contents = [] := rfl

/-! ### First in, first out -/

inductive Op
  | append (byte : Byte)
  | appendBuffer (buffer : List Byte) (length : Nat)
  | peek (size : Nat)
  | peekByte
  | dropBytes (length : Nat)

/-- The precondition of an operation. -/
def Op.Pre (q : Queue) : Op → Prop
  | append _ => 0 < bytesFree q
  | appendBuffer buffer length => 1 ≤ length ∧ length ≤ buffer.length ∧ length ≤ bytesFree q
  | peek size => 0 < bytesUsed q ∧ 1 ≤ size
  | peekByte => 0 < bytesUsed q
  | dropBytes length => 1 ≤ length ∧ length ≤ bytesUsed q

instance (q : Queue) : DecidablePred (Op.Pre q)
  | .append _ => inferInstanceAs (Decidable (_ < _))
  | .appendBuffer _ _ => inferInstanceAs (Decidable (_ ∧ _ ∧ _))
  | .peek _ => inferInstanceAs (Decidable (_ ∧ _))
  | .peekByte => inferInstanceAs (Decidable (_ < _))
  | .dropBytes _ => inferInstanceAs (Decidable (_ ∧ _))

/-- A queue with all bytes that have been appended to it and all that have been dropped from it. A byte is
dropped with the value that a peek shows. -/
structure Port where
  queue : Queue
  appended : List Byte
  dropped : List Byte

def Port.start : Port := ⟨initialized, [], []⟩

def Port.apply (p : Port) : Op → Port
  | .append byte => { p with queue := ByteQueue.append p.queue byte, appended := p.appended ++ [byte] }
  | .appendBuffer buffer length =>
    { p with queue := ByteQueue.appendBuffer p.queue buffer length, appended := p.appended ++ buffer.take length }
  | .peek _ => p
  | .peekByte => p
  | .dropBytes length =>
    { p with queue := ByteQueue.dropBytes p.queue length, dropped := p.dropped ++ (ByteQueue.peek p.queue length).1 }

def Port.step (p : Port) (op : Op) : Option Port :=
  if op.Pre p.queue then some (p.apply op) else none

/-- The bytes that have been dropped and those in the queue are those that have been appended, in order. -/
def Port.Ordered (p : Port) : Prop := p.appended = p.dropped ++ p.queue.contents

lemma Port.apply_ordered {p : Port} {op : Op} (h : p.Ordered) (hpre : op.Pre p.queue) : (p.apply op).Ordered := by
  unfold Port.Ordered at h ⊢
  cases op with
  | append byte =>
    change p.appended ++ [byte] = p.dropped ++ (ByteQueue.append p.queue byte).contents
    rw [contents_append byte hpre, h, List.append_assoc]
  | appendBuffer buffer length =>
    change p.appended ++ buffer.take length = p.dropped ++ (ByteQueue.appendBuffer p.queue buffer length).contents
    rw [contents_appendBuffer buffer length hpre.2.2, h, List.append_assoc]
  | peek size => exact h
  | peekByte => exact h
  | dropBytes length =>
    change p.appended = p.dropped ++ (ByteQueue.peek p.queue length).1 ++ (ByteQueue.dropBytes p.queue length).contents
    obtain ⟨hpos, hle⟩ := hpre
    have hlength : length ≤ p.queue.contents.length := by
      rw [Lib.RingQueue.length_contents]
      exact hle
    have hshown : (ByteQueue.peek p.queue length).1 = p.queue.contents.take length := by
      rw [peek_eq length (by omega), Nat.sub_eq_zero_of_le hlength, List.replicate_zero, List.append_nil]
    rw [hshown, contents_dropBytes length hle, List.append_assoc, List.take_append_drop, h]

/-- Whatever is done with a queue, its bytes leave it in the order in which they were appended. -/
lemma Port.run_ordered {ops : List Op} {p : Port} (h : Lib.run Port.step Port.start ops = some p) : p.Ordered := by
  have hinv : ∀ (ops : List Op) (p p' : Port), p.Ordered → Lib.run Port.step p ops = some p' → p'.Ordered := by
    intro ops
    induction ops with
    | nil =>
      intro p p' hp hrun
      obtain rfl := Option.some.inj hrun
      exact hp
    | cons op ops ih =>
      intro p p' hp hrun
      rw [Lib.run] at hrun
      by_cases hpre : op.Pre p.queue
      · rw [Port.step, if_pos hpre, Option.bind_some] at hrun
        exact ih _ p' (Port.apply_ordered hp hpre) hrun
      · rw [Port.step, if_neg hpre, Option.bind_none] at hrun
        cases hrun
  exact hinv ops Port.start p rfl h

end ByteQueue

end Muen.Components.Dbgserver
