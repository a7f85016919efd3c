import Muen.Kernel.State
import Muen.Lib.Pending

/-!
# Pending interrupts

`SK.Subjects_Interrupts`: the four words of a subject are the set of its pending vectors, of which the
highest is consumed first.
-/

namespace Muen.Kernel

open Muen.Lib Muen.Lib.Pending

/-! ### Operations -/

section Operations

variable {P : Policy}

/-- `SK.Subjects_Interrupts.Consume_Interrupt` with `Found` and `Vector`. -/
def consumeInterrupt (id : P.Subject) (s : State P) : (Bool × Byte) × State P :=
  match findInterrupt (s.pendingInterrupts id) with
  | some vector => ((true, vector), interruptClear id vector s)
  | none => ((false, 0), s)

/-- The loop of `SK.Subjects_Interrupts.Has_Pending_Interrupt`. -/
def searchInterruptWords (data : Fin 4 → Word64) : List (Fin 4) → Bool → Bool
  | [], interruptPending => interruptPending
  | w :: ws, _ => if data w ≠ 0 then true else searchInterruptWords data ws false

/-- The calls of the package, and what they report. -/
def interruptCall (s : State P) : Call P.Subject Byte → Answer Byte × State P
  | .insert id vector => (.done, insertInterrupt id vector s)
  | .take id =>
    let consumed := consumeInterrupt id s
    (.taken (if consumed.1.1 then some consumed.1.2 else none), consumed.2)
  | .test id => (.holds (searchInterruptWords (s.pendingInterrupts id) (List.finRange 4) false), s)
  | .clear id => (.done, initInterrupts id s)

/-- The calls one after the other, each with its answer, and the state afterwards. -/
def interruptCalls (s : State P) : List (Call P.Subject Byte) → List (Call P.Subject Byte × Answer Byte) × State P
  | [] => ([], s)
  | c :: cs =>
    let answered := interruptCall s c
    let rest := interruptCalls answered.2 cs
    ((c, answered.1) :: rest.1, rest.2)

/-- The vectors whose bit is set. -/
def vectors (data : Fin 4 → Word64) : Set Byte :=
  {v | bitTest (data (toPos v).1) (toPos v).2 = true}

def pendingVectors (s : State P) : P.Subject → Set Byte := fun id => vectors (s.pendingInterrupts id)

end Operations

/-! ### Vectors and words -/

/-- `SK.Subjects_Interrupts.To_Vector`. -/
def toVector (word : Fin 4) (pos : Fin 64) : Byte := BitVec.ofNat 8 (word.val * 64 + pos.val)

lemma toNat_toVector (word : Fin 4) (pos : Fin 64) : (toVector word pos).toNat = word.val * 64 + pos.val := by
  have hw := word.isLt
  have hp := pos.isLt
  rw [toVector, BitVec.toNat_ofNat]
  omega

lemma toPos_toVector (word : Fin 4) (pos : Fin 64) : toPos (toVector word pos) = (word, pos) := by
  have hw := word.isLt
  have hp := pos.isLt
  rw [toPos]
  ext
  · simp only [toNat_toVector]
    omega
  · simp only [toNat_toVector]
    omega

lemma toVector_toPos (v : Byte) : toVector (toPos v).1 (toPos v).2 = v := by
  apply BitVec.eq_of_toNat_eq
  rw [toNat_toVector]
  simp only [toPos]
  omega

lemma toPos_injective : Function.Injective toPos := by
  intro u v h
  rw [← toVector_toPos u, ← toVector_toPos v, h]

lemma toVector_mem_vectors (data : Fin 4 → Word64) (word : Fin 4) (pos : Fin 64) :
    toVector word pos ∈ vectors data ↔ bitTest (data word) pos = true := by
  rw [vectors, Set.mem_ofPred_eq, toPos_toVector]

/-! ### Searches -/

/-- What a search through a decreasing list finds is the greatest element with the property. -/
lemma find?_greatest {n : ℕ} {p : Fin n → Bool} {i : Fin n}
    (h : (List.finRange n).reverse.find? p = some i) : p i = true ∧ ∀ j, p j = true → j ≤ i := by
  refine ⟨List.find?_some h, fun j hj => ?_⟩
  obtain ⟨_, as, bs, heq, hnone⟩ := List.find?_eq_some_iff_append.mp h
  have hsorted : (as ++ i :: bs).Pairwise (fun a b => b < a) := by
    rw [← heq, List.pairwise_reverse]
    exact List.pairwise_lt_finRange n
  have hmem : j ∈ as ++ i :: bs := by
    rw [← heq]
    simp
  rcases List.mem_append.mp hmem with hmem | hmem
  · have hnot := hnone j hmem
    simp [hj] at hnot
  · rcases List.mem_cons.mp hmem with rfl | hmem
    · exact le_rfl
    · have htail := (List.pairwise_append.mp hsorted).2.1
      exact le_of_lt (List.rel_of_pairwise_cons htail hmem)

lemma findHighestBitSet_some {field : Word64} {pos : Fin 64} (h : findHighestBitSet field = some pos) :
    bitTest field pos = true ∧ ∀ i, bitTest field i = true → i ≤ pos := by
  rw [findHighestBitSet] at h
  by_cases h0 : field = 0
  · rw [if_pos h0] at h
    cases h
  · rw [if_neg h0] at h
    exact find?_greatest h

lemma findHighestBitSet_none {field : Word64} : findHighestBitSet field = none ↔ field = 0 := by
  rw [findHighestBitSet]
  by_cases h0 : field = 0
  · simp [h0]
  · rw [if_neg h0, List.find?_eq_none]
    rw [eq_zero_iff_bitTest] at h0 ⊢
    simp

lemma mem_words (w : Fin 4) : w ∈ [(3 : Fin 4), 2, 1, 0] := by
  decide +revert

/-- What `findInterrupt` returns is the highest bit of the highest word that is not zero. -/
lemma findInterrupt_some {data : Fin 4 → Word64} {v : Byte} (h : findInterrupt data = some v) :
    IsGreatest (vectors data) v := by
  obtain ⟨before, word, after, heq, hword, hzero⟩ := List.findSome?_eq_some_iff.mp h
  obtain ⟨pos, hpos, rfl⟩ := Option.map_eq_some_iff.mp hword
  obtain ⟨hset, hmax⟩ := findHighestBitSet_some hpos
  have hsorted : (before ++ word :: after).Pairwise (fun a b => b < a) := by
    rw [← heq]
    decide
  refine ⟨(toVector_mem_vectors data word pos).mpr hset, fun u hu => ?_⟩
  have hu' : bitTest (data (toPos u).1) (toPos u).2 = true := hu
  have hmem : (toPos u).1 ∈ before ++ word :: after := by
    rw [← heq]
    exact mem_words _
  have hle : u.toNat ≤ (toVector word pos).toNat := by
    rw [← toVector_toPos u, toNat_toVector, toNat_toVector]
    have hp := (toPos u).2.isLt
    rcases List.mem_append.mp hmem with hmem | hmem
    · have hnone := hzero _ hmem
      rw [Option.map_eq_none_iff, findHighestBitSet_none, eq_zero_iff_bitTest] at hnone
      rw [hnone] at hu'
      cases hu'
    · rcases List.mem_cons.mp hmem with hw | hmem
      · rw [hw] at hu' ⊢
        have hpos_le : (toPos u).2.val ≤ pos.val := hmax _ hu'
        omega
      · have htail := (List.pairwise_append.mp hsorted).2.1
        have hlt : (toPos u).1.val < word.val := List.rel_of_pairwise_cons htail hmem
        omega
  exact hle

lemma vectors_nonempty (data : Fin 4 → Word64) : (vectors data).Nonempty ↔ ∃ w, data w ≠ 0 := by
  constructor
  · rintro ⟨v, hv⟩
    refine ⟨(toPos v).1, fun hzero => ?_⟩
    rw [vectors, Set.mem_ofPred_eq, hzero, bitTest_zero] at hv
    cases hv
  · rintro ⟨w, hw⟩
    rw [ne_eq, eq_zero_iff_bitTest] at hw
    push Not at hw
    obtain ⟨i, hi⟩ := hw
    rw [ne_eq, Bool.not_eq_false] at hi
    exact ⟨toVector w i, (toVector_mem_vectors data w i).mpr hi⟩

lemma findInterrupt_none {data : Fin 4 → Word64} (h : findInterrupt data = none) : vectors data = ∅ := by
  rw [findInterrupt, List.findSome?_eq_none_iff] at h
  rw [← Set.not_nonempty_iff_eq_empty, vectors_nonempty]
  rintro ⟨w, hw⟩
  have hnone := h w (mem_words w)
  rw [Option.map_eq_none_iff, findHighestBitSet_none] at hnone
  exact hw hnone

lemma searchInterruptWords_eq (data : Fin 4 → Word64) (ws : List (Fin 4)) (b : Bool) :
    searchInterruptWords data ws b = true ↔ (∃ w ∈ ws, data w ≠ 0) ∨ (ws = [] ∧ b = true) := by
  induction ws generalizing b with
  | nil => simp [searchInterruptWords]
  | cons w ws ih =>
    rw [searchInterruptWords]
    by_cases hw : data w = 0
    · simp [hw, ih]
    · rw [if_pos hw]
      exact ⟨fun _ => .inl ⟨w, List.mem_cons_self, hw⟩, fun _ => rfl⟩

/-- The loop over the words is the test that the handlers use. -/
lemma searchInterruptWords_hasPending (data : Fin 4 → Word64) :
    searchInterruptWords data (List.finRange 4) false = hasPendingInterrupt data := by
  rw [Bool.eq_iff_iff, searchInterruptWords_eq]
  simp [hasPendingInterrupt]

/-! ### Refinement -/

section Refinement

variable {P : Policy}

lemma vectors_bitSet (data : Fin 4 → Word64) (v : Byte) :
    vectors (Function.update data (toPos v).1 (bitSet (data (toPos v).1) (toPos v).2)) =
      insert v (vectors data) := by
  ext u
  rw [vectors, Set.mem_ofPred_eq, Set.mem_insert_iff, vectors, Set.mem_ofPred_eq]
  by_cases hw : (toPos u).1 = (toPos v).1
  · rw [hw, Function.update_self, bitTest_bitSet, Bool.or_eq_true, decide_eq_true_eq, or_comm]
    have hiff : (toPos v).2 = (toPos u).2 ↔ u = v :=
      ⟨fun hp => toPos_injective (Prod.ext hw hp.symm), fun huv => by rw [huv]⟩
    rw [hiff]
  · rw [Function.update_of_ne hw]
    have hne : u ≠ v := fun huv => hw (by rw [huv])
    simp [hne]

lemma vectors_bitClear (data : Fin 4 → Word64) (v : Byte) :
    vectors (Function.update data (toPos v).1 (bitClear (data (toPos v).1) (toPos v).2)) =
      vectors data \ {v} := by
  ext u
  rw [vectors, Set.mem_ofPred_eq, Set.mem_sdiff, Set.mem_singleton_iff, vectors, Set.mem_ofPred_eq]
  by_cases hw : (toPos u).1 = (toPos v).1
  · rw [hw, Function.update_self, bitTest_bitClear, Bool.and_eq_true, Bool.not_eq_true', decide_eq_false_iff_not]
    have hiff : (toPos v).2 = (toPos u).2 ↔ u = v :=
      ⟨fun hp => toPos_injective (Prod.ext hw hp.symm), fun huv => by rw [huv]⟩
    rw [hiff]
  · rw [Function.update_of_ne hw]
    have hne : u ≠ v := fun huv => hw (by rw [huv])
    simp [hne]

lemma pendingVectors_setInterrupts (s : State P) (id : P.Subject)
    (f : (Fin 4 → Word64) → Fin 4 → Word64) :
    pendingVectors (s.setInterrupts id f) =
      Function.update (pendingVectors s) id (vectors (f (s.pendingInterrupts id))) := by
  funext j
  by_cases hj : j = id
  · subst hj
    simp only [pendingVectors, State.setInterrupts, Function.update_self]
  · rw [Function.update_of_ne hj]
    simp only [pendingVectors, State.setInterrupts, Function.update_of_ne hj]

/-- Every call is a step of the sets of pending vectors. -/
lemma interruptCall_step (s : State P) (c : Call P.Subject Byte) :
    Step (pendingVectors s) (c, (interruptCall s c).1) (pendingVectors (interruptCall s c).2) := by
  cases c with
  | insert id v =>
    simp only [interruptCall, insertInterrupt]
    rw [pendingVectors_setInterrupts, vectors_bitSet]
    exact .insert _ _ _
  | take id =>
    cases hfind : findInterrupt (s.pendingInterrupts id) with
    | none =>
      have hconsume : consumeInterrupt id s = ((false, 0), s) := by rw [consumeInterrupt, hfind]
      simp only [interruptCall, hconsume]
      exact .takeNone (findInterrupt_none hfind)
    | some v =>
      have hconsume : consumeInterrupt id s = ((true, v), interruptClear id v s) := by
        rw [consumeInterrupt, hfind]
      simp only [interruptCall, hconsume, interruptClear]
      rw [pendingVectors_setInterrupts, vectors_bitClear]
      exact .take (findInterrupt_some hfind)
  | test id =>
    refine .test ?_
    rw [pendingVectors, vectors_nonempty, searchInterruptWords_eq]
    simp
  | clear id =>
    simp only [interruptCall, initInterrupts]
    rw [pendingVectors_setInterrupts]
    have hempty : vectors (fun _ => 0) = ∅ := by
      rw [← Set.not_nonempty_iff_eq_empty, vectors_nonempty]
      simp
    rw [hempty]
    exact .clear _ _

lemma interruptCalls_steps (s : State P) (cs : List (Call P.Subject Byte)) :
    Steps (pendingVectors s) (interruptCalls s cs).1 (pendingVectors (interruptCalls s cs).2) := by
  induction cs generalizing s with
  | nil => exact .nil _
  | cons c cs ih => exact .cons (interruptCall_step s c) (ih _)

/-- From every state every sequence of calls of the package is a run of the sets of pending vectors with
the same answers, in which what is inserted is delivered exactly once and the highest first. -/
theorem pendingInterrupts_refines (s : State P) (cs : List (Call P.Subject Byte)) :
    (interruptCalls s cs).1.map Prod.fst = cs ∧
    Steps (pendingVectors s) (interruptCalls s cs).1 (pendingVectors (interruptCalls s cs).2) ∧
    Delivers (pendingVectors s) (interruptCalls s cs).1 (pendingVectors (interruptCalls s cs).2) := by
  have hsteps := interruptCalls_steps s cs
  refine ⟨?_, hsteps, hsteps.delivers⟩
  clear hsteps
  induction cs generalizing s with
  | nil => rfl
  | cons c cs ih =>
    rw [interruptCalls, List.map_cons, ih]

end Refinement

end Muen.Kernel
