import Muen.Lib.Literals
import Muen.Lib.Machine
import Mathlib.Data.Nat.Find
import Mathlib.Data.PNat.Basic
import Mathlib.Order.Bounds.Basic
import Mathlib.Data.Set.Basic

/-!
# Expanders.Utils

The number allocator of the expander. It hands out single numbers and ranges of consecutive ones, and never hands
out a number twice, unless a range is requested while no number is free that a range of that size could start at.
-/

namespace Muen.Tools.Expanders.Utils
open Muen.Lib

/-- `Natural'Last`. -/
def naturalLast : Nat := 2147483647

structure NumberAllocator where
  rangeStart : Nat
  rangeEnd : Nat
  numbers : Nat → Bool
  valid : rangeStart < rangeEnd
  natural : rangeEnd ≤ naturalLast

inductive AllocatorError
  | noFreeNumber
  | invalidAttribute (message : String)
  | constraintError
  deriving DecidableEq

/-- A node with its name and the texts of its attributes; an attribute that it does not have is empty. -/
structure Node where
  name : String
  getAttribute : String → String

/-- The result of an operation, which may also raise, and the allocator behind it. -/
abbrev Outcome (α : Type) := Except AllocatorError α × NumberAllocator

def NumberAllocator.new (rangeStart rangeEnd : Nat) (valid : rangeStart < rangeEnd)
    (natural : rangeEnd ≤ naturalLast) : NumberAllocator :=
  ⟨rangeStart, rangeEnd, fun _ => true, valid, natural⟩

/-- The numbers from `first` to `last` set to `False`. -/
def NumberAllocator.mark (allocator : NumberAllocator) (first last : Nat) : NumberAllocator :=
  { allocator with numbers := fun i => if first ≤ i ∧ i ≤ last then false else allocator.numbers i }

def allocate (allocator : NumberAllocator) : Outcome Nat :=
  let range := List.range' allocator.rangeStart (allocator.rangeEnd + 1 - allocator.rangeStart)
  match range.find? allocator.numbers with
  | some i => (.ok i, allocator.mark i i)
  | none => (.error .noFreeNumber, allocator)

/-- `Check_Free_Range`: the value of `Range_End` behind the loop. -/
def checkFreeRange (numbers : Nat → Bool) : List Nat → Nat → Nat
  | [], rangeEnd => rangeEnd
  | j :: js, rangeEnd => if numbers j then checkFreeRange numbers js j else rangeEnd

/-- The loop over the candidates; the sum `I + Range_Size` is checked for overflow. -/
def allocateRangeLoop (allocator : NumberAllocator) (rangeSize : Nat) : List Nat → Nat → Outcome (Nat × Nat)
  | [], _ => (.error .noFreeNumber, allocator)
  | i :: is, rangeEnd =>
    if i + rangeSize > naturalLast then (.error .constraintError, allocator)
    else
      let rangeEnd := checkFreeRange allocator.numbers (List.range' i rangeSize) rangeEnd
      if rangeEnd = i + rangeSize - 1 then (.ok (i, rangeEnd), allocator.mark i rangeEnd)
      else allocateRangeLoop allocator rangeSize is rangeEnd

def allocateRange (allocator : NumberAllocator) (rangeSize : ℕ+) : Outcome (Nat × Nat) :=
  let candidates := List.range' allocator.rangeStart (allocator.rangeEnd + 2 - rangeSize - allocator.rangeStart)
  allocateRangeLoop allocator rangeSize candidates allocator.rangeEnd

def reserveNumber (allocator : NumberAllocator) (number : Nat) : NumberAllocator :=
  if allocator.rangeStart ≤ number ∧ number ≤ allocator.rangeEnd then allocator.mark number number else allocator

section Reserve

-- `Natural'Value`, without a result where it raises
variable (naturalValue : String → Option Nat)

/-- `Reserve_Numbers`; the numbers reserved before a node without a valid number stay reserved. -/
def reserveNumbers (attributeName : String) : NumberAllocator → List Node → Outcome Unit
  | allocator, [] => (.ok (), allocator)
  | allocator, node :: nodes =>
    match naturalValue (node.getAttribute attributeName) with
    | some number => reserveNumbers attributeName (reserveNumber allocator number) nodes
    | none =>
      (.error (.invalidAttribute ("Node '" ++ node.name ++ "' has no valid number attribute '" ++ attributeName ++
        "'")),
        allocator)

/-- The numbers that `Reserve_Numbers` reserves. -/
def reservedNumbers (attributeName : String) : List Node → List Nat
  | [] => []
  | node :: nodes =>
    match naturalValue (node.getAttribute attributeName) with
    | some number => number :: reservedNumbers attributeName nodes
    | none => []

end Reserve

/-! ### The search for a range -/

/-- All numbers of the window that starts at `i` are free. -/
def WindowFree (numbers : Nat → Bool) (i size : Nat) : Prop := ∀ j, i ≤ j → j < i + size → numbers j

section Search

variable {numbers : Nat → Bool} {i size rangeEnd : Nat}

lemma checkFreeRange_of_used (h : numbers i = false) (hsize : 0 < size) :
    checkFreeRange numbers (List.range' i size) rangeEnd = rangeEnd := by
  cases size with
  | zero => omega
  | succ size =>
    rw [List.range'_succ, checkFreeRange, h]
    rfl

lemma checkFreeRange_of_free (h : WindowFree numbers i size) (hsize : 0 < size) :
    checkFreeRange numbers (List.range' i size) rangeEnd = i + size - 1 := by
  induction size generalizing i rangeEnd with
  | zero => omega
  | succ size ih =>
    rw [List.range'_succ, checkFreeRange, if_pos (h i le_rfl (by omega))]
    cases size with
    | zero => rfl
    | succ size =>
      rw [ih (fun j hj hlt => h j (by omega) (by omega)) (by omega)]
      omega

/-- A window that starts free and is not free ends the check before its last number. -/
lemma checkFreeRange_lt (h : ¬WindowFree numbers i size) (hfirst : numbers i) :
    checkFreeRange numbers (List.range' i size) rangeEnd < i + size - 1 := by
  induction size generalizing i rangeEnd with
  | zero => exact absurd (fun j hj hlt => by omega) h
  | succ size ih =>
    rw [List.range'_succ, checkFreeRange, if_pos hfirst]
    have hsize : 0 < size := by
      by_contra hzero
      apply h
      intro j hj hlt
      obtain rfl : j = i := by omega
      exact hfirst
    by_cases hnext : numbers (i + 1)
    · have hrest : ¬WindowFree numbers (i + 1) size := by
        intro hrest
        apply h
        intro j hj hlt
        by_cases hji : j = i
        · rw [hji]
          exact hfirst
        · exact hrest j (by omega) (by omega)
      have hlt := @ih (i + 1) i hrest hnext
      omega
    · rw [checkFreeRange_of_used (by simpa using hnext) hsize]
      omega

lemma checkFreeRange_cases (rangeEnd : Nat) (hsize : 0 < size) (h : ¬WindowFree numbers i size) :
    numbers i = false ∧ checkFreeRange numbers (List.range' i size) rangeEnd = rangeEnd ∨
      numbers i ∧ checkFreeRange numbers (List.range' i size) rangeEnd < i + size - 1 := by
  cases hi : numbers i with
  | false => exact Or.inl ⟨rfl, checkFreeRange_of_used hi hsize⟩
  | true => exact Or.inr ⟨rfl, checkFreeRange_lt h hi⟩

variable {allocator : NumberAllocator} {k c : Nat}

/-- The first free window is found, unless it is the last one of all natural numbers. -/
lemma loop_found (hsize : 0 < size) (hend : i + k + size = allocator.rangeEnd + 2)
    (hinv : rangeEnd = allocator.rangeEnd ∨ rangeEnd < i + size - 1) (hc : i ≤ c) (hck : c < i + k)
    (hfree : WindowFree allocator.numbers c size) (hfirst : ∀ d, i ≤ d → d < c → ¬WindowFree allocator.numbers d size)
    (hnatural : c + size ≤ naturalLast) :
    allocateRangeLoop allocator size (List.range' i k) rangeEnd =
      (.ok (c, c + size - 1), allocator.mark c (c + size - 1)) := by
  induction k generalizing i rangeEnd with
  | zero => omega
  | succ k ih =>
    have hfits : ¬i + size > naturalLast := by omega
    rw [List.range'_succ, allocateRangeLoop, if_neg hfits]
    by_cases hic : i = c
    · subst hic
      simp only [checkFreeRange_of_free hfree hsize, if_true]
    · have hnot := hfirst i le_rfl (by omega)
      simp only
      rcases checkFreeRange_cases rangeEnd hsize hnot with ⟨-, heq⟩ | ⟨-, hlt⟩
      · rw [heq, if_neg (by omega)]
        exact ih (by omega) (by omega) (by omega) (by omega) (fun d hd => hfirst d (by omega))
      · rw [if_neg (by omega)]
        exact ih (by omega) (by omega) (by omega) (by omega) (fun d hd => hfirst d (by omega))

/-- Without a free window the loop raises if some candidate is free. -/
lemma loop_raises (hsize : 0 < size) (hend : i + k + size = allocator.rangeEnd + 2)
    (hnatural : allocator.rangeEnd < naturalLast) (hnone : ∀ d, i ≤ d → d < i + k → ¬WindowFree allocator.numbers d size)
    (hinv : rangeEnd < i + size - 1 ∨
      rangeEnd = allocator.rangeEnd ∧ ∃ d, i ≤ d ∧ d < i + k ∧ allocator.numbers d) :
    allocateRangeLoop allocator size (List.range' i k) rangeEnd = (.error .noFreeNumber, allocator) := by
  induction k generalizing i rangeEnd with
  | zero => rfl
  | succ k ih =>
    have hfits : ¬i + size > naturalLast := by omega
    rw [List.range'_succ, allocateRangeLoop, if_neg hfits]
    simp only
    have hrest : ∀ d, i + 1 ≤ d → d < i + 1 + k → ¬WindowFree allocator.numbers d size :=
      fun d hd hlt => hnone d (by omega) (by omega)
    rcases checkFreeRange_cases rangeEnd hsize (hnone i le_rfl (by omega)) with ⟨hi, heq⟩ | ⟨-, hlt⟩
    · rw [heq]
      rcases hinv with hlt | ⟨hinit, d, hid, hdk, hd⟩
      · rw [if_neg (by omega)]
        exact ih (by omega) hrest (Or.inl (by omega))
      · have hdi : d ≠ i := by
          rintro rfl
          rw [hi] at hd
          cases hd
        rw [if_neg (by omega)]
        exact ih (by omega) hrest (Or.inr ⟨hinit, d, by omega, by omega, hd⟩)
    · rw [if_neg (by omega)]
      exact ih (by omega) hrest (Or.inl (by omega))

/-- With the last natural number in the range the loop overflows at the last candidate. -/
lemma loop_overflows (allocator : NumberAllocator) (hsize : 0 < size) (hend : i + k + size = allocator.rangeEnd + 2) (hk : 0 < k)
    (hnatural : allocator.rangeEnd = naturalLast)
    (hnone : ∀ d, i ≤ d → d + 1 < i + k → ¬WindowFree allocator.numbers d size)
    (hinv : rangeEnd = allocator.rangeEnd ∨ rangeEnd < i + size - 1) :
    allocateRangeLoop allocator size (List.range' i k) rangeEnd = (.error .constraintError, allocator) := by
  induction k generalizing i rangeEnd with
  | zero => omega
  | succ k ih =>
    rw [List.range'_succ, allocateRangeLoop]
    by_cases hk : k = 0
    · rw [if_pos (by omega)]
    · rw [if_neg (by omega)]
      simp only
      have hrest : ∀ d, i + 1 ≤ d → d + 1 < i + 1 + k → ¬WindowFree allocator.numbers d size :=
        fun d hd hlt => hnone d (by omega) (by omega)
      rcases checkFreeRange_cases rangeEnd hsize (hnone i le_rfl (by omega)) with ⟨-, heq⟩ | ⟨-, hlt⟩
      · rw [heq, if_neg (by omega)]
        exact ih (by omega) (by omega) hrest (by omega)
      · rw [if_neg (by omega)]
        exact ih (by omega) (by omega) hrest (by omega)

/-- Without a free candidate the last window is taken. -/
lemma loop_takes (allocator : NumberAllocator) (hsize : 0 < size) (hend : i + k + size = allocator.rangeEnd + 2) (hk : 0 < k)
    (hnatural : allocator.rangeEnd < naturalLast) (hnone : ∀ d, i ≤ d → d < i + k → allocator.numbers d = false) :
    allocateRangeLoop allocator size (List.range' i k) allocator.rangeEnd =
      (.ok (i + k - 1, allocator.rangeEnd), allocator.mark (i + k - 1) allocator.rangeEnd) := by
  induction k generalizing i with
  | zero => omega
  | succ k ih =>
    rw [List.range'_succ, allocateRangeLoop, if_neg (by omega)]
    simp only [checkFreeRange_of_used (hnone i le_rfl (by omega)) hsize]
    by_cases hk : k = 0
    · have hi : i + (k + 1) - 1 = i := by omega
      rw [if_pos (by omega), hi]
    · rw [if_neg (by omega), ih (by omega) (by omega) (fun d hd hlt => hnone d (by omega) (by omega))]
      have hi : i + 1 + k - 1 = i + (k + 1) - 1 := by omega
      rw [hi]

end Search

/-! ### Runs -/

inductive Call
  | reserveNumber (number : Nat)
  | reserveNumbers (attributeName : String) (nodes : List Node)
  | allocate
  | allocateRange (rangeSize : ℕ+)

inductive Event
  | reserved (number : Nat)
  | handedOut (number : Nat)
  deriving DecidableEq

/-- An allocator with what was reserved and handed out so far, the latest first. -/
structure Trace where
  allocator : NumberAllocator
  history : List Event

/-- The numbers that a call hands out. -/
def handedOut : Except AllocatorError (Nat × Nat) → List Event
  | .ok (rangeStart, rangeEnd) => (List.range' rangeStart (rangeEnd + 1 - rangeStart)).map .handedOut
  | .error _ => []

def Trace.step (naturalValue : String → Option Nat) (s : Trace) : Call → Option Trace
  | .reserveNumber number => some ⟨reserveNumber s.allocator number, .reserved number :: s.history⟩
  | .reserveNumbers attributeName nodes =>
    some ⟨(reserveNumbers naturalValue attributeName s.allocator nodes).2,
      ((reservedNumbers naturalValue attributeName nodes).map .reserved).reverse ++ s.history⟩
  | .allocate =>
    let (number, allocator) := allocate s.allocator
    some ⟨allocator, handedOut (number.map fun i => (i, i)) ++ s.history⟩
  | .allocateRange rangeSize =>
    let (range, allocator) := allocateRange s.allocator rangeSize
    some ⟨allocator, handedOut range ++ s.history⟩

/-- The numbers of the range that were neither reserved nor handed out. -/
def Trace.free (s : Trace) : Set Nat :=
  {x | s.allocator.rangeStart ≤ x ∧ x ≤ s.allocator.rangeEnd ∧ .reserved x ∉ s.history ∧ .handedOut x ∉ s.history}

/-- The starts of the windows of free numbers. -/
def Trace.windows (s : Trace) (size : Nat) : Set Nat := {i | ∀ j, i ≤ j → j < i + size → j ∈ s.free}

/-- A call does what its specification says. -/
def Trace.Exact (s : Trace) : Call → Prop
  | .allocate =>
    (∀ x, IsLeast s.free x → allocate s.allocator = (.ok x, s.allocator.mark x x)) ∧
      (s.free = ∅ → allocate s.allocator = (.error .noFreeNumber, s.allocator))
  | .allocateRange rangeSize =>
    (∀ x, IsLeast (s.windows rangeSize) x →
      allocateRange s.allocator rangeSize = (.ok (x, x + rangeSize - 1), s.allocator.mark x (x + rangeSize - 1))) ∧
      (s.windows rangeSize = ∅ → allocateRange s.allocator rangeSize = (.error .noFreeNumber, s.allocator))
  | _ => True

/-- No candidate exists, or a window is free that does not end with the range, or some candidate is free and the
range does not end with the last natural number. -/
def Searchable (allocator : NumberAllocator) (size : Nat) : Prop :=
  allocator.rangeEnd + 1 < allocator.rangeStart + size ∨
    (∃ i, allocator.rangeStart ≤ i ∧ i + size ≤ allocator.rangeEnd ∧ WindowFree allocator.numbers i size) ∨
    allocator.rangeEnd < naturalLast ∧
      ∃ i, allocator.rangeStart ≤ i ∧ i + size ≤ allocator.rangeEnd + 1 ∧ allocator.numbers i

def Trace.Fits (s : Trace) : Call → Prop
  | .allocateRange rangeSize => Searchable s.allocator rangeSize
  | _ => True

/-- Every number is handed out at most once, and never after it was reserved. -/
def Distinct (history : List Event) : Prop :=
  history.Pairwise (fun later earlier => ∀ x, later = .handedOut x → earlier ≠ .handedOut x ∧ earlier ≠ .reserved x)

/-- The array holds the free numbers. -/
structure Trace.Valid (s : Trace) : Prop where
  numbers : ∀ x, s.allocator.rangeStart ≤ x → x ≤ s.allocator.rangeEnd → (s.allocator.numbers x ↔ x ∈ s.free)
  distinct : Distinct s.history

section Operations

variable {s : Trace} {allocator : NumberAllocator} {x : Nat}

lemma mark_numbers {first last : Nat} :
    (allocator.mark first last).numbers x = true ↔ allocator.numbers x ∧ ¬(first ≤ x ∧ x ≤ last) := by
  unfold NumberAllocator.mark
  by_cases h : first ≤ x ∧ x ≤ last
  · simp [h]
  · simp [h]

lemma allocate_of_least (h : s.Valid) (hx : IsLeast s.free x) :
    allocate s.allocator = (.ok x, s.allocator.mark x x) := by
  obtain ⟨hfirst, hlast, -, -⟩ := hx.1
  have hnumber := (h.numbers x hfirst hlast).mpr hx.1
  have hfind : (List.range' s.allocator.rangeStart (s.allocator.rangeEnd + 1 - s.allocator.rangeStart)).find?
      s.allocator.numbers = some x := by
    rw [List.find?_range'_eq_some]
    refine ⟨by simpa using hnumber, ?_, ?_⟩
    · rw [List.mem_range'_1]
      omega
    · intro j hj hlt
      have hnot : j ∉ s.free := fun hmem => by
        have := hx.2 hmem
        omega
      have := h.numbers j hj (by omega)
      simpa [hnot] using this
  simp only [allocate, hfind]

lemma allocate_of_empty (h : s.Valid) (hnone : s.free = ∅) :
    allocate s.allocator = (.error .noFreeNumber, s.allocator) := by
  have hfind : (List.range' s.allocator.rangeStart (s.allocator.rangeEnd + 1 - s.allocator.rangeStart)).find?
      s.allocator.numbers = none := by
    rw [List.find?_eq_none]
    intro j hj
    rw [List.mem_range'_1] at hj
    rw [h.numbers j hj.1 (by omega), hnone]
    exact Set.notMem_empty j
  simp only [allocate, hfind]

/-- A window of free numbers is one of the array that lies in the range. -/
lemma mem_windows (h : s.Valid) {size : Nat} (hsize : 0 < size) {i : Nat} :
    i ∈ s.windows size ↔ s.allocator.rangeStart ≤ i ∧ i + size ≤ s.allocator.rangeEnd + 1 ∧
      WindowFree s.allocator.numbers i size := by
  constructor
  · intro hi
    have hfirst := (hi i le_rfl (by omega)).1
    have hlast := (hi (i + size - 1) (by omega) (by omega)).2.1
    refine ⟨hfirst, by omega, ?_⟩
    intro j hj hlt
    exact (h.numbers j (by omega) (by omega)).mpr (hi j hj hlt)
  · rintro ⟨hfirst, hlast, hfree⟩ j hj hlt
    exact (h.numbers j (by omega) (by omega)).mp (hfree j hj hlt)

lemma exists_least {t : Set Nat} (h : t.Nonempty) : ∃ x, IsLeast t x := by
  classical
  exact ⟨Nat.find h, Nat.find_spec h, fun y hy => Nat.find_min' h hy⟩

variable {n : ℕ+}

lemma allocateRange_of_least (h : s.Valid) (hsearch : Searchable s.allocator n) (hx : IsLeast (s.windows n) x) :
    allocateRange s.allocator n = (.ok (x, x + n - 1), s.allocator.mark x (x + n - 1)) := by
  have hn := n.pos
  obtain ⟨hfirst, hlast, hfree⟩ := (mem_windows h hn).mp hx.1
  have hend := s.allocator.natural
  have hbelow : ∀ d, s.allocator.rangeStart ≤ d → d < x → ¬WindowFree s.allocator.numbers d n := by
    intro d hd hlt hwindow
    have := hx.2 ((mem_windows h hn).mpr ⟨hd, by omega, hwindow⟩)
    omega
  have hnatural : x + n ≤ naturalLast := by
    rcases hsearch with hnone | ⟨i, hi, hi', hwindow⟩ | ⟨hlt, -⟩
    · omega
    · have := hx.2 ((mem_windows h hn).mpr ⟨hi, by omega, hwindow⟩)
      omega
    · omega
  exact loop_found hn (by omega) (Or.inl rfl) hfirst (by omega) hfree hbelow hnatural

lemma allocateRange_of_empty (h : s.Valid) (hsearch : Searchable s.allocator n) (hnone : s.windows n = ∅) :
    allocateRange s.allocator n = (.error .noFreeNumber, s.allocator) := by
  have hn := n.pos
  have hwindow : ∀ d, s.allocator.rangeStart ≤ d → d + n ≤ s.allocator.rangeEnd + 1 →
      ¬WindowFree s.allocator.numbers d n := by
    intro d hd hlt hfree
    have hmem : d ∈ s.windows n := (mem_windows h hn).mpr ⟨hd, hlt, hfree⟩
    rw [hnone] at hmem
    exact hmem
  rcases hsearch with hsmall | ⟨i, hi, hi', hfree⟩ | ⟨hlt, i, hi, hi', hnumber⟩
  · have hk : s.allocator.rangeEnd + 2 - n - s.allocator.rangeStart = 0 := by omega
    simp only [allocateRange, hk, List.range'_zero, allocateRangeLoop]
  · exact absurd hfree (hwindow i hi (by omega))
  · exact loop_raises hn (by omega) hlt (fun d hd hdk => hwindow d hd (by omega))
      (Or.inr ⟨rfl, i, hi, by omega, hnumber⟩)

/-- Where the range is not searchable, a window that is not free is handed out, or the search overflows. -/
lemma not_exact_of_not_searchable (h : s.Valid) (hsearch : ¬Searchable s.allocator n) : ¬s.Exact (.allocateRange n) := by
  have hn := n.pos
  have hend := s.allocator.natural
  unfold Searchable at hsearch
  push Not at hsearch
  obtain ⟨hsize, hwindows, hcandidates⟩ := hsearch
  rintro ⟨hleast, hempty⟩
  rcases Nat.lt_or_eq_of_le hend with hlt | heq
  · have hnone : s.windows n = ∅ := by
      rw [Set.eq_empty_iff_forall_notMem]
      intro i hi
      obtain ⟨hfirst, hlast, hfree⟩ := (mem_windows h hn).mp hi
      exact hcandidates hlt i hfirst hlast (hfree i le_rfl (by omega))
    have htakes := loop_takes s.allocator (i := s.allocator.rangeStart)
      (k := s.allocator.rangeEnd + 2 - n - s.allocator.rangeStart) hn (by omega) (by omega) hlt
      (fun d hd hdk => by simpa using hcandidates hlt d hd (by omega))
    have hraises := congrArg Prod.fst (hempty hnone)
    rw [allocateRange, htakes] at hraises
    cases hraises
  · have hoverflow := loop_overflows s.allocator (i := s.allocator.rangeStart)
      (k := s.allocator.rangeEnd + 2 - n - s.allocator.rangeStart) hn (by omega) (by omega) heq
      (fun d hd hdk => hwindows d hd (by omega)) (Or.inl rfl)
    rcases (s.windows n).eq_empty_or_nonempty with hnone | hsome
    · have hraises := congrArg Prod.fst (hempty hnone)
      rw [allocateRange, hoverflow] at hraises
      cases hraises
    · obtain ⟨x, hx⟩ := exists_least hsome
      have hfound := congrArg Prod.fst (hleast x hx)
      rw [allocateRange, hoverflow] at hfound
      cases hfound

lemma exact_iff_fits (h : s.Valid) (c : Call) : s.Exact c ↔ s.Fits c := by
  cases c with
  | reserveNumber number => exact Iff.rfl
  | reserveNumbers attributeName nodes => exact Iff.rfl
  | allocate => exact iff_of_true ⟨fun x => allocate_of_least h, allocate_of_empty h⟩ trivial
  | allocateRange n =>
    constructor
    · intro hexact
      by_contra hsearch
      exact not_exact_of_not_searchable h hsearch hexact
    · intro hsearch
      exact ⟨fun x => allocateRange_of_least h hsearch, allocateRange_of_empty h hsearch⟩

/-! ### Steps -/

lemma Trace.Valid.handOut (h : s.Valid) {a b : Nat} (hfree : ∀ y, a ≤ y → y ≤ b → y ∈ s.free) :
    (⟨s.allocator.mark a b, handedOut (.ok (a, b)) ++ s.history⟩ : Trace).Valid := by
  have hevents : ∀ e, e ∈ handedOut (.ok (a, b)) ↔ ∃ y, (a ≤ y ∧ y ≤ b) ∧ .handedOut y = e := by
    intro e
    simp only [handedOut, List.mem_map, List.mem_range'_1]
    constructor
    · rintro ⟨y, hy, rfl⟩
      exact ⟨y, by omega, rfl⟩
    · rintro ⟨y, hy, rfl⟩
      exact ⟨y, by omega, rfl⟩
  constructor
  · intro y hfirst hlast
    rw [mark_numbers, h.numbers y hfirst hlast]
    simp only [Trace.free, Set.mem_ofPred_eq, List.mem_append, hevents, NumberAllocator.mark]
    simp only [reduceCtorEq, and_false, exists_false, false_or, Event.handedOut.injEq, exists_eq_right, not_or]
    tauto
  · rw [Distinct, List.pairwise_append]
    refine ⟨?_, h.distinct, ?_⟩
    · rw [handedOut, List.pairwise_map]
      refine List.Pairwise.imp ?_ (List.nodup_range' 1)
      intro y z hne x hx
      rw [Event.handedOut.injEq] at hx
      subst hx
      exact ⟨fun heq => hne (Event.handedOut.inj heq).symm, fun heq => by cases heq⟩
    · intro e he d hd x hx
      obtain ⟨y, hy, rfl⟩ := (hevents e).mp he
      rw [Event.handedOut.injEq] at hx
      subst hx
      obtain ⟨-, -, hreserved, hhanded⟩ := hfree y hy.1 hy.2
      exact ⟨fun heq => hhanded (heq ▸ hd), fun heq => hreserved (heq ▸ hd)⟩

lemma Trace.Valid.reserve (h : s.Valid) (number : Nat) :
    (⟨reserveNumber s.allocator number, .reserved number :: s.history⟩ : Trace).Valid := by
  constructor
  · intro y hfirst hlast
    unfold reserveNumber at hfirst hlast ⊢
    simp only [Trace.free, Set.mem_ofPred_eq, List.mem_cons, Event.reserved.injEq, reduceCtorEq, false_or, not_or]
    by_cases hin : s.allocator.rangeStart ≤ number ∧ number ≤ s.allocator.rangeEnd
    · simp only [if_pos hin] at hfirst hlast ⊢
      rw [mark_numbers, h.numbers y hfirst hlast]
      simp only [Trace.free, Set.mem_ofPred_eq, NumberAllocator.mark]
      have hne : ¬(number ≤ y ∧ y ≤ number) ↔ y ≠ number := by omega
      rw [hne]
      tauto
    · simp only [if_neg hin] at hfirst hlast ⊢
      rw [h.numbers y hfirst hlast]
      have hne : y ≠ number := by
        rintro rfl
        exact hin ⟨hfirst, hlast⟩
      simp only [Trace.free, Set.mem_ofPred_eq]
      tauto
  · exact List.Pairwise.cons (fun d _ x hx => by cases hx) h.distinct

lemma Trace.Valid.reserveNumbers (naturalValue : String → Option Nat) (attributeName : String) (nodes : List Node)
    (h : s.Valid) :
    (⟨(Utils.reserveNumbers naturalValue attributeName s.allocator nodes).2,
      ((reservedNumbers naturalValue attributeName nodes).map .reserved).reverse ++ s.history⟩ : Trace).Valid := by
  induction nodes generalizing s with
  | nil => exact h
  | cons node nodes ih =>
    unfold Utils.reserveNumbers reservedNumbers
    cases naturalValue (node.getAttribute attributeName) with
    | none => exact h
    | some number =>
      have hnext := ih (h.reserve number)
      simp only [List.map_cons, List.reverse_cons, List.append_assoc, List.singleton_append]
      exact hnext

/-- A step that meets the condition keeps the trace valid. -/
lemma Trace.Valid.step {naturalValue : String → Option Nat} {c : Call} {s' : Trace} (h : s.Valid) (hfits : s.Fits c)
    (hstep : s.step naturalValue c = some s') : s'.Valid := by
  cases c with
  | reserveNumber number =>
    obtain rfl := Option.some.inj hstep
    exact h.reserve number
  | reserveNumbers attributeName nodes =>
    obtain rfl := Option.some.inj hstep
    exact h.reserveNumbers naturalValue attributeName nodes
  | allocate =>
    simp only [Trace.step] at hstep
    rcases s.free.eq_empty_or_nonempty with hnone | hsome
    · rw [allocate_of_empty h hnone] at hstep
      obtain rfl := Option.some.inj hstep
      exact h
    · obtain ⟨x, hx⟩ := exists_least hsome
      rw [allocate_of_least h hx] at hstep
      obtain rfl := Option.some.inj hstep
      apply h.handOut
      intro y hxy hyx
      obtain rfl : y = x := by omega
      exact hx.1
  | allocateRange n =>
    simp only [Trace.step] at hstep
    rcases (s.windows n).eq_empty_or_nonempty with hnone | hsome
    · rw [allocateRange_of_empty h hfits hnone] at hstep
      obtain rfl := Option.some.inj hstep
      exact h
    · obtain ⟨x, hx⟩ := exists_least hsome
      have hn := n.pos
      rw [allocateRange_of_least h hfits hx] at hstep
      obtain rfl := Option.some.inj hstep
      exact h.handOut (fun y hxy hyx => hx.1 y hxy (by omega))

end Operations

/-- The traces of runs on a new allocator in which every range is requested while it is searchable. -/
def Reachable (naturalValue : String → Option Nat) (s : Trace) : Prop :=
  Reaches (Trace.step naturalValue) Trace.Fits
    (fun s => ∃ rangeStart rangeEnd valid natural, s = ⟨NumberAllocator.new rangeStart rangeEnd valid natural, []⟩) s

/-- In every trace of such a run no number was handed out twice or after it was reserved, and the next call is
exact if and only if it meets the condition, too. -/
theorem reachable_exact {naturalValue : String → Option Nat} {s : Trace} (h : Reachable naturalValue s) :
    Distinct s.history ∧ ∀ c, s.Exact c ↔ s.Fits c := by
  have hvalid : s.Valid := by
    refine Reaches.invariant h Trace.Valid ?_ (fun s c s' hs hfits hstep => hs.step hfits hstep)
    rintro s ⟨rangeStart, rangeEnd, valid, natural, rfl⟩
    refine ⟨?_, List.Pairwise.nil⟩
    intro x hfirst hlast
    simp only [Trace.free, Set.mem_ofPred_eq, List.not_mem_nil, not_false_eq_true, and_true]
    exact iff_of_true rfl ⟨hfirst, hlast⟩
  exact ⟨hvalid.distinct, exact_iff_fits hvalid⟩

/-- A run on an allocator for the numbers from 0 to 3: the first window of two numbers starts at 2. -/
def windowRun : List Call := [.reserveNumber 1, .allocateRange 2]

def fourNumbers : Trace := ⟨NumberAllocator.new 0 3 (by decide) (by decide), []⟩

theorem reachable_exact_window : ∃ s, run (Trace.step (fun _ => none)) fourNumbers windowRun = some s ∧
    s.history = [.handedOut 2, .handedOut 3, .reserved 1] ∧ Distinct s.history ∧ ∀ c, s.Exact c ↔ s.Fits c := by
  have hstart : Reachable (fun _ => none) fourNumbers := Reaches.start ⟨0, 3, _, _, rfl⟩
  have hreserved := hstart.next (a := Call.reserveNumber 1) trivial rfl
  have hrange := hreserved.next (a := Call.allocateRange 2) (Or.inr (Or.inr ⟨by decide, 0, by decide, by decide, rfl⟩)) rfl
  exact ⟨_, rfl, rfl, reachable_exact hrange⟩

def twoNumbers : Trace := ⟨NumberAllocator.new 0 1 (by decide) (by decide), []⟩

/-- With both numbers handed out, a range of one number is still found. -/
theorem range_handed_out_twice :
    ∃ s, run (Trace.step (fun _ => none)) twoNumbers [.allocate, .allocate, .allocateRange 1] = some s ∧
      s.history = [.handedOut 1, .handedOut 1, .handedOut 0] ∧ ¬Distinct s.history := by
  refine ⟨_, rfl, rfl, ?_⟩
  intro hdistinct
  have hhead := (List.pairwise_cons.mp hdistinct).1 (.handedOut 1) (by decide) 1 rfl
  exact hhead.1 rfl

end Muen.Tools.Expanders.Utils
