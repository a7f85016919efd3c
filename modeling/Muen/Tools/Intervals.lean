import Muen.Lib.CursorList
import Muen.Lib.Ranges
import Muen.Tools.Utils

/-!
# Mutools.Intervals

Finite unions of 64-bit intervals kept as a list of intervals. The first part is the package
body, loop by loop; a loop that takes no branch repeats with the same cursor, so every loop
carries a bound on its iterations and has no result once the bound is exhausted. The second
part shows that the lists reached by the package operations are sorted, disjoint and not
adjacent, and that the operations are union, difference and least-address reservation.
-/

namespace Muen.Tools.Intervals
open Muen.Lib

structure Interval where
  firstElement : Unsigned64
  lastElement : Unsigned64
deriving DecidableEq, Repr

/-- `Interval_List_Type`. -/
abbrev IntervalList := CursorList Interval

inductive IntervalError where
  | outOfSpace (message : String)
  | invalidInterval (message : String)
deriving DecidableEq, Repr

def isEmpty (i : Interval) : Bool := i.firstElement > i.lastElement

def deleteContainedLoop (interval : Interval) : Nat → IntervalList → Cursor → Option IntervalList
  | 0, _, _ => none
  | _ + 1, list, none => some list
  | fuel + 1, list, some curr => do
    let e ← list.element (some curr)
    if e.lastElement < interval.firstElement then
      deleteContainedLoop interval fuel list (list.next (some curr))
    else if e.firstElement ≥ interval.firstElement ∧ e.lastElement ≤ interval.lastElement then
      let nextPosition := list.next (some curr)
      deleteContainedLoop interval fuel (list.delete curr) nextPosition
    else if e.firstElement > interval.lastElement then
      some list
    else
      deleteContainedLoop interval fuel list (some curr)

def deleteContainedIntervals (list : IntervalList) (interval : Interval) : Option IntervalList :=
  deleteContainedLoop interval (list.nodes.length + 1) list list.first

def extendLoop (inputIval : Interval) : Nat → IntervalList → Cursor → Interval → Option Interval
  | 0, _, _, _ => none
  | _ + 1, _, none, outputIval => some outputIval
  | fuel + 1, list, some curr, outputIval => do
    let e ← list.element (some curr)
    if inputIval.lastElement < BitVec.allOnes 64 ∧ e.firstElement > inputIval.lastElement + 1 then
      some outputIval
    else
      let outputIval :=
        if e.firstElement < inputIval.firstElement ∧
            e.lastElement ≥ inputIval.firstElement - 1 then
          { outputIval with firstElement := e.firstElement }
        else outputIval
      let outputIval :=
        if e.lastElement > inputIval.lastElement ∧
            e.firstElement ≤ inputIval.lastElement + 1 then
          { outputIval with lastElement := e.lastElement }
        else outputIval
      extendLoop inputIval fuel list (list.next (some curr)) outputIval

def extendInterval (list : IntervalList) (inputIval : Interval) : Option Interval :=
  extendLoop inputIval (list.nodes.length + 1) list list.first inputIval

def insertLoop (interval : Interval) : Nat → IntervalList → Cursor → Option IntervalList
  | 0, _, _ => none
  | _ + 1, list, none => some (list.insertBefore none interval)
  | fuel + 1, list, some curr => do
    let e ← list.element (some curr)
    if e.firstElement < interval.firstElement then
      insertLoop interval fuel list (list.next (some curr))
    else if e.firstElement > interval.firstElement then
      some (list.insertBefore (some curr) interval)
    else
      insertLoop interval fuel list (some curr)

def insertInterval (list : IntervalList) (interval : Interval) : Option IntervalList :=
  insertLoop interval (list.nodes.length + 1) list list.first

def addInterval (list : IntervalList) (interval : Interval) : Option IntervalList :=
  if isEmpty interval then some list
  else do
    let extendedInterval ← extendInterval list interval
    let list ← deleteContainedIntervals list extendedInterval
    insertInterval list extendedInterval

def clear (_ : IntervalList) : IntervalList := CursorList.empty

def reserveLoop (size : Unsigned64) :
    Nat → IntervalList → Cursor → Option (Except IntervalError Unsigned64 × IntervalList)
  | 0, _, _ => none
  | _ + 1, list, none =>
    some (.error (.outOfSpace ("Cannot find free interval of size '" ++ toHex size ++ "'")), list)
  | fuel + 1, list, some curr => do
    let e ← list.element (some curr)
    let currSizeMinus1 := e.lastElement - e.firstElement
    if currSizeMinus1 > size - 1 then
      some (.ok e.firstElement,
        list.replaceElement curr ⟨e.firstElement + size, e.lastElement⟩)
    else if currSizeMinus1 = size - 1 then
      some (.ok e.firstElement, list.delete curr)
    else
      reserveLoop size fuel list (list.next (some curr))

def reserveInterval (list : IntervalList) (size : Unsigned64) :
    Option (Except IntervalError Unsigned64 × IntervalList) :=
  reserveLoop size (list.nodes.length + 1) list list.first

def subtractLoop (interval : Interval) :
    Nat → IntervalList → Cursor → Cursor → Option IntervalList
  | 0, _, _, _ => none
  | _ + 1, list, none, _ => some list
  | fuel + 1, list, some curr, nextPosition => do
    let e ← list.element (some curr)
    if e.lastElement < interval.firstElement then
      subtractLoop interval fuel list (list.next (some curr)) nextPosition
    else if e.firstElement < interval.firstElement ∧ e.lastElement ≥ interval.firstElement then
      let list := list.insertBefore (list.next (some curr)) ⟨interval.firstElement, e.lastElement⟩
      let list := list.replaceElement curr ⟨e.firstElement, interval.firstElement - 1⟩
      subtractLoop interval fuel list (list.next (some curr)) nextPosition
    else if e.lastElement ≤ interval.lastElement then
      let nextPosition := list.next (some curr)
      subtractLoop interval fuel (list.delete curr) nextPosition nextPosition
    else if e.firstElement ≤ interval.lastElement then
      let list := list.replaceElement curr ⟨interval.lastElement + 1, e.lastElement⟩
      subtractLoop interval fuel list nextPosition nextPosition
    else
      some list

def subtractInterval (list : IntervalList) (interval : Interval) : Option IntervalList :=
  if isEmpty interval then some list
  else subtractLoop interval (2 * list.nodes.length + 4) list list.first list.first

/-- The form of `Subtract_Interval` that takes a first element and a size. -/
def subtractSized (list : IntervalList) (firstElement size : Unsigned64) :
    Option (Except IntervalError Unit × IntervalList) :=
  if size = 0 then some (.ok (), list)
  else if firstElement > BitVec.allOnes 64 - size + 1 then
    some (.error (.invalidInterval "Unsigned_64 overflow when trying to subtract an interval"), list)
  else do
    let list ← subtractInterval list ⟨firstElement, firstElement + size - 1⟩
    some (.ok (), list)

/-! ### Denotation -/

/-- The addresses of an interval. -/
def Interval.toSet (i : Interval) : Set Unsigned64 :=
  {a | i.firstElement ≤ a ∧ a ≤ i.lastElement}

/-- The set denoted by a list of intervals. -/
abbrev covers (l : List Interval) : Set Unsigned64 := covered Interval.toSet l

/-- Nonempty intervals in ascending order with at least one address between neighbours. -/
abbrev WellFormed (l : List Interval) : Prop :=
  Ordered (fun i : Interval => i.firstElement ≤ i.lastElement)
    (fun i j => i.lastElement.toNat + 1 < j.firstElement.toNat) l

lemma mem_toSet {i : Interval} {a : Unsigned64} :
    a ∈ i.toSet ↔ i.firstElement ≤ a ∧ a ≤ i.lastElement := Iff.rfl

lemma toSet_of_isEmpty {i : Interval} (h : isEmpty i) : i.toSet = ∅ := by
  have hgt : i.firstElement > i.lastElement := by simpa [isEmpty] using h
  ext a
  rw [mem_toSet, Set.mem_empty_iff_false, iff_false]
  bv_omega

lemma le_of_not_isEmpty {i : Interval} (h : ¬isEmpty i) : i.firstElement ≤ i.lastElement := by
  have : ¬ i.firstElement > i.lastElement := by simpa [isEmpty] using h
  bv_omega

/-! ### Add_Interval -/

/-- `e` reaches the input interval from the left: it starts before it and ends at or after the
address in front of it. -/
def ReachesLeft (i e : Interval) : Prop :=
  e.firstElement < i.firstElement ∧ i.firstElement.toNat ≤ e.lastElement.toNat + 1

def ReachesRight (i e : Interval) : Prop :=
  i.lastElement < e.lastElement ∧ e.firstElement.toNat ≤ i.lastElement.toNat + 1

instance (i e : Interval) : Decidable (ReachesLeft i e) := inferInstanceAs (Decidable (_ ∧ _))

instance (i e : Interval) : Decidable (ReachesRight i e) := inferInstanceAs (Decidable (_ ∧ _))

/-- What `Extend_Interval` makes of a bound: the bound of the interval that reaches the input
on that side, if there is one. -/
structure Extends (i : Interval) (l : List Interval) (out r : Interval) : Prop where
  first_eq : r.firstElement = out.firstElement ∨ ∃ e ∈ l, ReachesLeft i e ∧ r.firstElement = e.firstElement
  last_eq : r.lastElement = out.lastElement ∨ ∃ e ∈ l, ReachesRight i e ∧ r.lastElement = e.lastElement
  first_of : ∀ e ∈ l, ReachesLeft i e → r.firstElement = e.firstElement
  last_of : ∀ e ∈ l, ReachesRight i e → r.lastElement = e.lastElement

lemma reachesLeft_iff (i e : Interval) :
    (e.firstElement < i.firstElement ∧ e.lastElement ≥ i.firstElement - 1) ↔ ReachesLeft i e := by
  unfold ReachesLeft
  constructor
  · rintro ⟨h1, h2⟩
    exact ⟨h1, by bv_omega⟩
  · rintro ⟨h1, h2⟩
    exact ⟨h1, by bv_omega⟩

lemma reachesRight_iff (i e : Interval) :
    (e.lastElement > i.lastElement ∧ e.firstElement ≤ i.lastElement + 1) ↔ ReachesRight i e := by
  unfold ReachesRight
  constructor
  · rintro ⟨h1, h2⟩
    exact ⟨h1, by bv_omega⟩
  · rintro ⟨h1, h2⟩
    exact ⟨h1, by bv_omega⟩

lemma not_reachesLeft_of_reachesLeft {i e d : Interval} (h : ReachesLeft i e)
    (hgap : e.lastElement.toNat + 1 < d.firstElement.toNat) : ¬ReachesLeft i d := by
  rintro ⟨hd, -⟩
  have he := h.2
  bv_omega

lemma not_reachesRight_of_reachesRight {i e d : Interval} (h : ReachesRight i e)
    (hgap : e.lastElement.toNat + 1 < d.firstElement.toNat) : ¬ReachesRight i d := by
  rintro ⟨-, hd⟩
  have he := h.1
  bv_omega

/-- The exit test of the loop holds from some interval on, and such intervals reach the input
on neither side. -/
lemma extends_of_exit {i out : Interval} {l : List Interval} (hi : i.firstElement ≤ i.lastElement)
    (h : ∀ e ∈ l, i.lastElement.toNat + 1 < e.firstElement.toNat) : Extends i l out out := by
  have hleft : ∀ e ∈ l, ¬ReachesLeft i e := by
    rintro e he ⟨h1, -⟩
    have := h e he
    bv_omega
  have hright : ∀ e ∈ l, ¬ReachesRight i e := by
    rintro e he ⟨-, h1⟩
    have := h e he
    omega
  exact ⟨Or.inl rfl, Or.inl rfl, fun e he h => absurd h (hleft e he), fun e he h => absurd h (hright e he)⟩

lemma extends_cons {i e out mid r : Interval} {l : List Interval}
    (hgap : ∀ d ∈ l, e.lastElement.toNat + 1 < d.firstElement.toNat)
    (hfirst : mid.firstElement = if ReachesLeft i e then e.firstElement else out.firstElement)
    (hlast : mid.lastElement = if ReachesRight i e then e.lastElement else out.lastElement)
    (h : Extends i l mid r) : Extends i (e :: l) out r := by
  have hl : ReachesLeft i e → r.firstElement = e.firstElement := by
    intro he
    rcases h.first_eq with hr | ⟨d, hd, hdl, -⟩
    · rw [hr, hfirst, if_pos he]
    · exact absurd hdl (not_reachesLeft_of_reachesLeft he (hgap d hd))
  have hr : ReachesRight i e → r.lastElement = e.lastElement := by
    intro he
    rcases h.last_eq with hr | ⟨d, hd, hdr, -⟩
    · rw [hr, hlast, if_pos he]
    · exact absurd hdr (not_reachesRight_of_reachesRight he (hgap d hd))
  refine ⟨?_, ?_, ?_, ?_⟩
  · by_cases he : ReachesLeft i e
    · exact Or.inr ⟨e, List.mem_cons_self, he, hl he⟩
    · rcases h.first_eq with hf | ⟨d, hd, hdl, hf⟩
      · exact Or.inl (by rw [hf, hfirst, if_neg he])
      · exact Or.inr ⟨d, List.mem_cons_of_mem e hd, hdl, hf⟩
  · by_cases he : ReachesRight i e
    · exact Or.inr ⟨e, List.mem_cons_self, he, hr he⟩
    · rcases h.last_eq with hf | ⟨d, hd, hdr, hf⟩
      · exact Or.inl (by rw [hf, hlast, if_neg he])
      · exact Or.inr ⟨d, List.mem_cons_of_mem e hd, hdr, hf⟩
  · rintro d hd hdl
    rcases List.mem_cons.mp hd with rfl | hd
    · exact hl hdl
    · exact h.first_of d hd hdl
  · rintro d hd hdr
    rcases List.mem_cons.mp hd with rfl | hd
    · exact hr hdr
    · exact h.last_of d hd hdr

lemma extendLoop_extends (i : Interval) (hi : i.firstElement ≤ i.lastElement) (list : IntervalList)
    (post : List (Nat × Interval)) :
    ∀ (pre : List (Nat × Interval)) (fuel : Nat) (out : Interval),
      list.nodes = pre ++ post → post.length < fuel → WellFormed (post.map Prod.snd) →
      ∃ r, extendLoop i fuel list (CursorList.headCursor post) out = some r ∧
        Extends i (post.map Prod.snd) out r := by
  induction post with
  | nil =>
    intro pre fuel out _ hfuel _
    obtain ⟨fuel, rfl⟩ : ∃ n, fuel = n + 1 := ⟨fuel - 1, by omega⟩
    exact ⟨out, rfl, extends_of_exit hi (by simp)⟩
  | cons n post ih =>
    obtain ⟨k, e⟩ := n
    intro pre fuel out hnodes hfuel hwf
    obtain ⟨fuel, rfl⟩ : ∃ n, fuel = n + 1 := ⟨fuel - 1, by omega⟩
    obtain ⟨hne, hgap, hwf'⟩ := ordered_cons.mp hwf
    have helem := CursorList.element_of_split hnodes
    have hnext := CursorList.next_of_split hnodes
    rw [CursorList.headCursor_cons, extendLoop, helem]
    simp only [Option.bind_eq_bind, Option.bind_some, hnext]
    by_cases hexit : i.lastElement < BitVec.allOnes 64 ∧ e.firstElement > i.lastElement + 1
    · rw [if_pos hexit]
      refine ⟨out, rfl, extends_of_exit hi ?_⟩
      have he : i.lastElement.toNat + 1 < e.firstElement.toNat := by
        obtain ⟨h1, h2⟩ := hexit
        bv_omega
      intro d hd
      rcases List.mem_cons.mp hd with rfl | hd
      · exact he
      · have h1 := hgap d hd
        have h2 := hne
        bv_omega
    · rw [if_neg hexit]
      simp only [reachesLeft_iff, reachesRight_iff]
      obtain ⟨r, hr, hext⟩ := ih (pre ++ [(k, e)]) fuel _ (by rw [hnodes]; simp) (by simpa using hfuel) hwf'
      refine ⟨r, hr, extends_cons hgap ?_ ?_ hext⟩
      · split_ifs <;> rfl
      · split_ifs <;> rfl

lemma extends_first_le {i r : Interval} {l : List Interval} (h : Extends i l i r) :
    r.firstElement ≤ i.firstElement := by
  rcases h.first_eq with hr | ⟨d, -, hd, hr⟩
  · rw [hr]; exact BitVec.le_refl _
  · have := hd.1
    bv_omega

lemma extends_le_last {i r : Interval} {l : List Interval} (h : Extends i l i r) :
    i.lastElement ≤ r.lastElement := by
  rcases h.last_eq with hr | ⟨d, -, hd, hr⟩
  · rw [hr]; exact BitVec.le_refl _
  · have := hd.1
    bv_omega

/-- Against the extended interval every listed interval lies apart or inside. -/
lemma extends_trichotomy {i r e : Interval} {l : List Interval} (hwf : WellFormed l) (h : Extends i l i r) (he : e ∈ l) :
    e.lastElement.toNat + 1 < r.firstElement.toNat ∨
      (r.firstElement ≤ e.firstElement ∧ e.lastElement ≤ r.lastElement) ∨
      r.lastElement.toNat + 1 < e.firstElement.toNat := by
  have hne := hwf.1 e he
  have hrf := extends_first_le h
  have hrl := extends_le_last h
  by_cases hbefore : e.lastElement.toNat + 1 < i.firstElement.toNat
  · left
    rcases h.first_eq with hr | ⟨d, hd, ⟨hd1, hd2⟩, hr⟩
    · rwa [hr]
    · rcases hwf.compare hd he with rfl | hde | hed
      · omega
      · bv_omega
      · rwa [hr]
  by_cases hafter : i.lastElement.toNat + 1 < e.firstElement.toNat
  · right; right
    rcases h.last_eq with hr | ⟨d, hd, ⟨hd1, hd2⟩, hr⟩
    · rwa [hr]
    · rcases hwf.compare hd he with rfl | hde | hed
      · omega
      · rwa [hr]
      · bv_omega
  right; left
  constructor
  · by_cases hl : ReachesLeft i e
    · rw [h.first_of e he hl]; exact BitVec.le_refl _
    · unfold ReachesLeft at hl
      bv_omega
  · by_cases hr : ReachesRight i e
    · rw [h.last_of e he hr]; exact BitVec.le_refl _
    · unfold ReachesRight at hr
      bv_omega

/-- The extended interval adds to the input only addresses that the list has already. -/
lemma extends_toSet_subset {i r : Interval} {l : List Interval} (h : Extends i l i r) :
    r.toSet ⊆ i.toSet ∪ covers l := by
  rintro a ⟨ha1, ha2⟩
  by_cases hl : a < i.firstElement
  · rcases h.first_eq with hr | ⟨d, hd, ⟨hd1, hd2⟩, hr⟩
    · bv_omega
    · exact Or.inr ⟨d, hd, by rw [← hr]; exact ha1, by bv_omega⟩
  by_cases hu : i.lastElement < a
  · rcases h.last_eq with hr | ⟨d, hd, ⟨hd1, hd2⟩, hr⟩
    · bv_omega
    · exact Or.inr ⟨d, hd, by bv_omega, by rw [← hr]; exact ha2⟩
  · exact Or.inl ⟨by bv_omega, by bv_omega⟩

/-- `e` is one of the intervals that `Delete_Contained_Intervals` deletes. -/
def Contained (r e : Interval) : Prop :=
  e.firstElement ≥ r.firstElement ∧ e.lastElement ≤ r.lastElement

instance (r e : Interval) : Decidable (Contained r e) := inferInstanceAs (Decidable (_ ∧ _))

lemma contained_iff (r e : Interval) :
    (e.firstElement ≥ r.firstElement ∧ e.lastElement ≤ r.lastElement) ↔ Contained r e := Iff.rfl

lemma deleteContainedLoop_elems (r : Interval) (post : List (Nat × Interval)) :
    ∀ (list : IntervalList) (pre : List (Nat × Interval)) (fuel : Nat),
      list.nodes = pre ++ post → post.length < fuel → WellFormed (post.map Prod.snd) →
      (∀ e ∈ post.map Prod.snd, e.lastElement < r.firstElement ∨ Contained r e ∨
        r.lastElement < e.firstElement) →
      ∃ list', deleteContainedLoop r fuel list (CursorList.headCursor post) = some list' ∧
        list'.elems = pre.map Prod.snd ++ (post.map Prod.snd).filter (fun e => ¬Contained r e) := by
  induction post with
  | nil =>
    intro list pre fuel hnodes hfuel _ _
    obtain ⟨fuel, rfl⟩ : ∃ n, fuel = n + 1 := ⟨fuel - 1, by omega⟩
    exact ⟨list, rfl, by simp [CursorList.elems, hnodes]⟩
  | cons n post ih =>
    obtain ⟨k, e⟩ := n
    intro list pre fuel hnodes hfuel hwf htri
    obtain ⟨fuel, rfl⟩ : ∃ n, fuel = n + 1 := ⟨fuel - 1, by omega⟩
    obtain ⟨hne, hgap, hwf'⟩ := ordered_cons.mp hwf
    have hfuel' : post.length < fuel := by simpa using hfuel
    have htri' : ∀ d ∈ post.map Prod.snd, d.lastElement < r.firstElement ∨ Contained r d ∨
        r.lastElement < d.firstElement := fun d hd => htri d (List.mem_cons_of_mem e hd)
    have helem := CursorList.element_of_split hnodes
    have hnext := CursorList.next_of_split hnodes
    rw [CursorList.headCursor_cons, deleteContainedLoop, helem]
    simp only [Option.bind_eq_bind, Option.bind_some, hnext, contained_iff]
    by_cases hbefore : e.lastElement < r.firstElement
    · rw [if_pos hbefore]
      obtain ⟨list', hl, he⟩ := ih list (pre ++ [(k, e)]) fuel (by rw [hnodes]; simp) hfuel' hwf' htri'
      refine ⟨list', hl, ?_⟩
      have hc : ¬Contained r e := by
        rintro ⟨h1, -⟩
        bv_omega
      rw [he, List.map_cons, List.filter_cons_of_pos (by simpa using hc)]
      simp
    · rw [if_neg hbefore]
      by_cases hc : Contained r e
      · rw [if_pos hc]
        obtain ⟨list', hl, he⟩ := ih (list.delete k) pre fuel (CursorList.delete_nodes hnodes) hfuel' hwf' htri'
        exact ⟨list', hl, by rw [he, List.map_cons, List.filter_cons_of_neg (by simpa using hc)]⟩
      · have hafter : r.lastElement < e.firstElement := by
          rcases htri e List.mem_cons_self with h | h | h
          · exact absurd h hbefore
          · exact absurd h hc
          · exact h
        rw [if_neg hc, if_pos hafter]
        refine ⟨list, rfl, ?_⟩
        have hall : ∀ d ∈ e :: post.map Prod.snd, ¬Contained r d := by
          rintro d hd ⟨-, h2⟩
          rcases List.mem_cons.mp hd with rfl | hd
          · bv_omega
          · have h1 := hgap d hd
            have h3 := hwf'.1 d hd
            bv_omega
        have hfilter : (e :: post.map Prod.snd).filter (fun d => ¬Contained r d) = e :: post.map Prod.snd :=
          List.filter_eq_self.mpr (fun d hd => by simpa using hall d hd)
        rw [List.map_cons, hfilter]
        simp [CursorList.elems, hnodes]

lemma insertLoop_elems (r : Interval) (post : List (Nat × Interval)) :
    ∀ (list : IntervalList) (pre : List (Nat × Interval)) (fuel : Nat),
      list.nodes = pre ++ post → post.length < fuel →
      (∀ e ∈ post.map Prod.snd, e.firstElement ≠ r.firstElement) →
      ∃ list' before after, insertLoop r fuel list (CursorList.headCursor post) = some list' ∧
        post.map Prod.snd = before ++ after ∧ list'.elems = pre.map Prod.snd ++ (before ++ r :: after) ∧
        (∀ e ∈ before, e.firstElement < r.firstElement) ∧
        (∀ e ∈ after.head?, r.firstElement < e.firstElement) := by
  induction post with
  | nil =>
    intro list pre fuel hnodes hfuel _
    obtain ⟨fuel, rfl⟩ : ∃ n, fuel = n + 1 := ⟨fuel - 1, by omega⟩
    refine ⟨_, [], [], rfl, rfl, ?_, by simp, by simp⟩
    have h := CursorList.insertBefore_nodes hnodes r
    rw [CursorList.headCursor_nil] at h
    simp [CursorList.elems, h]
  | cons n post ih =>
    obtain ⟨k, e⟩ := n
    intro list pre fuel hnodes hfuel hdiff
    obtain ⟨fuel, rfl⟩ : ∃ n, fuel = n + 1 := ⟨fuel - 1, by omega⟩
    have helem := CursorList.element_of_split hnodes
    have hnext := CursorList.next_of_split hnodes
    rw [CursorList.headCursor_cons, insertLoop, helem]
    simp only [Option.bind_eq_bind, Option.bind_some, hnext]
    by_cases hlt : e.firstElement < r.firstElement
    · rw [if_pos hlt]
      obtain ⟨list', before, after, hl, hsplit, he, hb, ha⟩ := ih list (pre ++ [(k, e)]) fuel
        (by rw [hnodes]; simp) (by simpa using hfuel) (fun d hd => hdiff d (List.mem_cons_of_mem e hd))
      refine ⟨list', e :: before, after, hl, by rw [List.map_cons, hsplit, List.cons_append], ?_, ?_, ha⟩
      · rw [he]; simp
      · intro d hd
        rcases List.mem_cons.mp hd with rfl | hd
        · exact hlt
        · exact hb d hd
    · have hgt : e.firstElement > r.firstElement := by
        have := hdiff e List.mem_cons_self
        bv_omega
      rw [if_neg hlt, if_pos hgt]
      refine ⟨_, [], e :: post.map Prod.snd, rfl, rfl, ?_, by simp, by simpa using hgt⟩
      have h := CursorList.insertBefore_nodes hnodes r
      rw [CursorList.headCursor_cons] at h
      simp [CursorList.elems, h]

/-- The intervals of the list that lie apart from the extended interval, with that interval put
in between them, are well-formed again. -/
lemma wellFormed_insert {r : Interval} {l before after : List Interval} (hwf : WellFormed l)
    (hr : r.firstElement ≤ r.lastElement)
    (hapart : ∀ e ∈ l, e.lastElement.toNat + 1 < r.firstElement.toNat ∨
      r.lastElement.toNat + 1 < e.firstElement.toNat)
    (hsplit : l = before ++ after) (hbefore : ∀ e ∈ before, e.firstElement < r.firstElement)
    (hafter : ∀ e ∈ after.head?, r.firstElement < e.firstElement) :
    WellFormed (before ++ r :: after) := by
  subst hsplit
  obtain ⟨hwb, hwa, hba⟩ := ordered_append.mp hwf
  have hb : ∀ e ∈ before, e.lastElement.toNat + 1 < r.firstElement.toNat := by
    intro e he
    have h1 := hbefore e he
    rcases hapart e (List.mem_append_left after he) with h | h
    · exact h
    · bv_omega
  have ha : ∀ e ∈ after, r.lastElement.toNat + 1 < e.firstElement.toNat := by
    intro e he
    have h1 : r.firstElement < e.firstElement := by
      cases after with
      | nil => simp at he
      | cons d after =>
        have hd := hafter d (by simp)
        obtain ⟨hne, hgap, -⟩ := ordered_cons.mp hwa
        rcases List.mem_cons.mp he with rfl | he
        · exact hd
        · have := hgap e he
          bv_omega
    have h2 := hwa.1 e he
    rcases hapart e (List.mem_append_right before he) with h | h
    · bv_omega
    · exact h
  have hsingle : WellFormed [r] := ordered_cons.mpr ⟨hr, by simp, ordered_nil⟩
  apply hwf.insert hsingle
  · intro e he d hd
    rw [List.mem_singleton.mp hd]
    exact hb e he
  · intro d hd e he
    rw [List.mem_singleton.mp hd]
    exact ha e he

/-- Deleting the contained intervals and inserting the extended one leaves the union. -/
lemma covers_insert {i r : Interval} {l before after : List Interval} (h : Extends i l i r)
    (hsplit : l.filter (fun e => ¬Contained r e) = before ++ after) :
    covers (before ++ r :: after) = covers l ∪ i.toSet := by
  have hmem : ∀ e, e ∈ before ∨ e ∈ after ↔ e ∈ l ∧ ¬Contained r e := by
    intro e
    rw [← List.mem_append, ← hsplit]
    simp
  apply Set.Subset.antisymm
  · rintro a ⟨e, he, ha⟩
    rcases List.mem_append.mp he with he | he
    · exact Or.inl ⟨e, ((hmem e).mp (Or.inl he)).1, ha⟩
    · rcases List.mem_cons.mp he with rfl | he
      · exact (extends_toSet_subset h ha).symm
      · exact Or.inl ⟨e, ((hmem e).mp (Or.inr he)).1, ha⟩
  · rintro a (⟨e, he, ha⟩ | ha)
    · by_cases hc : Contained r e
      · refine ⟨r, by simp, ?_⟩
        obtain ⟨h1, h2⟩ := hc
        obtain ⟨h3, h4⟩ := ha
        exact ⟨by bv_omega, by bv_omega⟩
      · refine ⟨e, ?_, ha⟩
        rcases (hmem e).mpr ⟨he, hc⟩ with hb | hb <;> simp [hb]
    · have h1 := extends_first_le h
      have h2 := extends_le_last h
      obtain ⟨h3, h4⟩ := ha
      exact ⟨r, by simp, by bv_omega, by bv_omega⟩

lemma addInterval_spec (list : IntervalList) (i : Interval) (hwf : WellFormed list.elems) :
    ∃ list', addInterval list i = some list' ∧ WellFormed list'.elems ∧
      covers list'.elems = covers list.elems ∪ i.toSet := by
  unfold addInterval
  by_cases hempty : isEmpty i
  · rw [if_pos hempty]
    exact ⟨list, rfl, hwf, by rw [toSet_of_isEmpty hempty, Set.union_empty]⟩
  · rw [if_neg hempty]
    have hi := le_of_not_isEmpty hempty
    obtain ⟨r, hr, hext⟩ := extendLoop_extends i hi list list.nodes [] (list.nodes.length + 1) i
      rfl (Nat.lt_succ_self _) hwf
    have hrle : r.firstElement ≤ r.lastElement := by
      have h1 := extends_first_le hext
      have h2 := extends_le_last hext
      bv_omega
    have htri := fun (e : Interval) (he : e ∈ list.elems) => extends_trichotomy hwf hext he
    obtain ⟨list₁, hl₁, he₁⟩ := deleteContainedLoop_elems r list.nodes list []
      (list.nodes.length + 1) rfl (Nat.lt_succ_self _) hwf (by
        intro e he
        rcases htri e he with h | h | h
        · exact Or.inl (by bv_omega)
        · exact Or.inr (Or.inl h)
        · exact Or.inr (Or.inr (by bv_omega)))
    have he₁ : list₁.elems = list.elems.filter (fun e => ¬Contained r e) := by
      simpa [CursorList.elems] using he₁
    have hapart : ∀ e ∈ list₁.elems, e.lastElement.toNat + 1 < r.firstElement.toNat ∨
        r.lastElement.toNat + 1 < e.firstElement.toNat := by
      intro e he
      have hmem : e ∈ list.elems ∧ ¬Contained r e := by
        rw [he₁] at he
        simpa using he
      rcases htri e hmem.1 with h | h | h
      · exact Or.inl h
      · exact absurd h hmem.2
      · exact Or.inr h
    have hwf₁ : WellFormed list₁.elems := by
      rw [he₁]
      exact hwf.filter _
    obtain ⟨list₂, before, after, hl₂, hsplit, he₂, hb, ha⟩ := insertLoop_elems r list₁.nodes list₁ []
      (list₁.nodes.length + 1) rfl (Nat.lt_succ_self _) (by
        intro e he
        have h1 := hwf₁.1 e he
        rcases hapart e he with h | h <;> bv_omega)
    have he₂ : list₂.elems = before ++ r :: after := by simpa using he₂
    refine ⟨list₂, ?_, ?_, ?_⟩
    · rw [extendInterval, CursorList.first, hr]
      simp only [Option.bind_eq_bind, Option.bind_some, deleteContainedIntervals, CursorList.first, hl₁,
        insertInterval, hl₂]
    · rw [he₂]
      exact wellFormed_insert hwf₁ hrle hapart hsplit hb ha
    · rw [he₂]
      exact covers_insert hext (by rw [← he₁]; exact hsplit)

/-! ### Subtract_Interval -/

/-- What is left of `e` without the addresses of `i`. -/
def cut (i e : Interval) : List Interval :=
  if e.lastElement < i.firstElement ∨ i.lastElement < e.firstElement then [e]
  else (if e.firstElement < i.firstElement then [⟨e.firstElement, i.firstElement - 1⟩] else []) ++
    (if i.lastElement < e.lastElement then [⟨i.lastElement + 1, e.lastElement⟩] else [])

lemma cut_before {i e : Interval} (h : e.lastElement < i.firstElement) : cut i e = [e] := by
  rw [cut, if_pos (Or.inl h)]

lemma cut_after {i e : Interval} (h : i.lastElement < e.firstElement) : cut i e = [e] := by
  rw [cut, if_pos (Or.inr h)]

lemma cut_contained {i e : Interval} (h1 : i.firstElement ≤ e.firstElement)
    (h2 : e.lastElement ≤ i.lastElement) (he : e.firstElement ≤ e.lastElement) : cut i e = [] := by
  rw [cut, if_neg (by bv_omega), if_neg (by bv_omega), if_neg (by bv_omega), List.nil_append]

lemma cut_right {i e : Interval} (h1 : i.firstElement ≤ e.firstElement)
    (h2 : i.lastElement < e.lastElement) (h3 : e.firstElement ≤ i.lastElement) :
    cut i e = [⟨i.lastElement + 1, e.lastElement⟩] := by
  rw [cut, if_neg (by bv_omega), if_neg (by bv_omega), if_pos h2, List.nil_append]

/-- An interval that straddles the lower bound is first split there. -/
lemma cut_split {i e : Interval} (hi : i.firstElement ≤ i.lastElement)
    (h1 : e.firstElement < i.firstElement) (h2 : i.firstElement ≤ e.lastElement) :
    cut i e = ⟨e.firstElement, i.firstElement - 1⟩ :: cut i ⟨i.firstElement, e.lastElement⟩ := by
  have hleft : cut i e = ⟨e.firstElement, i.firstElement - 1⟩ ::
      (if i.lastElement < e.lastElement then [⟨i.lastElement + 1, e.lastElement⟩] else []) := by
    rw [cut, if_neg (by bv_omega), if_pos h1, List.singleton_append]
  have hright : cut i ⟨i.firstElement, e.lastElement⟩ =
      if i.lastElement < e.lastElement then [⟨i.lastElement + 1, e.lastElement⟩] else [] := by
    rw [cut, if_neg (by bv_omega), if_neg (by bv_omega), List.nil_append]
  rw [hleft, hright]

lemma flatMap_cut_of_after {i : Interval} {l : List Interval}
    (h : ∀ e ∈ l, i.lastElement < e.firstElement) : l.flatMap (cut i) = l := by
  induction l with
  | nil => rfl
  | cons e l ih =>
    rw [List.flatMap_cons, cut_after (h e List.mem_cons_self),
      ih (fun d hd => h d (List.mem_cons_of_mem e hd)), List.singleton_append]

/-- Behind the interval the loop returns, also when it has to walk there from a cursor that was
left behind. -/
lemma subtractLoop_return (i : Interval) (hi : i.firstElement ≤ i.lastElement) (list : IntervalList)
    (np : Cursor) (post : List (Nat × Interval))
    (hne : ∀ e ∈ post.map Prod.snd, e.firstElement ≤ e.lastElement)
    (hafter : ∀ e ∈ post.map Prod.snd, i.lastElement < e.firstElement)
    (mid : List (Nat × Interval)) :
    ∀ (pre : List (Nat × Interval)) (fuel : Nat),
      list.nodes = pre ++ (mid ++ post) → mid.length < fuel →
      (∀ e ∈ mid.map Prod.snd, e.lastElement < i.firstElement) →
      subtractLoop i fuel list (CursorList.headCursor (mid ++ post)) np = some list := by
  induction mid with
  | nil =>
    intro pre fuel hnodes hfuel _
    obtain ⟨fuel, rfl⟩ : ∃ n, fuel = n + 1 := ⟨fuel - 1, by omega⟩
    cases post with
    | nil => rfl
    | cons n post =>
      obtain ⟨k, e⟩ := n
      have h1 : i.lastElement < e.firstElement := hafter e List.mem_cons_self
      have h2 : e.firstElement ≤ e.lastElement := hne e List.mem_cons_self
      rw [List.nil_append] at hnodes
      have helem := CursorList.element_of_split hnodes
      rw [List.nil_append, CursorList.headCursor_cons, subtractLoop, helem]
      simp only [Option.bind_eq_bind, Option.bind_some]
      rw [if_neg (by bv_omega), if_neg (by bv_omega), if_neg (by bv_omega), if_neg (by bv_omega)]
  | cons n mid ih =>
    obtain ⟨k, e⟩ := n
    intro pre fuel hnodes hfuel hbefore
    obtain ⟨fuel, rfl⟩ : ∃ n, fuel = n + 1 := ⟨fuel - 1, by omega⟩
    rw [List.cons_append] at hnodes
    have helem := CursorList.element_of_split hnodes
    have hnext := CursorList.next_of_split hnodes
    rw [List.cons_append, CursorList.headCursor_cons, subtractLoop, helem]
    simp only [Option.bind_eq_bind, Option.bind_some, hnext]
    rw [if_pos (hbefore e List.mem_cons_self)]
    exact ih (pre ++ [(k, e)]) fuel (by rw [hnodes]; simp) (by simpa using hfuel)
      (fun d hd => hbefore d (List.mem_cons_of_mem e hd))

/-- The deletions and the final trim. `mid` are the nodes between the cursor `Next_Position`
and the cursor `Curr`. -/
lemma subtractLoop_delete (i : Interval) (hi : i.firstElement ≤ i.lastElement)
    (post : List (Nat × Interval)) :
    ∀ (list : IntervalList) (pre mid : List (Nat × Interval)) (fuel : Nat),
      list.nodes = pre ++ (mid ++ post) → post.length + mid.length + 2 ≤ fuel →
      WellFormed (post.map Prod.snd) → (∀ e ∈ post.map Prod.snd, i.firstElement ≤ e.firstElement) →
      (∀ e ∈ mid.map Prod.snd, e.lastElement < i.firstElement) →
      ∃ list', subtractLoop i fuel list (CursorList.headCursor post) (CursorList.headCursor (mid ++ post))
          = some list' ∧
        list'.elems = (pre ++ mid).map Prod.snd ++ (post.map Prod.snd).flatMap (cut i) := by
  induction post with
  | nil =>
    intro list pre mid fuel hnodes hfuel _ _ _
    obtain ⟨fuel, rfl⟩ : ∃ n, fuel = n + 1 := ⟨fuel - 1, by omega⟩
    exact ⟨list, rfl, by simp [CursorList.elems, hnodes]⟩
  | cons n post ih =>
    obtain ⟨k, e⟩ := n
    intro list pre mid fuel hnodes hfuel hwf hfirst hmid
    obtain ⟨fuel, rfl⟩ : ∃ n, fuel = n + 1 := ⟨fuel - 1, by omega⟩
    simp only [List.length_cons] at hfuel
    have hnodes' : list.nodes = (pre ++ mid) ++ (k, e) :: post := by rw [hnodes]; simp
    have helem := CursorList.element_of_split hnodes'
    have hnext := CursorList.next_of_split hnodes'
    obtain ⟨hne, hgap, hwf'⟩ := ordered_cons.mp hwf
    have hfe : i.firstElement ≤ e.firstElement := hfirst e List.mem_cons_self
    have hfirst' : ∀ d ∈ post.map Prod.snd, i.firstElement ≤ d.firstElement :=
      fun d hd => hfirst d (List.mem_cons_of_mem e hd)
    have hnelist : ∀ d ∈ e :: post.map Prod.snd, d.firstElement ≤ d.lastElement := hwf.1
    by_cases hafter : i.lastElement < e.firstElement
    · -- nothing from here on meets the interval
      have hall : ∀ d ∈ ((k, e) :: post).map Prod.snd, i.lastElement < d.firstElement := by
        intro d hd
        rcases List.mem_cons.mp hd with rfl | hd
        · exact hafter
        · have := hgap d hd
          bv_omega
      refine ⟨list, subtractLoop_return i hi list _ ((k, e) :: post) hnelist hall [] (pre ++ mid) (fuel + 1)
        hnodes' (by simp) (by simp), ?_⟩
      rw [flatMap_cut_of_after hall, ← List.map_append, ← hnodes', CursorList.elems]
    rw [CursorList.headCursor_cons, subtractLoop, helem]
    simp only [Option.bind_eq_bind, Option.bind_some, hnext]
    rw [if_neg (by bv_omega), if_neg (by bv_omega), List.map_cons, List.flatMap_cons]
    by_cases hin : e.lastElement ≤ i.lastElement
    · rw [if_pos hin, cut_contained hfe hin hne, List.nil_append]
      obtain ⟨list', hl, he⟩ := ih (list.delete k) (pre ++ mid) [] fuel (CursorList.delete_nodes hnodes')
        (by simp only [List.length_nil]; omega) hwf' hfirst' (by simp)
      rw [List.nil_append] at hl
      exact ⟨list', hl, by rw [he, List.append_nil]⟩
    · have hlt : i.lastElement < e.lastElement := by bv_omega
      have hle : e.firstElement ≤ i.lastElement := by bv_omega
      rw [if_neg hin, if_pos hle, cut_right hfe hlt hle]
      have hnodes₁ := CursorList.replaceElement_nodes hnodes' ⟨i.lastElement + 1, e.lastElement⟩
      have hrest : ∀ d ∈ post.map Prod.snd, i.lastElement < d.firstElement := by
        intro d hd
        have := hgap d hd
        bv_omega
      have hhead : CursorList.headCursor (mid ++ (k, e) :: post)
          = CursorList.headCursor (mid ++ (k, ⟨i.lastElement + 1, e.lastElement⟩) :: post) := by
        cases mid <;> rfl
      have hret := subtractLoop_return i hi (list.replaceElement k ⟨i.lastElement + 1, e.lastElement⟩)
        (CursorList.headCursor (mid ++ (k, e) :: post)) ((k, ⟨i.lastElement + 1, e.lastElement⟩) :: post)
        (by
          intro d hd
          rcases List.mem_cons.mp hd with rfl | hd
          · simp only; bv_omega
          · exact hwf'.1 d hd)
        (by
          intro d hd
          rcases List.mem_cons.mp hd with rfl | hd
          · simp only; bv_omega
          · exact hrest d hd)
        mid pre fuel (by rw [hnodes₁, List.append_assoc]) (by omega) hmid
      rw [← hhead] at hret
      refine ⟨_, hret, ?_⟩
      rw [CursorList.elems, hnodes₁, flatMap_cut_of_after hrest]
      simp

/-- The search for the first interval that meets the subtracted one, and its split. -/
lemma subtractLoop_elems (i : Interval) (hi : i.firstElement ≤ i.lastElement)
    (post : List (Nat × Interval)) :
    ∀ (list : IntervalList) (mid : List (Nat × Interval)) (fuel : Nat),
      list.nodes = mid ++ post → 2 * post.length + mid.length + 4 ≤ fuel →
      WellFormed (post.map Prod.snd) → (∀ e ∈ mid.map Prod.snd, e.lastElement < i.firstElement) →
      ∃ list', subtractLoop i fuel list (CursorList.headCursor post) (CursorList.headCursor (mid ++ post))
          = some list' ∧
        list'.elems = mid.map Prod.snd ++ (post.map Prod.snd).flatMap (cut i) := by
  induction post with
  | nil =>
    intro list mid fuel hnodes hfuel _ _
    obtain ⟨fuel, rfl⟩ : ∃ n, fuel = n + 1 := ⟨fuel - 1, by omega⟩
    exact ⟨list, rfl, by simp [CursorList.elems, hnodes]⟩
  | cons n post ih =>
    obtain ⟨k, e⟩ := n
    intro list mid fuel hnodes hfuel hwf hmid
    simp only [List.length_cons] at hfuel
    obtain ⟨hne, hgap, hwf'⟩ := ordered_cons.mp hwf
    by_cases hge : i.firstElement ≤ e.firstElement
    · -- every interval from here on starts inside or behind the subtracted one
      obtain ⟨list', hl, he⟩ := subtractLoop_delete i hi ((k, e) :: post) list [] mid fuel hnodes
        (by simp only [List.length_cons]; omega) hwf (by
          intro d hd
          rcases List.mem_cons.mp hd with rfl | hd
          · exact hge
          · have := hgap d hd
            bv_omega) hmid
      exact ⟨list', hl, by rw [he, List.nil_append]⟩
    obtain ⟨fuel, rfl⟩ : ∃ n, fuel = n + 1 := ⟨fuel - 1, by omega⟩
    have helem := CursorList.element_of_split hnodes
    have hnext := CursorList.next_of_split hnodes
    rw [CursorList.headCursor_cons, subtractLoop, helem]
    simp only [Option.bind_eq_bind, Option.bind_some, hnext]
    rw [List.map_cons, List.flatMap_cons]
    by_cases hbefore : e.lastElement < i.firstElement
    · rw [if_pos hbefore, cut_before hbefore]
      obtain ⟨list', hl, he⟩ := ih list (mid ++ [(k, e)]) fuel (by rw [hnodes]; simp)
        (by simp only [List.length_append, List.length_singleton]; omega) hwf' (by
          intro d hd
          rw [List.map_append, List.mem_append] at hd
          rcases hd with hd | hd
          · exact hmid d hd
          · rw [List.mem_singleton.mp hd]
            exact hbefore)
      rw [List.append_assoc, List.singleton_append] at hl
      exact ⟨list', hl, by rw [he]; simp⟩
    · have hlt : e.firstElement < i.firstElement := by bv_omega
      have hle : i.firstElement ≤ e.lastElement := by bv_omega
      rw [if_neg hbefore, if_pos ⟨hlt, hle⟩, cut_split hi hlt hle]
      have hnodes' : list.nodes = (mid ++ [(k, e)]) ++ post := by rw [hnodes]; simp
      have hnodes₁ := CursorList.insertBefore_nodes hnodes' ⟨i.firstElement, e.lastElement⟩
      rw [List.append_assoc, List.singleton_append] at hnodes₁
      have hnodes₂ := CursorList.replaceElement_nodes hnodes₁ ⟨e.firstElement, i.firstElement - 1⟩
      rw [CursorList.next_of_split hnodes₂, CursorList.headCursor_cons]
      obtain ⟨list', hl, he⟩ := subtractLoop_delete i hi
        ((list.fresh, ⟨i.firstElement, e.lastElement⟩) :: post) _ []
        (mid ++ [(k, ⟨e.firstElement, i.firstElement - 1⟩)]) fuel (by rw [hnodes₂]; simp)
        (by simp only [List.length_cons, List.length_append, List.length_nil]; omega)
        (ordered_cons.mpr ⟨hle, hgap, hwf'⟩)
        (by
          intro d hd
          rcases List.mem_cons.mp hd with rfl | hd
          · exact BitVec.le_refl _
          · have := hgap d hd
            bv_omega)
        (by
          intro d hd
          rw [List.map_append, List.mem_append] at hd
          rcases hd with hd | hd
          · exact hmid d hd
          · rw [List.mem_singleton.mp hd]
            simp only
            bv_omega)
      have hhead : CursorList.headCursor (mid ++ (k, e) :: post)
          = CursorList.headCursor ((mid ++ [(k, ⟨e.firstElement, i.firstElement - 1⟩)]) ++
            (list.fresh, ⟨i.firstElement, e.lastElement⟩) :: post) := by
        cases mid <;> rfl
      rw [hhead]
      exact ⟨list', hl, by rw [he]; simp⟩

lemma cut_bounds {i e d : Interval} (hi : i.firstElement ≤ i.lastElement)
    (he : e.firstElement ≤ e.lastElement) (hd : d ∈ cut i e) :
    e.firstElement ≤ d.firstElement ∧ d.firstElement ≤ d.lastElement ∧ d.lastElement ≤ e.lastElement := by
  rw [cut] at hd
  split_ifs at hd <;> simp at hd
  · subst hd
    exact ⟨BitVec.le_refl _, he, BitVec.le_refl _⟩
  · rcases hd with rfl | rfl
    · exact ⟨by bv_omega, by bv_omega, by bv_omega⟩
    · exact ⟨by bv_omega, by bv_omega, by bv_omega⟩
  · subst hd
    exact ⟨by bv_omega, by bv_omega, by bv_omega⟩
  · subst hd
    exact ⟨by bv_omega, by bv_omega, by bv_omega⟩

lemma wellFormed_cut {i e : Interval} (hi : i.firstElement ≤ i.lastElement)
    (he : e.firstElement ≤ e.lastElement) : WellFormed (cut i e) := by
  refine ⟨fun d hd => (cut_bounds hi he hd).2.1, ?_⟩
  rw [cut]
  split_ifs <;> simp
  bv_omega

lemma covers_cut {i e : Interval} (hi : i.firstElement ≤ i.lastElement)
    (he : e.firstElement ≤ e.lastElement) : covers (cut i e) = e.toSet \ i.toSet := by
  ext a
  rw [Set.mem_sdiff, mem_toSet, mem_toSet, cut]
  split_ifs <;> simp only [covered_cons, covered_nil, List.nil_append, List.cons_append,
    Set.mem_union, Set.mem_empty_iff_false, or_false, false_iff, mem_toSet] <;> bv_omega

lemma wellFormed_flatMap_cut {i : Interval} (hi : i.firstElement ≤ i.lastElement) {l : List Interval}
    (hwf : WellFormed l) : WellFormed (l.flatMap (cut i)) := by
  induction l with
  | nil => exact ordered_nil
  | cons e l ih =>
    obtain ⟨he, hgap, hwf'⟩ := ordered_cons.mp hwf
    rw [List.flatMap_cons]
    refine ordered_append.mpr ⟨wellFormed_cut hi he, ih hwf', ?_⟩
    intro c hc d hd
    obtain ⟨d', hd', hmem⟩ := List.mem_flatMap.mp hd
    have h1 := cut_bounds hi he hc
    have h2 := cut_bounds hi (hwf'.1 d' hd') hmem
    have h3 := hgap d' hd'
    bv_omega

lemma covers_flatMap_cut {i : Interval} (hi : i.firstElement ≤ i.lastElement) {l : List Interval}
    (hne : ∀ e ∈ l, e.firstElement ≤ e.lastElement) :
    covers (l.flatMap (cut i)) = covers l \ i.toSet := by
  induction l with
  | nil => simp
  | cons e l ih =>
    unfold covers at ih ⊢
    have hcut := covers_cut hi (hne e List.mem_cons_self)
    unfold covers at hcut
    rw [List.flatMap_cons, covered_append, covered_cons, hcut,
      ih (fun d hd => hne d (List.mem_cons_of_mem e hd)), Set.union_sdiff_distrib]

lemma subtractInterval_spec (list : IntervalList) (i : Interval) (hwf : WellFormed list.elems) :
    ∃ list', subtractInterval list i = some list' ∧ WellFormed list'.elems ∧
      covers list'.elems = covers list.elems \ i.toSet := by
  unfold subtractInterval
  by_cases hempty : isEmpty i
  · rw [if_pos hempty]
    exact ⟨list, rfl, hwf, by rw [toSet_of_isEmpty hempty, Set.sdiff_empty]⟩
  · rw [if_neg hempty]
    have hi := le_of_not_isEmpty hempty
    obtain ⟨list', hl, he⟩ := subtractLoop_elems i hi list.nodes list [] (2 * list.nodes.length + 4) rfl
      (by simp) hwf (by simp)
    rw [List.map_nil, List.nil_append] at he
    change list'.elems = list.elems.flatMap (cut i) at he
    exact ⟨list', hl, by rw [he]; exact wellFormed_flatMap_cut hi hwf,
      by rw [he]; exact covers_flatMap_cut hi hwf.1⟩

/-- The addresses from `a` to `a + size - 1`. -/
def block (a size : Unsigned64) : Set Unsigned64 :=
  {x | a.toNat ≤ x.toNat ∧ x.toNat < a.toNat + size.toNat}

/-- With a positive size the sized form takes away the `size` addresses from `firstElement` on, or
raises because they run over the last 64-bit address. -/
lemma subtractSized_spec (list : IntervalList) (firstElement size : Unsigned64)
    (hwf : WellFormed list.elems) :
    ∃ list', WellFormed list'.elems ∧
      ((firstElement.toNat + size.toNat ≤ 2 ^ 64 ∧ subtractSized list firstElement size = some (.ok (), list') ∧
        covers list'.elems = covers list.elems \ block firstElement size) ∨
      (2 ^ 64 < firstElement.toNat + size.toNat ∧ list' = list ∧
        subtractSized list firstElement size = some (.error (.invalidInterval
          "Unsigned_64 overflow when trying to subtract an interval"), list))) := by
  unfold subtractSized
  by_cases hz : size = 0
  · rw [if_pos hz]
    refine ⟨list, hwf, Or.inl ⟨by subst hz; simp; bv_omega, rfl, ?_⟩⟩
    have hnone : block firstElement size = ∅ := by
      ext a
      rw [block, Set.mem_ofPred_eq, Set.mem_empty_iff_false, iff_false]
      subst hz
      simp
    rw [hnone, Set.sdiff_empty]
  · rw [if_neg hz]
    have hmax : (BitVec.allOnes 64).toNat = 2 ^ 64 - 1 := BitVec.toNat_allOnes
    by_cases hov : firstElement > BitVec.allOnes 64 - size + 1
    · rw [if_pos hov]
      exact ⟨list, hwf, Or.inr ⟨by bv_omega, rfl, rfl⟩⟩
    · rw [if_neg hov]
      obtain ⟨list', hl, hwf', hcov⟩ :=
        subtractInterval_spec list ⟨firstElement, firstElement + size - 1⟩ hwf
      refine ⟨list', hwf', Or.inl ⟨by bv_omega, by rw [hl]; rfl, ?_⟩⟩
      rw [hcov]
      congr 1
      ext a
      rw [mem_toSet, block, Set.mem_ofPred_eq]
      simp only
      bv_omega

/-! ### Reserve_Interval -/

/-- The addresses `[a, a + size - 1]`, with the bound taken without wrap-around, lie in the set. -/
def Fits (s : Set Unsigned64) (a size : Unsigned64) : Prop :=
  ∀ n, a.toNat ≤ n → n < a.toNat + size.toNat → ∃ x ∈ s, x.toNat = n

/-- The test that makes the loop stop at an interval. -/
def Large (size : Unsigned64) (e : Interval) : Prop := size - 1 ≤ e.lastElement - e.firstElement

/-- What the loop leaves of the interval it stops at. -/
def remainder (size : Unsigned64) (e : Interval) : List Interval :=
  if e.lastElement - e.firstElement > size - 1 then [⟨e.firstElement + size, e.lastElement⟩] else []

lemma reserveLoop_elems (size : Unsigned64) (list : IntervalList) (post : List (Nat × Interval)) :
    ∀ (pre : List (Nat × Interval)) (fuel : Nat), list.nodes = pre ++ post → post.length < fuel →
      ((∀ e ∈ post.map Prod.snd, ¬Large size e) ∧
        reserveLoop size fuel list (CursorList.headCursor post) = some (.error (.outOfSpace
          ("Cannot find free interval of size '" ++ toHex size ++ "'")), list)) ∨
      ∃ before e after list', post.map Prod.snd = before ++ e :: after ∧
        (∀ d ∈ before, ¬Large size d) ∧ Large size e ∧
        reserveLoop size fuel list (CursorList.headCursor post) = some (.ok e.firstElement, list') ∧
        list'.elems = (pre.map Prod.snd ++ before) ++ (remainder size e ++ after) := by
  induction post with
  | nil =>
    intro pre fuel _ hfuel
    obtain ⟨fuel, rfl⟩ : ∃ n, fuel = n + 1 := ⟨fuel - 1, by omega⟩
    exact Or.inl ⟨by simp, rfl⟩
  | cons n post ih =>
    obtain ⟨k, e⟩ := n
    intro pre fuel hnodes hfuel
    obtain ⟨fuel, rfl⟩ : ∃ n, fuel = n + 1 := ⟨fuel - 1, by omega⟩
    have helem := CursorList.element_of_split hnodes
    have hnext := CursorList.next_of_split hnodes
    rw [CursorList.headCursor_cons, reserveLoop, helem]
    simp only [Option.bind_eq_bind, Option.bind_some, hnext]
    by_cases hgt : e.lastElement - e.firstElement > size - 1
    · rw [if_pos hgt]
      have hnodes₁ := CursorList.replaceElement_nodes hnodes ⟨e.firstElement + size, e.lastElement⟩
      refine Or.inr ⟨[], e, post.map Prod.snd, _, rfl, by simp, BitVec.le_of_lt hgt, rfl, ?_⟩
      rw [remainder, if_pos hgt, CursorList.elems, hnodes₁]
      simp
    rw [if_neg hgt]
    by_cases heq : e.lastElement - e.firstElement = size - 1
    · rw [if_pos heq]
      refine Or.inr ⟨[], e, post.map Prod.snd, _, rfl, by simp, ?_, rfl, ?_⟩
      · rw [Large, heq]
        exact BitVec.le_refl _
      · rw [remainder, if_neg hgt, CursorList.elems, CursorList.delete_nodes hnodes]
        simp
    rw [if_neg heq]
    have hsmall : ¬Large size e := by
      unfold Large
      bv_omega
    rcases ih (pre ++ [(k, e)]) fuel (by rw [hnodes]; simp) (by simpa using hfuel) with
      ⟨hall, hl⟩ | ⟨before, d, after, list', hsplit, hb, hd, hl, he⟩
    · refine Or.inl ⟨?_, hl⟩
      intro d hd
      rcases List.mem_cons.mp hd with rfl | hd
      · exact hsmall
      · exact hall d hd
    · refine Or.inr ⟨e :: before, d, after, list', by rw [List.map_cons, hsplit, List.cons_append], ?_, hd, hl, ?_⟩
      · intro c hc
        rcases List.mem_cons.mp hc with rfl | hc
        · exact hsmall
        · exact hb c hc
      · rw [he]
        simp

lemma large_iff {size : Unsigned64} {e : Interval} (hs : 0 < size)
    (he : e.firstElement ≤ e.lastElement) :
    Large size e ↔ e.firstElement.toNat + size.toNat ≤ e.lastElement.toNat + 1 := by
  unfold Large
  bv_omega

lemma remainder_bounds {size : Unsigned64} {e d : Interval} (he : e.firstElement ≤ e.lastElement)
    (hd : d ∈ remainder size e) :
    e.firstElement ≤ d.firstElement ∧ d.firstElement ≤ d.lastElement ∧ d.lastElement ≤ e.lastElement := by
  rw [remainder] at hd
  split_ifs at hd with hgt
  · rw [List.mem_singleton.mp hd]
    exact ⟨by bv_omega, by bv_omega, BitVec.le_refl _⟩
  · simp at hd

lemma wellFormed_remainder {size : Unsigned64} {e : Interval} (he : e.firstElement ≤ e.lastElement) :
    WellFormed (remainder size e) := by
  refine ⟨fun d hd => (remainder_bounds he hd).2.1, ?_⟩
  rw [remainder]
  split_ifs <;> simp

lemma covers_remainder {size : Unsigned64} {e : Interval} (hs : 0 < size)
    (he : e.firstElement ≤ e.lastElement) (hlarge : Large size e) :
    covers (remainder size e) = e.toSet \ block e.firstElement size := by
  rw [large_iff hs he] at hlarge
  ext a
  rw [Set.mem_sdiff, mem_toSet, block, Set.mem_ofPred_eq, remainder]
  split_ifs with hgt
  · unfold covers
    rw [covered_cons, covered_nil, Set.union_empty, mem_toSet]
    simp only
    bv_omega
  · unfold covers
    rw [covered_nil, Set.mem_empty_iff_false, false_iff]
    bv_omega

/-- In a well-formed list a block lies in the set only if it lies in one of the intervals. -/
lemma fits_iff {l : List Interval} (hwf : WellFormed l) {a size : Unsigned64} (hs : 0 < size) :
    Fits (covers l) a size ↔
      ∃ e ∈ l, e.firstElement ≤ a ∧ a.toNat + size.toNat ≤ e.lastElement.toNat + 1 := by
  constructor
  · intro hfits
    obtain ⟨x, ⟨e, he, hxe⟩, hx⟩ := hfits a.toNat (le_refl _) (by bv_omega)
    obtain rfl : x = a := BitVec.eq_of_toNat_eq hx
    refine ⟨e, he, hxe.1, ?_⟩
    by_contra hover
    have hle : x.toNat ≤ e.lastElement.toNat + 1 := by
      have hxl := hxe.2
      bv_omega
    obtain ⟨y, ⟨d, hd, hyd⟩, hy⟩ := hfits (e.lastElement.toNat + 1) hle (by omega)
    obtain ⟨hy1, hy2⟩ := hyd
    have hne := hwf.1 d hd
    have hee := hwf.1 e he
    rcases hwf.compare hd he with rfl | h | h <;> bv_omega
  · rintro ⟨e, he, h1, h2⟩ n hn1 hn2
    have hlt : n < 2 ^ 64 := by
      have := e.lastElement.isLt
      omega
    have hx : (BitVec.ofNat 64 n).toNat = n := by rw [BitVec.toNat_ofNat, Nat.mod_eq_of_lt hlt]
    exact ⟨BitVec.ofNat 64 n, ⟨e, he, by bv_omega, by bv_omega⟩, hx⟩

/-- The answer of `Reserve_Interval` against the set before and after the call. -/
def ReserveCorrect (size : Unsigned64) (before after : IntervalList) :
    Except IntervalError Unsigned64 → Prop
  | .ok a => Fits (covers before.elems) a size ∧ (∀ b, Fits (covers before.elems) b size → a ≤ b) ∧
      covers after.elems = covers before.elems \ block a size
  | .error e => e = .outOfSpace ("Cannot find free interval of size '" ++ toHex size ++ "'") ∧
      after = before ∧ ∀ b, ¬Fits (covers before.elems) b size

lemma reserveInterval_spec (list : IntervalList) (size : Unsigned64) (hwf : WellFormed list.elems) :
    ∃ r list', reserveInterval list size = some (r, list') ∧ WellFormed list'.elems ∧
      (0 < size → ReserveCorrect size list list' r) := by
  rcases reserveLoop_elems size list list.nodes [] (list.nodes.length + 1) rfl (Nat.lt_succ_self _) with
    ⟨hall, hl⟩ | ⟨before, e, after, list', hsplit, hb, hlarge, hl, he⟩
  · refine ⟨_, list, hl, hwf, fun hs => ⟨rfl, rfl, ?_⟩⟩
    intro b hfits
    obtain ⟨e, he, h1, h2⟩ := (fits_iff hwf hs).mp hfits
    exact hall e he ((large_iff hs (hwf.1 e he)).mpr (by bv_omega))
  · change list.elems = before ++ e :: after at hsplit
    rw [List.map_nil, List.nil_append] at he
    rw [hsplit] at hwf
    have hne := hwf.1 e (by simp)
    refine ⟨_, list', hl, ?_, fun hs => ⟨?_, ?_, ?_⟩⟩
    · rw [he]
      apply hwf.replace (wellFormed_remainder hne)
      · intro d hd c hc
        have h1 := (remainder_bounds hne hd).1
        bv_omega
      · intro d hd c hc
        have h1 := (remainder_bounds hne hd).2.2
        bv_omega
    · rw [hsplit, fits_iff hwf hs]
      exact ⟨e, by simp, BitVec.le_refl _, (large_iff hs hne).mp hlarge⟩
    · intro b hfits
      rw [hsplit, fits_iff hwf hs] at hfits
      obtain ⟨d, hd, h1, h2⟩ := hfits
      have hdne := hwf.1 d hd
      have hdl : Large size d := (large_iff hs hdne).mpr (by bv_omega)
      obtain ⟨-, hea, -⟩ := ordered_append.mp hwf
      rcases List.mem_append.mp hd with hd | hd
      · exact absurd hdl (hb d hd)
      · rcases List.mem_cons.mp hd with rfl | hd
        · exact h1
        · have := (ordered_cons.mp hea).2.1 d hd
          bv_omega
    · rw [he, hsplit]
      have h1 := (large_iff hs hne).mp hlarge
      obtain ⟨-, hea, hbe⟩ := ordered_append.mp hwf
      apply covered_replace Interval.toSet (covers_remainder hs hne hlarge)
      · rintro d hd x ⟨hx1, hx2⟩ ⟨hd1, hd2⟩
        have h2 := hbe d hd e List.mem_cons_self
        bv_omega
      · rintro d hd x ⟨hx1, hx2⟩ ⟨hd1, hd2⟩
        have h2 := (ordered_cons.mp hea).2.1 d hd
        bv_omega

/-! ### Sequences of calls -/

inductive Call where
  | add (interval : Interval)
  | subtract (interval : Interval)
  | subtractSized (firstElement size : Unsigned64)
  | reserve (size : Unsigned64)
  | clear

/-- The answer of one call, an exception or the returned address if there is one, and the list
the call leaves. -/
def Call.run (list : IntervalList) :
    Call → Option (Except IntervalError (Option Unsigned64) × IntervalList)
  | .add interval => (addInterval list interval).map (fun l => (.ok none, l))
  | .subtract interval => (subtractInterval list interval).map (fun l => (.ok none, l))
  | .subtractSized firstElement size =>
    (Intervals.subtractSized list firstElement size).map (fun (r, l) => (r.map (fun _ => none), l))
  | .reserve size => (reserveInterval list size).map (fun (r, l) => (r.map some, l))
  | .clear => some (.ok none, Intervals.clear list)

/-- The list after a sequence of calls. An exception ends its call, not the sequence. -/
def runCalls : IntervalList → List Call → Option IntervalList
  | list, [] => some list
  | list, call :: calls => do
    let (_, list) ← call.run list
    runCalls list calls

/-- What a call answers and does to the set that the list denotes. -/
def Call.Correct (before after : IntervalList) :
    Call → Except IntervalError (Option Unsigned64) → Prop
  | .add interval, r => r = .ok none ∧ covers after.elems = covers before.elems ∪ interval.toSet
  | .subtract interval, r => r = .ok none ∧ covers after.elems = covers before.elems \ interval.toSet
  | .subtractSized firstElement size, r =>
    (firstElement.toNat + size.toNat ≤ 2 ^ 64 ∧ r = .ok none ∧
      covers after.elems = covers before.elems \ block firstElement size) ∨
    (2 ^ 64 < firstElement.toNat + size.toNat ∧ after = before ∧
      r = .error (.invalidInterval "Unsigned_64 overflow when trying to subtract an interval"))
  | .reserve size, r => 0 < size →
    (∃ a, r = .ok (some a) ∧ Fits (covers before.elems) a size ∧
      (∀ b, Fits (covers before.elems) b size → a ≤ b) ∧
      covers after.elems = covers before.elems \ block a size) ∨
    (r = .error (.outOfSpace ("Cannot find free interval of size '" ++ toHex size ++ "'")) ∧
      after = before ∧ ∀ b, ¬Fits (covers before.elems) b size)
  | .clear, r => r = .ok none ∧ covers after.elems = ∅

lemma Call.run_spec (list : IntervalList) (hwf : WellFormed list.elems) (call : Call) :
    ∃ r list', call.run list = some (r, list') ∧ WellFormed list'.elems ∧ call.Correct list list' r := by
  cases call with
  | add interval =>
    obtain ⟨list', hl, hwf', hcov⟩ := addInterval_spec list interval hwf
    exact ⟨.ok none, list', by rw [Call.run, hl]; rfl, hwf', rfl, hcov⟩
  | subtract interval =>
    obtain ⟨list', hl, hwf', hcov⟩ := subtractInterval_spec list interval hwf
    exact ⟨.ok none, list', by rw [Call.run, hl]; rfl, hwf', rfl, hcov⟩
  | subtractSized firstElement size =>
    obtain ⟨list', hwf', ⟨hle, hl, hcov⟩ | ⟨hlt, rfl, hl⟩⟩ := subtractSized_spec list firstElement size hwf
    · exact ⟨.ok none, list', by rw [Call.run, hl]; rfl, hwf', Or.inl ⟨hle, rfl, hcov⟩⟩
    · exact ⟨_, list', by rw [Call.run, hl]; rfl, hwf', Or.inr ⟨hlt, rfl, rfl⟩⟩
  | reserve size =>
    obtain ⟨r, list', hl, hwf', hcorrect⟩ := reserveInterval_spec list size hwf
    refine ⟨r.map some, list', by rw [Call.run, hl]; rfl, hwf', fun hs => ?_⟩
    cases r with
    | ok a => exact Or.inl ⟨a, rfl, hcorrect hs⟩
    | error e =>
      obtain ⟨he, hsame, hnone⟩ := hcorrect hs
      exact Or.inr ⟨by rw [he]; rfl, hsame, hnone⟩
  | clear => exact ⟨.ok none, Intervals.clear list, rfl, ordered_nil, rfl, covered_nil Interval.toSet⟩

lemma runCalls_spec (calls : List Call) :
    ∀ list : IntervalList, WellFormed list.elems →
      ∃ list', runCalls list calls = some list' ∧ WellFormed list'.elems := by
  induction calls with
  | nil => exact fun list hwf => ⟨list, rfl, hwf⟩
  | cons call calls ih =>
    intro list hwf
    obtain ⟨r, list₁, hrun, hwf₁, -⟩ := Call.run_spec list hwf call
    obtain ⟨list₂, hruns, hwf₂⟩ := ih list₁ hwf₁
    refine ⟨list₂, ?_, hwf₂⟩
    rw [runCalls, hrun]
    exact hruns

/-- Every sequence of calls on the empty list ends, and ends in a sorted list of nonempty, disjoint
and non-adjacent intervals; whatever call comes next returns as well and does to the denoted set
what it is meant to do. -/
theorem runCalls_exact (calls : List Call) :
    ∃ list, runCalls CursorList.empty calls = some list ∧ WellFormed list.elems ∧
      ∀ call : Call, ∃ r list', call.run list = some (r, list') ∧ WellFormed list'.elems ∧
        call.Correct list list' r := by
  obtain ⟨list, hruns, hwf⟩ := runCalls_spec calls CursorList.empty ordered_nil
  exact ⟨list, hruns, hwf, fun call => Call.run_spec list hwf call⟩

end Muen.Tools.Intervals
