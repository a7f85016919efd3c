import Muen.Lib.Literals
import Muen.Tools.Utils
import Mathlib.Data.Fintype.Card
import Mathlib.Data.List.FinRange
import Mathlib.Tactic

/-!
# Paging.Entries, Paging.Tables and Paging.Maps

Page tables of 512 entries and the ordered maps that hold the tables of one paging level by
number. Entry `i` of table `n` is entry `512 * n + i` of its level, and the maps are described by
what they hold at each of these numbers.
-/

namespace Muen.Tools.Paging

inductive Caching where
  | uc | wc | wt | wp | wb
deriving DecidableEq, Repr

abbrev EntryRange := Fin 512

/-- The last `Table_Range` number is below this. -/
def tableRangeEnd : Nat := 512 ^ 3

inductive PagingError where
  | duplicateEntry (message : String)
  | missingEntry (message : String)
  | missingTable (message : String)
  | mappingPresent (message : String)
  | constraintError
deriving DecidableEq, Repr

/-! ### Entries -/

structure TableEntry where
  dstTableIndex : Nat
  dstAddress : Unsigned64
  present : Bool
  readable : Bool
  writable : Bool
  executable : Bool
  mapsPage : Bool
  global : Bool
  caching : Caching
deriving DecidableEq, Repr

def nullTableEntry : TableEntry := ⟨0, 0, false, false, false, false, false, false, .uc⟩

lemma ne_null_of_present {e : TableEntry} (h : e.present) : e ≠ nullTableEntry := by
  rintro rfl
  simp [nullTableEntry] at h

/-! ### Tables -/

structure PageTable where
  length : Nat
  address : Unsigned64
  data : EntryRange → TableEntry

def nullTable : PageTable := ⟨0, 0, fun _ => nullTableEntry⟩

namespace PageTable

def addEntry (table : PageTable) (index : EntryRange) (e : TableEntry) : Except PagingError PageTable :=
  let curEntry := table.data index
  if curEntry = e then .ok table
  else if curEntry ≠ nullTableEntry then
    .error (.duplicateEntry ("Table entry with index " ++ toString index.val ++ " already exists"))
  else .ok { table with data := Function.update table.data index e, length := table.length + 1 }

def contains (table : PageTable) (index : EntryRange) : Bool := table.data index ≠ nullTableEntry

/-- The length is returned in the index type and does not fit when the table is full. -/
def count (table : PageTable) : Except PagingError EntryRange :=
  if h : table.length < 512 then .ok ⟨table.length, h⟩ else .error .constraintError

def iterateLoop (table : PageTable) : List EntryRange → Nat → List (EntryRange × TableEntry)
  | [], _ => []
  | i :: is, count =>
    if table.data i ≠ nullTableEntry then
      (i, table.data i) :: (if count + 1 = table.length then [] else iterateLoop table is (count + 1))
    else iterateLoop table is count

/-- The calls of `Process` that `Iterate` makes, in order. -/
def iterate (table : PageTable) : List (EntryRange × TableEntry) :=
  table.iterateLoop (List.finRange 512) 0

def updateLoop (process : EntryRange → TableEntry → Except PagingError TableEntry) :
    List EntryRange → Nat → PageTable → Except PagingError PageTable
  | [], _, table => .ok table
  | i :: is, count, table =>
    if table.data i ≠ nullTableEntry then do
      let tmpEntry ← process i (table.data i)
      let table := { table with data := Function.update table.data i tmpEntry }
      let count := count + 1
      if count = table.length then .ok table
      else
        let table := if tmpEntry = nullTableEntry then { table with length := table.length - 1 } else table
        updateLoop process is count table
    else updateLoop process is count table

def update (table : PageTable) (process : EntryRange → TableEntry → Except PagingError TableEntry) :
    Except PagingError PageTable :=
  updateLoop process (List.finRange 512) 0 table

/-- The entries present in a list of indexes. -/
def presentIn (data : EntryRange → TableEntry) (is : List EntryRange) : Nat :=
  is.countP (fun i => data i ≠ nullTableEntry)

/-- The length counts the present entries. -/
def Counted (table : PageTable) : Prop := table.length = presentIn table.data (List.finRange 512)

lemma presentIn_cons (data : EntryRange → TableEntry) (i : EntryRange) (is : List EntryRange) :
    presentIn data (i :: is) = presentIn data is + if data i ≠ nullTableEntry then 1 else 0 := by
  rw [presentIn, List.countP_cons]
  simp [presentIn]

lemma presentIn_update_of_notMem {data : EntryRange → TableEntry} {i : EntryRange} (e : TableEntry)
    {is : List EntryRange} (h : i ∉ is) : presentIn (Function.update data i e) is = presentIn data is := by
  apply List.countP_congr
  intro j hj
  have hji : j ≠ i := fun hji => h (hji ▸ hj)
  rw [Function.update_of_ne hji]

lemma presentIn_update_null {data : EntryRange → TableEntry} {i : EntryRange} {e : TableEntry}
    (hnull : data i = nullTableEntry) (he : e ≠ nullTableEntry) {is : List EntryRange} (hnodup : is.Nodup)
    (hi : i ∈ is) : presentIn (Function.update data i e) is = presentIn data is + 1 := by
  induction is with
  | nil => simp at hi
  | cons j is ih =>
    obtain ⟨hj, hnodup⟩ := List.nodup_cons.mp hnodup
    rw [presentIn_cons, presentIn_cons]
    by_cases hij : i = j
    · subst hij
      rw [presentIn_update_of_notMem e hj, Function.update_self, if_pos he, if_neg (by simpa using hnull)]
    · have hmem : i ∈ is := (List.mem_cons.mp hi).resolve_left hij
      rw [ih hnodup hmem, Function.update_of_ne (Ne.symm hij)]
      omega

lemma Counted.length_pos {table : PageTable} (h : table.Counted) {i : EntryRange}
    (hi : table.data i ≠ nullTableEntry) : 0 < table.length := by
  rw [h, presentIn, List.countP_pos_iff]
  exact ⟨i, List.mem_finRange i, by simpa using hi⟩

lemma Counted.length_lt {table : PageTable} (h : table.Counted) {i : EntryRange}
    (hi : table.data i = nullTableEntry) : table.length < 512 := by
  have hle : presentIn table.data (List.finRange 512) ≤ (List.finRange 512).length := List.countP_le_length
  have hne : presentIn table.data (List.finRange 512) ≠ (List.finRange 512).length := by
    intro heq
    have hall := List.countP_eq_length.mp heq i (List.mem_finRange i)
    simp [hi] at hall
  rw [List.length_finRange] at hle hne
  rw [h]
  omega

lemma addEntry_spec {table table' : PageTable} {index : EntryRange} {e : TableEntry}
    (he : e ≠ nullTableEntry) (h : table.addEntry index e = .ok table') :
    (table.data index = nullTableEntry ∨ table.data index = e) ∧
      table'.data = Function.update table.data index e ∧ (table.Counted → table'.Counted) := by
  unfold addEntry at h
  by_cases hsame : table.data index = e
  · rw [if_pos hsame] at h
    obtain rfl := Except.ok.inj h
    refine ⟨Or.inr hsame, ?_, fun hc => hc⟩
    rw [← hsame, Function.update_eq_self]
  · rw [if_neg hsame] at h
    by_cases hnull : table.data index = nullTableEntry
    · rw [if_neg (by simpa using hnull)] at h
      obtain rfl := Except.ok.inj h
      refine ⟨Or.inl hnull, rfl, fun hc => ?_⟩
      change table.length + 1 = presentIn (Function.update table.data index e) (List.finRange 512)
      rw [presentIn_update_null hnull he (List.nodup_finRange 512) (List.mem_finRange index), hc]
    · rw [if_pos hnull] at h
      cases h

/-- The entries that are present among the given indexes. -/
def presentEntries (table : PageTable) (is : List EntryRange) : List (EntryRange × TableEntry) :=
  (is.filter (fun i => table.data i ≠ nullTableEntry)).map (fun i => (i, table.data i))

lemma iterateLoop_eq (table : PageTable) (is : List EntryRange) :
    ∀ count, count + presentIn table.data is = table.length →
      table.iterateLoop is count = table.presentEntries is := by
  induction is with
  | nil => exact fun _ _ => rfl
  | cons i is ih =>
    intro count hcount
    rw [presentIn_cons] at hcount
    by_cases hi : table.data i = nullTableEntry
    · have hi' : ¬table.data i ≠ nullTableEntry := by simpa using hi
      rw [if_neg hi'] at hcount
      rw [iterateLoop, if_neg hi', ih count hcount]
      simp [presentEntries, hi]
    · rw [if_pos hi] at hcount
      rw [iterateLoop, if_pos hi]
      have hrest : (if count + 1 = table.length then [] else table.iterateLoop is (count + 1)) =
          table.presentEntries is := by
        by_cases hlast : count + 1 = table.length
        · rw [if_pos hlast]
          have hnone : presentIn table.data is = 0 := by omega
          rw [presentIn, List.countP_eq_zero] at hnone
          have hfilter : is.filter (fun i => table.data i ≠ nullTableEntry) = [] :=
            List.filter_eq_nil_iff.mpr hnone
          rw [presentEntries, hfilter, List.map_nil]
        · rw [if_neg hlast]
          exact ih (count + 1) (by omega)
      rw [hrest]
      simp [presentEntries, hi]

/-- `Iterate` visits exactly the present entries. -/
lemma iterate_eq {table : PageTable} (h : table.Counted) :
    table.iterate = table.presentEntries (List.finRange 512) := by
  apply iterateLoop_eq
  rw [Nat.zero_add]
  exact h.symm

/-- `Update` applies a process that keeps entries present to every present entry. -/
lemma updateLoop_eq {process : EntryRange → TableEntry → Except PagingError TableEntry}
    {f : EntryRange → TableEntry → TableEntry} (is : List EntryRange) :
    ∀ (count : Nat) (table : PageTable), is.Nodup → count + presentIn table.data is = table.length →
      (∀ i ∈ is, table.data i ≠ nullTableEntry →
        process i (table.data i) = .ok (f i (table.data i)) ∧ f i (table.data i) ≠ nullTableEntry) →
      updateLoop process is count table = .ok { table with
        data := fun i => if i ∈ is ∧ table.data i ≠ nullTableEntry then f i (table.data i) else table.data i } := by
  induction is with
  | nil =>
    intro count table _ _ _
    simp [updateLoop]
  | cons i is ih =>
    intro count table hnodup hcount hprocess
    obtain ⟨hi, hnodup⟩ := List.nodup_cons.mp hnodup
    rw [presentIn_cons] at hcount
    have hrest : ∀ j ∈ is, table.data j ≠ nullTableEntry →
        process j (table.data j) = .ok (f j (table.data j)) ∧ f j (table.data j) ≠ nullTableEntry :=
      fun j hj => hprocess j (List.mem_cons_of_mem i hj)
    by_cases hpresent : table.data i = nullTableEntry
    · have hpresent' : ¬table.data i ≠ nullTableEntry := by simpa using hpresent
      rw [if_neg hpresent'] at hcount
      rw [updateLoop, if_neg hpresent', ih count table hnodup hcount hrest]
      congr 2
      funext j
      by_cases hji : j = i
      · subst hji
        rw [if_neg (fun h => hpresent' h.2), if_neg (fun h => hpresent' h.2)]
      · simp [hji]
    · obtain ⟨hok, hne⟩ := hprocess i List.mem_cons_self hpresent
      rw [if_pos hpresent] at hcount
      have hother : ∀ j ∈ is, j ≠ i := fun j hj hji => hi (hji ▸ hj)
      have hdata : ∀ j ∈ is, Function.update table.data i (f i (table.data i)) j = table.data j :=
        fun j hj => Function.update_of_ne (hother j hj) _ _
      rw [updateLoop, if_pos hpresent, hok]
      simp only [bind, Except.bind]
      by_cases hlast : count + 1 = table.length
      · rw [if_pos hlast]
        have hnone : presentIn table.data is = 0 := by omega
        rw [presentIn, List.countP_eq_zero] at hnone
        congr 2
        funext j
        by_cases hji : j = i
        · subst hji
          rw [Function.update_self, if_pos ⟨List.mem_cons_self, hpresent⟩]
        · rw [Function.update_of_ne hji, if_neg]
          rintro ⟨hj, hjp⟩
          exact hnone j ((List.mem_cons.mp hj).resolve_left hji) (by simpa using hjp)
      · rw [if_neg hlast, if_neg hne]
        rw [ih (count + 1) _ hnodup]
        · congr 2
          funext j
          by_cases hji : j = i
          · subst hji
            rw [if_neg (fun h => hi h.1), if_pos ⟨List.mem_cons_self, hpresent⟩]
            exact Function.update_self ..
          · simp [hji]
        · change count + 1 + presentIn (Function.update table.data i (f i (table.data i))) is = table.length
          rw [presentIn_update_of_notMem _ hi]
          omega
        · intro j hj
          change Function.update table.data i (f i (table.data i)) j ≠ nullTableEntry → _
          simp only [hdata j hj]
          exact hrest j hj

lemma update_eq {table : PageTable} {process : EntryRange → TableEntry → Except PagingError TableEntry}
    {f : EntryRange → TableEntry → TableEntry} (h : table.Counted)
    (hprocess : ∀ i, table.data i ≠ nullTableEntry →
      process i (table.data i) = .ok (f i (table.data i)) ∧ f i (table.data i) ≠ nullTableEntry) :
    table.update process = .ok { table with
      data := fun i => if table.data i ≠ nullTableEntry then f i (table.data i) else table.data i } := by
  have heq := updateLoop_eq (List.finRange 512) 0 table (List.nodup_finRange 512)
    (by rw [Nat.zero_add]; exact h.symm) (fun i _ => hprocess i)
  simpa [update] using heq

end PageTable

/-! ### Maps -/

/-- The tables of a level in ascending order of their numbers. -/
abbrev PageTableMap := List (Nat × PageTable)

namespace PageTableMap

def find (number : Nat) : PageTableMap → Option PageTable
  | [] => none
  | (n, table) :: map => if n = number then some table else find number map

def insert (number : Nat) (table : PageTable) : PageTableMap → PageTableMap
  | [] => [(number, table)]
  | (n, t) :: map => if number < n then (number, table) :: (n, t) :: map else (n, t) :: insert number table map

/-- The table behind the pointer of an element changes, the element stays where it is. -/
def assign (number : Nat) (table : PageTable) (map : PageTableMap) : PageTableMap :=
  map.map (fun p => if p.1 = number then (p.1, table) else p)

def addEntry (map : PageTableMap) (tableNumber : Nat) (entryIndex : EntryRange) (tableEntry : TableEntry) :
    Except PagingError PageTableMap :=
  match map.find tableNumber with
  | none => do
    let table ← nullTable.addEntry entryIndex tableEntry
    .ok (map.insert tableNumber table)
  | some table => do
    let table ← table.addEntry entryIndex tableEntry
    .ok (map.assign tableNumber table)

def getTableAddress (map : PageTableMap) (tableNumber : Nat) : Except PagingError Unsigned64 :=
  match map.find tableNumber with
  | none => .error (.missingTable ("Table with number " ++ toString tableNumber ++ " not in map"))
  | some table => .ok table.address

/-- Numbers ascend and every table is counted. -/
structure WellFormed (map : PageTableMap) : Prop where
  sorted : (map.map Prod.fst).Pairwise (· < ·)
  counted : ∀ p ∈ map, p.2.Counted

/-- The entry with the given number of the level; absent ones are null. -/
def entryAt (map : PageTableMap) (g : Nat) : TableEntry :=
  match map.find (g / 512) with
  | none => nullTableEntry
  | some table => table.data ⟨g % 512, Nat.mod_lt _ (by decide)⟩

lemma find_insert {map : PageTableMap} {n : Nat} (table : PageTable) (h : map.find n = none) (m : Nat) :
    (map.insert n table).find m = if m = n then some table else map.find m := by
  induction map with
  | nil =>
    simp only [insert, find, eq_comm]
  | cons p map ih =>
    obtain ⟨k, t⟩ := p
    rw [find] at h
    split_ifs at h with hk
    rw [insert]
    by_cases hlt : n < k
    · rw [if_pos hlt, find]
      simp only [eq_comm]
    · rw [if_neg hlt, find, ih h, find]
      by_cases hm : k = m
      · rw [if_pos hm, if_pos hm, if_neg (fun hmn => hk (hm.trans hmn))]
      · rw [if_neg hm, if_neg hm]

lemma find_assign_self {map : PageTableMap} {n : Nat} {old : PageTable} (table : PageTable)
    (h : map.find n = some old) : (map.assign n table).find n = some table := by
  induction map with
  | nil => simp [find] at h
  | cons p map ih =>
    obtain ⟨k, t⟩ := p
    rw [find] at h
    rw [assign, List.map_cons]
    by_cases hk : k = n
    · simp only [if_pos hk, find]
    · rw [if_neg hk] at h
      simp only [if_neg hk, find]
      exact ih h

lemma find_assign_of_ne (map : PageTableMap) {n m : Nat} (table : PageTable) (h : m ≠ n) :
    (map.assign n table).find m = map.find m := by
  induction map with
  | nil => rfl
  | cons p map ih =>
    obtain ⟨k, t⟩ := p
    rw [assign, List.map_cons, find]
    by_cases hk : k = n
    · have hkm : k ≠ m := fun hkm => h (hkm ▸ hk)
      simp only [if_pos hk, find, if_neg hkm]
      exact ih
    · simp only [if_neg hk, find]
      by_cases hkm : k = m
      · rw [if_pos hkm, if_pos hkm]
      · rw [if_neg hkm, if_neg hkm]
        exact ih

lemma mem_of_find {map : PageTableMap} {n : Nat} {table : PageTable} (h : map.find n = some table) :
    (n, table) ∈ map := by
  induction map with
  | nil => simp [find] at h
  | cons p map ih =>
    obtain ⟨k, t⟩ := p
    rw [find] at h
    split_ifs at h with hk
    · rw [← hk, ← Option.some.inj h]
      exact List.mem_cons_self
    · exact List.mem_cons_of_mem _ (ih h)

lemma find_of_mem {map : PageTableMap} (h : map.WellFormed) {n : Nat} {table : PageTable}
    (hmem : (n, table) ∈ map) : map.find n = some table := by
  have hsorted := h.sorted
  clear h
  induction map with
  | nil => simp at hmem
  | cons p map ih =>
    obtain ⟨k, t⟩ := p
    rw [List.map_cons, List.pairwise_cons] at hsorted
    rw [find]
    rcases List.mem_cons.mp hmem with heq | hmem
    · cases heq
      rw [if_pos rfl]
    · have hlt := hsorted.1 n (List.mem_map.mpr ⟨(n, table), hmem, rfl⟩)
      rw [if_neg (by simp only at hlt; omega)]
      exact ih hmem hsorted.2

lemma insert_perm (map : PageTableMap) (n : Nat) (table : PageTable) :
    (map.insert n table).Perm ((n, table) :: map) := by
  induction map with
  | nil => exact List.Perm.refl _
  | cons p map ih =>
    rw [insert]
    split_ifs
    · exact List.Perm.refl _
    · exact (ih.cons p).trans (List.Perm.swap _ _ _)

lemma insert_wellFormed {map : PageTableMap} (h : map.WellFormed) {n : Nat} {table : PageTable}
    (hnone : map.find n = none) (hcounted : table.Counted) : (map.insert n table).WellFormed := by
  constructor
  · have hsorted := h.sorted
    clear h
    induction map with
    | nil => simp [insert]
    | cons p map ih =>
      obtain ⟨k, t⟩ := p
      rw [find] at hnone
      split_ifs at hnone with hk
      rw [List.map_cons, List.pairwise_cons] at hsorted
      rw [insert]
      split_ifs with hlt
      · rw [List.map_cons, List.map_cons, List.pairwise_cons, List.pairwise_cons]
        refine ⟨?_, hsorted⟩
        intro m hm
        rcases List.mem_cons.mp hm with rfl | hm
        · exact hlt
        · exact hlt.trans (hsorted.1 m hm)
      · rw [List.map_cons, List.pairwise_cons]
        refine ⟨?_, ih hnone hsorted.2⟩
        intro m hm
        have hm' := ((insert_perm map n table).map Prod.fst).mem_iff.mp hm
        rw [List.map_cons, List.mem_cons] at hm'
        rcases hm' with rfl | hm'
        · simp only
          omega
        · exact hsorted.1 m hm'
  · intro p hp
    rcases List.mem_cons.mp ((insert_perm map n table).mem_iff.mp hp) with rfl | hp
    · exact hcounted
    · exact h.counted p hp

lemma assign_wellFormed {map : PageTableMap} (h : map.WellFormed) {n : Nat} {table : PageTable}
    (hcounted : table.Counted) : (map.assign n table).WellFormed := by
  constructor
  · have hkeys : (map.assign n table).map Prod.fst = map.map Prod.fst := by
      rw [assign, List.map_map]
      apply List.map_congr_left
      intro p _
      by_cases hp : p.1 = n <;> simp [hp]
    rw [hkeys]
    exact h.sorted
  · intro p hp
    obtain ⟨q, hq, rfl⟩ := List.mem_map.mp hp
    by_cases hqn : q.1 = n
    · rw [if_pos hqn]
      exact hcounted
    · rw [if_neg hqn]
      exact h.counted q hq

lemma nullTable_counted : nullTable.Counted := by
  change 0 = PageTable.presentIn (fun _ => nullTableEntry) (List.finRange 512)
  rw [PageTable.presentIn, eq_comm, List.countP_eq_zero]
  simp

/-- Adding an entry sets it where nothing else was, and adds its table. -/
lemma addEntry_spec {map map' : PageTableMap} (hwf : map.WellFormed) {n : Nat} {i : EntryRange} {e : TableEntry}
    (he : e ≠ nullTableEntry) (h : map.addEntry n i e = .ok map') :
    map'.WellFormed ∧
      (map.entryAt (512 * n + i.val) = nullTableEntry ∨ map.entryAt (512 * n + i.val) = e) ∧
      (∀ g, map'.entryAt g = if g = 512 * n + i.val then e else map.entryAt g) ∧
      ∀ m, (map'.find m).isSome ↔ m = n ∨ (map.find m).isSome := by
  have hdiv : (512 * n + i.val) / 512 = n := by omega
  have hmod : (⟨(512 * n + i.val) % 512, Nat.mod_lt _ (by decide)⟩ : EntryRange) = i := Fin.ext (by simp only; omega)
  have hindex : ∀ g : Nat, g / 512 = n →
      (g = 512 * n + i.val ↔ (⟨g % 512, Nat.mod_lt _ (by decide)⟩ : EntryRange) = i) := by
    intro g hg
    rw [Fin.ext_iff]
    simp only
    omega
  unfold addEntry at h
  cases hfind : map.find n with
  | none =>
    rw [hfind] at h
    cases hadd : nullTable.addEntry i e with
    | error err => simp [hadd, bind, Except.bind] at h
    | ok table =>
      have hmap : map.insert n table = map' := by simpa [hadd, bind, Except.bind] using h
      obtain ⟨-, hdata, hcounted⟩ := PageTable.addEntry_spec he hadd
      rw [← hmap]
      refine ⟨insert_wellFormed hwf hfind (hcounted nullTable_counted), Or.inl ?_, ?_, ?_⟩
      · simp only [entryAt, hdiv, hfind]
      · intro g
        simp only [entryAt, find_insert table hfind]
        by_cases hg : g / 512 = n
        · rw [if_pos hg]
          simp only [hdata, hg, hfind]
          by_cases hi : g = 512 * n + i.val
          · rw [if_pos hi, (hindex g hg).mp hi, Function.update_self]
          · rw [if_neg hi, Function.update_of_ne (fun heq => hi ((hindex g hg).mpr heq))]
            rfl
        · rw [if_neg hg, if_neg (fun hi => hg (by rw [hi, hdiv]))]
      · intro m
        rw [find_insert table hfind]
        by_cases hm : m = n <;> simp [hm]
  | some old =>
    rw [hfind] at h
    cases hadd : old.addEntry i e with
    | error err => simp [hadd, bind, Except.bind] at h
    | ok table =>
      have hmap : map.assign n table = map' := by simpa [hadd, bind, Except.bind] using h
      obtain ⟨hold, hdata, hcounted⟩ := PageTable.addEntry_spec he hadd
      have holdCounted := hwf.counted _ (mem_of_find hfind)
      rw [← hmap]
      refine ⟨assign_wellFormed hwf (hcounted holdCounted), ?_, ?_, ?_⟩
      · simp only [entryAt, hdiv, hfind, hmod]
        exact hold
      · intro g
        by_cases hg : g / 512 = n
        · simp only [entryAt, hg, find_assign_self table hfind, hdata, hfind]
          by_cases hi : g = 512 * n + i.val
          · rw [if_pos hi, (hindex g hg).mp hi, Function.update_self]
          · rw [if_neg hi, Function.update_of_ne (fun heq => hi ((hindex g hg).mpr heq))]
        · simp only [entryAt, find_assign_of_ne map table hg]
          rw [if_neg (fun hi => hg (by rw [hi, hdiv]))]
      · intro m
        by_cases hm : m = n
        · simp [hm, find_assign_self table hfind]
        · simp [hm, find_assign_of_ne map table hm]

/-- A present entry has its table. -/
lemma find_isSome_of_entryAt {map : PageTableMap} {g : Nat} (h : map.entryAt g ≠ nullTableEntry) :
    (map.find (g / 512)).isSome := by
  unfold entryAt at h
  cases hfind : map.find (g / 512) with
  | none => simp [hfind] at h
  | some table => rfl

end PageTableMap

end Muen.Tools.Paging
