import Muen.Tools.Paging.Tables

/-!
# Page tables under update

The counter of a table is the bound of the loops over its entries, and `Update` changes it while it is looping. A run
adds and updates entries from the empty table on.
-/

namespace Muen.Tools.Paging.PageTable

/-- The table with an entry as `Process` leaves it. -/
def withEntry (process : EntryRange → TableEntry → TableEntry) (table : PageTable) (i : EntryRange) : PageTable :=
  { table with data := Function.update table.data i (process i (table.data i)) }

/-- The table with one entry less when `Process` removes an entry. -/
def withLength (process : EntryRange → TableEntry → TableEntry) (table : PageTable) (i : EntryRange) : PageTable :=
  if process i (table.data i) = nullTableEntry then
    { table.withEntry process i with length := table.length - 1 }
  else table.withEntry process i

/-- `Update` with the calls of `Process` that it makes, in order. -/
def updateCalls (process : EntryRange → TableEntry → TableEntry) :
    List EntryRange → Nat → PageTable → List (EntryRange × TableEntry) × PageTable
  | [], _, table => ([], table)
  | i :: is, count, table =>
    if table.data i ≠ nullTableEntry then
      if count + 1 = table.length then ([(i, table.data i)], table.withEntry process i)
      else
        let rest := updateCalls process is (count + 1) (table.withLength process i)
        ((i, table.data i) :: rest.1, rest.2)
    else updateCalls process is count table

/-- The calls are those of the loop of `Update`. -/
lemma updateCalls_eq (process : EntryRange → TableEntry → TableEntry) (is : List EntryRange) (count : Nat)
    (table : PageTable) :
    updateLoop (fun i e => .ok (process i e)) is count table = .ok (updateCalls process is count table).2 := by
  induction is generalizing count table with
  | nil => rfl
  | cons i is ih =>
    unfold updateLoop updateCalls
    by_cases hi : table.data i ≠ nullTableEntry
    · rw [if_pos hi, if_pos hi]
      dsimp only [bind, Except.bind]
      by_cases hlast : count + 1 = table.length
      · rw [if_pos hlast, if_pos hlast]
        rfl
      · rw [if_neg hlast, if_neg hlast]
        exact ih _ _
    · rw [if_neg hi, if_neg hi]
      exact ih _ _

/-- The number of given entries that a process removes. -/
def removed (process : EntryRange → TableEntry → TableEntry) (entries : List (EntryRange × TableEntry)) : Nat :=
  entries.countP fun p => process p.1 p.2 = nullTableEntry

/-- What the loop of `Update` does to the present entries and the counter. -/
def walk (process : EntryRange → TableEntry → TableEntry) :
    List (EntryRange × TableEntry) → Nat → Nat → List (EntryRange × TableEntry) × Nat
  | [], _, length => ([], length)
  | p :: entries, count, length =>
    if count + 1 = length then ([p], length)
    else
      let rest := walk process entries (count + 1)
        (if process p.1 p.2 = nullTableEntry then length - 1 else length)
      (p :: rest.1, rest.2)

variable {process : EntryRange → TableEntry → TableEntry}

lemma presentEntries_cons_of_present {table : PageTable} {i : EntryRange} {is : List EntryRange}
    (h : table.data i ≠ nullTableEntry) :
    table.presentEntries (i :: is) = (i, table.data i) :: table.presentEntries is := by
  unfold presentEntries
  rw [List.filter_cons_of_pos (by simpa using h), List.map_cons]

lemma presentEntries_cons_of_null {table : PageTable} {i : EntryRange} {is : List EntryRange}
    (h : ¬table.data i ≠ nullTableEntry) : table.presentEntries (i :: is) = table.presentEntries is := by
  unfold presentEntries
  rw [List.filter_cons_of_neg (by simpa using h)]

lemma presentEntries_congr {table table' : PageTable} {is : List EntryRange}
    (h : ∀ i ∈ is, table'.data i = table.data i) : table'.presentEntries is = table.presentEntries is := by
  unfold presentEntries
  have hfilter : is.filter (fun i => table'.data i ≠ nullTableEntry) =
      is.filter (fun i => table.data i ≠ nullTableEntry) :=
    List.filter_congr fun i hi => by rw [h i hi]
  rw [hfilter]
  apply List.map_congr_left
  intro i hi
  rw [h i (List.mem_of_mem_filter hi)]

lemma withLength_spec (table : PageTable) (i : EntryRange) :
    (table.withLength process i).data = Function.update table.data i (process i (table.data i)) ∧
      (table.withLength process i).length =
        if process i (table.data i) = nullTableEntry then table.length - 1 else table.length := by
  unfold withLength
  split
  · exact ⟨rfl, rfl⟩
  · exact ⟨rfl, rfl⟩

/-- The loop visits the present entries, replaces those that it visits and leaves the others. -/
lemma updateCalls_spec {is : List EntryRange} (hnodup : is.Nodup) (count : Nat) (table : PageTable) :
    let calls := updateCalls process is count table
    (calls.1, calls.2.length) = walk process (table.presentEntries is) count table.length ∧
      (∀ i ∉ calls.1.map Prod.fst, calls.2.data i = table.data i) ∧
      ∀ p ∈ calls.1, p.1 ∈ is ∧ table.data p.1 = p.2 ∧ calls.2.data p.1 = process p.1 p.2 := by
  induction is generalizing count table with
  | nil => exact ⟨rfl, fun _ _ => rfl, nofun⟩
  | cons i is ih =>
    obtain ⟨hi, hnodup⟩ := List.nodup_cons.mp hnodup
    dsimp only
    unfold updateCalls
    by_cases hpresent : table.data i ≠ nullTableEntry
    · rw [if_pos hpresent, presentEntries_cons_of_present hpresent]
      unfold walk
      dsimp only
      by_cases hlast : count + 1 = table.length
      · rw [if_pos hlast, if_pos hlast]
        refine ⟨rfl, ?_, ?_⟩
        · intro j hj
          exact Function.update_of_ne (by simpa using hj) _ _
        · intro p hp
          rw [List.mem_singleton.mp hp]
          exact ⟨List.mem_cons_self, rfl, Function.update_self ..⟩
      · rw [if_neg hlast, if_neg hlast]
        let next := table.withLength process i
        obtain ⟨hdata, hlength⟩ := @withLength_spec process table i
        have hsame : ∀ j ∈ is, next.data j = table.data j := by
          intro j hj
          rw [hdata]
          exact Function.update_of_ne (fun hji : j = i => hi (hji ▸ hj)) _ _
        obtain ⟨hwalk, hothers, hvisited⟩ := ih hnodup (count + 1) next
        rw [presentEntries_congr hsame, hlength] at hwalk
        have hmem : i ∉ (updateCalls process is (count + 1) next).1.map Prod.fst := by
          intro hmem
          obtain ⟨p, hp, rfl⟩ := List.mem_map.mp hmem
          exact hi (hvisited p hp).1
        refine ⟨?_, ?_, ?_⟩
        · exact Prod.ext (congrArg (List.cons _) (congrArg Prod.fst hwalk)) (congrArg (fun w => w.2) hwalk)
        · intro j hj
          rw [List.map_cons, List.mem_cons, not_or] at hj
          refine (hothers j hj.2).trans ?_
          rw [hdata]
          exact Function.update_of_ne hj.1 _ _
        · intro p hp
          rcases List.mem_cons.mp hp with rfl | hp
          · refine ⟨List.mem_cons_self, rfl, (hothers i hmem).trans ?_⟩
            rw [hdata]
            exact Function.update_self ..
          · obtain ⟨his, hentry, hresult⟩ := hvisited p hp
            exact ⟨List.mem_cons_of_mem i his, (hsame p.1 his).symm.trans hentry, hresult⟩
    · rw [if_neg hpresent, presentEntries_cons_of_null hpresent]
      obtain ⟨hwalk, hothers, hvisited⟩ := ih hnodup count table
      exact ⟨hwalk, hothers, fun p hp => ⟨List.mem_cons_of_mem i (hvisited p hp).1, (hvisited p hp).2⟩⟩

/-! ### Complete updates -/

/-- Nothing is removed, or the counter is not reached before the last entry. -/
def Completes (process : EntryRange → TableEntry → TableEntry) (entries : List (EntryRange × TableEntry)) : Prop :=
  removed process entries = 0 ∨ ∀ j < entries.length, removed process (entries.take j) + j + 1 ≠ entries.length

lemma removed_cons (p : EntryRange × TableEntry) (entries : List (EntryRange × TableEntry)) :
    removed process (p :: entries) =
      removed process entries + if process p.1 p.2 = nullTableEntry then 1 else 0 := by
  unfold removed
  rw [List.countP_cons]
  simp

lemma walk_iff {entries : List (EntryRange × TableEntry)} {k j r : Nat} (hk : j + entries.length = k) (hr : r ≤ j) :
    walk process entries j (k - r) = (entries, k - r - removed process entries) ↔
      (r = 0 ∧ removed process entries = 0) ∨
        ∀ i < entries.length, r + removed process (entries.take i) + (j + i) + 1 ≠ k := by
  induction entries generalizing j r with
  | nil => exact ⟨fun _ => Or.inr nofun, fun _ => rfl⟩
  | cons p entries ih =>
    rw [List.length_cons] at hk
    unfold walk
    by_cases hlast : j + 1 = k - r
    · rw [if_pos hlast, Prod.mk.injEq, List.cons.injEq, removed_cons]
      constructor
      · rintro ⟨⟨-, rfl⟩, hlength⟩
        have hzero : removed process [] = 0 := rfl
        rw [List.length_nil] at hk
        rw [hzero] at hlength ⊢
        left
        omega
      · rintro (⟨hr0, hremoved⟩ | hnever)
        · have hnil : entries = [] := List.eq_nil_of_length_eq_zero (by omega)
          subst hnil
          refine ⟨⟨rfl, rfl⟩, ?_⟩
          rw [hremoved]
          rfl
        · have hfirst := hnever 0 (Nat.succ_pos _)
          have hzero : removed process ((p :: entries).take 0) = 0 := rfl
          omega
    · rw [if_neg hlast]
      let c := if process p.1 p.2 = nullTableEntry then 1 else 0
      have hc : c ≤ 1 := by
        unfold c
        split <;> omega
      have hnext : (if process p.1 p.2 = nullTableEntry then k - r - 1 else k - r) = k - (r + c) := by
        unfold c
        split <;> omega
      rw [hnext, removed_cons]
      change _ = (p :: entries, k - r - (removed process entries + c)) ↔ (r = 0 ∧ removed process entries + c = 0) ∨ _
      have hlength : k - r - (removed process entries + c) = k - (r + c) - removed process entries := by omega
      rw [hlength, Prod.mk.injEq, List.cons.injEq, and_iff_right rfl, ← Prod.mk.injEq, ih (by omega) (by omega)]
      -- The first entry is not the last one of the loop, and the others are counted from the next one on.
      have hshift : ∀ i, r + removed process ((p :: entries).take (i + 1)) + (j + (i + 1)) + 1 =
          r + c + removed process (entries.take i) + (j + 1 + i) + 1 := by
        intro i
        rw [List.take_succ_cons, removed_cons]
        change r + (removed process (entries.take i) + c) + (j + (i + 1)) + 1 = _
        omega
      refine or_congr (by omega) ⟨?_, ?_⟩
      · intro hrest i hi
        cases i with
        | zero =>
          have hzero : removed process ((p :: entries).take 0) = 0 := rfl
          omega
        | succ i =>
          rw [hshift]
          exact hrest i (by simpa using hi)
      · intro hall i hi
        rw [← hshift]
        exact hall (i + 1) (by simpa using hi)

/-- All entries that are present in a table. -/
def entries (table : PageTable) : List (EntryRange × TableEntry) := table.presentEntries (List.finRange 512)

lemma length_entries (table : PageTable) : table.entries.length = presentIn table.data (List.finRange 512) := by
  unfold entries presentEntries presentIn
  rw [List.length_map, List.countP_eq_length_filter]

lemma mem_entries {table : PageTable} {p : EntryRange × TableEntry} :
    p ∈ table.entries ↔ table.data p.1 = p.2 ∧ p.2 ≠ nullTableEntry := by
  unfold entries presentEntries
  constructor
  · intro hp
    obtain ⟨i, hi, rfl⟩ := List.mem_map.mp hp
    exact ⟨rfl, by simpa using (List.mem_filter.mp hi).2⟩
  · rintro ⟨hdata, hne⟩
    refine List.mem_map.mpr ⟨p.1, List.mem_filter.mpr ⟨List.mem_finRange p.1, ?_⟩, Prod.ext rfl hdata⟩
    rw [hdata]
    simpa using hne

/-- When all entries have been visited, those that were not removed are present. -/
lemma presentIn_updated {table table' : PageTable}
    (hothers : ∀ i ∉ table.entries.map Prod.fst, table'.data i = table.data i)
    (hvisited : ∀ p ∈ table.entries, table'.data p.1 = process p.1 p.2) :
    presentIn table'.data (List.finRange 512) + removed process table.entries = table.entries.length := by
  have hcount : ∀ is : List EntryRange, presentIn table'.data is + removed process (table.presentEntries is) =
      (table.presentEntries is).length := by
    intro is
    induction is with
    | nil => rfl
    | cons i is ih =>
      rw [presentIn_cons]
      by_cases hi : table.data i ≠ nullTableEntry
      · have hentry : table'.data i = process i (table.data i) := hvisited (i, table.data i) (mem_entries.mpr ⟨rfl, hi⟩)
        rw [presentEntries_cons_of_present hi, removed_cons, List.length_cons, hentry]
        by_cases hnull : process i (table.data i) = nullTableEntry
        · rw [if_neg (by simpa using hnull), if_pos hnull]
          omega
        · rw [if_pos hnull, if_neg hnull]
          omega
      · have hnot : i ∉ table.entries.map Prod.fst := by
          intro hmem
          obtain ⟨p, hp, rfl⟩ := List.mem_map.mp hmem
          obtain ⟨hdata, hne⟩ := mem_entries.mp hp
          exact hi (hdata ▸ hne)
        rw [presentEntries_cons_of_null hi, hothers i hnot, if_neg hi, Nat.add_zero]
        exact ih
  exact hcount _

/-- An update visits all entries and leaves the counter right, exactly if the loop comes to its last entry. -/
lemma update_complete_iff {table : PageTable} (h : table.Counted) :
    let calls := updateCalls process (List.finRange 512) 0 table
    (calls.1 = table.entries ∧ calls.2.Counted) ↔ Completes process table.entries := by
  obtain ⟨hwalk, hothers, hvisited⟩ := @updateCalls_spec process _ (List.nodup_finRange 512) 0 table
  dsimp only
  have hlength : table.length = table.entries.length := h.trans (length_entries table).symm
  have hiff := @walk_iff process table.entries table.entries.length 0 0 (Nat.zero_add _) (Nat.le_refl 0)
  rw [Nat.sub_zero] at hiff
  unfold Completes
  have hright : (0 = 0 ∧ removed process table.entries = 0) ∨
      (∀ i < table.entries.length, 0 + removed process (table.entries.take i) + (0 + i) + 1 ≠ table.entries.length) ↔
      removed process table.entries = 0 ∨
        ∀ j < table.entries.length, removed process (table.entries.take j) + j + 1 ≠ table.entries.length := by
    simp only [true_and, Nat.zero_add]
  rw [← hright, ← hiff, ← hlength]
  change _ ↔ walk process (table.presentEntries (List.finRange 512)) 0 table.length = _
  rw [← hwalk, Prod.mk.injEq]
  refine and_congr_right fun hcalls => ?_
  rw [hcalls] at hothers hvisited
  have hpresent := presentIn_updated hothers fun p hp => (hvisited p hp).2.2
  unfold Counted
  omega

/-! ### Runs -/

inductive Op
  | addEntry (index : EntryRange) (e : TableEntry)
  | update (process : EntryRange → TableEntry → TableEntry)

/-- The table after an operation; an exception leaves it as it is. -/
def step (table : PageTable) : Op → PageTable
  | .addEntry index e =>
    match table.addEntry index e with
    | .ok table => table
    | .error _ => table
  | .update process => (updateCalls process (List.finRange 512) 0 table).2

/-- The present entries are counted, and `Iterate` visits them. -/
def Consistent (table : PageTable) : Prop :=
  (∃ n, table.count = .ok n ∧ n.val = table.entries.length) ∧ table.iterate = table.entries

/-- An update visits all present entries. -/
def Visits (table : PageTable) : Op → Prop
  | .addEntry _ _ => True
  | .update process => (updateCalls process (List.finRange 512) 0 table).1 = table.entries

/-- Every table of a run is consistent, and every update visits the entries that are present before it. -/
def RunConsistent : PageTable → List Op → Prop
  | table, [] => table.Consistent
  | table, op :: ops => table.Consistent ∧ table.Visits op ∧ RunConsistent (table.step op) ops

/-- There is room for an entry. -/
def NotFull (table : PageTable) : Prop := ∃ i, table.data i = nullTableEntry

def OpCompletes (table : PageTable) : Op → Prop
  | .addEntry _ _ => True
  | .update process => Completes process table.entries

/-- No table of a run is full, and every update comes to its last entry. -/
def RunCompletes : PageTable → List Op → Prop
  | table, [] => table.NotFull
  | table, op :: ops => table.NotFull ∧ table.OpCompletes op ∧ RunCompletes (table.step op) ops

lemma Consistent.counted {table : PageTable} (h : table.Consistent) : table.Counted ∧ table.NotFull := by
  obtain ⟨⟨n, hcount, hn⟩, -⟩ := h
  unfold count at hcount
  by_cases hlt : table.length < 512
  · rw [dif_pos hlt] at hcount
    have hlength : table.length = n.val := congrArg Fin.val (Except.ok.inj hcount)
    have hcounted : table.Counted := by
      unfold Counted
      rw [hlength, hn, length_entries]
    refine ⟨hcounted, ?_⟩
    by_contra hfull
    have hall : ∀ i, table.data i ≠ nullTableEntry := fun i hi => hfull ⟨i, hi⟩
    have hpresent : presentIn table.data (List.finRange 512) = (List.finRange 512).length :=
      List.countP_eq_length.mpr fun i _ => by simpa using hall i
    rw [List.length_finRange, ← hcounted] at hpresent
    omega
  · rw [dif_neg hlt] at hcount
    cases hcount

lemma Counted.consistent {table : PageTable} (h : table.Counted) (hroom : table.NotFull) : table.Consistent := by
  obtain ⟨i, hi⟩ := hroom
  have hlt := h.length_lt hi
  refine ⟨⟨⟨table.length, hlt⟩, dif_pos hlt, ?_⟩, iterate_eq h⟩
  rw [length_entries]
  exact h

lemma counted_addEntry {table : PageTable} (h : table.Counted) (index : EntryRange) (e : TableEntry) :
    (table.step (.addEntry index e)).Counted := by
  unfold step
  dsimp only
  cases hadd : table.addEntry index e with
  | error _ => exact h
  | ok table' =>
    dsimp only
    by_cases he : e = nullTableEntry
    · subst he
      unfold addEntry at hadd
      dsimp only at hadd
      by_cases hsame : table.data index = nullTableEntry
      · rw [if_pos hsame] at hadd
        rwa [← Except.ok.inj hadd]
      · rw [if_neg hsame, if_pos hsame] at hadd
        cases hadd
    · exact (addEntry_spec he hadd).2.2 h

lemma counted_nullTable : nullTable.Counted := by
  unfold Counted presentIn
  symm
  apply List.countP_eq_zero.mpr
  intro i _
  simp [nullTable]

lemma runConsistent_of_counted {table : PageTable} (h : table.Counted) (ops : List Op) :
    table.RunConsistent ops ↔ table.RunCompletes ops := by
  induction ops generalizing table with
  | nil => exact ⟨fun hc => hc.counted.2, fun hroom => h.consistent hroom⟩
  | cons op ops ih =>
    unfold RunConsistent RunCompletes
    refine ⟨fun ⟨hc, hvisits, hrest⟩ => ?_, fun ⟨hroom, hcompletes, hrest⟩ => ?_⟩
    · have hnext : (table.step op).Counted := by
        cases ops with
        | nil => exact hrest.counted.1
        | cons _ _ => exact hrest.1.counted.1
      refine ⟨hc.counted.2, ?_, (ih hnext).mp hrest⟩
      cases op with
      | addEntry index e => trivial
      | update process => exact (update_complete_iff h).mp ⟨hvisits, hnext⟩
    · have hop : table.Visits op ∧ (table.step op).Counted := by
        cases op with
        | addEntry index e => exact ⟨trivial, counted_addEntry h index e⟩
        | update process => exact (update_complete_iff h).mpr hcompletes
      exact ⟨h.consistent hroom, hop.1, (ih hop.2).mpr hrest⟩

/-- The tables of a run are consistent exactly if none of them is full and every update comes to its last entry. -/
theorem run_consistent_iff (ops : List Op) : nullTable.RunConsistent ops ↔ nullTable.RunCompletes ops :=
  runConsistent_of_counted counted_nullTable ops

def presentEntry : TableEntry := { nullTableEntry with present := true }

/-- Three entries are added, and an update removes the first one. -/
def removeFirst : List Op :=
  [.addEntry 0 presentEntry, .addEntry 1 presentEntry, .addEntry 2 presentEntry,
    .update fun i e => if i = 0 then nullTableEntry else e]

/-- All of some entries are added. -/
def fill (is : List EntryRange) : List Op := is.map fun i => .addEntry i presentEntry

lemma data_fill {is : List EntryRange} {table : PageTable}
    (htable : ∀ i, table.data i = nullTableEntry ∨ table.data i = presentEntry) (i : EntryRange) :
    (i ∈ is ∨ table.data i = presentEntry) → ((fill is).foldl step table).data i = presentEntry := by
  induction is generalizing table with
  | nil => exact fun h => h.resolve_left nofun
  | cons j is ih =>
    intro h
    have hdata : (table.step (.addEntry j presentEntry)).data = Function.update table.data j presentEntry := by
      unfold step addEntry
      dsimp only
      by_cases hsame : table.data j = presentEntry
      · rw [if_pos hsame, ← hsame, Function.update_eq_self]
      · rw [if_neg hsame, if_neg (by simpa using (htable j).resolve_right hsame)]
    have hvalue : ∀ k, (table.step (.addEntry j presentEntry)).data k = if k = j then presentEntry else table.data k := by
      intro k
      rw [hdata, Function.update_apply]
    refine ih (fun k => ?_) ?_
    · rw [hvalue]
      split
      · exact Or.inr rfl
      · exact htable k
    · rw [hvalue]
      by_cases hij : i = j
      · exact Or.inr (if_pos hij)
      · rw [if_neg hij]
        exact h.imp_left fun hmem => (List.mem_cons.mp hmem).resolve_left hij

lemma RunConsistent.final {table : PageTable} {ops : List Op} (h : table.RunConsistent ops) :
    (ops.foldl step table).Consistent := by
  induction ops generalizing table with
  | nil => exact h
  | cons op ops ih => exact ih h.2.2

lemma not_runConsistent_fill {is : List EntryRange} (h : ∀ i, i ∈ is) : ¬nullTable.RunConsistent (fill is) := by
  intro hconsistent
  obtain ⟨i, hi⟩ := hconsistent.final.counted.2
  have hpresent : presentEntry ≠ nullTableEntry := by decide
  exact hpresent ((data_fill (fun _ => Or.inl rfl) i (Or.inl (h i))).symm.trans hi)

/-- The last entry is not visited when the first one is removed, and a full table is not counted. -/
theorem removeFirst_fill_inconsistent :
    ¬nullTable.RunConsistent removeFirst ∧ ¬nullTable.RunConsistent (fill (List.finRange 512)) := by
  have hlast : ¬((removeFirst.take 3).foldl step nullTable).Visits
      (.update fun i e => if i = 0 then nullTableEntry else e) := by
    unfold Visits
    decide +kernel
  exact ⟨fun h => hlast h.2.2.2.2.2.2.2.1, not_runConsistent_fill List.mem_finRange⟩

end Muen.Tools.Paging.PageTable
