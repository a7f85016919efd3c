import Muen.Tools.Paging.SmallPages

/-!
# Paging.Layouts: counting and visiting the tables

`Get_Table_Count` and `Traverse_Tables` ask the level 1 table for the number of its entries first. The number is
returned in the type of the entry indexes, so that both raise when all 512 entries are used. Otherwise the
tables visited are those on the way to the mapped pages.
-/

namespace Muen.Tools.Paging
open Muen.Lib

/-- The size of the range that an entry of the level covers. -/
def levelSize : Nat → Unsigned64
  | 1 => 2 ^ 39
  | 2 => 2 ^ 30
  | 3 => 2 ^ 21
  | _ => 2 ^ 12

def getBaseAddress (index level : Nat) : Unsigned64 :=
  if level = 1 then 0 else BitVec.ofNat 64 index * levelSize (level - 1)

/-- The number of tables of each level, from level 1 on. -/
def getTableCount (layout : MemoryLayout) : Except PagingError (List Nat) := do
  let count ← layout.level1Table.count
  .ok ((if count > 0 then 1 else 0) :: (List.range' 2 (layout.levels - 1)).map
    (fun level => (layout.structures level).length))

def traverseTables {σ : Type} (layout : MemoryLayout) (process : σ → Nat → Nat → PageTable → σ) (s : σ) :
    Except PagingError σ := do
  let count ← layout.level1Table.count
  if count = 0 then .ok s
  else .ok ((List.range' 2 (layout.levels - 1)).reverse.foldl
    (fun s curLevel => (layout.structures curLevel).foldl (fun s p => process s curLevel p.1 p.2) s)
    (process s 1 0 layout.level1Table))

/-! ### The number of entries of the level 1 table -/

section Count

variable {Q : Nat → Prop} {table : PageTable}

lemma Slots.count_full (h : Slots Q table) (hfull : ∀ n, n < 512 → Q n) : table.count = .error .constraintError := by
  have hlength : table.length = 512 := by
    rw [h.counted, PageTable.presentIn, List.countP_eq_length.mpr]
    · exact List.length_finRange
    · intro i _
      rw [decide_eq_true_iff, h.entries]
      exact hfull i.val i.isLt
  unfold PageTable.count
  rw [dif_neg (by omega)]

lemma Slots.count_eq (h : Slots Q table) {n m : Nat} (hm : m < 512) (hfree : ¬Q m) (hn : n < 512) (hused : Q n) :
    ∃ count, table.count = .ok count ∧ count > 0 := by
  have hlt : table.length < 512 := by
    have hle := List.countP_le_length (p := fun i => decide (table.data i ≠ nullTableEntry)) (l := List.finRange 512)
    rw [List.length_finRange] at hle
    rw [h.counted, PageTable.presentIn]
    apply lt_of_le_of_ne hle
    intro hall
    have hentry := List.countP_eq_length.mp (hall.trans List.length_finRange.symm) ⟨m, hm⟩ (List.mem_finRange _)
    rw [decide_eq_true_iff, h.entries] at hentry
    exact hfree hentry
  have hpos : 0 < table.length := by
    rw [h.counted, PageTable.presentIn, List.countP_pos_iff]
    refine ⟨⟨n, hn⟩, List.mem_finRange _, ?_⟩
    rw [decide_eq_true_iff, h.entries]
    exact hused
  refine ⟨⟨table.length, hlt⟩, dif_pos hlt, ?_⟩
  exact Fin.lt_def.mpr hpos

end Count

/-! ### The tables visited -/

/-- The levels and the numbers of the tables in the maps, in the order of the visits. -/
def visitedInMaps (layout : MemoryLayout) : List (Nat × Nat) :=
  (List.range' 2 (layout.levels - 1)).reverse.flatMap
    (fun level => (layout.structures level).map (fun p => (level, p.1)))

/-- Deeper levels first, and in each level by ascending number. -/
def Precedes (x y : Nat × Nat) : Prop := y.1 < x.1 ∨ (x.1 = y.1 ∧ x.2 < y.2)

/-- Some, but not all, of the entries of the level 1 table are used. -/
def PartlyUsed (P : Nat → Prop) : Prop :=
  (∃ n, n < 512 ∧ ∃ idx, P idx ∧ idx / 512 ^ 3 = n) ∧ ∃ n, n < 512 ∧ ∀ idx, P idx → idx / 512 ^ 3 ≠ n

section Visited

variable {levels : Nat} {P : Nat → Prop} {a b : MemoryLayout}

lemma MapsPages.count_eq (h : MapsPages levels P a) (hP : PartlyUsed P) :
    ∃ count, a.level1Table.count = .ok count ∧ count > 0 := by
  obtain ⟨⟨n, hn, hused⟩, m, hm, hfree⟩ := hP
  apply h.slots.count_eq hm _ hn hused
  rintro ⟨idx, hidx, hslot⟩
  exact hfree idx hidx hslot

/-- A process that does not look at the tables sees their levels and numbers. -/
lemma MapsPages.traverseTables_eq {σ : Type} (h : MapsPages levels P a) (hP : PartlyUsed P)
    (process : σ → Nat × Nat → σ) (s : σ) :
    traverseTables a (fun s level n _ => process s (level, n)) s =
      .ok ((visitedInMaps a).foldl process (process s (1, 0))) := by
  obtain ⟨count, hcount, hpos⟩ := h.count_eq hP
  unfold traverseTables visitedInMaps
  rw [hcount, ok_bind, if_neg (Fin.pos_iff_ne_zero.mp hpos), List.foldl_flatMap]
  simp only [List.foldl_map]

/-- The traversal raises when the level 1 table is full. -/
lemma MapsPages.traverseTables_full {σ : Type} (h : MapsPages levels P a)
    (hfull : ∀ n, n < 512 → ∃ idx, P idx ∧ idx / 512 ^ 3 = n) (process : σ → Nat → Nat → PageTable → σ) (s : σ) :
    traverseTables a process s = .error .constraintError := by
  unfold traverseTables
  rw [h.slots.count_full hfull]
  rfl

lemma MapsPages.getTableCount_eq (h : MapsPages levels P a) (hP : PartlyUsed P) :
    ∃ counts, getTableCount a = .ok counts ∧ counts.sum = 1 + (visitedInMaps a).length := by
  obtain ⟨count, hcount, hpos⟩ := h.count_eq hP
  refine ⟨_, by unfold getTableCount; rw [hcount, ok_bind], ?_⟩
  rw [if_pos hpos, visitedInMaps, List.sum_cons, List.length_flatMap]
  simp only [List.length_map, List.map_reverse, List.sum_reverse]

/-- The numbers of the tables that lead to the pages. -/
lemma MapsPages.mem_numbers (h : MapsPages levels P a) {l n : Nat} :
    n ∈ (a.structures l).map Prod.fst ↔ 2 ≤ l ∧ l ≤ levels ∧ ∃ idx, P idx ∧ idx / 512 ^ (levels + 1 - l) = n := by
  have hfind : n ∈ (a.structures l).map Prod.fst ↔ ((a.structures l).find n).isSome := by
    constructor
    · intro hn
      obtain ⟨⟨m, table⟩, hmem, rfl⟩ := List.mem_map.mp hn
      rw [PageTableMap.find_of_mem (h.exactly.wellFormed l) hmem]
      rfl
    · intro hn
      obtain ⟨table, htable⟩ := Option.isSome_iff_exists.mp hn
      exact List.mem_map.mpr ⟨(n, table), PageTableMap.mem_of_find htable, rfl⟩
  rw [hfind, h.exactly.tables]
  constructor
  · rintro ⟨g, rfl, h2, hl, idx, hidx, rfl⟩
    refine ⟨h2, hl, idx, hidx, ?_⟩
    rw [Nat.div_div_eq_div_mul, ← pow_succ, Nat.succ_sub hl]
  · rintro ⟨h2, hl, idx, hidx, rfl⟩
    refine ⟨idx / 512 ^ (levels - l), ?_, h2, hl, idx, hidx, rfl⟩
    rw [Nat.div_div_eq_div_mul, ← pow_succ, Nat.succ_sub hl]

/-- Layouts that map the same pages have the same tables. -/
lemma MapsPages.visitedInMaps_eq (ha : MapsPages levels P a) (hb : MapsPages levels P b) :
    visitedInMaps a = visitedInMaps b := by
  have hnumbers : ∀ l, (a.structures l).map Prod.fst = (b.structures l).map Prod.fst := by
    intro l
    apply (ha.exactly.wellFormed l).sorted.eq_of_mem_iff (hb.exactly.wellFormed l).sorted
    intro n
    rw [ha.mem_numbers, hb.mem_numbers]
  unfold visitedInMaps
  rw [ha.exactly.levels_eq, hb.exactly.levels_eq]
  apply List.flatMap_congr
  intro l _
  have hl := congrArg (List.map (fun n => (l, n))) (hnumbers l)
  rw [List.map_map, List.map_map] at hl
  exact hl

lemma MapsPages.mem_visitedInMaps (h : MapsPages levels P a) {l n : Nat} : (l, n) ∈ visitedInMaps a ↔
    2 ≤ l ∧ l ≤ levels ∧ ∃ idx, P idx ∧ idx / 512 ^ (levels + 1 - l) = n := by
  have hmem : (l, n) ∈ visitedInMaps a ↔ (2 ≤ l ∧ l ≤ levels) ∧ n ∈ (a.structures l).map Prod.fst := by
    unfold visitedInMaps
    rw [List.mem_flatMap]
    constructor
    · rintro ⟨level, hlevel, hx⟩
      obtain ⟨p, hp, heq⟩ := List.mem_map.mp hx
      obtain ⟨rfl, rfl⟩ := Prod.mk.inj heq
      rw [List.mem_reverse, List.mem_range'_1, h.exactly.levels_eq] at hlevel
      exact ⟨by omega, List.mem_map.mpr ⟨p, hp, rfl⟩⟩
    · rintro ⟨hl, hn⟩
      obtain ⟨p, hp, rfl⟩ := List.mem_map.mp hn
      refine ⟨l, ?_, List.mem_map.mpr ⟨p, hp, rfl⟩⟩
      rw [List.mem_reverse, List.mem_range'_1, h.exactly.levels_eq]
      omega
  rw [hmem, h.mem_numbers]
  tauto

lemma MapsPages.visitedInMaps_pairwise (h : MapsPages levels P a) : (visitedInMaps a).Pairwise Precedes := by
  unfold visitedInMaps
  rw [List.pairwise_flatMap]
  constructor
  · intro level _
    have hsorted := (h.exactly.wellFormed level).sorted
    rw [List.pairwise_map] at hsorted ⊢
    exact hsorted.imp (fun hlt => Or.inr ⟨rfl, hlt⟩)
  · rw [List.pairwise_reverse]
    have hrange : (List.range' 2 (a.levels - 1)).Pairwise (· < ·) := List.pairwise_lt_range'
    apply hrange.imp
    intro l l' hlt x hx y hy
    obtain ⟨p, -, rfl⟩ := List.mem_map.mp hx
    obtain ⟨q, -, rfl⟩ := List.mem_map.mp hy
    exact Or.inl hlt

lemma MapsPages.length_visitedInMaps_le (h : MapsPages levels P a) (hlevels : levels ≤ 4)
    (hbound : ∀ idx, P idx → idx < 512 ^ 4) : (visitedInMaps a).length ≤ 5 * 512 ^ 3 := by
  have hnodup : (visitedInMaps a).Nodup := by
    apply h.visitedInMaps_pairwise.imp
    rintro x y hxy rfl
    unfold Precedes at hxy
    omega
  have hsubset : (visitedInMaps a).toFinset ⊆ Finset.range 5 ×ˢ Finset.range (512 ^ 3) := by
    rintro ⟨l, n⟩ hx
    obtain ⟨h2, hl, idx, hidx, hn⟩ := h.mem_visitedInMaps.mp (List.mem_toFinset.mp hx)
    have hle : n ≤ idx / 512 := by
      rw [← hn]
      apply Nat.div_le_div_left _ (by norm_num)
      exact Nat.le_self_pow (by omega) 512
    have hlt := hbound idx hidx
    rw [Finset.mem_product, Finset.mem_range, Finset.mem_range]
    exact ⟨by simp only; omega, by simp only; omega⟩
  have hcard := Finset.card_le_card hsubset
  rwa [List.toFinset_card_of_nodup hnodup, Finset.card_product, Finset.card_range, Finset.card_range] at hcard

end Visited

end Muen.Tools.Paging
