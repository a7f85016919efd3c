import Muen.Tools.Paging.SmallPages

/-!
# The pages that map a region

`Add_Memory_Region` takes for each page of a region the largest page around it that lies in the region. Which
entries this needs on which level does not depend on the layout (`Wants`): a call either makes all of them, or it
finds another entry in the place of one of them.
-/

namespace Muen.Tools.Paging
open Muen.Lib

namespace MemoryRegion

/-- The page of `512 ^ k` small pages around the given one lies in the region. -/
def Fills (r : MemoryRegion) (k idx : Nat) : Prop :=
  r.startIdx ≤ idx / 512 ^ k * 512 ^ k ∧ idx / 512 ^ k * 512 ^ k + 512 ^ k ≤ r.endIdx + 1

instance (r : MemoryRegion) (k idx : Nat) : Decidable (r.Fills k idx) := inferInstanceAs (Decidable (_ ∧ _))

/-- The size of the page that maps the given small page: two for 1 GB, one for 2 MB and zero for 4 KB. -/
def pageSize (r : MemoryRegion) (levels : Nat) (large : Bool) (idx : Nat) : Nat :=
  if (large ∧ levels = 4) ∧ r.Fills 2 idx then 2
  else if large ∧ r.Fills 1 idx then 1
  else 0

/-- The entry on the way to the page, at the level of the pages of the given size. -/
def wantEntry (r : MemoryRegion) (levels : Nat) (large : Bool) (idx k : Nat) : TableEntry :=
  if r.pageSize levels large idx = k then r.pageEntry (r.physAt (idx / 512 ^ k * 512 ^ k))
  else refEntry (idx / 512 ^ k)

/-- A page of the region and a level on the way to it. -/
structure OnWay (r : MemoryRegion) (levels : Nat) (large : Bool) (idx k : Nat) : Prop where
  start_le : r.startIdx ≤ idx
  le_end : idx ≤ r.endIdx
  size_le : r.pageSize levels large idx ≤ k
  level : k + 2 ≤ levels

/-- The region needs the entry. -/
def Wants (r : MemoryRegion) (levels : Nat) (large : Bool) (l g : Nat) (e : TableEntry) : Prop :=
  ∃ idx k, r.OnWay levels large idx k ∧ l = levels - k ∧ g = idx / 512 ^ k ∧ e = r.wantEntry levels large idx k

variable {r : MemoryRegion} {levels : Nat} {large : Bool} {idx idx' k : Nat}

lemma pageSize_le_two (r : MemoryRegion) (levels : Nat) (large : Bool) (idx : Nat) :
    r.pageSize levels large idx ≤ 2 := by
  unfold pageSize
  split_ifs <;> omega

/-- The page that is taken lies in the region. -/
lemma fills_pageSize (levels : Nat) (large : Bool) (hstart : r.startIdx ≤ idx) (hend : idx ≤ r.endIdx) :
    r.Fills (r.pageSize levels large idx) idx := by
  unfold pageSize
  split_ifs with h2 h1
  · exact h2.2
  · exact h1.2
  · unfold Fills
    omega

/-- No larger page lies in the region. -/
lemma le_pageSize (levels : Nat) (hlarge : large = true) (hk : k = 1 ∨ k = 2 ∧ levels = 4) (h : r.Fills k idx) :
    k ≤ r.pageSize levels large idx := by
  unfold pageSize
  rcases hk with rfl | ⟨rfl, hlevels⟩
  · by_cases h2 : (large ∧ levels = 4) ∧ r.Fills 2 idx
    · rw [if_pos h2]
      omega
    · rw [if_neg h2, if_pos ⟨hlarge, h⟩]
  · rw [if_pos ⟨⟨hlarge, hlevels⟩, h⟩]

lemma pageSize_large (hpos : 0 < r.pageSize levels large idx) : large = true ∧
    (r.pageSize levels large idx = 1 ∨ r.pageSize levels large idx = 2 ∧ levels = 4) := by
  unfold pageSize at hpos ⊢
  split_ifs at hpos ⊢ with h2 h1
  · exact ⟨h2.1.1, Or.inr ⟨rfl, h2.1.2⟩⟩
  · exact ⟨h1.1, Or.inl rfl⟩
  · omega

lemma fills_congr (h : idx / 512 ^ k = idx' / 512 ^ k) : r.Fills k idx ↔ r.Fills k idx' := by
  unfold Fills
  rw [h]

lemma div_congr {j : Nat} (h : idx / 512 ^ k = idx' / 512 ^ k) (hkj : k ≤ j) : idx / 512 ^ j = idx' / 512 ^ j := by
  have hpow : 512 ^ j = 512 ^ k * 512 ^ (j - k) := by
    rw [← Nat.pow_add]
    congr 1
    omega
  rw [hpow, ← Nat.div_div_eq_div_mul, ← Nat.div_div_eq_div_mul, h]

/-- Small pages in one page are mapped by it. -/
lemma pageSize_congr (h : idx / 512 ^ k = idx' / 512 ^ k) (hk : r.pageSize levels large idx = k) :
    r.pageSize levels large idx' = k := by
  have hle := r.pageSize_le_two levels large idx
  have h2 := fills_congr (r := r) (div_congr h (by omega : k ≤ 2))
  by_cases hk1 : k ≤ 1
  · have h1 := fills_congr (r := r) (div_congr h hk1)
    rw [← hk]
    simp only [pageSize, h2, h1]
  · unfold pageSize at hk ⊢
    split_ifs at hk with hf
    · rw [if_pos ⟨hf.1, h2.mp hf.2⟩]
      exact hk
    · omega
    · omega

lemma wantEntry_congr (h : idx / 512 ^ k = idx' / 512 ^ k) :
    r.wantEntry levels large idx k = r.wantEntry levels large idx' k := by
  have hiff : r.pageSize levels large idx = k ↔ r.pageSize levels large idx' = k :=
    ⟨pageSize_congr h, pageSize_congr h.symm⟩
  unfold wantEntry
  simp only [hiff, h]

lemma wantEntry_ne_null (r : MemoryRegion) (levels : Nat) (large : Bool) (idx k : Nat) :
    r.wantEntry levels large idx k ≠ nullTableEntry := by
  unfold wantEntry
  split_ifs
  · exact r.pageEntry_ne_null _
  · exact refEntry_ne_null _

lemma wantEntry_dst (h : r.OnWay levels large idx k) (hend : r.endIdx < 512 ^ 4) :
    (r.wantEntry levels large idx k).dstTableIndex < 512 ^ 3 := by
  unfold wantEntry
  split_ifs with hk
  · exact Nat.pow_pos (by decide)
  · have hpos : 1 ≤ k := by
      have := h.size_le
      omega
    have hle : idx / 512 ^ k ≤ idx / 512 ^ 1 := Nat.div_le_div_left (Nat.pow_le_pow_right (by decide) hpos) (by decide)
    have hidx := h.le_end
    show idx / 512 ^ k < 512 ^ 3
    omega

/-- On one place a region needs one entry. -/
lemma Wants.unique {l g : Nat} {e e' : TableEntry} (h : r.Wants levels large l g e)
    (h' : r.Wants levels large l g e') : e = e' := by
  obtain ⟨idx, k, hway, hl, hg, rfl⟩ := h
  obtain ⟨idx', k', hway', hl', hg', rfl⟩ := h'
  have hlevel := hway.level
  have hlevel' := hway'.level
  obtain rfl : k = k' := by omega
  exact wantEntry_congr (hg.symm.trans hg')

end MemoryRegion

/-! ### Single entries -/

namespace PageTable

lemma addEntry_error {table : PageTable} {i : EntryRange} {e : TableEntry} {err : PagingError}
    (h : table.addEntry i e = .error err) : ∃ message, err = .duplicateEntry message := by
  unfold addEntry at h
  simp only at h
  split_ifs at h
  injection h with h
  exact ⟨_, h.symm⟩

lemma addEntry_same {table : PageTable} {i : EntryRange} {e : TableEntry} (h : table.data i = e) :
    table.addEntry i e = .ok table := if_pos h

end PageTable

namespace PageTableMap

lemma addEntry_error {map : PageTableMap} {g : Nat} {e : TableEntry} {err : PagingError}
    (h : map.addEntry (g / 512) (entryRange g) e = .error err) :
    (∃ message, err = .duplicateEntry message) ∧ map.entryAt g ≠ nullTableEntry ∧ map.entryAt g ≠ e := by
  constructor
  · unfold addEntry at h
    cases hfind : map.find (g / 512) with
    | none =>
      rw [hfind] at h
      cases hadd : nullTable.addEntry (entryRange g) e with
      | error err' =>
        rw [hadd] at h
        injection h with h
        exact h ▸ PageTable.addEntry_error hadd
      | ok table =>
        rw [hadd] at h
        cases h
    | some table =>
      simp only [hfind] at h
      cases hadd : table.addEntry (entryRange g) e with
      | error err' =>
        rw [hadd] at h
        injection h with h
        exact h ▸ PageTable.addEntry_error hadd
      | ok table' =>
        rw [hadd] at h
        cases h
  · by_contra hnot
    have hor : map.entryAt g = nullTableEntry ∨ map.entryAt g = e := by tauto
    obtain ⟨map', hok⟩ := addEntry_exists hor
    rw [hok] at h
    cases h

lemma assign_same {map : PageTableMap} (hwf : map.WellFormed) {n : Nat} {table : PageTable}
    (h : map.find n = some table) : map.assign n table = map := by
  unfold assign
  conv_rhs => rw [← List.map_id map]
  apply List.map_congr_left
  intro q hq
  by_cases hn : q.1 = n
  · have hfind := find_of_mem hwf (show (q.1, q.2) ∈ map from hq)
    rw [hn, h] at hfind
    rw [if_pos hn, Option.some.inj hfind]
    rfl
  · rw [if_neg hn]
    rfl

/-- An entry that is there already changes nothing. -/
lemma addEntry_same {map : PageTableMap} (hwf : map.WellFormed) {g : Nat} {e : TableEntry} (he : e ≠ nullTableEntry)
    (h : map.entryAt g = e) : map.addEntry (g / 512) (entryRange g) e = .ok map := by
  unfold entryAt at h
  unfold addEntry
  cases hfind : map.find (g / 512) with
  | none =>
    rw [hfind] at h
    exact absurd h.symm he
  | some table =>
    rw [hfind] at h
    have hdata : table.data (entryRange g) = e := h
    simp only
    rw [PageTable.addEntry_same hdata, ok_bind, assign_same hwf hfind]

end PageTableMap

/-- `b` is `a` with further entries that satisfy `S`, and it is `a` itself if there are none. -/
structure Grows (S : Nat → Nat → TableEntry → Prop) (a b : MemoryLayout) : Prop where
  adds : Adds S a b
  same : (∀ l g, b.entry l g = a.entry l g) → b = a

section Grows

variable {S : Nat → Nat → TableEntry → Prop} {a b c : MemoryLayout}

lemma Grows.refl (h : a.WellFormed) : Grows S a a := ⟨Adds.refl h, fun _ => rfl⟩

lemma Grows.trans (hab : Grows S a b) (hbc : Grows S b c) : Grows S a c where
  adds := hab.adds.trans hbc.adds
  same := by
    intro hsame
    have hb : ∀ l g, b.entry l g = a.entry l g := by
      intro l g
      rcases hab.adds.entries l g with h | ⟨hnull, -⟩
      · exact h
      · rcases hbc.adds.entries l g with h | ⟨hbnull, -⟩
        · rw [← h, hsame]
        · rw [hbnull, hnull]
    rw [← hab.same hb]
    apply hbc.same
    intro l g
    rw [hsame, hb]

end Grows

section Entering

variable {r : MemoryRegion} {a b c : MemoryLayout} {cur idx k : Nat}

/-- Another entry is in the place of one that the region needs. -/
def Conflict (r : MemoryRegion) (a : MemoryLayout) : Prop :=
  ∃ idx k, r.OnWay a.levels a.useLargePages idx k ∧ a.entry (a.levels - k) (idx / 512 ^ k) ≠ nullTableEntry ∧
    a.entry (a.levels - k) (idx / 512 ^ k) ≠ r.wantEntry a.levels a.useLargePages idx k

/-- What is raised for a region that does not leave the address space. -/
def Raises (r : MemoryRegion) (a : MemoryLayout) (err : PagingError) : Prop :=
  r.endIdx < 512 ^ 4 → (∃ message, err = .duplicateEntry message) ∧ Conflict r a

/-- Entries that the region needs have been added to `a`, which gave `b`. -/
abbrev Filled (r : MemoryRegion) (a b : MemoryLayout) : Prop := Grows (r.Wants a.levels a.useLargePages) a b

lemma addAt_grows {S : Nat → Nat → TableEntry → Prop} {l n g : Nat} {e : TableEntry} (hwf : a.WellFormed)
    (he : e ≠ nullTableEntry) (hn : n = g / 512) (hS : S l g e) (h : addAt a l n g e = .ok b) :
    Grows S a b ∧ b.entry l g = e := by
  obtain ⟨hadds, hentry, -, -⟩ := addAt_spec hwf he hn hS h
  refine ⟨⟨hadds, fun hsame => ?_⟩, hentry⟩
  obtain ⟨n', hrange, h1⟩ := bind_eq_ok h
  obtain ⟨_, -, h2⟩ := bind_eq_ok h1
  obtain ⟨map, hadd, h3⟩ := bind_eq_ok h2
  obtain ⟨rfl, -⟩ := tableRange_ok hrange
  have hold : (a.structures l).entryAt g = e := (hsame l g).symm.trans hentry
  rw [hn, PageTableMap.addEntry_same (hwf l) he hold] at hadd
  rw [← Except.ok.inj h3, ← Except.ok.inj hadd, Function.update_eq_self]

/-- Entering one entry that the region needs. -/
lemma addAt_wanted (h : Filled r a b) (hway : r.OnWay a.levels a.useLargePages idx k) {l n g : Nat} {e : TableEntry}
    (hl : l = a.levels - k) (hn : n = g / 512) (hg : g = idx / 512 ^ k)
    (he : e = r.wantEntry a.levels a.useLargePages idx k) :
    Outcome (fun c => Grows (r.Wants a.levels a.useLargePages) b c ∧ Filled r a c ∧ c.entry l g = e) (Raises r a)
      (addAt b l n g e) := by
  have hnull : e ≠ nullTableEntry := by
    rw [he]
    exact r.wantEntry_ne_null _ _ _ _
  have hwants : r.Wants a.levels a.useLargePages l g e := ⟨idx, k, hway, hl, hg, he⟩
  cases hrun : addAt b l n g e with
  | ok c =>
    obtain ⟨hgrows, hentry⟩ := addAt_grows h.adds.wellFormed hnull hn hwants hrun
    exact ⟨hgrows, h.trans hgrows, hentry⟩
  | error err =>
    intro hend
    have hdst : e.dstTableIndex < 512 ^ 3 := he ▸ MemoryRegion.wantEntry_dst hway hend
    have hrange : g / 512 < 512 ^ 3 := by
      have hdiv : g ≤ idx := hg ▸ Nat.div_le_self _ _
      have hidx := hway.le_end
      omega
    rw [addAt, hn, tableRange_of_lt hrange, ok_bind, tableRange_of_lt hdst, ok_bind] at hrun
    cases hadd : (b.structures l).addEntry (g / 512) (entryRange g) e with
    | ok map =>
      rw [hadd] at hrun
      cases hrun
    | error err' =>
      rw [hadd] at hrun
      cases hrun
      obtain ⟨hmessage, hne, hother⟩ := PageTableMap.addEntry_error hadd
      refine ⟨hmessage, idx, k, hway, ?_⟩
      rw [← hl, ← hg, ← he]
      -- an entry that the region has added itself is the one it needs
      rcases h.adds.entries l g with hsame | ⟨-, hown⟩
      · rw [← hsame]
        exact ⟨hne, hother⟩
      · exact absurd (hown.unique hwants) hother

/-- The references to larger pages around the current one. -/
def Refs (a b : MemoryLayout) (cur size : Nat) : Prop :=
  ∀ k, size < k → k + 2 ≤ a.levels → b.entry (a.levels - k) (cur / 512 ^ k) = refEntry (cur / 512 ^ k)

/-- The pages before the current one have been entered. -/
structure Progress (r : MemoryRegion) (a b : MemoryLayout) (cur : Nat) : Prop where
  filled : Filled r a b
  start_le : r.startIdx ≤ cur
  led : cur ≤ r.endIdx → ∀ k, k + 2 ≤ a.levels → cur % 512 ^ k ≠ 0 →
    b.entry (a.levels - k) (cur / 512 ^ k) = refEntry (cur / 512 ^ k)
  aligned : cur ≤ r.endIdx → cur % 512 ^ r.pageSize a.levels a.useLargePages cur = 0
  done : ∀ idx k, r.OnWay a.levels a.useLargePages idx k → idx < cur →
    b.entry (a.levels - k) (idx / 512 ^ k) = r.wantEntry a.levels a.useLargePages idx k

/-- The next page is in the same larger pages, unless it is the first one in them. -/
lemma div_next {size : Nat} (hk : k ≤ 2) (hsize : size < k) (haligned : cur % 512 ^ size = 0)
    (hmod : (cur + 512 ^ size) % 512 ^ k ≠ 0) : (cur + 512 ^ size) / 512 ^ k = cur / 512 ^ k := by
  have hcases : size = 0 ∧ k = 1 ∨ size = 0 ∧ k = 2 ∨ size = 1 ∧ k = 2 := by omega
  rcases hcases with ⟨rfl, rfl⟩ | ⟨rfl, rfl⟩ | ⟨rfl, rfl⟩ <;> omega

lemma mod_next {size : Nat} (hk : k ≤ size) (haligned : cur % 512 ^ size = 0) : (cur + 512 ^ size) % 512 ^ k = 0 := by
  have hdvd : 512 ^ k ∣ 512 ^ size := Nat.pow_dvd_pow 512 hk
  exact Nat.mod_eq_zero_of_dvd (Nat.dvd_add (hdvd.trans (Nat.dvd_of_mod_eq_zero haligned)) hdvd)

/-- After the page of the given size was entered. -/
lemma Progress.advance (hl : a.levels = 3 ∨ a.levels = 4) (h : Progress r a b cur) (hend : cur ≤ r.endIdx) {size : Nat}
    (hsize : r.pageSize a.levels a.useLargePages cur = size) (hgrows : Grows (r.Wants a.levels a.useLargePages) b c)
    (hentry : c.entry (a.levels - size) (cur / 512 ^ size) = r.wantEntry a.levels a.useLargePages cur size)
    (hrefs : Refs a b cur size) : Progress r a c (cur + 512 ^ size) := by
  have haligned := h.aligned hend
  rw [hsize] at haligned
  have hrefs' : Refs a c cur size := fun k hk hlevel => hgrows.adds.entry_ref (hrefs k hk hlevel)
  refine ⟨h.filled.trans hgrows, h.start_le.trans (Nat.le_add_right _ _), ?_, ?_, ?_⟩
  · intro hnext k hlevel hmod
    have hlt : size < k := by
      by_contra hle
      exact hmod (mod_next (by omega) haligned)
    rw [div_next (by omega) hlt haligned hmod]
    exact hrefs' k hlt hlevel
  · intro hnext
    by_contra hmod
    have hle := r.pageSize_le_two a.levels a.useLargePages (cur + 512 ^ size)
    have hlt : size < r.pageSize a.levels a.useLargePages (cur + 512 ^ size) := by
      by_contra hle
      exact hmod (mod_next (by omega) haligned)
    have hstart := h.start_le
    have hfills := r.fills_pageSize a.levels a.useLargePages (by omega) hnext
    rw [MemoryRegion.fills_congr (div_next hle hlt haligned hmod)] at hfills
    obtain ⟨hlarge, hcases⟩ := MemoryRegion.pageSize_large (Nat.zero_lt_of_lt hlt)
    have hge := MemoryRegion.le_pageSize a.levels hlarge hcases hfills
    omega
  · intro idx k hway hidx
    by_cases hold : idx < cur
    · have hdone := h.done idx k hway hold
      rw [hgrows.adds.keeps (by rw [hdone]; exact r.wantEntry_ne_null _ _ _ _), hdone]
    · have hblock : idx / 512 ^ size = cur / 512 ^ size := by
        rw [Nat.div_eq_iff (Nat.pow_pos (by decide)), Nat.div_mul_cancel (Nat.dvd_of_mod_eq_zero haligned)]
        omega
      have hidxsize := MemoryRegion.pageSize_congr hblock.symm hsize
      have hk := hway.size_le
      rw [hidxsize] at hk
      rcases Nat.eq_or_lt_of_le hk with rfl | hlt
      · rw [MemoryRegion.wantEntry_congr hblock, hblock]
        exact hentry
      · have hdiv := MemoryRegion.div_congr hblock hk
        have hne : r.pageSize a.levels a.useLargePages idx ≠ k := by omega
        rw [MemoryRegion.wantEntry, if_neg hne, hdiv]
        exact hrefs' k hlt hway.level

lemma Progress.grow (h : Progress r a b cur) (hgrows : Grows (r.Wants a.levels a.useLargePages) b c) :
    Progress r a c cur where
  filled := h.filled.trans hgrows
  start_le := h.start_le
  led := fun hend k hlevel hmod => hgrows.adds.entry_ref (h.led hend k hlevel hmod)
  aligned := h.aligned
  done := by
    intro idx k hway hidx
    have hdone := h.done idx k hway hidx
    rw [hgrows.adds.keeps (by rw [hdone]; exact r.wantEntry_ne_null _ _ _ _), hdone]

lemma Progress.onWay (h : Progress r a b cur) (hend : cur ≤ r.endIdx)
    (hsize : r.pageSize a.levels a.useLargePages cur ≤ k) (hlevel : k + 2 ≤ a.levels) :
    r.OnWay a.levels a.useLargePages cur k := ⟨h.start_le, hend, hsize, hlevel⟩

/-- Entering a reference to the larger page around the current one. -/
lemma Progress.addRef (h : Progress r a b cur) (hend : cur ≤ r.endIdx) {n : Nat}
    (hsize : r.pageSize a.levels a.useLargePages cur < k) (hlevel : k + 2 ≤ a.levels) (hn : n = cur / 512 ^ k / 512)
    (hrefs : Refs a b cur k) :
    Outcome (fun c => Progress r a c cur ∧ c.levels = b.levels ∧ c.useLargePages = b.useLargePages ∧
      Refs a c cur (k - 1)) (Raises r a) (addAt b (b.levels - k) n (cur / 512 ^ k) (refEntry (cur / 512 ^ k))) := by
  have hentry : refEntry (cur / 512 ^ k) = r.wantEntry a.levels a.useLargePages cur k := by
    rw [MemoryRegion.wantEntry, if_neg (by omega)]
  have hlevels := h.filled.adds.levels_eq
  apply (addAt_wanted h.filled (h.onWay hend hsize.le hlevel) (by rw [hlevels]) hn rfl hentry).imp
  rintro c ⟨hgrows, -, href⟩
  refine ⟨h.grow hgrows, hgrows.adds.levels_eq, hgrows.adds.large_eq, fun k' hk' hlevel' => ?_⟩
  by_cases heq : k' = k
  · rw [heq, ← hlevels]
    exact href
  · exact hgrows.adds.entry_ref (hrefs k' (by omega) hlevel')

/-- What one iteration of the page loop achieves. -/
def Iterated (r : MemoryRegion) (a : MemoryLayout) (cur : Nat) (x : MemoryLayout × Nat × Unsigned64) : Prop :=
  Progress r a x.1 x.2.1 ∧ x.2.2 = r.physAt x.2.1 ∧ cur < x.2.1

/-- Entering the page that is taken. -/
lemma Progress.addPage (hl : a.levels = 3 ∨ a.levels = 4) (h : Progress r a b cur) (hend : cur ≤ r.endIdx)
    (size : Nat) {n : Nat} (phys : Unsigned64)
    (hsize : r.pageSize a.levels a.useLargePages cur = size) (hlevel : size + 2 ≤ a.levels)
    (hn : n = cur / 512 ^ size / 512) (hrefs : Refs a b cur size)
    (hphys : phys = BitVec.ofNat 64 (512 ^ size * 4096)) :
    Outcome (Iterated r a cur) (Raises r a)
      (addAt b (b.levels - size) n (cur / 512 ^ size) (r.pageEntry (r.physAt cur)) >>= fun layout =>
        .ok (layout, cur + 512 ^ size, r.physAt cur + phys)) := by
  have hlevels := h.filled.adds.levels_eq
  have haligned := h.aligned hend
  rw [hsize] at haligned
  have hentry : r.pageEntry (r.physAt cur) = r.wantEntry a.levels a.useLargePages cur size := by
    rw [MemoryRegion.wantEntry, if_pos hsize, Nat.div_mul_cancel (Nat.dvd_of_mod_eq_zero haligned)]
  apply Outcome.bind (addAt_wanted h.filled (h.onWay hend hsize.le hlevel) (by rw [hlevels]) hn rfl hentry)
  rintro c ⟨hgrows, -, hpage⟩
  refine ⟨h.advance hl hend hsize hgrows ?_ hrefs, ?_, ?_⟩
  · rw [hlevels] at hpage
    exact hpage.trans hentry
  · rw [hphys]
    exact r.physAt_add h.start_le _
  · exact Nat.lt_add_of_pos_right (Nat.pow_pos (by decide))

lemma addPt_outcome (hl : a.levels = 3 ∨ a.levels = 4) (h : Progress r a b cur) (hend : cur ≤ r.endIdx)
    (hsize : r.pageSize a.levels a.useLargePages cur = 0) (hrefs : Refs a b cur 0) :
    Outcome (Iterated r a cur) (Raises r a) (addPt r b cur (r.physAt cur)) := by
  have hpage := h.addPage hl hend 0 (2 ^ 12) hsize (by omega) rfl hrefs (by decide)
  rw [Nat.pow_zero, Nat.div_one] at hpage
  exact hpage

lemma addPd_outcome (hl : a.levels = 3 ∨ a.levels = 4) (h : Progress r a b cur) (hend : cur ≤ r.endIdx)
    (hmod : cur % 512 = 0) (hsize : r.pageSize a.levels a.useLargePages cur ≤ 1) (hrefs : Refs a b cur 1) :
    Outcome (Iterated r a cur) (Raises r a) (addPd r b cur (r.physAt cur)) := by
  have hlarge := h.filled.adds.large_eq
  have hstart := h.start_le
  unfold addPd
  by_cases htake : b.useLargePages ∧ r.endIdx - cur + 1 ≥ 512
  · rw [if_pos htake]
    have hfills : r.Fills 1 cur := by
      unfold MemoryRegion.Fills
      omega
    have hge := MemoryRegion.le_pageSize a.levels (hlarge ▸ htake.1) (Or.inl rfl) hfills
    exact h.addPage hl hend 1 (2 ^ 21) (by omega) (by omega) (by omega) hrefs (by decide)
  · rw [if_neg htake]
    have hzero : r.pageSize a.levels a.useLargePages cur = 0 := by
      by_contra hne
      have hone : r.pageSize a.levels a.useLargePages cur = 1 := by omega
      have hfills := r.fills_pageSize a.levels a.useLargePages hstart hend
      rw [hone] at hfills
      unfold MemoryRegion.Fills at hfills
      obtain ⟨hl', -⟩ := MemoryRegion.pageSize_large (Nat.pos_of_ne_zero hne)
      exact htake ⟨hlarge ▸ hl', by omega⟩
    have hpd := h.addRef hend (k := 1) (n := cur / 512 ^ 2) (by omega) (by omega) (by omega) hrefs
    rw [Nat.pow_one] at hpd
    apply Outcome.bind hpd
    rintro c ⟨hc, -, -, hrefs'⟩
    exact addPt_outcome hl hc hend hzero hrefs'

lemma addPdpt_outcome (h4 : a.levels = 4) (h : Progress r a b cur) (hend : cur ≤ r.endIdx)
    (hmod : cur % 512 ^ 2 = 0) :
    Outcome (Iterated r a cur) (Raises r a) (addPdpt r b cur (r.physAt cur)) := by
  have hlarge := h.filled.adds.large_eq
  have hlevels := h.filled.adds.levels_eq
  have hstart := h.start_le
  have hrefs : Refs a b cur 2 := fun k hk hlevel => by omega
  have hle := r.pageSize_le_two a.levels a.useLargePages cur
  unfold addPdpt
  by_cases htake : (b.useLargePages ∧ b.levels = 4) ∧ r.endIdx - cur + 1 ≥ 512 ^ 2
  · rw [if_pos htake]
    have hfills : r.Fills 2 cur := by
      unfold MemoryRegion.Fills
      omega
    have hge := MemoryRegion.le_pageSize a.levels (hlarge ▸ htake.1.1) (Or.inr ⟨rfl, h4⟩) hfills
    exact h.addPage (Or.inr h4) hend 2 (2 ^ 30) (by omega) (by omega) (by omega) hrefs (by decide)
  · rw [if_neg htake]
    have hone : r.pageSize a.levels a.useLargePages cur ≤ 1 := by
      by_contra hne
      have htwo : r.pageSize a.levels a.useLargePages cur = 2 := by omega
      have hfills := r.fills_pageSize a.levels a.useLargePages hstart hend
      rw [htwo] at hfills
      unfold MemoryRegion.Fills at hfills
      have hpos : 0 < r.pageSize a.levels a.useLargePages cur := by omega
      obtain ⟨hl', -⟩ := MemoryRegion.pageSize_large hpos
      exact htake ⟨⟨hlarge ▸ hl', hlevels.trans h4⟩, by omega⟩
    apply Outcome.bind (h.addRef hend (k := 2) (n := cur / 512 ^ 3) (by omega) (by omega) (by omega) hrefs)
    rintro c ⟨hc, -, -, hrefs'⟩
    exact addPd_outcome (Or.inr h4) hc hend (by omega) hone hrefs'

lemma addPage_outcome (hl : a.levels = 3 ∨ a.levels = 4) (h : Progress r a b cur) (hend : cur ≤ r.endIdx) :
    Outcome (Iterated r a cur) (Raises r a) (addPage r b cur (r.physAt cur)) := by
  have hlevels := h.filled.adds.levels_eq
  have hled := h.led hend
  have haligned := h.aligned hend
  have hle := r.pageSize_le_two a.levels a.useLargePages cur
  have hsizes : r.pageSize a.levels a.useLargePages cur = 0 ∨ r.pageSize a.levels a.useLargePages cur = 1 ∨
      r.pageSize a.levels a.useLargePages cur = 2 := by omega
  unfold addPage
  by_cases hpd : cur % 512 = 0
  · rw [if_pos hpd]
    by_cases hpdpt : b.levels > 3 ∧ cur % 512 ^ 2 = 0
    · rw [if_pos hpdpt]
      exact addPdpt_outcome (by omega) h hend hpdpt.2
    · rw [if_neg hpdpt]
      apply addPd_outcome hl h hend hpd
      · rcases hsizes with h0 | h1 | h2
        · omega
        · omega
        · have hpos : 0 < r.pageSize a.levels a.useLargePages cur := by omega
          have hfour := (MemoryRegion.pageSize_large hpos).2
          rw [h2] at haligned
          omega
      · intro k hk hlevel
        obtain rfl : k = 2 := by omega
        exact hled 2 hlevel (by omega)
  · rw [if_neg hpd]
    apply addPt_outcome hl h hend
    · rcases hsizes with h0 | h1 | h2
      · exact h0
      · rw [h1] at haligned
        omega
      · rw [h2] at haligned
        omega
    · intro k hk hlevel
      have hk2 : k = 1 ∨ k = 2 := by omega
      rcases hk2 with rfl | rfl
      · exact hled 1 hlevel (by omega)
      · exact hled 2 hlevel (by omega)

/-- The page loop enters every page of the region, or it raises. -/
lemma addPages_outcome (hl : a.levels = 3 ∨ a.levels = 4) (fuel : Nat) (b : MemoryLayout) (cur : Nat)
    (h : Progress r a b cur) (hfuel : r.endIdx + 1 - cur ≤ fuel) :
    Outcome (fun c => ∃ last, r.endIdx < last ∧ Progress r a c last) (Raises r a)
      (addPages r fuel b cur (r.physAt cur)) := by
  induction fuel generalizing b cur with
  | zero => exact ⟨cur, by omega, h⟩
  | succ fuel ih =>
    unfold addPages
    by_cases hend : cur ≤ r.endIdx
    · rw [if_pos hend]
      apply Outcome.bind (addPage_outcome hl h hend)
      rintro ⟨c, next, phys⟩ ⟨hnext, hphys, hlt⟩
      simp only at hnext hphys hlt
      simp only [hphys]
      exact ih c next hnext (by omega)
    · rw [if_neg hend]
      exact ⟨cur, by omega, h⟩

lemma pageSize_start (hle : r.startIdx ≤ r.endIdx) (levels : Nat) (large : Bool) :
    r.startIdx % 512 ^ r.pageSize levels large r.startIdx = 0 := by
  obtain ⟨hfirst, -⟩ := r.fills_pageSize levels large (le_refl _) hle
  have hdiv := Nat.div_add_mod' r.startIdx (512 ^ r.pageSize levels large r.startIdx)
  omega

/-- The references to the larger pages in the middle of which the region starts. -/
lemma addStart_outcome (hl : a.levels = 3 ∨ a.levels = 4) (hwf : a.WellFormed) (hle : r.startIdx ≤ r.endIdx) :
    Outcome (fun b => Progress r a b r.startIdx) (Raises r a) (addStart r a) := by
  have haligned := pageSize_start hle a.levels a.useLargePages
  have hway : ∀ k, r.startIdx % 512 ^ k ≠ 0 → k + 2 ≤ a.levels → r.OnWay a.levels a.useLargePages r.startIdx k ∧
      r.wantEntry a.levels a.useLargePages r.startIdx k = refEntry (r.startIdx / 512 ^ k) := by
    intro k hmod hlevel
    have hlt : r.pageSize a.levels a.useLargePages r.startIdx < k := by
      by_contra hge
      have hdvd : 512 ^ k ∣ 512 ^ r.pageSize a.levels a.useLargePages r.startIdx := Nat.pow_dvd_pow 512 (by omega)
      exact hmod (Nat.mod_eq_zero_of_dvd (hdvd.trans (Nat.dvd_of_mod_eq_zero haligned)))
    exact ⟨⟨le_refl _, hle, hlt.le, hlevel⟩, if_neg (by omega)⟩
  have hpdpt : Outcome (fun b => Filled r a b ∧ (a.levels = 4 → r.startIdx % 512 ^ 2 ≠ 0 →
      b.entry (a.levels - 2) (r.startIdx / 512 ^ 2) = refEntry (r.startIdx / 512 ^ 2))) (Raises r a)
      (addStartPdpt r a) := by
    unfold addStartPdpt
    by_cases hmid : a.levels > 3 ∧ r.startIdx % 512 ^ 2 ≠ 0
    · rw [if_pos hmid]
      obtain ⟨hon, hwant⟩ := hway 2 hmid.2 (by omega)
      apply (addAt_wanted (Grows.refl hwf) hon rfl (by omega) rfl hwant.symm).imp
      rintro c ⟨-, hfilled, hentry⟩
      exact ⟨hfilled, fun _ _ => hentry⟩
    · rw [if_neg hmid]
      exact ⟨Grows.refl hwf, fun h4 hmod => absurd ⟨by omega, hmod⟩ hmid⟩
  unfold addStart
  apply Outcome.bind hpdpt
  rintro b ⟨hfilled, hentry⟩
  have hlevels := hfilled.adds.levels_eq
  have hprogress : ∀ c, Filled r a c → (r.startIdx % 512 ≠ 0 →
      c.entry (a.levels - 1) (r.startIdx / 512) = refEntry (r.startIdx / 512)) →
      (a.levels = 4 → r.startIdx % 512 ^ 2 ≠ 0 →
        c.entry (a.levels - 2) (r.startIdx / 512 ^ 2) = refEntry (r.startIdx / 512 ^ 2)) →
      Progress r a c r.startIdx := by
    intro c hc hone htwo
    refine ⟨hc, le_refl _, fun _ k hlevel hmod => ?_, fun _ => haligned, fun idx k hidx hlt => ?_⟩
    · have hk : k = 0 ∨ k = 1 ∨ k = 2 := by omega
      rcases hk with rfl | rfl | rfl
      · omega
      · rw [Nat.pow_one] at hmod ⊢
        exact hone hmod
      · exact htwo (by omega) hmod
    · have hstart := hidx.start_le
      omega
  unfold addStartPd
  by_cases hmid : r.startIdx % 512 ≠ 0
  · rw [if_pos hmid]
    obtain ⟨hon, hwant⟩ := hway 1 (by omega) (by omega)
    rw [Nat.pow_one] at hwant
    apply (addAt_wanted hfilled hon (by rw [hlevels]) (by omega) (Nat.pow_one 512 ▸ rfl) hwant.symm).imp
    rintro c ⟨hgrows, hc, hpd⟩
    rw [hlevels] at hpd
    exact hprogress c hc (fun _ => hpd) (fun h4 hmod => hgrows.adds.entry_ref (hentry h4 hmod))
  · rw [if_neg hmid]
    exact hprogress b hfilled (fun hmod => absurd hmod hmid) hentry

/-- The part of a call behind which only references from the level 1 table are left. -/
def enter (r : MemoryRegion) (a : MemoryLayout) : Except PagingError MemoryLayout :=
  addStart r a >>= fun layout => addPages r (r.endIdx + 1 - r.startIdx) layout r.startIdx
    (r.physicalAddress &&& MemoryRegion.pageAddressMask)

/-- The layout has all entries that the region needs, and what it has besides is from before. -/
structure Complete (r : MemoryRegion) (a b : MemoryLayout) : Prop where
  filled : Filled r a b
  placed : ∀ l g e, r.Wants a.levels a.useLargePages l g e → b.entry l g = e

lemma enter_outcome (hl : a.levels = 3 ∨ a.levels = 4) (hwf : a.WellFormed) (hle : r.startIdx ≤ r.endIdx) :
    Outcome (Complete r a) (Raises r a) (enter r a) := by
  have hphys : r.physicalAddress &&& MemoryRegion.pageAddressMask = r.physAt r.startIdx := by
    simp [MemoryRegion.physAt]
  unfold enter
  rw [hphys]
  apply Outcome.bind (addStart_outcome hl hwf hle)
  intro b hb
  apply (addPages_outcome hl _ b r.startIdx hb (le_refl _)).imp
  rintro c ⟨last, hlast, hc⟩
  refine ⟨hc.filled, ?_⟩
  rintro l g e ⟨idx, k, hway, rfl, rfl, rfl⟩
  have hend := hway.le_end
  exact hc.done idx k hway (by omega)

lemma addRegionEntries_eq (r : MemoryRegion) (a : MemoryLayout) : addRegionEntries r a = enter r a >>= fun layout =>
    (List.range' (r.startIdx / 512 ^ 3) (r.endIdx / 512 ^ 3 + 1 - r.startIdx / 512 ^ 3)).foldlM addLevel1 layout := by
  unfold addRegionEntries enter
  cases addStart r a with
  | error err => rfl
  | ok b => rfl

end Entering

end Muen.Tools.Paging
