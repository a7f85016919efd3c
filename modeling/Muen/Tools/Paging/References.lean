import Muen.Tools.Paging.Layouts

/-!
# Update_References

When every reference of a layout names an existing table, `Update_References` succeeds and its
result is given by a total function: the tables of the last level first, each level behind the
next, one page a table, and every reference with the address of its table.

A layout of four levels always has this property, and so has a layout of three levels as long as
the regions stay in the first gigabyte.
-/

namespace Muen.Tools.Paging
open Muen.Lib

/-- The address of a table that is in the map. -/
def addressOf (map : PageTableMap) (tableNumber : Nat) : Unsigned64 :=
  match map.find tableNumber with
  | none => 0
  | some table => table.address

/-- The entry with the address of the table it refers to. -/
def resolve (next : PageTableMap) (e : TableEntry) : TableEntry :=
  if e = nullTableEntry ∨ e.mapsPage then e else { e with dstAddress := addressOf next e.dstTableIndex }

/-- The tables of a level one behind the other from the given address on. -/
def placed (next : PageTableMap) : PageTableMap → Unsigned64 → PageTableMap
  | [], _ => []
  | (n, table) :: map, physAddr =>
    (n, { table with address := physAddr, data := fun i => resolve next (table.data i) }) ::
      placed next map (physAddr + 2 ^ 12)

def placeLevel (layout : MemoryLayout) (curLevel : Nat) (physAddr : Unsigned64) : MemoryLayout :=
  let map := placed (layout.structures (curLevel + 1)) (layout.structures curLevel) physAddr
  { layout with structures := Function.update layout.structures curLevel map }

@[simp] lemma placeLevel_self (layout : MemoryLayout) (curLevel : Nat) (physAddr : Unsigned64) :
    (placeLevel layout curLevel physAddr).structures curLevel =
      placed (layout.structures (curLevel + 1)) (layout.structures curLevel) physAddr :=
  Function.update_self ..

lemma placeLevel_of_ne (layout : MemoryLayout) {curLevel l : Nat} (physAddr : Unsigned64) (h : l ≠ curLevel) :
    (placeLevel layout curLevel physAddr).structures l = layout.structures l :=
  Function.update_of_ne h _ _

def placedLevels : Nat → MemoryLayout → Unsigned64 → MemoryLayout
  | 0, layout, _ => layout
  | 1, layout, _ => layout
  | curLevel + 2, layout, physAddr =>
    placedLevels (curLevel + 1) (placeLevel layout (curLevel + 2) physAddr)
      (physAddr + BitVec.ofNat 64 ((layout.structures (curLevel + 2)).length * 4096))

def referenced (layout : MemoryLayout) : MemoryLayout :=
  let layout := placedLevels layout.levels layout (layout.level1Table.address + 2 ^ 12)
  { layout with level1Table := { layout.level1Table with
      data := fun i => resolve (layout.structures 2) (layout.level1Table.data i) } }

/-- A reference of the given level names a table of the next one. -/
def Resolvable (layout : MemoryLayout) (curLevel : Nat) (e : TableEntry) : Prop :=
  e ≠ nullTableEntry → e.mapsPage = false →
    curLevel + 1 ≤ layout.levels ∧ ((layout.structures (curLevel + 1)).find e.dstTableIndex).isSome

lemma getTableAddress_eq {map : PageTableMap} {n : Nat} (h : (map.find n).isSome) :
    map.getTableAddress n = .ok (addressOf map n) := by
  unfold PageTableMap.getTableAddress addressOf
  cases hfind : map.find n with
  | none => simp [hfind] at h
  | some table => rfl

lemma resolve_ne_null {next : PageTableMap} {e : TableEntry} (h : e ≠ nullTableEntry) (hp : e.present) :
    resolve next e ≠ nullTableEntry := by
  unfold resolve
  split_ifs
  · exact h
  · exact ne_null_of_present hp

lemma find_placed (next : PageTableMap) (map : PageTableMap) (n : Nat) :
    ∀ physAddr, ((placed next map physAddr).find n).isSome = (map.find n).isSome := by
  induction map with
  | nil => exact fun _ => rfl
  | cons p map ih =>
    intro physAddr
    rw [placed, PageTableMap.find, PageTableMap.find]
    by_cases hn : p.1 = n
    · rw [if_pos hn, if_pos hn]
      rfl
    · rw [if_neg hn, if_neg hn]
      exact ih _

/-- The entries of a table are present or null. -/
def Proper (table : PageTable) : Prop := ∀ i, table.data i ≠ nullTableEntry → (table.data i).present

lemma adjustEntry_eq {layout : MemoryLayout} {curLevel : Nat} {e : TableEntry} (i : EntryRange)
    (hne : e ≠ nullTableEntry) (h : Resolvable layout curLevel e) :
    adjustEntry layout curLevel i e = .ok (resolve (layout.structures (curLevel + 1)) e) := by
  unfold adjustEntry resolve
  by_cases hmaps : e.mapsPage
  · rw [if_pos hmaps, if_pos (Or.inr hmaps)]
  · have hmaps' : e.mapsPage = false := by simpa using hmaps
    obtain ⟨hlevel, hfind⟩ := h hne hmaps'
    rw [if_neg hmaps, if_neg (by omega), if_neg (by simp [hne, hmaps']), getTableAddress_eq hfind]
    rfl

lemma resolve_null (next : PageTableMap) : resolve next nullTableEntry = nullTableEntry := by
  rw [resolve, if_pos (Or.inl rfl)]

lemma resolve_data (next : PageTableMap) (data : EntryRange → TableEntry) :
    (fun i => if data i ≠ nullTableEntry then resolve next (data i) else data i) =
      fun i => resolve next (data i) := by
  funext i
  by_cases hi : data i = nullTableEntry
  · rw [if_neg (by simpa using hi), hi, resolve_null]
  · rw [if_pos hi]

lemma adjustTables_eq {layout : MemoryLayout} {curLevel : Nat} (map : PageTableMap) :
    ∀ physAddr, (∀ p ∈ map, p.2.Counted ∧ Proper p.2 ∧ ∀ i, Resolvable layout curLevel (p.2.data i)) →
      adjustTables layout curLevel map physAddr =
        .ok (placed (layout.structures (curLevel + 1)) map physAddr,
          physAddr + BitVec.ofNat 64 (map.length * 4096)) := by
  induction map with
  | nil =>
    intro physAddr _
    simp [adjustTables, placed]
  | cons p map ih =>
    intro physAddr h
    obtain ⟨n, table⟩ := p
    obtain ⟨hcounted, hproper, hres⟩ := h (n, table) List.mem_cons_self
    have hupdate : table.update (adjustEntry layout curLevel) =
        .ok { table with data := fun i => resolve (layout.structures (curLevel + 1)) (table.data i) } := by
      rw [PageTable.update_eq (f := fun _ e => resolve (layout.structures (curLevel + 1)) e) hcounted, resolve_data]
      intro i hi
      exact ⟨adjustEntry_eq i hi (hres i), resolve_ne_null hi (hproper i hi)⟩
    have hnext : physAddr + 2 ^ 12 + BitVec.ofNat 64 (map.length * 4096) =
        physAddr + BitVec.ofNat 64 ((map.length + 1) * 4096) := by
      rw [Nat.add_mul, Nat.add_comm, BitVec.ofNat_add, BitVec.add_assoc]
      rfl
    rw [adjustTables, hupdate, ok_bind, ih _ (fun q hq => h q (List.mem_cons_of_mem _ hq)), ok_bind]
    rw [placed, List.length_cons, ← hnext]

/-- What `adjustLevels` needs of the levels from the given one down to two. -/
def ClosedTo (layout : MemoryLayout) (curLevel : Nat) : Prop :=
  ∀ l, 2 ≤ l → l ≤ curLevel → ∀ p ∈ layout.structures l,
    p.2.Counted ∧ Proper p.2 ∧ ∀ i, Resolvable layout l (p.2.data i)

lemma ClosedTo.update {layout : MemoryLayout} {curLevel : Nat} {map : PageTableMap}
    (h : ClosedTo layout (curLevel + 1))
    (hmap : ∀ n, (map.find n).isSome = ((layout.structures (curLevel + 1)).find n).isSome) :
    ClosedTo { layout with structures := Function.update layout.structures (curLevel + 1) map } curLevel := by
  intro l hl2 hl p hp
  have hne : l ≠ curLevel + 1 := by omega
  simp only [Function.update_of_ne hne] at hp
  obtain ⟨hcounted, hproper, hres⟩ := h l hl2 (by omega) p hp
  refine ⟨hcounted, hproper, fun i hi hmaps => ?_⟩
  obtain ⟨hlevel, hfind⟩ := hres i hi hmaps
  refine ⟨hlevel, ?_⟩
  by_cases hnext : l + 1 = curLevel + 1
  · simp only [hnext, Function.update_self, hmap]
    rwa [← hnext]
  · simpa only [Function.update_of_ne hnext] using hfind

lemma adjustLevels_eq (curLevel : Nat) : ∀ (layout : MemoryLayout) (physAddr : Unsigned64),
    ClosedTo layout curLevel →
      adjustLevels curLevel layout physAddr = .ok (placedLevels curLevel layout physAddr) := by
  induction curLevel with
  | zero => exact fun _ _ _ => rfl
  | succ curLevel ih =>
    intro layout physAddr h
    cases curLevel with
    | zero => rfl
    | succ curLevel =>
      have htables := adjustTables_eq (layout.structures (curLevel + 2)) physAddr
        (h (curLevel + 2) (by omega) (by omega))
      rw [adjustLevels, htables, ok_bind]
      exact ih _ _ (h.update (fun n => find_placed _ _ n physAddr))

/-- Every reference of the layout names a table. -/
structure Closed (layout : MemoryLayout) : Prop where
  refs : ClosedTo layout layout.levels
  counted : layout.level1Table.Counted
  level1 : ∀ i, layout.level1Table.data i ≠ nullTableEntry → (layout.level1Table.data i).present ∧
    (layout.level1Table.data i).mapsPage = false ∧
    ((layout.structures 2).find (layout.level1Table.data i).dstTableIndex).isSome

lemma placedLevels_level1Table (curLevel : Nat) : ∀ (layout : MemoryLayout) (physAddr : Unsigned64),
    (placedLevels curLevel layout physAddr).level1Table = layout.level1Table := by
  induction curLevel with
  | zero => exact fun _ _ => rfl
  | succ curLevel ih =>
    intro layout physAddr
    cases curLevel with
    | zero => rfl
    | succ curLevel => exact ih _ _

lemma find_placedLevels (curLevel l n : Nat) : ∀ (layout : MemoryLayout) (physAddr : Unsigned64),
    (((placedLevels curLevel layout physAddr).structures l).find n).isSome =
      ((layout.structures l).find n).isSome := by
  induction curLevel with
  | zero => exact fun _ _ => rfl
  | succ curLevel ih =>
    intro layout physAddr
    cases curLevel with
    | zero => rfl
    | succ curLevel =>
      rw [placedLevels, ih]
      by_cases hl : l = curLevel + 2
      · subst hl
        rw [placeLevel_self, find_placed]
      · rw [placeLevel_of_ne _ _ hl]

/-- On a closed layout `Update_References` places the tables and resolves the references. -/
lemma updateReferences_eq {layout : MemoryLayout} (h : Closed layout) :
    updateReferences layout = .ok (referenced layout) := by
  unfold updateReferences referenced
  rw [adjustLevels_eq _ _ _ h.refs, ok_bind]
  have htable := placedLevels_level1Table layout.levels layout (layout.level1Table.address + 2 ^ 12)
  have hupdate : ∀ {placedLayout : MemoryLayout}, placedLayout.level1Table = layout.level1Table →
      (∀ n, ((placedLayout.structures 2).find n).isSome = ((layout.structures 2).find n).isSome) →
      placedLayout.level1Table.update (adjustLevel1 placedLayout) = .ok { placedLayout.level1Table with
        data := fun i => resolve (placedLayout.structures 2) (placedLayout.level1Table.data i) } := by
    intro placedLayout htable hfind
    rw [PageTable.update_eq (f := fun _ e => resolve (placedLayout.structures 2) e) (by rw [htable]; exact h.counted),
      resolve_data]
    intro i hi
    rw [htable] at hi ⊢
    obtain ⟨hpresent, hmaps, hsome⟩ := h.level1 i hi
    refine ⟨?_, resolve_ne_null hi hpresent⟩
    rw [adjustLevel1, getTableAddress_eq (by rw [hfind]; exact hsome), resolve, if_neg (by simp [hi, hmaps])]
    rfl
  rw [hupdate htable (fun n => find_placedLevels _ 2 n _ _)]
  rfl

/-! ### Closed layouts -/

section Closed

variable {layout : MemoryLayout} {levels idx : Nat} {rs : List MemoryRegion}

lemma entry_of_mem (hwf : layout.WellFormed) {l : Nat} {p : Nat × PageTable} (hp : p ∈ layout.structures l)
    (i : EntryRange) : layout.entry l (512 * p.1 + i.val) = p.2.data i := by
  have hfind := PageTableMap.find_of_mem (hwf l) hp
  have hdiv : (512 * p.1 + i.val) / 512 = p.1 := by omega
  have hmod : (512 * p.1 + i.val) % 512 = i.val := by omega
  simp only [MemoryLayout.entry, PageTableMap.entryAt, hdiv, hfind, hmod]

lemma entry_cases (h : Built layout levels rs) {l g : Nat} (hne : layout.entry l g ≠ nullTableEntry) :
    ∃ r ∈ rs, r.Sound levels l g (layout.entry l g) :=
  (h.sound l g).resolve_left hne

lemma MemoryRegion.Sound.present {r : MemoryRegion} {l g : Nat} {e : TableEntry} (h : r.Sound levels l g e) :
    e.present := by
  rcases h with ⟨rfl, -⟩ | ⟨rfl, -⟩ <;> rfl

/-- The table a reference on the way to a mapped page names. -/
lemma find_of_path (hl : layout.levels = 3 ∨ layout.levels = 4) (hp : Parented layout) {l : Nat}
    (hlevel : l < layout.levels) (hl2 : 2 ≤ l) (hpath : Path layout idx)
    (href : layout.entry l (idx / 512 ^ (layout.levels - l)) = refEntry (idx / 512 ^ (layout.levels - l))) :
    ((layout.structures (l + 1)).find (idx / 512 ^ (layout.levels - l))).isSome := by
  have hnext : layout.entry (l + 1) (idx / 512 ^ (layout.levels - (l + 1))) ≠ nullTableEntry := by
    have hone : l = layout.levels - 1 ∨ (l = layout.levels - 2 ∧ layout.levels = 4) := by omega
    rcases hone with rfl | ⟨rfl, h4⟩
    · have hexp : layout.levels - (layout.levels - 1) = 1 := by omega
      have hlast : layout.levels - 1 + 1 = layout.levels := by omega
      rw [hexp, pow_one] at href
      rw [hlast, Nat.sub_self, pow_zero, Nat.div_one]
      rcases hpath with ⟨h1, -⟩ | ⟨-, h2, -⟩ | ⟨h4, -, h2⟩
      · exact ne_null_of_present h1
      · rw [href] at h2
        cases h2
      · have hparent := hp (layout.levels - 1) (idx / 512) (by omega) (by rw [href]; exact refEntry_ne_null _)
        have hdiv : idx / 512 / 512 = idx / 512 ^ 2 := by omega
        rw [hdiv, Nat.sub_sub] at hparent
        rw [hparent] at h2
        cases h2
    · have hexp : layout.levels - (layout.levels - 2) = 2 := by omega
      have hlast : layout.levels - 2 + 1 = layout.levels - 1 := by omega
      have hexp' : layout.levels - (layout.levels - 1) = 1 := by omega
      rw [hexp] at href
      rw [hlast, hexp', pow_one]
      rcases hpath with ⟨-, -, h3, -⟩ | ⟨h2, -⟩ | ⟨-, -, h2⟩
      · rw [h3]
        exact refEntry_ne_null _
      · exact ne_null_of_present h2
      · rw [href] at h2
        cases h2
  have hfind := PageTableMap.find_isSome_of_entryAt hnext
  have hpow : layout.levels - l = layout.levels - (l + 1) + 1 := by omega
  rwa [Nat.div_div_eq_div_mul, ← pow_succ, ← hpow] at hfind

lemma Built.closedTo (h : Built layout levels rs) (hl : levels = 3 ∨ levels = 4) : ClosedTo layout layout.levels := by
  have hlevels := h.levels_eq
  intro l hl2 hle p hp
  refine ⟨(h.wellFormed l).counted p hp, ?_, ?_⟩
  · intro i hi
    rw [← entry_of_mem h.wellFormed hp i] at hi ⊢
    obtain ⟨r, -, hsound⟩ := entry_cases h hi
    exact hsound.present
  · intro i hi hmaps
    rw [← entry_of_mem h.wellFormed hp i] at hi hmaps ⊢
    obtain ⟨r, hr, ⟨href, hlt, idx, h1, h2, hidx⟩ | ⟨hpage, -⟩⟩ := entry_cases h hi
    · refine ⟨by omega, ?_⟩
      rw [← hidx, ← hlevels] at href
      rw [← hidx, ← hlevels, href]
      exact find_of_path (by omega) h.parented (by omega) hl2 (h.paths r hr idx h1 h2) href
    · rw [hpage] at hmaps
      cases hmaps

/-- The entry of the second level through which a mapped page is reached. -/
lemma Path.second_ne_null (hpath : Path layout idx) (hl : layout.levels = 3 ∨ layout.levels = 4) :
    layout.entry 2 (idx / 512 ^ (layout.levels - 2)) ≠ nullTableEntry := by
  rcases hl with h3 | h4
  · unfold Path at hpath
    simp only [h3, Nat.reduceSub, pow_one] at hpath ⊢
    rcases hpath with ⟨-, -, h2, -⟩ | ⟨h2, -⟩ | ⟨h4, -⟩
    · rw [h2]
      exact refEntry_ne_null _
    · exact ne_null_of_present h2
    · omega
  · unfold Path at hpath
    rw [h4] at hpath ⊢
    rcases hpath with ⟨-, -, -, h2⟩ | ⟨-, -, h2⟩ | ⟨-, h2, -⟩
    · rw [h2 rfl]
      exact refEntry_ne_null _
    · rw [h2 rfl]
      exact refEntry_ne_null _
    · exact ne_null_of_present h2

/-- The table of the second level through which a mapped page is reached. -/
lemma Path.find_second (hpath : Path layout idx) (hl : layout.levels = 3 ∨ layout.levels = 4) :
    ((layout.structures 2).find (idx / 512 ^ (layout.levels - 1))).isSome := by
  have hfind := PageTableMap.find_isSome_of_entryAt (hpath.second_ne_null hl)
  have hpow : layout.levels - 1 = layout.levels - 2 + 1 := by omega
  rwa [Nat.div_div_eq_div_mul, ← pow_succ, ← hpow] at hfind

lemma Built.closed (h : Built layout levels rs) (hl : levels = 3 ∨ levels = 4)
    (htables : ∀ r ∈ rs, ∀ c, r.startIdx / 512 ^ 3 ≤ c → c ≤ r.endIdx / 512 ^ 3 →
      ((layout.structures 2).find c).isSome) : Closed layout where
  refs := h.closedTo hl
  counted := h.counted
  level1 := by
    intro i hi
    obtain ⟨r, hr, c, h1, h2, -, href⟩ := (h.level1 i).resolve_left hi
    rw [href]
    exact ⟨rfl, rfl, htables r hr c h1 h2⟩

/-- A layout of four levels is closed. -/
lemma Built.closed_four (h : Built layout 4 rs) (hle : ∀ r ∈ rs, r.startIdx ≤ r.endIdx) : Closed layout := by
  apply h.closed (Or.inr rfl)
  intro r hr c h1 h2
  have hstart := hle r hr
  have hidx : max r.startIdx (c * 512 ^ 3) / 512 ^ 3 = c := by omega
  have hpath := h.paths r hr (max r.startIdx (c * 512 ^ 3)) (le_max_left _ _) (by omega)
  have hfind := hpath.find_second (Or.inr h.levels_eq)
  rw [h.levels_eq] at hfind
  rwa [hidx] at hfind

end Closed

/-! ### Three levels -/

/-- The tables lead to the mapping of the page with the given index: from the level 1 table to the
table with the number of its gigabyte, and from there to a 2 MB mapping or to the table with the
number of its 2 MB page. -/
def ReachesPage (layout : MemoryLayout) (idx : Nat) : Prop :=
  (layout.level1Table.data (entryRange (idx / 512 ^ 2))).present ∧
  (layout.level1Table.data (entryRange (idx / 512 ^ 2))).dstTableIndex = idx / 512 ^ 2 ∧
  ∃ pd, (layout.structures 2).find (idx / 512 ^ 2) = some pd ∧
    (pd.data (entryRange (idx / 512))).present ∧
    ((pd.data (entryRange (idx / 512))).mapsPage ∨
      ((pd.data (entryRange (idx / 512))).dstTableIndex = idx / 512 ∧
        ∃ pt, (layout.structures 3).find (idx / 512) = some pt ∧
          (pt.data (entryRange idx)).present ∧ (pt.data (entryRange idx)).mapsPage))

/-- Every page of the regions is reached and `Update_References` finds every table it looks up. -/
structure WellReferenced (layout : MemoryLayout) (rs : List MemoryRegion) : Prop where
  pages : ∀ r ∈ rs, ∀ idx, r.virtualAddress.toNat ≤ idx * 4096 →
    idx * 4096 < r.virtualAddress.toNat + r.size.toNat → ReachesPage layout idx
  tables : ∀ message, updateReferences layout ≠ .error (.missingTable message)

section ThreeLevels

variable {layout : MemoryLayout} {rs : List MemoryRegion}

/-- The table of a present entry, by the number of the entry. -/
lemma find_of_entry {l g : Nat} (h : layout.entry l g ≠ nullTableEntry) :
    ∃ table, (layout.structures l).find (g / 512) = some table ∧ table.data (entryRange g) = layout.entry l g := by
  have hsome := PageTableMap.find_isSome_of_entryAt h
  obtain ⟨table, htable⟩ := Option.isSome_iff_exists.mp hsome
  refine ⟨table, htable, ?_⟩
  simp only [MemoryLayout.entry, PageTableMap.entryAt, htable, entryRange]

/-- In the first gigabyte the level 1 table leads to the paths of the maps. -/
lemma Built.reachesPage (h : Built layout 3 rs) {r : MemoryRegion} (hr : r ∈ rs) {idx : Nat}
    (h1 : r.startIdx ≤ idx) (h2 : idx ≤ r.endIdx) (hend : r.endIdx < 512 ^ 2) : ReachesPage layout idx := by
  have hzero : idx / 512 ^ 2 = 0 := by omega
  have hpath := h.paths r hr idx h1 h2
  have href := h.refs r hr 0 (by omega) (by omega)
  have hsecond := hpath.second_ne_null (Or.inl h.levels_eq)
  unfold Path at hpath
  simp only [h.levels_eq, Nat.reduceSub, pow_one] at hpath hsecond
  obtain ⟨pd, hfind, hdata⟩ := find_of_entry hsecond
  have hdiv : idx / 512 / 512 = idx / 512 ^ 2 := by omega
  rw [hdiv] at hfind
  unfold ReachesPage
  rw [hzero, href]
  refine ⟨rfl, rfl, pd, by rw [← hzero]; exact hfind, ?_⟩
  rw [hdata]
  rcases hpath with ⟨hpresent, hmaps, hpd, -⟩ | ⟨hpresent, hmaps, -⟩ | ⟨h4, -⟩
  · obtain ⟨pt, hfindPt, hdataPt⟩ := find_of_entry (ne_null_of_present hpresent)
    rw [hpd]
    exact ⟨rfl, Or.inr ⟨rfl, pt, hfindPt, by rwa [hdataPt], by rwa [hdataPt]⟩⟩
  · exact ⟨hpresent, Or.inl hmaps⟩
  · omega

/-- Below 2^39 the level 1 table has no entry but the first. -/
lemma Built.level1_zero (h : Built layout 3 rs) (hend : ∀ r ∈ rs, r.endIdx < 512 ^ 3) {i : EntryRange}
    (hi : layout.level1Table.data i ≠ nullTableEntry) : i.val = 0 := by
  obtain ⟨r, hr, c, -, hc, hci, -⟩ := (h.level1 i).resolve_left hi
  have hlt := hend r hr
  have hc0 : c = 0 := by omega
  rw [← hci, hc0]
  rfl

end ThreeLevels

/-- In layouts of three levels the level 1 entries are computed as for four levels, so exactly the
regions of the first gigabyte are reached. -/
theorem threeLevels_wellReferenced {large : Bool} {calls : List (Bool × MemoryRegion)} {layout : MemoryLayout}
    (hvalid : ∀ call ∈ calls, call.2.Valid (2 ^ 39))
    (hrun : addMemoryRegions (emptyLayout 3 large) calls = .ok layout) :
    WellReferenced layout (calls.map Prod.snd) ↔
      ∀ call ∈ calls, call.2.virtualAddress.toNat + call.2.size.toNat ≤ 2 ^ 30 := by
  have hbound : 2 ^ 39 ≤ 2 ^ 48 := by decide
  have hbuilt := addMemoryRegions_built (Or.inl rfl)
    (fun call hcall => (hvalid call hcall).startIdx_le hbound) hrun
  constructor
  · intro hwell call hcall
    by_contra hgt
    have hv := hvalid call hcall
    have hend := hv.endIdx_eq hbound
    have hle := hv.startIdx_le hbound
    have hstart := hv.startIdx_eq hbound
    have hpos := hv.size_pos
    have hva := hv.virtual_aligned
    have hsa := hv.size_aligned
    have hvirt := hv.virtual_le
    obtain ⟨hpresent, -⟩ := hwell.pages call.2 (List.mem_map_of_mem hcall) call.2.endIdx (by omega) (by omega)
    have hzero := hbuilt.level1_zero (by
      intro r hr
      obtain ⟨c, hc, rfl⟩ := List.mem_map.mp hr
      have hcend := (hvalid c hc).endIdx_eq hbound
      have hcle := (hvalid c hc).virtual_le
      omega) (ne_null_of_present hpresent)
    simp only [entryRange] at hzero
    omega
  · intro hlow
    have hend : ∀ r ∈ calls.map Prod.snd, r.endIdx < 512 ^ 2 := by
      intro r hr
      obtain ⟨c, hc, rfl⟩ := List.mem_map.mp hr
      have hcend := (hvalid c hc).endIdx_eq hbound
      have hcle := hlow c hc
      omega
    constructor
    · intro r hr idx h1 h2
      have hlt := hend r hr
      obtain ⟨c, hc, rfl⟩ := List.mem_map.mp hr
      have hstart := (hvalid c hc).startIdx_eq hbound
      have hcend := (hvalid c hc).endIdx_eq hbound
      have hva := (hvalid c hc).virtual_aligned
      have hsa := (hvalid c hc).size_aligned
      exact hbuilt.reachesPage hr (by omega) (by omega) hlt
    · have hclosed : Closed layout := by
        apply hbuilt.closed (Or.inl rfl)
        intro r hr c h1 h2
        have hlt := hend r hr
        have hle : r.startIdx ≤ r.endIdx := by
          obtain ⟨c, hc, rfl⟩ := List.mem_map.mp hr
          exact (hvalid c hc).startIdx_le hbound
        have hfind := (hbuilt.paths r hr r.startIdx (le_refl _) hle).find_second (Or.inl hbuilt.levels_eq)
        rw [hbuilt.levels_eq] at hfind
        have hzero : r.startIdx / 512 ^ (3 - 1) = c := by
          simp only [Nat.reduceSub]
          omega
        rwa [hzero] at hfind
      intro message herror
      rw [updateReferences_eq hclosed] at herror
      cases herror

/-- A page at the given virtual address. -/
def pageRegion (virtualAddress : Unsigned64) : MemoryRegion := ⟨0x1000, virtualAddress, 0x1000, .wb, true, false⟩

theorem threeLevels_wellReferenced_firstPage : ∃ layout,
    addMemoryRegions (emptyLayout 3 true) [(true, pageRegion 0)] = .ok layout ∧
      (WellReferenced layout [pageRegion 0] ↔
        ∀ call ∈ [(true, pageRegion 0)], call.2.virtualAddress.toNat + call.2.size.toNat ≤ 2 ^ 30) := by
  refine ⟨_, rfl, ?_⟩
  exact @threeLevels_wellReferenced true [(true, pageRegion 0)] _
    (fun call hcall => by rw [List.mem_singleton.mp hcall]; constructor <;> decide) rfl

set_option maxRecDepth 8000 in
/-- The page at one gigabyte: the level 1 table has no entry for it, and the entry it has refers to
a table that does not exist. -/
theorem threeLevels_not_wellReferenced : (pageRegion 0x40000000).Valid (2 ^ 39) ∧ ∃ layout,
    addMemoryRegions (emptyLayout 3 true) [(true, pageRegion 0x40000000)] = .ok layout ∧
      ¬ReachesPage layout (0x40000000 / 4096) ∧
      updateReferences layout = .error (.missingTable "Table with number 0 not in map") ∧
      ¬WellReferenced layout [pageRegion 0x40000000] := by
  have herror : ∀ layout, addMemoryRegions (emptyLayout 3 true) [(true, pageRegion 0x40000000)] = .ok layout →
      updateReferences layout = .error (.missingTable "Table with number 0 not in map") := by
    rintro layout ⟨⟩
    rfl
  refine ⟨by constructor <;> decide, _, rfl, ?_, herror _ rfl, ?_⟩
  · rintro ⟨h, -⟩
    revert h
    decide
  · intro h
    exact h.tables _ (herror _ rfl)

end Muen.Tools.Paging
