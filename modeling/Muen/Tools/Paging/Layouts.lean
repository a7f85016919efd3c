import Muen.Lib.Bits
import Muen.Lib.Fallible
import Muen.Tools.Paging.Tables

/-!
# Paging.Layouts

Memory layouts: a level 1 table and, for every further level, a map of tables. A memory region is
entered page by page, with larger pages where they fit; a table entry that does not map a page
names the table of the next level by number, and `Update_References` replaces the names by
addresses.

The second part says what one call adds to a layout (`Adds`, `Sound`, `Path`) and derives from it
what holds of a layout after any sequence of successful calls.
-/

namespace Muen.Tools.Paging
open Muen.Lib

structure MemoryLayout where
  levels : Nat
  useLargePages : Bool
  level1Table : PageTable
  /-- The maps of the levels from two on. -/
  structures : Nat → PageTableMap

/-- A layout with the given number of levels into which nothing has been entered. -/
def emptyLayout (levels : Nat) (useLargePages : Bool) : MemoryLayout :=
  ⟨levels, useLargePages, nullTable, fun _ => []⟩

/-- The parameters of `Add_Memory_Region`. -/
structure MemoryRegion where
  physicalAddress : Unsigned64
  virtualAddress : Unsigned64
  size : Unsigned64
  caching : Caching
  writable : Bool
  executable : Bool
deriving DecidableEq, Repr

namespace MemoryRegion

def pageAddressMask : Unsigned64 := 0x0000fffffffff000

def startIdx (r : MemoryRegion) : Nat := (r.virtualAddress &&& pageAddressMask).toNat / 4096

def endIdx (r : MemoryRegion) : Nat := ((r.virtualAddress &&& pageAddressMask) + r.size - 1).toNat / 4096

/-- The entry that maps a page of the region at the given address. -/
def pageEntry (r : MemoryRegion) (curPhysAddr : Unsigned64) : TableEntry :=
  ⟨0, curPhysAddr, true, true, r.writable, r.executable, true, false, r.caching⟩

end MemoryRegion

def tableRange (n : Nat) : Except PagingError Nat :=
  if n < tableRangeEnd then .ok n else .error .constraintError

lemma mod_entries_lt (n : Nat) : n % 512 < 512 := Nat.mod_lt n (by decide)

def entryRange (n : Nat) : EntryRange := ⟨n % 512, mod_entries_lt n⟩

/-- The entry that refers to the table with the given number. -/
def refEntry (dstIndex : Nat) : TableEntry := ⟨dstIndex, 0, true, true, true, true, false, false, .wb⟩

/-- `Maps.Add_Entry` on the map of a level, with the conversions of its arguments. -/
def addAt (layout : MemoryLayout) (level tableNumber entryIndex : Nat) (tableEntry : TableEntry) :
    Except PagingError MemoryLayout := do
  let tableNumber ← tableRange tableNumber
  let _ ← tableRange tableEntry.dstTableIndex
  let map ← (layout.structures level).addEntry tableNumber (entryRange entryIndex) tableEntry
  .ok { layout with structures := Function.update layout.structures level map }

/-- The last part of a loop iteration: a 4 KB mapping. -/
def addPt (r : MemoryRegion) (layout : MemoryLayout) (curIdx : Nat) (curPhysAddr : Unsigned64) :
    Except PagingError (MemoryLayout × Nat × Unsigned64) := do
  let layout ← addAt layout layout.levels (curIdx / 512) curIdx (r.pageEntry curPhysAddr)
  .ok (layout, curIdx + 1, curPhysAddr + 2 ^ 12)

/-- At the start of a 2 MB page: a 2 MB mapping or the reference to a page table. -/
def addPd (r : MemoryRegion) (layout : MemoryLayout) (curIdx : Nat) (curPhysAddr : Unsigned64) :
    Except PagingError (MemoryLayout × Nat × Unsigned64) :=
  if layout.useLargePages ∧ r.endIdx - curIdx + 1 ≥ 512 then do
    let layout ← addAt layout (layout.levels - 1) (curIdx / 512 ^ 2) (curIdx / 512) (r.pageEntry curPhysAddr)
    .ok (layout, curIdx + 512, curPhysAddr + 2 ^ 21)
  else do
    let layout ← addAt layout (layout.levels - 1) (curIdx / 512 ^ 2) (curIdx / 512) (refEntry (curIdx / 512))
    addPt r layout curIdx curPhysAddr

/-- At the start of a 1 GB page: a 1 GB mapping or the reference to a page directory. -/
def addPdpt (r : MemoryRegion) (layout : MemoryLayout) (curIdx : Nat) (curPhysAddr : Unsigned64) :
    Except PagingError (MemoryLayout × Nat × Unsigned64) :=
  if (layout.useLargePages ∧ layout.levels = 4) ∧ r.endIdx - curIdx + 1 ≥ 512 ^ 2 then do
    let layout ← addAt layout (layout.levels - 2) (curIdx / 512 ^ 3) (curIdx / 512 ^ 2) (r.pageEntry curPhysAddr)
    .ok (layout, curIdx + 512 ^ 2, curPhysAddr + 2 ^ 30)
  else do
    let layout ← addAt layout (layout.levels - 2) (curIdx / 512 ^ 3) (curIdx / 512 ^ 2) (refEntry (curIdx / 512 ^ 2))
    addPd r layout curIdx curPhysAddr

/-- One iteration of the page loop, with the next index and address. -/
def addPage (r : MemoryRegion) (layout : MemoryLayout) (curIdx : Nat) (curPhysAddr : Unsigned64) :
    Except PagingError (MemoryLayout × Nat × Unsigned64) :=
  if curIdx % 512 = 0 then
    if layout.levels > 3 ∧ curIdx % 512 ^ 2 = 0 then addPdpt r layout curIdx curPhysAddr
    else addPd r layout curIdx curPhysAddr
  else addPt r layout curIdx curPhysAddr

/-- The page loop. Every iteration advances, so the number of pages bounds the iterations. -/
def addPages (r : MemoryRegion) : Nat → MemoryLayout → Nat → Unsigned64 → Except PagingError MemoryLayout
  | 0, layout, _, _ => .ok layout
  | fuel + 1, layout, curIdx, curPhysAddr =>
    if curIdx ≤ r.endIdx then do
      let (layout, curIdx, curPhysAddr) ← addPage r layout curIdx curPhysAddr
      addPages r fuel layout curIdx curPhysAddr
    else .ok layout

/-- A reference from the level 1 table. -/
def addLevel1 (layout : MemoryLayout) (curIdx : Nat) : Except PagingError MemoryLayout := do
  let curIdx ← tableRange curIdx
  let table ← layout.level1Table.addEntry (entryRange curIdx) (refEntry curIdx)
  .ok { layout with level1Table := table }

/-- The reference to the 1 GB page in the middle of which the region starts. -/
def addStartPdpt (r : MemoryRegion) (layout : MemoryLayout) : Except PagingError MemoryLayout :=
  if layout.levels > 3 ∧ r.startIdx % 512 ^ 2 ≠ 0 then
    addAt layout (layout.levels - 2) (r.startIdx / 512 ^ 3) (r.startIdx / 512 ^ 2)
      (refEntry (r.startIdx / 512 ^ 2))
  else .ok layout

/-- The reference to the 2 MB page in the middle of which the region starts. -/
def addStartPd (r : MemoryRegion) (layout : MemoryLayout) : Except PagingError MemoryLayout :=
  if r.startIdx % 512 ≠ 0 then
    addAt layout (layout.levels - 1) (r.startIdx / 512 ^ 2) (r.startIdx / 512) (refEntry (r.startIdx / 512))
  else .ok layout

def addStart (r : MemoryRegion) (layout : MemoryLayout) : Except PagingError MemoryLayout := do
  let layout ← addStartPdpt r layout
  addStartPd r layout

def addRegionEntries (r : MemoryRegion) (layout : MemoryLayout) : Except PagingError MemoryLayout := do
  let layout ← addStart r layout
  let layout ← addPages r (r.endIdx + 1 - r.startIdx) layout r.startIdx
    (r.physicalAddress &&& MemoryRegion.pageAddressMask)
  let startIdx := r.startIdx / 512 ^ 3
  let endIdx := r.endIdx / 512 ^ 3
  (List.range' startIdx (endIdx + 1 - startIdx)).foldlM addLevel1 layout

def addMemoryRegion (layout : MemoryLayout) (r : MemoryRegion) : Except PagingError MemoryLayout :=
  match addRegionEntries r layout with
  | .error (.duplicateEntry _) =>
    .error (.mappingPresent ("Multiple mappings of VMA " ++ toHex r.virtualAddress ++
      " with different attributes present"))
  | result => result

def setAddress (layout : MemoryLayout) (address : Unsigned64) : MemoryLayout :=
  { layout with level1Table := { layout.level1Table with address := address } }

def setLargePageSupport (layout : MemoryLayout) (state : Bool) : MemoryLayout :=
  { layout with useLargePages := state }

/-- The address of the referenced table of the next level; there is none below the last level. -/
def adjustEntry (layout : MemoryLayout) (curLevel : Nat) (_ : EntryRange) (tEntry : TableEntry) :
    Except PagingError TableEntry :=
  if tEntry.mapsPage then .ok tEntry
  else if curLevel + 1 > layout.levels then .error .constraintError
  else do
    let address ← (layout.structures (curLevel + 1)).getTableAddress tEntry.dstTableIndex
    .ok { tEntry with dstAddress := address }

def adjustTables (layout : MemoryLayout) (curLevel : Nat) :
    PageTableMap → Unsigned64 → Except PagingError (PageTableMap × Unsigned64)
  | [], physAddr => .ok ([], physAddr)
  | (n, table) :: map, physAddr => do
    let table ← table.update (adjustEntry layout curLevel)
    let (map, next) ← adjustTables layout curLevel map (physAddr + 2 ^ 12)
    .ok ((n, { table with address := physAddr }) :: map, next)

/-- The levels from the given one down to two. -/
def adjustLevels : Nat → MemoryLayout → Unsigned64 → Except PagingError MemoryLayout
  | 0, layout, _ => .ok layout
  | 1, layout, _ => .ok layout
  | curLevel + 2, layout, physAddr => do
    let (map, physAddr) ← adjustTables layout (curLevel + 2) (layout.structures (curLevel + 2)) physAddr
    adjustLevels (curLevel + 1)
      { layout with structures := Function.update layout.structures (curLevel + 2) map } physAddr

def adjustLevel1 (layout : MemoryLayout) (_ : EntryRange) (tEntry : TableEntry) :
    Except PagingError TableEntry := do
  let address ← (layout.structures 2).getTableAddress tEntry.dstTableIndex
  .ok { tEntry with dstAddress := address }

def updateReferences (layout : MemoryLayout) : Except PagingError MemoryLayout := do
  let layout ← adjustLevels layout.levels layout (layout.level1Table.address + 2 ^ 12)
  let table ← layout.level1Table.update (adjustLevel1 layout)
  .ok { layout with level1Table := table }

/-- A sequence of calls, each with large pages switched on or off before it. -/
def addMemoryRegions (layout : MemoryLayout) (calls : List (Bool × MemoryRegion)) :
    Except PagingError MemoryLayout :=
  calls.foldlM (fun layout call => addMemoryRegion (setLargePageSupport layout call.1) call.2) layout

/-! ### What a call adds -/

namespace MemoryLayout

/-- The entry with the given number of a level. -/
def entry (layout : MemoryLayout) (level g : Nat) : TableEntry := (layout.structures level).entryAt g

def WellFormed (layout : MemoryLayout) : Prop := ∀ level, (layout.structures level).WellFormed

end MemoryLayout

/-- The maps of `b` are those of `a` with further entries that satisfy `S`. -/
structure Adds (S : Nat → Nat → TableEntry → Prop) (a b : MemoryLayout) : Prop where
  levels_eq : b.levels = a.levels
  large_eq : b.useLargePages = a.useLargePages
  level1_eq : b.level1Table = a.level1Table
  wellFormed : b.WellFormed
  entries : ∀ l g, b.entry l g = a.entry l g ∨ (a.entry l g = nullTableEntry ∧ S l g (b.entry l g))

section Adds

variable {S : Nat → Nat → TableEntry → Prop} {a b c : MemoryLayout}

lemma Adds.refl (h : a.WellFormed) : Adds S a a := ⟨rfl, rfl, rfl, h, fun _ _ => Or.inl rfl⟩

lemma Adds.trans (hab : Adds S a b) (hbc : Adds S b c) : Adds S a c where
  levels_eq := hbc.levels_eq.trans hab.levels_eq
  large_eq := hbc.large_eq.trans hab.large_eq
  level1_eq := hbc.level1_eq.trans hab.level1_eq
  wellFormed := hbc.wellFormed
  entries := by
    intro l g
    rcases hbc.entries l g with hc | ⟨hbn, hc⟩
    · rw [hc]
      exact hab.entries l g
    · rcases hab.entries l g with hb | ⟨han, -⟩
      · exact Or.inr ⟨hb ▸ hbn, hc⟩
      · exact Or.inr ⟨han, hc⟩

/-- A present entry stays as it is. -/
lemma Adds.keeps (h : Adds S a b) {l g : Nat} (hne : a.entry l g ≠ nullTableEntry) : b.entry l g = a.entry l g := by
  rcases h.entries l g with hb | ⟨hn, -⟩
  · exact hb
  · exact absurd hn hne

lemma tableRange_ok {n m : Nat} (h : tableRange n = .ok m) : n = m ∧ n < 512 ^ 3 := by
  unfold tableRange at h
  by_cases hrange : n < tableRangeEnd
  · rw [if_pos hrange] at h
    exact ⟨Except.ok.inj h, hrange⟩
  · rw [if_neg hrange] at h
    cases h

lemma addAt_spec {level n g : Nat} {e : TableEntry} (hwf : a.WellFormed) (he : e ≠ nullTableEntry)
    (hn : n = g / 512) (hS : S level g e) (h : addAt a level n g e = .ok b) :
    Adds S a b ∧ b.entry level g = e ∧ g < 512 ^ 4 ∧ e.dstTableIndex < 512 ^ 3 := by
  obtain ⟨n', hrange, h1⟩ := bind_eq_ok h
  obtain ⟨_, hdst, h2⟩ := bind_eq_ok h1
  obtain ⟨map, hadd, h3⟩ := bind_eq_ok h2
  obtain ⟨rfl, hrange⟩ := tableRange_ok hrange
  obtain ⟨-, hdst⟩ := tableRange_ok hdst
  have hb : { a with structures := Function.update a.structures level map } = b := Except.ok.inj h3
  have hg : 512 * n + (entryRange g).val = g := by
    simp only [entryRange]
    omega
  obtain ⟨hwf', hold, hentries, -⟩ := PageTableMap.addEntry_spec (hwf level) he hadd
  rw [hg] at hold
  have hentry : ∀ l g', b.entry l g' = if l = level ∧ g' = g then e else a.entry l g' := by
    intro l g'
    rw [← hb, MemoryLayout.entry, MemoryLayout.entry]
    by_cases hl : l = level
    · subst hl
      simp only [Function.update_self, hentries, hg, true_and]
    · simp only [Function.update_of_ne hl, hl, false_and, if_false]
  refine ⟨⟨by rw [← hb], by rw [← hb], by rw [← hb], ?_, ?_⟩, by rw [hentry, if_pos ⟨rfl, rfl⟩], ?_, hdst⟩
  · intro l
    rw [← hb]
    by_cases hl : l = level
    · subst hl
      simpa only [Function.update_self] using hwf'
    · simpa only [Function.update_of_ne hl] using hwf l
  · intro l g'
    rw [hentry]
    by_cases hlg : l = level ∧ g' = g
    · rw [if_pos hlg, hlg.1, hlg.2]
      rcases hold with hnull | hsame
      · exact Or.inr ⟨hnull, hS⟩
      · exact Or.inl hsame.symm
    · rw [if_neg hlg]
      exact Or.inl rfl
  · omega

end Adds

namespace MemoryRegion

/-- The address at which the page with the given index is mapped. -/
def physAt (r : MemoryRegion) (idx : Nat) : Unsigned64 :=
  (r.physicalAddress &&& pageAddressMask) + BitVec.ofNat 64 ((idx - r.startIdx) * 4096)

/-- The entry is one that entering the region needs: a reference on the way to a page of the
region, or a mapping of pages of the region. -/
def Sound (r : MemoryRegion) (levels l g : Nat) (e : TableEntry) : Prop :=
  (e = refEntry g ∧ l < levels ∧ ∃ idx, r.startIdx ≤ idx ∧ idx ≤ r.endIdx ∧ idx / 512 ^ (levels - l) = g) ∨
  (e = r.pageEntry (r.physAt (g * 512 ^ (levels - l))) ∧ r.startIdx ≤ g * 512 ^ (levels - l) ∧
    (g + 1) * 512 ^ (levels - l) ≤ r.endIdx + 1)

lemma pageEntry_ne_null (r : MemoryRegion) (a : Unsigned64) : r.pageEntry a ≠ nullTableEntry :=
  ne_null_of_present rfl

end MemoryRegion

lemma refEntry_ne_null (n : Nat) : refEntry n ≠ nullTableEntry := ne_null_of_present rfl

/-- The maps lead from the level behind the level 1 table to a mapping of the page. -/
def Path (layout : MemoryLayout) (idx : Nat) : Prop :=
  ((layout.entry layout.levels idx).present ∧ (layout.entry layout.levels idx).mapsPage ∧
    layout.entry (layout.levels - 1) (idx / 512) = refEntry (idx / 512) ∧
    (layout.levels = 4 → layout.entry (layout.levels - 2) (idx / 512 ^ 2) = refEntry (idx / 512 ^ 2))) ∨
  ((layout.entry (layout.levels - 1) (idx / 512)).present ∧
    (layout.entry (layout.levels - 1) (idx / 512)).mapsPage ∧
    (layout.levels = 4 → layout.entry (layout.levels - 2) (idx / 512 ^ 2) = refEntry (idx / 512 ^ 2))) ∨
  (layout.levels = 4 ∧ (layout.entry (layout.levels - 2) (idx / 512 ^ 2)).present ∧
    (layout.entry (layout.levels - 2) (idx / 512 ^ 2)).mapsPage)

lemma Adds.path {S : Nat → Nat → TableEntry → Prop} {a b : MemoryLayout} (h : Adds S a b) {idx : Nat}
    (hp : Path a idx) : Path b idx := by
  have hkeep : ∀ {l g : Nat}, (a.entry l g).present → b.entry l g = a.entry l g :=
    fun hpres => h.keeps (ne_null_of_present hpres)
  have href : ∀ {l g : Nat}, a.entry l g = refEntry g → b.entry l g = refEntry g := by
    intro l g hr
    rw [h.keeps (by rw [hr]; exact refEntry_ne_null g), hr]
  unfold Path
  rw [h.levels_eq]
  rcases hp with ⟨h1, h2, h3, h4⟩ | ⟨h1, h2, h3⟩ | ⟨h1, h2, h3⟩
  · exact Or.inl ⟨by rwa [hkeep h1], by rwa [hkeep h1], href h3, fun hl => href (h4 hl)⟩
  · exact Or.inr (Or.inl ⟨by rwa [hkeep h1], by rwa [hkeep h1], fun hl => href (h3 hl)⟩)
  · exact Or.inr (Or.inr ⟨h1, by rwa [hkeep h2], by rwa [hkeep h2]⟩)

section Entering

variable {r : MemoryRegion} {a b c : MemoryLayout} {cur next : Nat} {phys : Unsigned64}

lemma MemoryRegion.physAt_add (h : r.startIdx ≤ cur) (n : Nat) :
    r.physAt cur + BitVec.ofNat 64 (n * 4096) = r.physAt (cur + n) := by
  have hsum : (cur + n - r.startIdx) * 4096 = (cur - r.startIdx) * 4096 + n * 4096 := by
    rw [← Nat.add_mul]
    congr 1
    omega
  rw [physAt, physAt, hsum, BitVec.ofNat_add, BitVec.add_assoc]

lemma MemoryRegion.sound_ref {k : Nat} (hk : 0 < k) (hkl : k < a.levels) (h1 : r.startIdx ≤ cur)
    (h2 : cur ≤ r.endIdx) : r.Sound a.levels (a.levels - k) (cur / 512 ^ k) (refEntry (cur / 512 ^ k)) := by
  have hsub : a.levels - (a.levels - k) = k := by omega
  exact Or.inl ⟨rfl, by omega, cur, h1, h2, by rw [hsub]⟩

lemma MemoryRegion.sound_page {k : Nat} (hkl : k < a.levels) (h1 : r.startIdx ≤ cur)
    (haligned : cur % 512 ^ k = 0) (h2 : cur + 512 ^ k ≤ r.endIdx + 1) :
    r.Sound a.levels (a.levels - k) (cur / 512 ^ k) (r.pageEntry (r.physAt cur)) := by
  have hsub : a.levels - (a.levels - k) = k := by omega
  have hmul : cur / 512 ^ k * 512 ^ k = cur := Nat.div_mul_cancel (Nat.dvd_of_mod_eq_zero haligned)
  refine Or.inr ⟨?_, ?_, ?_⟩
  · rw [hsub, hmul]
  · rw [hsub, hmul]
    exact h1
  · rw [hsub, Nat.add_mul, hmul, Nat.one_mul]
    exact h2

/-- Behind the second level every entry is reached through the reference to its table. -/
def Parented (layout : MemoryLayout) : Prop :=
  ∀ l g, 2 < l → layout.entry l g ≠ nullTableEntry → layout.entry (l - 1) (g / 512) = refEntry (g / 512)

lemma addAt_parented {level n g : Nat} {e : TableEntry} (hwf : a.WellFormed) (he : e ≠ nullTableEntry)
    (hn : n = g / 512) (hparent : 2 < level → a.entry (level - 1) (g / 512) = refEntry (g / 512))
    (hp : Parented a) (h : addAt a level n g e = .ok b) : Parented b := by
  obtain ⟨hadds, -⟩ := addAt_spec (S := fun l k _ => l = level ∧ k = g) hwf he hn ⟨rfl, rfl⟩ h
  have hold : ∀ {l k : Nat}, a.entry (l - 1) (k / 512) = refEntry (k / 512) →
      b.entry (l - 1) (k / 512) = refEntry (k / 512) := by
    intro l k hr
    rw [hadds.keeps (by rw [hr]; exact refEntry_ne_null _), hr]
  intro l k hl hne
  rcases hadds.entries l k with hsame | ⟨-, hlevel, hk⟩
  · exact hold (hp l k hl (hsame ▸ hne))
  · rw [hlevel, hk]
    exact hold (hparent (hlevel ▸ hl))

/-- The references that lead to a page in the middle of a 2 MB or a 1 GB page are there. -/
structure Led (layout : MemoryLayout) (cur : Nat) : Prop where
  pd : cur % 512 ≠ 0 → layout.entry (layout.levels - 1) (cur / 512) = refEntry (cur / 512)
  pdpt : layout.levels = 4 → cur % 512 ^ 2 ≠ 0 →
    layout.entry (layout.levels - 2) (cur / 512 ^ 2) = refEntry (cur / 512 ^ 2)

/-- The pages before the current one have been entered into `a`, which gave `b`. -/
structure Entered (r : MemoryRegion) (a b : MemoryLayout) (cur : Nat) : Prop where
  adds : Adds (r.Sound a.levels) a b
  start_le : r.startIdx ≤ cur
  led : Led b cur
  parented : Parented b
  done : ∀ idx, r.startIdx ≤ idx → idx < cur → Path b idx

lemma Adds.entry_ref {S : Nat → Nat → TableEntry → Prop} (h : Adds S a b) {l g n : Nat}
    (hr : a.entry l g = refEntry n) : b.entry l g = refEntry n := by
  rw [h.keeps (by rw [hr]; exact refEntry_ne_null n), hr]

/-- After the step that enters the pages from `cur` up to `next`. -/
lemma Entered.extend (h : Entered r a b cur) (hadds : Adds (r.Sound a.levels) b c) (hlt : cur < next)
    (hled : Led c next) (hparented : Parented c) (hdone : ∀ idx, cur ≤ idx → idx < next → Path c idx) : Entered r a c next where
  adds := h.adds.trans hadds
  start_le := h.start_le.trans hlt.le
  led := hled
  parented := hparented
  done := by
    intro idx h1 h2
    by_cases hold : idx < cur
    · exact hadds.path (h.done idx h1 hold)
    · exact hdone idx (by omega) h2

/-- What one iteration of the page loop achieves. -/
structure Stepped (r : MemoryRegion) (a : MemoryLayout) (cur : Nat) (c : MemoryLayout) (next : Nat)
    (phys : Unsigned64) : Prop where
  entered : Entered r a c next
  phys_eq : phys = r.physAt next
  lt : cur < next
  le_end : next ≤ r.endIdx + 1

lemma addPt_spec (hl : a.levels = 3 ∨ a.levels = 4) (h : Entered r a b cur) (hend : cur ≤ r.endIdx)
    (hpd : b.entry (b.levels - 1) (cur / 512) = refEntry (cur / 512))
    (hpdpt : b.levels = 4 → b.entry (b.levels - 2) (cur / 512 ^ 2) = refEntry (cur / 512 ^ 2))
    (hrun : addPt r b cur (r.physAt cur) = .ok (c, next, phys)) : Stepped r a cur c next phys := by
  obtain ⟨c', hadd, hrest⟩ := bind_eq_ok hrun
  cases hrest
  have hlevels := h.adds.levels_eq
  have hsound : r.Sound a.levels b.levels cur (r.pageEntry (r.physAt cur)) := by
    have hs := MemoryRegion.sound_page (k := 0) (a := a) (by omega) h.start_le (by simp [Nat.mod_one])
      (by simpa using hend)
    simpa [hlevels] using hs
  obtain ⟨hadds, hentry, -, -⟩ := addAt_spec h.adds.wellFormed (r.pageEntry_ne_null _) rfl hsound hadd
  have hparented := addAt_parented h.adds.wellFormed (r.pageEntry_ne_null _) rfl (fun _ => hpd) h.parented hadd
  refine ⟨h.extend hadds (Nat.lt_succ_self cur) ⟨?_, ?_⟩ hparented ?_, r.physAt_add h.start_le 1,
    Nat.lt_succ_self cur, Nat.succ_le_succ hend⟩
  · intro hmod
    have hdiv : (cur + 1) / 512 = cur / 512 := by omega
    rw [hadds.levels_eq, hdiv]
    exact hadds.entry_ref hpd
  · intro h4 hmod
    have hdiv : (cur + 1) / 512 ^ 2 = cur / 512 ^ 2 := by omega
    rw [hadds.levels_eq] at h4 ⊢
    rw [hdiv]
    exact hadds.entry_ref (hpdpt h4)
  · intro idx h1 h2
    obtain rfl : idx = cur := by omega
    unfold Path
    rw [hadds.levels_eq, hentry]
    exact Or.inl ⟨rfl, rfl, hadds.entry_ref hpd, fun h4 => hadds.entry_ref (hpdpt h4)⟩

lemma Entered.add_ref {k n : Nat} (h : Entered r a b cur) (hk : 0 < k) (hkl : k < a.levels)
    (hend : cur ≤ r.endIdx) (hn : n = cur / 512 ^ k / 512)
    (hparent : 2 < b.levels - k →
      b.entry (b.levels - k - 1) (cur / 512 ^ k / 512) = refEntry (cur / 512 ^ k / 512))
    (hadd : addAt b (b.levels - k) n (cur / 512 ^ k) (refEntry (cur / 512 ^ k)) = .ok c) :
    Entered r a c cur ∧ Adds (r.Sound a.levels) b c ∧
      c.entry (c.levels - k) (cur / 512 ^ k) = refEntry (cur / 512 ^ k) := by
  have hsound := MemoryRegion.sound_ref (r := r) hk hkl h.start_le hend
  rw [← h.adds.levels_eq] at hsound
  obtain ⟨hadds, hentry, -, -⟩ := addAt_spec h.adds.wellFormed (refEntry_ne_null _) hn hsound hadd
  rw [h.adds.levels_eq] at hadds
  have hparented := addAt_parented h.adds.wellFormed (refEntry_ne_null _) hn hparent h.parented hadd
  refine ⟨⟨h.adds.trans hadds, h.start_le, ⟨?_, ?_⟩, hparented, fun idx h1 h2 => hadds.path (h.done idx h1 h2)⟩,
    hadds, ?_⟩
  · intro hmod
    rw [hadds.levels_eq]
    exact hadds.entry_ref (h.led.pd hmod)
  · intro h4 hmod
    rw [hadds.levels_eq] at h4 ⊢
    exact hadds.entry_ref (h.led.pdpt h4 hmod)
  · rw [hadds.levels_eq]
    exact hentry

lemma addPd_spec (hl : a.levels = 3 ∨ a.levels = 4) (h : Entered r a b cur) (hend : cur ≤ r.endIdx)
    (haligned : cur % 512 = 0)
    (hpdpt : b.levels = 4 → b.entry (b.levels - 2) (cur / 512 ^ 2) = refEntry (cur / 512 ^ 2))
    (hrun : addPd r b cur (r.physAt cur) = .ok (c, next, phys)) : Stepped r a cur c next phys := by
  have hlevels := h.adds.levels_eq
  have hn : cur / 512 ^ 2 = cur / 512 ^ 1 / 512 := by omega
  have hparent : 2 < b.levels - 1 → b.entry (b.levels - 1 - 1) (cur / 512 / 512) = refEntry (cur / 512 / 512) := by
    intro hlt
    rw [pow_one] at hn
    rw [← hn]
    exact hpdpt (by omega)
  unfold addPd at hrun
  by_cases hlarge : b.useLargePages ∧ r.endIdx - cur + 1 ≥ 512
  · rw [if_pos hlarge] at hrun
    obtain ⟨c', hadd, hrest⟩ := bind_eq_ok hrun
    cases hrest
    have hsound := MemoryRegion.sound_page (k := 1) (a := a) (by omega) h.start_le (by simpa using haligned)
      (by have := hlarge.2; omega)
    rw [← hlevels, pow_one] at hsound
    obtain ⟨hadds, hentry, -, -⟩ :=
      addAt_spec h.adds.wellFormed (r.pageEntry_ne_null _) (by omega) hsound hadd
    rw [hlevels] at hadds
    have hlt : cur < cur + 512 := by omega
    have hparented := addAt_parented h.adds.wellFormed (r.pageEntry_ne_null _) (by omega) hparent h.parented hadd
    refine ⟨h.extend hadds hlt ⟨?_, ?_⟩ hparented ?_, r.physAt_add h.start_le 512, hlt, by omega⟩
    · intro hmod
      omega
    · intro h4 hmod
      have hdiv : (cur + 512) / 512 ^ 2 = cur / 512 ^ 2 := by omega
      rw [hadds.levels_eq] at h4 ⊢
      rw [hdiv]
      exact hadds.entry_ref (hpdpt h4)
    · intro idx h1 h2
      have hdiv : idx / 512 = cur / 512 := by omega
      have hdiv2 : idx / 512 ^ 2 = cur / 512 ^ 2 := by omega
      unfold Path
      rw [hadds.levels_eq, hdiv, hdiv2, hentry]
      exact Or.inr (Or.inl ⟨rfl, rfl, fun h4 => hadds.entry_ref (hpdpt h4)⟩)
  · rw [if_neg hlarge] at hrun
    obtain ⟨c', hadd, hrun'⟩ := bind_eq_ok hrun
    have hone : 512 ^ 1 = 512 := pow_one 512
    obtain ⟨h', hadds, hentry⟩ := h.add_ref (k := 1) (by omega) (by omega) hend hn
      (by rw [hone]; exact hparent) (by rw [hone]; exact hadd)
    rw [hone] at hentry
    apply addPt_spec hl h' hend hentry _ hrun'
    intro h4
    rw [hadds.levels_eq] at h4 ⊢
    exact hadds.entry_ref (hpdpt h4)

lemma addPdpt_spec (h4 : a.levels = 4) (h : Entered r a b cur) (hend : cur ≤ r.endIdx)
    (haligned : cur % 512 ^ 2 = 0) (hrun : addPdpt r b cur (r.physAt cur) = .ok (c, next, phys)) :
    Stepped r a cur c next phys := by
  have hlevels := h.adds.levels_eq
  have hn : cur / 512 ^ 3 = cur / 512 ^ 2 / 512 := by omega
  unfold addPdpt at hrun
  by_cases hhuge : (b.useLargePages ∧ b.levels = 4) ∧ r.endIdx - cur + 1 ≥ 512 ^ 2
  · rw [if_pos hhuge] at hrun
    obtain ⟨c', hadd, hrest⟩ := bind_eq_ok hrun
    cases hrest
    have hsound := MemoryRegion.sound_page (k := 2) (a := a) (by omega) h.start_le haligned
      (by have := hhuge.2; omega)
    rw [← hlevels] at hsound
    obtain ⟨hadds, hentry, -, -⟩ := addAt_spec h.adds.wellFormed (r.pageEntry_ne_null _) hn hsound hadd
    rw [hlevels] at hadds
    have hlt : cur < cur + 512 ^ 2 := by omega
    have hsize : BitVec.ofNat 64 (512 ^ 2 * 4096) = 2 ^ 30 := by decide
    have hphys : r.physAt cur + 2 ^ 30 = r.physAt (cur + 512 ^ 2) := by
      rw [← hsize, r.physAt_add h.start_le]
    have hparented := addAt_parented h.adds.wellFormed (r.pageEntry_ne_null _) hn (fun h3 => by omega)
      h.parented hadd
    refine ⟨h.extend hadds hlt ⟨?_, ?_⟩ hparented ?_, hphys, hlt, by omega⟩
    · intro hmod
      omega
    · intro _ hmod
      omega
    · intro idx h1 h2
      have hdiv2 : idx / 512 ^ 2 = cur / 512 ^ 2 := by omega
      unfold Path
      rw [hadds.levels_eq, hdiv2, hentry]
      exact Or.inr (Or.inr ⟨hlevels.trans h4, rfl, rfl⟩)
  · rw [if_neg hhuge] at hrun
    obtain ⟨c', hadd, hrun'⟩ := bind_eq_ok hrun
    obtain ⟨h', -, hentry⟩ := h.add_ref (k := 2) (by omega) (by omega) hend hn (fun h3 => by omega) hadd
    exact addPd_spec (Or.inr h4) h' hend (by omega) (fun _ => hentry) hrun'

lemma addPage_spec (hl : a.levels = 3 ∨ a.levels = 4) (h : Entered r a b cur) (hend : cur ≤ r.endIdx)
    (hrun : addPage r b cur (r.physAt cur) = .ok (c, next, phys)) : Stepped r a cur c next phys := by
  have hlevels := h.adds.levels_eq
  unfold addPage at hrun
  by_cases hpd : cur % 512 = 0
  · rw [if_pos hpd] at hrun
    by_cases hpdpt : b.levels > 3 ∧ cur % 512 ^ 2 = 0
    · rw [if_pos hpdpt] at hrun
      exact addPdpt_spec (by omega) h hend hpdpt.2 hrun
    · rw [if_neg hpdpt] at hrun
      exact addPd_spec hl h hend hpd (fun h4 => h.led.pdpt h4 (by omega)) hrun
  · rw [if_neg hpd] at hrun
    exact addPt_spec hl h hend (h.led.pd hpd) (fun h4 => h.led.pdpt h4 (by omega)) hrun

/-- The page loop enters every page of the region. -/
lemma addPages_spec (hl : a.levels = 3 ∨ a.levels = 4) (fuel : Nat) :
    ∀ (b : MemoryLayout) (cur : Nat), Entered r a b cur → r.endIdx + 1 - cur ≤ fuel →
      addPages r fuel b cur (r.physAt cur) = .ok c → ∃ last, r.endIdx < last ∧ Entered r a c last := by
  induction fuel with
  | zero =>
    intro b cur h hfuel hrun
    obtain rfl := Except.ok.inj hrun
    exact ⟨cur, by omega, h⟩
  | succ fuel ih =>
    intro b cur h hfuel hrun
    rw [addPages] at hrun
    by_cases hend : cur ≤ r.endIdx
    · rw [if_pos hend] at hrun
      obtain ⟨⟨c', next, phys⟩, hpage, hrun'⟩ := bind_eq_ok hrun
      have hstep := addPage_spec hl h hend hpage
      have hlt := hstep.lt
      rw [hstep.phys_eq] at hrun'
      exact ih c' next hstep.entered (by omega) hrun'
    · rw [if_neg hend] at hrun
      obtain rfl := Except.ok.inj hrun
      exact ⟨cur, by omega, h⟩

lemma addStart_spec (hl : a.levels = 3 ∨ a.levels = 4) (hwf : a.WellFormed) (hp : Parented a) (hle : r.startIdx ≤ r.endIdx)
    (hrun : addStart r a = .ok b) : Entered r a b r.startIdx := by
  obtain ⟨a₁, h1, h2⟩ := bind_eq_ok hrun
  unfold addStartPdpt at h1
  unfold addStartPd at h2
  have hfirst : Adds (r.Sound a.levels) a a₁ ∧ Parented a₁ ∧ (a₁.levels = 4 → r.startIdx % 512 ^ 2 ≠ 0 →
      a₁.entry (a₁.levels - 2) (r.startIdx / 512 ^ 2) = refEntry (r.startIdx / 512 ^ 2)) := by
    by_cases hpdpt : a.levels > 3 ∧ r.startIdx % 512 ^ 2 ≠ 0
    · rw [if_pos hpdpt] at h1
      have hn : r.startIdx / 512 ^ 3 = r.startIdx / 512 ^ 2 / 512 := by omega
      have hsound := MemoryRegion.sound_ref (r := r) (a := a) (k := 2) (by omega) (by omega) (le_refl _) hle
      obtain ⟨hadds, hentry, -, -⟩ := addAt_spec hwf (refEntry_ne_null _) hn hsound h1
      refine ⟨hadds, addAt_parented hwf (refEntry_ne_null _) hn (fun h3 => by omega) hp h1, fun _ _ => ?_⟩
      rw [hadds.levels_eq]
      exact hentry
    · rw [if_neg hpdpt] at h1
      obtain rfl := Except.ok.inj h1
      exact ⟨Adds.refl hwf, hp, fun h4 hmod => absurd ⟨by omega, hmod⟩ hpdpt⟩
  obtain ⟨hadds, hp₁, hpdpt⟩ := hfirst
  by_cases hpd : r.startIdx % 512 ≠ 0
  · rw [if_pos hpd] at h2
    have hn : r.startIdx / 512 ^ 2 = r.startIdx / 512 / 512 := by omega
    have hsound := MemoryRegion.sound_ref (r := r) (a := a) (k := 1) (by omega) (by omega) (le_refl _) hle
    rw [← hadds.levels_eq, pow_one] at hsound
    obtain ⟨hadds₂, hentry, -, -⟩ := addAt_spec hadds.wellFormed (refEntry_ne_null _) hn hsound h2
    rw [hadds.levels_eq] at hadds₂
    have hparent : 2 < a₁.levels - 1 →
        a₁.entry (a₁.levels - 1 - 1) (r.startIdx / 512 / 512) = refEntry (r.startIdx / 512 / 512) := by
      intro h3
      have hlevels := hadds.levels_eq
      rw [← hn]
      exact hpdpt (by omega) (by omega)
    have hp₂ := addAt_parented hadds.wellFormed (refEntry_ne_null _) hn hparent hp₁ h2
    refine ⟨hadds.trans hadds₂, le_refl _, ⟨fun _ => ?_, fun h4 hmod => ?_⟩, hp₂, fun idx h3 h4 => by omega⟩
    · rw [hadds₂.levels_eq]
      exact hentry
    · rw [hadds₂.levels_eq] at h4 ⊢
      exact hadds₂.entry_ref (hpdpt h4 hmod)
  · rw [if_neg hpd] at h2
    obtain rfl := Except.ok.inj h2
    exact ⟨hadds, le_refl _, ⟨fun hmod => absurd hmod hpd, hpdpt⟩, hp₁, fun idx h3 h4 => by omega⟩

/-- The level 1 table of `b` is that of `a` with references to the given tables. -/
structure Refers (a b : MemoryLayout) (cs : List Nat) : Prop where
  levels_eq : b.levels = a.levels
  structures_eq : b.structures = a.structures
  counted : a.level1Table.Counted → b.level1Table.Counted
  entries : ∀ i, b.level1Table.data i = a.level1Table.data i ∨
    (a.level1Table.data i = nullTableEntry ∧ ∃ c ∈ cs, entryRange c = i ∧ b.level1Table.data i = refEntry c)
  refs : ∀ c ∈ cs, b.level1Table.data (entryRange c) = refEntry c

lemma addLevel1_spec {n : Nat} {cs : List Nat} (h : Refers a b cs) (hrun : addLevel1 b n = .ok c) :
    Refers a c (cs ++ [n]) := by
  obtain ⟨n', hrange, h1⟩ := bind_eq_ok hrun
  obtain ⟨table, hadd, h2⟩ := bind_eq_ok h1
  obtain ⟨rfl, -⟩ := tableRange_ok hrange
  obtain rfl := Except.ok.inj h2
  obtain ⟨hold, hdata, hcounted⟩ := PageTable.addEntry_spec (refEntry_ne_null n) hadd
  refine ⟨h.levels_eq, h.structures_eq, fun hc => hcounted (h.counted hc), ?_, ?_⟩
  · intro i
    simp only [hdata]
    by_cases hi : i = entryRange n
    · subst hi
      rw [Function.update_self]
      rcases h.entries (entryRange n) with hb | ⟨han, c, hc, -, hbc⟩
      · rcases hold with hnull | hsame
        · exact Or.inr ⟨hb ▸ hnull, n, by simp, rfl, rfl⟩
        · exact Or.inl (hsame.symm.trans hb)
      · exact Or.inr ⟨han, n, by simp, rfl, rfl⟩
    · rw [Function.update_of_ne hi]
      rcases h.entries i with hb | ⟨han, c, hc, hci, hbc⟩
      · exact Or.inl hb
      · exact Or.inr ⟨han, c, by simp [hc], hci, hbc⟩
  · intro m hm
    simp only [hdata]
    rcases List.mem_append.mp hm with hm | hm
    · by_cases hi : entryRange m = entryRange n
      · have hb := h.refs m hm
        rw [hi] at hb ⊢
        rw [Function.update_self]
        rcases hold with hnull | hsame
        · exact absurd (hb.symm.trans hnull) (refEntry_ne_null m)
        · exact hsame.symm.trans hb
      · rw [Function.update_of_ne hi]
        exact h.refs m hm
    · rw [List.mem_singleton.mp hm, Function.update_self]

/-- What a successful call of `Add_Memory_Region` makes of a layout. -/
structure RegionAdded (r : MemoryRegion) (a b : MemoryLayout) : Prop where
  levels_eq : b.levels = a.levels
  wellFormed : b.WellFormed
  parented : Parented b
  entries : ∀ l g, b.entry l g = a.entry l g ∨
    (a.entry l g = nullTableEntry ∧ r.Sound a.levels l g (b.entry l g))
  paths : ∀ idx, r.startIdx ≤ idx → idx ≤ r.endIdx → Path b idx
  old_paths : ∀ idx, Path a idx → Path b idx
  counted : a.level1Table.Counted → b.level1Table.Counted
  level1 : ∀ i, b.level1Table.data i = a.level1Table.data i ∨
    (a.level1Table.data i = nullTableEntry ∧ ∃ c, r.startIdx / 512 ^ 3 ≤ c ∧ c ≤ r.endIdx / 512 ^ 3 ∧
      entryRange c = i ∧ b.level1Table.data i = refEntry c)
  refs : ∀ c, r.startIdx / 512 ^ 3 ≤ c → c ≤ r.endIdx / 512 ^ 3 →
    b.level1Table.data (entryRange c) = refEntry c

lemma Refers.path {cs : List Nat} (h : Refers a b cs) (idx : Nat) : Path b idx ↔ Path a idx := by
  unfold Path MemoryLayout.entry
  rw [h.levels_eq, h.structures_eq]

lemma addMemoryRegion_spec (hl : a.levels = 3 ∨ a.levels = 4) (hwf : a.WellFormed) (hp : Parented a)
    (hle : r.startIdx ≤ r.endIdx) (hrun : addMemoryRegion a r = .ok b) : RegionAdded r a b := by
  have hentries : addRegionEntries r a = .ok b := by
    unfold addMemoryRegion at hrun
    split at hrun
    · cases hrun
    · exact hrun
  obtain ⟨a₁, h1, h2⟩ := bind_eq_ok hentries
  obtain ⟨a₂, h3, h4⟩ := bind_eq_ok h2
  have hstart := addStart_spec hl hwf hp hle h1
  have hphys : r.physicalAddress &&& MemoryRegion.pageAddressMask = r.physAt r.startIdx := by
    simp [MemoryRegion.physAt]
  rw [hphys] at h3
  obtain ⟨last, hlast, hentered⟩ := addPages_spec hl _ a₁ r.startIdx hstart (le_refl _) h3
  have hrefers := foldlM_ok (Refers a₂) ⟨rfl, rfl, fun hc => hc, fun _ => Or.inl rfl, by simp⟩
    (fun done n s s' hs hstep => addLevel1_spec hs hstep) h4
  have hadds := hentered.adds
  have hmem : ∀ c, c ∈ List.range' (r.startIdx / 512 ^ 3) (r.endIdx / 512 ^ 3 + 1 - r.startIdx / 512 ^ 3) ↔
      r.startIdx / 512 ^ 3 ≤ c ∧ c ≤ r.endIdx / 512 ^ 3 := by
    intro c
    rw [List.mem_range'_1]
    omega
  have hsame : ∀ l g, b.entry l g = a₂.entry l g := by
    intro l g
    rw [MemoryLayout.entry, MemoryLayout.entry, hrefers.structures_eq]
  refine ⟨hrefers.levels_eq.trans hadds.levels_eq, ?_, ?_, ?_, ?_, ?_, ?_, ?_, ?_⟩
  · intro l
    rw [hrefers.structures_eq]
    exact hadds.wellFormed l
  · intro l g hl hne
    rw [hsame] at hne ⊢
    exact hentered.parented l g hl hne
  · intro l g
    rw [hsame]
    exact hadds.entries l g
  · intro idx hidx1 hidx2
    rw [hrefers.path]
    exact hentered.done idx hidx1 (by omega)
  · intro idx hp
    rw [hrefers.path]
    exact hadds.path hp
  · intro hc
    apply hrefers.counted
    rw [hadds.level1_eq]
    exact hc
  · intro i
    have hi := hrefers.entries i
    rw [hadds.level1_eq] at hi
    rcases hi with hb | ⟨hn, c, hc, hci, hbc⟩
    · exact Or.inl hb
    · exact Or.inr ⟨hn, c, ((hmem c).mp hc).1, ((hmem c).mp hc).2, hci, hbc⟩
  · intro c hc1 hc2
    exact hrefers.refs c ((hmem c).mpr ⟨hc1, hc2⟩)

end Entering

/-! ### Layouts after any sequence of calls -/

/-- The layout that entering the regions one after the other gave. -/
structure Built (layout : MemoryLayout) (levels : Nat) (rs : List MemoryRegion) : Prop where
  levels_eq : layout.levels = levels
  wellFormed : layout.WellFormed
  parented : Parented layout
  counted : layout.level1Table.Counted
  sound : ∀ l g, layout.entry l g = nullTableEntry ∨ ∃ r ∈ rs, r.Sound levels l g (layout.entry l g)
  paths : ∀ r ∈ rs, ∀ idx, r.startIdx ≤ idx → idx ≤ r.endIdx → Path layout idx
  level1 : ∀ i, layout.level1Table.data i = nullTableEntry ∨ ∃ r ∈ rs, ∃ c, r.startIdx / 512 ^ 3 ≤ c ∧
    c ≤ r.endIdx / 512 ^ 3 ∧ entryRange c = i ∧ layout.level1Table.data i = refEntry c
  refs : ∀ r ∈ rs, ∀ c, r.startIdx / 512 ^ 3 ≤ c → c ≤ r.endIdx / 512 ^ 3 →
    layout.level1Table.data (entryRange c) = refEntry c

lemma built_empty (levels : Nat) (large : Bool) : Built (emptyLayout levels large) levels [] where
  levels_eq := rfl
  wellFormed := fun _ => ⟨List.Pairwise.nil, by simp [emptyLayout]⟩
  parented := fun _ _ _ hne => absurd rfl hne
  counted := PageTableMap.nullTable_counted
  sound := fun _ _ => Or.inl rfl
  paths := by simp
  level1 := fun _ => Or.inl rfl
  refs := by simp

lemma Built.add {a b : MemoryLayout} {levels : Nat} {rs : List MemoryRegion} {r : MemoryRegion}
    (h : Built a levels rs) (hr : RegionAdded r a b) : Built b levels (rs ++ [r]) where
  levels_eq := hr.levels_eq.trans h.levels_eq
  wellFormed := hr.wellFormed
  parented := hr.parented
  counted := hr.counted h.counted
  sound := by
    intro l g
    rcases hr.entries l g with hb | ⟨-, hs⟩
    · rw [hb]
      rcases h.sound l g with hn | ⟨q, hq, hs⟩
      · exact Or.inl hn
      · exact Or.inr ⟨q, List.mem_append_left _ hq, hs⟩
    · rw [h.levels_eq] at hs
      exact Or.inr ⟨r, by simp, hs⟩
  paths := by
    intro q hq idx h1 h2
    rcases List.mem_append.mp hq with hq | hq
    · exact hr.old_paths idx (h.paths q hq idx h1 h2)
    · rw [List.mem_singleton.mp hq] at h1 h2
      exact hr.paths idx h1 h2
  level1 := by
    intro i
    rcases hr.level1 i with hb | ⟨-, c, hc1, hc2, hci, hbc⟩
    · rw [hb]
      rcases h.level1 i with hn | ⟨q, hq, c, hc⟩
      · exact Or.inl hn
      · exact Or.inr ⟨q, List.mem_append_left _ hq, c, hc⟩
    · exact Or.inr ⟨r, by simp, c, hc1, hc2, hci, hbc⟩
  refs := by
    intro q hq c hc1 hc2
    rcases List.mem_append.mp hq with hq | hq
    · have hold := h.refs q hq c hc1 hc2
      rcases hr.level1 (entryRange c) with hb | ⟨hn, -⟩
      · rw [hb]
        exact hold
      · exact absurd (hold.symm.trans hn) (refEntry_ne_null c)
    · rw [List.mem_singleton.mp hq] at hc1 hc2
      exact hr.refs c hc1 hc2

namespace MemoryRegion

/-- Page aligned, not empty and with the virtual range below the bound. -/
structure Valid (r : MemoryRegion) (bound : Nat) : Prop where
  physical_aligned : r.physicalAddress.toNat % 4096 = 0
  virtual_aligned : r.virtualAddress.toNat % 4096 = 0
  size_aligned : r.size.toNat % 4096 = 0
  size_pos : 0 < r.size.toNat
  virtual_le : r.virtualAddress.toNat + r.size.toNat ≤ bound

lemma and_pageAddressMask {x : Unsigned64} (haligned : x.toNat % 4096 = 0) (hlt : x.toNat < 2 ^ 48) :
    x &&& pageAddressMask = x := by
  apply BitVec.eq_of_toNat_eq
  rw [bitVec_and_mask_toNat x pageAddressMask 36 12 (by decide)]
  omega

variable {r : MemoryRegion} {bound : Nat}

lemma Valid.startIdx_eq (h : r.Valid bound) (hbound : bound ≤ 2 ^ 48) :
    r.startIdx = r.virtualAddress.toNat / 4096 := by
  have hpos := h.size_pos
  have hle := h.virtual_le
  rw [startIdx, and_pageAddressMask h.virtual_aligned (by omega)]

lemma Valid.endIdx_eq (h : r.Valid bound) (hbound : bound ≤ 2 ^ 48) :
    r.endIdx + 1 = (r.virtualAddress.toNat + r.size.toNat) / 4096 := by
  have hpos := h.size_pos
  have hle := h.virtual_le
  have hv := h.virtual_aligned
  have hs := h.size_aligned
  rw [endIdx, and_pageAddressMask h.virtual_aligned (by omega)]
  have hlast : (r.virtualAddress + r.size - 1).toNat = r.virtualAddress.toNat + r.size.toNat - 1 := by
    rw [BitVec.toNat_sub, BitVec.toNat_add]
    simp
    omega
  rw [hlast]
  omega

lemma Valid.startIdx_le (h : r.Valid bound) (hbound : bound ≤ 2 ^ 48) : r.startIdx ≤ r.endIdx := by
  have hstart := h.startIdx_eq hbound
  have hend := h.endIdx_eq hbound
  have hpos := h.size_pos
  have hs := h.size_aligned
  omega

end MemoryRegion

/-- A sequence of successful calls builds the layout of its regions. -/
lemma addMemoryRegions_built {levels : Nat} {large : Bool} {calls : List (Bool × MemoryRegion)}
    {layout : MemoryLayout} (hl : levels = 3 ∨ levels = 4)
    (hle : ∀ call ∈ calls, call.2.startIdx ≤ call.2.endIdx)
    (h : addMemoryRegions (emptyLayout levels large) calls = .ok layout) :
    Built layout levels (calls.map Prod.snd) := by
  have hinv := foldlM_ok
    (fun b done => (∀ call ∈ done, call.2.startIdx ≤ call.2.endIdx) → Built b levels (done.map Prod.snd))
    (fun _ => built_empty levels large) ?_ h
  · exact hinv hle
  · intro done call b b' hb hstep hdone
    have hbuilt := hb (fun c hc => hdone c (List.mem_append_left _ hc))
    have hset : Built (setLargePageSupport b call.1) levels (done.map Prod.snd) := ⟨hbuilt.levels_eq,
      hbuilt.wellFormed, hbuilt.parented, hbuilt.counted, hbuilt.sound, hbuilt.paths, hbuilt.level1, hbuilt.refs⟩
    have hlevels : (setLargePageSupport b call.1).levels = 3 ∨ (setLargePageSupport b call.1).levels = 4 := by
      rw [hset.levels_eq]
      exact hl
    have hadded := addMemoryRegion_spec hlevels hset.wellFormed hset.parented (hdone call (by simp)) hstep
    rw [List.map_append, List.map_cons, List.map_nil]
    exact hset.add hadded

end Muen.Tools.Paging
