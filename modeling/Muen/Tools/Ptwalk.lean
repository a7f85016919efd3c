import Muen.Tools.Paging.Image

/-!
# Ptwalk

The page table walk of the table walking tool. A walk over the image of a layout finds what the
layout maps: first the walk is compared with a look-up in the tables of the layout, then the
look-up with the regions the layout was built from.
-/

namespace Muen.Tools.Ptwalk
open Muen.Lib Muen.Tools.Paging

inductive LogMessage where
  | belowPointer (ptAddress ptPointer : Unsigned64)
  | outsideFile
  | entry (level : Nat) (ptEntry : TableEntry)
deriving DecidableEq, Repr

structure WalkResult where
  success : Bool
  translatedAddr : Unsigned64
  log : List LogMessage
deriving DecidableEq, Repr

/-- The result with the message of an earlier level before its own. -/
def WalkResult.logged (result : WalkResult) (level : Nat) (ptEntry : TableEntry) : WalkResult :=
  { result with log := .entry level ptEntry :: result.log }

/-- `Stream_IO.Count` is a signed 64-bit type. -/
def streamCount (n : Nat) : Except WalkError Nat :=
  if n < 2 ^ 63 then .ok n else .error (.constraintError "range check failed")

def tableFileIndex (ptAddress ptPointer : Unsigned64) (entryIdx : EntryRange) : Except WalkError Nat := do
  let first ← streamCount (ptAddress - ptPointer + 1).toNat
  streamCount (first + entryIdx.val * 8)

/-- There are no offsets at level one. -/
def mapOffset (address : Unsigned64) (level : Nat) : Except WalkError Unsigned64 :=
  if 2 ≤ level then .ok (getOffset address level) else .error (.constraintError "range check failed")

/-- The result at an entry that ends the walk. -/
def walkEnd (virtualAddress : Unsigned64) (level : Nat) (ptEntry : TableEntry) : Except WalkError WalkResult :=
  if ptEntry.present && ptEntry.mapsPage then do
    let offset ← mapOffset virtualAddress level
    .ok ⟨true, ptEntry.dstAddress + offset, [.entry level ptEntry]⟩
  else .ok ⟨false, 0, [.entry level ptEntry]⟩

def eptDeserializers : Nat → List Byte → Except WalkError TableEntry
  | 1 => Ept.deserializePml4Entry
  | 2 => Ept.deserializePdptEntry
  | 3 => Ept.deserializePdEntry
  | _ => Ept.deserializePtEntry

/-- The walk with the given number of levels left. The file index starts at one. -/
def doWalk (virtualAddress : Unsigned64) (file : List Byte) (ptPointer : Unsigned64)
    (deserializers : Nat → List Byte → Except WalkError TableEntry) : Nat → Unsigned64 → Except WalkError WalkResult
  | 0, _ => .error (.constraintError "range check failed")
  | left + 1, ptAddress =>
    let level := 4 - left
    if ptAddress < ptPointer then .ok ⟨false, 0, [.belowPointer ptAddress ptPointer]⟩
    else do
      let tableFileIdx ← tableFileIndex ptAddress ptPointer (getIndex virtualAddress level)
      if tableFileIdx > file.length then .ok ⟨false, 0, [.outsideFile]⟩
      else do
        let ptEntry ← deserializers level (file.drop (tableFileIdx - 1))
        if !ptEntry.present || ptEntry.mapsPage then walkEnd virtualAddress level ptEntry
        else do
          let rest ← doWalk virtualAddress file ptPointer deserializers left ptEntry.dstAddress
          .ok (rest.logged level ptEntry)

/-- The walk from the table pointer on with the EPT deserializers. -/
def walkEpt (virtualAddress : Unsigned64) (file : List Byte) (ptPointer : Unsigned64) : Except WalkError WalkResult :=
  doWalk virtualAddress file ptPointer eptDeserializers 4 ptPointer

/-- The entry that ended the walk. -/
def WalkResult.lastEntry (result : WalkResult) : Option TableEntry :=
  match result.log.getLast? with
  | some (.entry _ ptEntry) => some ptEntry
  | _ => none

/-! ### One step of a walk over an image -/

section Step

variable {layout : MemoryLayout} {ptPointer virtualAddress : Unsigned64}

lemma eptDeserializers_eq {level : Nat} (h1 : 1 ≤ level) (h4 : level ≤ 4) :
    eptDeserializers level = Ept.deserializeEntry level := by
  interval_cases level <;> rfl

/-- The rest of a walk at the entry it reads. -/
def walkOn (virtualAddress : Unsigned64) (file : List Byte) (ptPointer : Unsigned64) (left : Nat)
    (ptEntry : TableEntry) : Except WalkError WalkResult :=
  if !ptEntry.present || ptEntry.mapsPage then walkEnd virtualAddress (4 - left) ptEntry
  else do
    let rest ← doWalk virtualAddress file ptPointer eptDeserializers left ptEntry.dstAddress
    .ok (rest.logged (4 - left) ptEntry)

lemma doWalk_table {left k : Nat} {table : PageTable} {e : TableEntry} (hleft : left < 4)
    (hmem : (tableList layout)[k]? = some (4 - left, table))
    (haddress : table.address = ptPointer + BitVec.ofNat 64 (k * 4096))
    (hfit : ptPointer.toNat + 4096 * (tableList layout).length ≤ 2 ^ 63)
    (hentry : Ept.createTableEntry (Ept.rawTable (eptRaw (4 - left)) table (getIndex virtualAddress (4 - left)))
      (4 - left) = .ok e) :
    doWalk virtualAddress (eptImage layout) ptPointer eptDeserializers (left + 1) table.address =
      walkOn virtualAddress (eptImage layout) ptPointer left e := by
  obtain ⟨hk, -⟩ := List.getElem?_eq_some_iff.mp hmem
  have hlength := eptImage_length layout
  have hindex := (getIndex virtualAddress (4 - left)).isLt
  have haddr : table.address.toNat = ptPointer.toNat + k * 4096 := by
    rw [haddress, BitVec.toNat_add, BitVec.toNat_ofNat]
    omega
  have hbelow : ¬table.address < ptPointer := by
    rw [BitVec.lt_def]
    omega
  have hdist : (table.address - ptPointer + 1).toNat = k * 4096 + 1 := by
    rw [BitVec.toNat_add, BitVec.toNat_sub, haddr]
    simp
    omega
  have hfile : tableFileIndex table.address ptPointer (getIndex virtualAddress (4 - left)) =
      .ok (4096 * k + 8 * (getIndex virtualAddress (4 - left)).val + 1) := by
    rw [tableFileIndex, hdist, streamCount, if_pos (by omega), ok_bind, streamCount, if_pos (by omega)]
    exact congrArg Except.ok (by omega)
  have hread : eptDeserializers (4 - left) ((eptImage layout).drop
      (4096 * k + 8 * (getIndex virtualAddress (4 - left)).val + 1 - 1)) = .ok e := by
    rw [eptDeserializers_eq (by omega) (by omega), Ept.deserializeEntry, Nat.add_sub_cancel,
      Ept.readUnsigned64_eq (take_drop_eptImage hmem _), ok_bind, hentry]
  rw [doWalk, if_neg hbelow, hfile, ok_bind, if_neg (by omega), hread, ok_bind, walkOn]

end Step

/-! ### The walk is a look-up -/

/-- The mapping of a page of a layout of four levels, searched from the given number of levels
above the last one on. -/
def lookup (layout : MemoryLayout) (page : Nat) : Nat → Option (Nat × TableEntry)
  | 0 => if layout.entry 4 page = nullTableEntry then none else some (0, layout.entry 4 page)
  | left + 1 =>
    if layout.entry (4 - (left + 1)) (page / 512 ^ (left + 1)) = nullTableEntry then none
    else if (layout.entry (4 - (left + 1)) (page / 512 ^ (left + 1))).mapsPage then
      some (left + 1, layout.entry (4 - (left + 1)) (page / 512 ^ (left + 1)))
    else lookup layout page left

/-- The mapping of a page, searched from the level 1 table on. -/
def translate (layout : MemoryLayout) (page : Nat) : Option (Nat × TableEntry) :=
  if layout.level1Table.data (entryRange (page / 512 ^ 3)) = nullTableEntry then none else lookup layout page 2

/-- The result of a walk is what was found: the address behind the mapping, with its attributes. -/
def Agrees (virtualAddress : Unsigned64) (found : Option (Nat × TableEntry)) (result : WalkResult) : Prop :=
  match found with
  | none => result.success = false
  | some (left, e) => result.success = true ∧
    result.translatedAddr = (e.dstAddress &&& Ept.addressMask) + getOffset virtualAddress (4 - left) ∧
    ∃ last, result.lastEntry = some last ∧ last.writable = e.writable ∧ last.executable = e.executable

section Lookup

variable {layout : MemoryLayout} {rs : List MemoryRegion} {virtualAddress : Unsigned64} {left : Nat}

lemma getIndex_eq (virtualAddress : Unsigned64) (hleft : left ≤ 3) :
    getIndex virtualAddress (4 - left) = entryRange (virtualAddress.toNat / 4096 / 512 ^ left) := by
  apply Fin.ext
  simp only [getIndex, entryRange, index_eq]
  rw [Nat.div_div_eq_div_mul]
  have hshift : 2 ^ levelShift (4 - left) = 4096 * 512 ^ left := by
    interval_cases left <;> rfl
  rw [hshift]

lemma counted_of_resolve {table table' : PageTable} {next : PageTableMap} (hcounted : table.Counted)
    (hproper : Proper table) (hlength : table'.length = table.length)
    (hdata : table'.data = fun i => resolve next (table.data i)) : table'.Counted := by
  rw [PageTable.Counted, hlength, hdata, hcounted]
  apply List.countP_congr
  intro i _
  by_cases hi : table.data i = nullTableEntry
  · simp [hi, resolve_null]
  · simp [hi, resolve_ne_null hi (hproper i hi)]

/-- A table of the layout in the list of the tables with references. -/
lemma located (hclosed : Closed layout) {l n : Nat} {table : PageTable} (hl2 : 2 ≤ l) (hl : l ≤ layout.levels)
    (hfind : (layout.structures l).find n = some table) : ∃ (k : Nat) (table' : PageTable),
      (tableList (referenced layout))[k]? = some (l, table') ∧
      addressOf ((referenced layout).structures l) n = table'.address ∧ table'.Counted ∧
      table'.data = fun i => resolve ((referenced layout).structures (l + 1)) (table.data i) := by
  obtain ⟨address, hplaced⟩ := referenced_structures layout hl2 hl
  obtain ⟨table', hfind', hlength, hdata⟩ := find_placed_some
    ((referenced layout).structures (l + 1)) address hfind
  rw [← hplaced] at hfind'
  have hmem := mem_tablesFrom layout.levels hl2 hl (PageTableMap.mem_of_find hfind')
  obtain ⟨k, hk⟩ := List.mem_iff_getElem?.mp hmem
  obtain ⟨hcounted, hproper, -⟩ := hclosed.refs l hl2 hl _ (PageTableMap.mem_of_find hfind)
  refine ⟨k + 1, table', ?_, ?_, counted_of_resolve hcounted hproper hlength hdata, hdata⟩
  · rw [tableList, List.getElem?_cons_succ, referenced_levels]
    exact hk
  · rw [addressOf, hfind']

/-- The image with its tables below the end of the address field. -/
structure Fits (layout : MemoryLayout) : Prop where
  aligned : layout.level1Table.address.toNat % 4096 = 0
  below : layout.level1Table.address.toNat + 4096 * (1 + (tablesFrom layout layout.levels).length) ≤ 2 ^ 48

lemma Fits.image (h : Fits layout) :
    layout.level1Table.address.toNat + 4096 * (tableList (referenced layout)).length ≤ 2 ^ 48 := by
  have hbelow := h.below
  rw [tableList, List.length_cons, referenced_levels, length_tablesFrom_referenced]
  omega

/-- The address of a table survives the address field of an entry. -/
lemma Fits.and_addressMask (h : Fits layout) {k : Nat} {p : Nat × PageTable}
    (hk : (tableList (referenced layout))[k]? = some p) : p.2.address &&& Ept.addressMask = p.2.address := by
  obtain ⟨hlt, -⟩ := List.getElem?_eq_some_iff.mp hk
  have himage := h.image
  have haligned := h.aligned
  have haddr : p.2.address.toNat = layout.level1Table.address.toNat + k * 4096 := by
    rw [referenced_address hk, BitVec.toNat_add, BitVec.toNat_ofNat]
    omega
  exact MemoryRegion.and_pageAddressMask (by omega) (by omega)

/-- A table of the image at which a walk arrives, and the entry of the layout it reads there. -/
structure Arrived (layout : MemoryLayout) (virtualAddress : Unsigned64) (left : Nat) (address : Unsigned64)
    (e : TableEntry) : Prop where
  le : left ≤ 3
  table : ∃ (k : Nat) (table' : PageTable), (tableList (referenced layout))[k]? = some (4 - left, table') ∧ address = table'.address ∧
    table'.Counted ∧ table'.data (getIndex virtualAddress (4 - left)) =
      resolve ((referenced layout).structures (4 - left + 1)) e

/-- The walk over the image of the layout from a table on. -/
def imageWalk (layout : MemoryLayout) (virtualAddress : Unsigned64) (left : Nat) (address : Unsigned64) :
    Except WalkError WalkResult :=
  doWalk virtualAddress (eptImage (referenced layout)) layout.level1Table.address eptDeserializers left address

lemma Arrived.walk_eq {address : Unsigned64} {e : TableEntry} (h : Arrived layout virtualAddress left address e)
    (hfits : Fits layout) {raw : Unsigned64} {e' : TableEntry}
    (hraw : raw = if resolve ((referenced layout).structures (4 - left + 1)) e ≠ nullTableEntry
      then eptRaw (4 - left) (resolve ((referenced layout).structures (4 - left + 1)) e) else 0)
    (hread : Ept.createTableEntry raw (4 - left) = .ok e') :
    imageWalk layout virtualAddress (left + 1) address =
      walkOn virtualAddress (eptImage (referenced layout)) layout.level1Table.address left e' := by
  have hle := h.le
  obtain ⟨k, table', hmem, haddress, hcounted, hdata⟩ := h.table
  rw [haddress]
  apply doWalk_table (by omega) hmem (referenced_address hmem) (hfits.image.trans (by decide))
  rw [Ept.rawTable_eq hcounted, hdata, ← hraw, hread]

/-- At an entry that is not there the walk fails. -/
lemma Arrived.null {address : Unsigned64} (h : Arrived layout virtualAddress left address nullTableEntry)
    (hfits : Fits layout) : ∃ result,
      imageWalk layout virtualAddress (left + 1) address = .ok result ∧ result.success = false := by
  have hle := h.le
  obtain ⟨e, he, hpresent⟩ := Ept.createTableEntry_zero (4 - left) (by omega) (by omega)
  refine ⟨⟨false, 0, [.entry (4 - left) e]⟩, ?_, rfl⟩
  rw [h.walk_eq hfits (by simp [resolve_null]) he, walkOn, walkEnd, hpresent]
  rfl

/-- At a mapping the walk succeeds. -/
lemma Arrived.page {address : Unsigned64} {r : MemoryRegion} {a : Unsigned64}
    (h : Arrived layout virtualAddress left address (r.pageEntry a)) (hleft : left ≤ 2) (hfits : Fits layout) :
    ∃ result, imageWalk layout virtualAddress (left + 1) address = .ok result ∧
      Agrees virtualAddress (some (left, r.pageEntry a)) result := by
  have hresolve : resolve ((referenced layout).structures (4 - left + 1)) (r.pageEntry a) = r.pageEntry a := by
    rw [resolve, if_pos (by right; rfl)]
  have hread : Ept.createTableEntry (eptRaw (4 - left) (r.pageEntry a)) (4 - left) =
      .ok (r.pageEntry (a &&& Ept.addressMask)) := by
    interval_cases left
    · exact Ept.createTableEntry_ptPage r
    · exact Ept.createTableEntry_dirPage r (Or.inr rfl)
    · exact Ept.createTableEntry_dirPage r (Or.inl rfl)
  refine ⟨⟨true, (a &&& Ept.addressMask) + getOffset virtualAddress (4 - left),
    [.entry (4 - left) (r.pageEntry (a &&& Ept.addressMask))]⟩, ?_, rfl, rfl, _, rfl, rfl, rfl⟩
  rw [h.walk_eq hfits (by rw [hresolve, if_pos (r.pageEntry_ne_null a)]) hread, walkOn, walkEnd]
  simp only [MemoryRegion.pageEntry, Bool.not_true, Bool.false_or, if_true, Bool.and_self, mapOffset]
  rw [if_pos (show 2 ≤ 4 - left by omega), ok_bind]

/-- At a reference the walk goes on at the table of the next level. -/
lemma Arrived.ref {address : Unsigned64} {n : Nat}
    (h : Arrived layout virtualAddress (left + 1) address (refEntry n)) (hclosed : Closed layout)
    (hfits : Fits layout) (hl : 4 ≤ layout.levels) (hfind : ((layout.structures (4 - left)).find n).isSome) :
    ∃ e, imageWalk layout virtualAddress (left + 2) address =
      (imageWalk layout virtualAddress (left + 1) (addressOf ((referenced layout).structures (4 - left)) n)).map
        (fun rest => rest.logged (4 - (left + 1)) e) := by
  have hle := h.le
  have hnext : 4 - (left + 1) + 1 = 4 - left := by omega
  obtain ⟨table, htable⟩ := Option.isSome_iff_exists.mp hfind
  obtain ⟨k, table', hk, haddress, -, -⟩ := located hclosed (by omega) (by omega) htable
  have hmask := hfits.and_addressMask hk
  rw [← haddress] at hmask
  have hresolve : resolve ((referenced layout).structures (4 - (left + 1) + 1)) (refEntry n) =
      { refEntry n with dstAddress := addressOf ((referenced layout).structures (4 - left)) n } := by
    rw [resolve, if_neg (by simp [refEntry, nullTableEntry]), hnext]
    rfl
  have hread : Ept.createTableEntry (eptRaw (4 - (left + 1))
      { refEntry n with dstAddress := addressOf ((referenced layout).structures (4 - left)) n }) (4 - (left + 1)) =
      .ok (Ept.readRef (addressOf ((referenced layout).structures (4 - left)) n) (4 - (left + 1))) := by
    have hleft : left = 0 ∨ left = 1 ∨ left = 2 := by omega
    rcases hleft with rfl | rfl | rfl
    · exact (Ept.createTableEntry_dirRef n (Or.inr rfl)).trans (by rw [hmask])
    · exact (Ept.createTableEntry_dirRef n (Or.inl rfl)).trans (by rw [hmask])
    · exact (Ept.createTableEntry_pml4Ref n).trans (by rw [hmask])
  refine ⟨Ept.readRef (addressOf ((referenced layout).structures (4 - left)) n) (4 - (left + 1)), ?_⟩
  rw [h.walk_eq hfits (by rw [hresolve, if_pos (ne_null_of_present rfl)]) hread, walkOn]
  simp only [Ept.readRef, Bool.not_true, Bool.or_self, Bool.false_eq_true, if_false, imageWalk]
  cases doWalk virtualAddress (eptImage (referenced layout)) layout.level1Table.address eptDeserializers (left + 1)
    (addressOf ((referenced layout).structures (4 - left)) n) <;> rfl

lemma lastEntry_logged {result : WalkResult} {e : TableEntry} (level : Nat) (e' : TableEntry)
    (h : result.lastEntry = some e) : (result.logged level e').lastEntry = some e := by
  obtain ⟨success, translatedAddr, log⟩ := result
  cases log with
  | nil => simp [WalkResult.lastEntry] at h
  | cons m log =>
    simpa only [WalkResult.lastEntry, WalkResult.logged, List.getLast?_cons_cons] using h

lemma Agrees.logged {found : Option (Nat × TableEntry)} {result : WalkResult} (h : Agrees virtualAddress found result)
    (level : Nat) (e : TableEntry) : Agrees virtualAddress found (result.logged level e) := by
  cases found with
  | none => exact h
  | some p =>
    obtain ⟨hsuccess, haddr, last, hlast, hattr⟩ := h
    exact ⟨hsuccess, haddr, last, lastEntry_logged level e hlast, hattr⟩

/-- The walk arrives at the table of the page. -/
lemma arrived_of_find (hclosed : Closed layout) (hl : layout.levels = 4) (hleft : left ≤ 2)
    (hfind : ((layout.structures (4 - left)).find (virtualAddress.toNat / 4096 / 512 ^ (left + 1))).isSome) :
    Arrived layout virtualAddress left
      (addressOf ((referenced layout).structures (4 - left)) (virtualAddress.toNat / 4096 / 512 ^ (left + 1)))
      (layout.entry (4 - left) (virtualAddress.toNat / 4096 / 512 ^ left)) := by
  obtain ⟨table, htable⟩ := Option.isSome_iff_exists.mp hfind
  obtain ⟨k, table', hk, haddress, hcounted, hdata⟩ := located hclosed (by omega) (by omega) htable
  have hdiv : virtualAddress.toNat / 4096 / 512 ^ left / 512 = virtualAddress.toNat / 4096 / 512 ^ (left + 1) := by
    rw [Nat.div_div_eq_div_mul, ← pow_succ]
  have hentry : table.data (entryRange (virtualAddress.toNat / 4096 / 512 ^ left)) =
      layout.entry (4 - left) (virtualAddress.toNat / 4096 / 512 ^ left) := by
    simp only [MemoryLayout.entry, PageTableMap.entryAt, hdiv, htable, entryRange]
  refine ⟨by omega, k, table', hk, haddress, hcounted, ?_⟩
  rw [hdata, getIndex_eq _ (by omega), ← hentry]

/-- From a table on, the walk over the image finds what the look-up in the layout finds. -/
lemma imageWalk_lookup (h : Built layout 4 rs) (hclosed : Closed layout) (hfits : Fits layout) (left : Nat) :
    left ≤ 2 → ((layout.structures (4 - left)).find (virtualAddress.toNat / 4096 / 512 ^ (left + 1))).isSome →
      ∃ result, imageWalk layout virtualAddress (left + 1) (addressOf ((referenced layout).structures (4 - left))
          (virtualAddress.toNat / 4096 / 512 ^ (left + 1))) = .ok result ∧
        Agrees virtualAddress (lookup layout (virtualAddress.toNat / 4096) left) result := by
  have hlevels := h.levels_eq
  induction left with
  | zero =>
    intro hleft hfind
    have harrived := arrived_of_find hclosed hlevels hleft hfind
    rw [pow_zero, Nat.div_one, Nat.sub_zero] at harrived
    by_cases hnull : layout.entry 4 (virtualAddress.toNat / 4096) = nullTableEntry
    · rw [hnull] at harrived
      rw [lookup, if_pos hnull]
      exact harrived.null hfits
    · rw [lookup, if_neg hnull]
      obtain ⟨r, -, ⟨-, hlt, -⟩ | ⟨hpage, -⟩⟩ := entry_cases h hnull
      · omega
      · rw [hpage] at harrived ⊢
        exact harrived.page hleft hfits
  | succ left ih =>
    intro hleft hfind
    have harrived := arrived_of_find hclosed hlevels hleft hfind
    by_cases hnull : layout.entry (4 - (left + 1)) (virtualAddress.toNat / 4096 / 512 ^ (left + 1)) = nullTableEntry
    · rw [hnull] at harrived
      rw [lookup, if_pos hnull]
      exact harrived.null hfits
    · rw [lookup, if_neg hnull]
      obtain ⟨table, htable, hdata⟩ := find_of_entry hnull
      obtain ⟨-, -, hres⟩ := hclosed.refs _ (by omega) (by omega) _ (PageTableMap.mem_of_find htable)
      obtain ⟨r, -, ⟨href, -⟩ | ⟨hpage, -⟩⟩ := entry_cases h hnull
      · have hnext := hres (entryRange (virtualAddress.toNat / 4096 / 512 ^ (left + 1)))
        rw [hdata, href] at hnext
        have hsub : 4 - (left + 1) + 1 = 4 - left := by omega
        obtain ⟨-, hsome⟩ := hnext (refEntry_ne_null _) rfl
        rw [hsub] at hsome
        rw [href] at harrived ⊢
        obtain ⟨e, hwalk⟩ := harrived.ref hclosed hfits (by omega) hsome
        obtain ⟨result, hresult, hagrees⟩ := ih (by omega) hsome
        refine ⟨result.logged (4 - (left + 1)) e, ?_, ?_⟩
        · rw [hwalk, hresult]
          rfl
        · rw [if_neg (by simp [refEntry])]
          exact hagrees.logged _ _
      · rw [hpage] at harrived ⊢
        rw [if_pos (by rfl)]
        exact harrived.page hleft hfits

/-- The walk from the table pointer on finds what the layout maps. -/
lemma walkEpt_translate (h : Built layout 4 rs) (hclosed : Closed layout) (hfits : Fits layout)
    (hend : ∀ r ∈ rs, r.endIdx < 512 ^ 4) (hva : virtualAddress.toNat < 2 ^ 48) :
    ∃ result, walkEpt virtualAddress (eptImage (referenced layout)) layout.level1Table.address = .ok result ∧
      Agrees virtualAddress (translate layout (virtualAddress.toNat / 4096)) result := by
  have hproper : Proper layout.level1Table := fun i hi => (hclosed.level1 i hi).1
  have hlevel1 := referenced_level1 layout
  have harrived : Arrived layout virtualAddress 3 layout.level1Table.address
      (layout.level1Table.data (entryRange (virtualAddress.toNat / 4096 / 512 ^ 3))) := by
    refine ⟨le_refl _, 0, (referenced layout).level1Table, rfl, by rw [hlevel1], ?_, ?_⟩
    · exact counted_of_resolve hclosed.counted hproper (by rw [hlevel1]) (congrArg PageTable.data hlevel1)
    · rw [getIndex_eq _ (le_refl _), congrArg PageTable.data hlevel1]
  unfold translate
  by_cases hnull : layout.level1Table.data (entryRange (virtualAddress.toNat / 4096 / 512 ^ 3)) = nullTableEntry
  · rw [hnull] at harrived
    rw [if_pos hnull]
    exact harrived.null hfits
  · rw [if_neg hnull]
    obtain ⟨-, -, hsome⟩ := hclosed.level1 _ hnull
    obtain ⟨r, hr, c, -, hc, hindex, href⟩ := (h.level1 _).resolve_left hnull
    have hc' : c = virtualAddress.toNat / 4096 / 512 ^ 3 := by
      have hlt := hend r hr
      have hmod := congrArg Fin.val hindex
      simp only [entryRange] at hmod
      omega
    rw [href] at harrived hsome
    rw [hc'] at harrived hsome
    obtain ⟨e, hwalk⟩ := harrived.ref hclosed hfits (by rw [h.levels_eq]) hsome
    obtain ⟨result, hresult, hagrees⟩ := imageWalk_lookup h hclosed hfits 2 (le_refl _) hsome
    refine ⟨result.logged (4 - (2 + 1)) e, ?_, hagrees.logged _ _⟩
    rw [walkEpt]
    refine hwalk.trans ?_
    rw [hresult]
    rfl

end Lookup

/-! ### What a layout maps -/

section Regions

variable {layout : MemoryLayout} {rs : List MemoryRegion} {page : Nat}

/-- What is found is the mapping of a page of a region. -/
lemma lookup_sound (h : Built layout 4 rs) (left : Nat) : left ≤ 2 → ∀ {k : Nat} {e : TableEntry},
    lookup layout page left = some (k, e) → k ≤ 2 ∧ ∃ r ∈ rs, r.startIdx ≤ page / 512 ^ k * 512 ^ k ∧
      (page / 512 ^ k + 1) * 512 ^ k ≤ r.endIdx + 1 ∧ e = r.pageEntry (r.physAt (page / 512 ^ k * 512 ^ k)) := by
  have hfound : ∀ {k : Nat}, k ≤ 2 → layout.entry (4 - k) (page / 512 ^ k) ≠ nullTableEntry →
      (layout.entry (4 - k) (page / 512 ^ k)).mapsPage → ∃ r ∈ rs, r.startIdx ≤ page / 512 ^ k * 512 ^ k ∧
      (page / 512 ^ k + 1) * 512 ^ k ≤ r.endIdx + 1 ∧
      layout.entry (4 - k) (page / 512 ^ k) = r.pageEntry (r.physAt (page / 512 ^ k * 512 ^ k)) := by
    intro k hk hnull hmaps
    have hsub : 4 - (4 - k) = k := by omega
    obtain ⟨r, hr, ⟨href, -⟩ | ⟨hpage, h1, h2⟩⟩ := entry_cases h hnull
    · rw [href] at hmaps
      cases hmaps
    · rw [hsub] at hpage h1 h2
      exact ⟨r, hr, h1, h2, hpage⟩
  induction left with
  | zero =>
    intro _ k e hlookup
    rw [lookup] at hlookup
    split_ifs at hlookup with hnull
    cases hlookup
    have hmaps : (layout.entry 4 page).mapsPage := by
      obtain ⟨r, -, ⟨-, hlt, -⟩ | ⟨hpage, -⟩⟩ := entry_cases h hnull
      · omega
      · rw [hpage]
        rfl
    have hzero := hfound (k := 0) (by omega) (by simpa using hnull) (by simpa using hmaps)
    exact ⟨by omega, by simpa using hzero⟩
  | succ left ih =>
    intro hleft k e hlookup
    rw [lookup] at hlookup
    split_ifs at hlookup with hnull hmaps
    · cases hlookup
      exact ⟨hleft, hfound hleft hnull hmaps⟩
    · exact ih (by omega) hlookup

/-- A page on a path is found. -/
lemma lookup_complete (hl : layout.levels = 4) (hpath : Path layout page) : lookup layout page 2 ≠ none := by
  have href : ∀ n, refEntry n ≠ nullTableEntry ∧ ¬(refEntry n).mapsPage := fun n => ⟨refEntry_ne_null n, by simp [refEntry]⟩
  unfold Paging.Path at hpath
  simp only [hl, Nat.reduceSub, forall_const, true_and] at hpath
  simp only [lookup, Nat.reduceSub, Nat.reduceAdd, pow_one, Nat.zero_add]
  rcases hpath with ⟨h1, -, h3, h2⟩ | ⟨h1, h2, h3⟩ | ⟨h1, h2⟩
  · rw [h2, if_neg (href _).1, if_neg (href _).2, h3, if_neg (href _).1, if_neg (href _).2,
      if_neg (ne_null_of_present h1)]
    simp
  · rw [h3, if_neg (href _).1, if_neg (href _).2, if_neg (ne_null_of_present h1), if_pos h2]
    simp
  · rw [if_neg (ne_null_of_present h1), if_pos h2]
    simp

lemma getOffset_toNat (virtualAddress : Unsigned64) {k : Nat} (hk : k ≤ 2) :
    (getOffset virtualAddress (4 - k)).toNat = virtualAddress.toNat % (4096 * 512 ^ k) := by
  have hmask : (offsetMap (4 - k)).toNat = (2 ^ (12 + 9 * k) - 1) <<< 0 := by
    interval_cases k <;> decide
  have hpow : 2 ^ (12 + 9 * k) = 4096 * 512 ^ k := by
    interval_cases k <;> rfl
  rw [getOffset, bitVec_and_mask_toNat _ _ _ _ hmask, hpow, pow_zero, Nat.div_one, Nat.mul_one]

/-- The mapping of a block of the region, taken at an address in the block. -/
lemma physAt_offset {r : MemoryRegion} {virtualAddress : Unsigned64} {k : Nat} (hv : r.Valid (2 ^ 48))
    (hphys : r.physicalAddress.toNat + r.size.toNat ≤ 2 ^ 48) (hk : k ≤ 2)
    (h1 : r.startIdx ≤ virtualAddress.toNat / 4096 / 512 ^ k * 512 ^ k)
    (h2 : (virtualAddress.toNat / 4096 / 512 ^ k + 1) * 512 ^ k ≤ r.endIdx + 1) :
    (r.physAt (virtualAddress.toNat / 4096 / 512 ^ k * 512 ^ k) &&& Ept.addressMask) +
        getOffset virtualAddress (4 - k) = r.physicalAddress + (virtualAddress - r.virtualAddress) := by
  have hstart := hv.startIdx_eq (le_refl _)
  have hend := hv.endIdx_eq (le_refl _)
  have hva := hv.virtual_aligned
  have hpa := hv.physical_aligned
  have hpos := hv.size_pos
  have hsize := hv.size_aligned
  have hoffset := getOffset_toNat virtualAddress hk
  have hlt := virtualAddress.isLt
  have hphysAt : (r.physAt (virtualAddress.toNat / 4096 / 512 ^ k * 512 ^ k)).toNat =
      r.physicalAddress.toNat + (virtualAddress.toNat / 4096 / 512 ^ k * 512 ^ k * 4096 - r.virtualAddress.toNat) := by
    rw [MemoryRegion.physAt, MemoryRegion.and_pageAddressMask hpa (by omega), BitVec.toNat_add, BitVec.toNat_ofNat]
    interval_cases k <;> omega
  have hmask : r.physAt (virtualAddress.toNat / 4096 / 512 ^ k * 512 ^ k) &&& Ept.addressMask =
      r.physAt (virtualAddress.toNat / 4096 / 512 ^ k * 512 ^ k) := by
    apply MemoryRegion.and_pageAddressMask
    · rw [hphysAt]
      interval_cases k <;> omega
    · rw [hphysAt]
      interval_cases k <;> omega
  apply BitVec.eq_of_toNat_eq
  rw [hmask, BitVec.toNat_add, BitVec.toNat_add, BitVec.toNat_sub, hphysAt, hoffset]
  interval_cases k <;> omega

/-- The address belongs to the virtual range of the region. -/
def Covers (r : MemoryRegion) (address : Nat) : Prop :=
  r.virtualAddress.toNat ≤ address ∧ address < r.virtualAddress.toNat + r.size.toNat

/-- The virtual ranges of the regions have no address in common. -/
def Apart (r s : MemoryRegion) : Prop := ∀ address, ¬(Covers r address ∧ Covers s address)

lemma covers_iff {r : MemoryRegion} (hv : r.Valid (2 ^ 48)) (address : Nat) :
    Covers r address ↔ r.startIdx ≤ address / 4096 ∧ address / 4096 ≤ r.endIdx := by
  have hstart := hv.startIdx_eq (le_refl _)
  have hend := hv.endIdx_eq (le_refl _)
  have hva := hv.virtual_aligned
  have hsize := hv.size_aligned
  unfold Covers
  constructor <;> intro h <;> constructor <;> omega

/-- Regions apart from each other that both have the address are one region. -/
lemma eq_of_covers (hapart : rs.Pairwise Apart) {r s : MemoryRegion} {address : Nat} (hr : r ∈ rs) (hs : s ∈ rs)
    (hcr : Covers r address) (hcs : Covers s address) : r = s := by
  by_contra hne
  have hsymm : Std.Symm Apart := ⟨fun a b h address hab => h address hab.symm⟩
  exact hapart.forall hr hs hne address ⟨hcr, hcs⟩

/-- What the layout maps of a page that no region has. -/
lemma translate_none (h : Built layout 4 rs) (hvalid : ∀ r ∈ rs, r.Valid (2 ^ 48)) {address : Nat}
    (hnone : ∀ r ∈ rs, ¬Covers r address) : translate layout (address / 4096) = none := by
  unfold translate
  by_cases hnull : layout.level1Table.data (entryRange (address / 4096 / 512 ^ 3)) = nullTableEntry
  · rw [if_pos hnull]
  · rw [if_neg hnull]
    cases hlookup : lookup layout (address / 4096) 2 with
    | none => rfl
    | some p =>
      obtain ⟨hk, r, hr, h1, h2, -⟩ := lookup_sound h 2 (le_refl _) hlookup
      have hcovers : Covers r address := by
        rw [covers_iff (hvalid r hr)]
        generalize p.1 = k at hk h1 h2
        interval_cases k <;> omega
      exact absurd hcovers (hnone r hr)

/-- What the layout maps of a page that a region has. -/
lemma translate_some (h : Built layout 4 rs) (hvalid : ∀ r ∈ rs, r.Valid (2 ^ 48)) (hapart : rs.Pairwise Apart)
    {r : MemoryRegion} (hr : r ∈ rs) {address : Nat} (hc : Covers r address) : ∃ k,
      translate layout (address / 4096) = some (k, r.pageEntry (r.physAt (address / 4096 / 512 ^ k * 512 ^ k))) ∧
        k ≤ 2 ∧ r.startIdx ≤ address / 4096 / 512 ^ k * 512 ^ k ∧
        (address / 4096 / 512 ^ k + 1) * 512 ^ k ≤ r.endIdx + 1 := by
  obtain ⟨hc1, hc2⟩ := (covers_iff (hvalid r hr) address).mp hc
  have hlevel1 := h.refs r hr (address / 4096 / 512 ^ 3) (by omega) (by omega)
  have hcomplete := lookup_complete h.levels_eq (h.paths r hr _ hc1 hc2)
  obtain ⟨⟨k, e⟩, hlookup⟩ := Option.ne_none_iff_exists'.mp hcomplete
  obtain ⟨hk, s, hs, h1, h2, he⟩ := lookup_sound h 2 (le_refl _) hlookup
  have hcovers : Covers s address := by
    rw [covers_iff (hvalid s hs)]
    interval_cases k <;> omega
  obtain rfl := eq_of_covers hapart hs hr hcovers hc
  refine ⟨k, ?_, hk, h1, h2⟩
  rw [translate, hlevel1, if_neg (refEntry_ne_null _), hlookup, he]

end Regions

/-- A layout at another address is built from the same regions. -/
lemma built_setAddress {layout : MemoryLayout} {levels : Nat} {rs : List MemoryRegion} (h : Built layout levels rs)
    (address : Unsigned64) : Built (setAddress layout address) levels rs :=
  ⟨h.levels_eq, h.wellFormed, h.parented, h.counted, h.sound, h.paths, h.level1, h.refs⟩

lemma tablesFrom_setAddress (layout : MemoryLayout) (address : Unsigned64) (level : Nat) :
    tablesFrom (setAddress layout address) level = tablesFrom layout level := by
  apply tablesFrom_congr
  rfl

/-- Without regions there is no image, and every walk fails. -/
lemma walkEpt_nil (virtualAddress ptPointer : Unsigned64) :
    walkEpt virtualAddress [] ptPointer = .ok ⟨false, 0, [.outsideFile]⟩ := by
  have hindex := (getIndex virtualAddress 1).isLt
  have hfile : tableFileIndex ptPointer ptPointer (getIndex virtualAddress 1) =
      .ok (1 + (getIndex virtualAddress 1).val * 8) := by
    rw [tableFileIndex, BitVec.sub_self]
    change (streamCount 1 >>= fun first => streamCount (first + (getIndex virtualAddress 1).val * 8)) = _
    rw [streamCount, if_pos (by decide), ok_bind, streamCount, if_pos (by omega)]
  rw [walkEpt, doWalk, if_neg (by simp), hfile, ok_bind, if_pos (by simp)]

/-- The result of a walk at an address of the region: the address behind it, with the attributes of
the region in the entry that ended the walk. -/
def Translated (r : MemoryRegion) (virtualAddress : Unsigned64) (result : WalkResult) : Prop :=
  result.success = true ∧
  result.translatedAddr = r.physicalAddress + (virtualAddress - r.virtualAddress) ∧
  ∃ last, result.lastEntry = some last ∧ last.writable = r.writable ∧ last.executable = r.executable

/-- Every address of a region is translated, every other address is not. -/
def Translates (rs : List MemoryRegion) (image : List Byte) (ptPointer : Unsigned64) : Prop :=
  ∀ virtualAddress : Unsigned64, virtualAddress.toNat < 2 ^ 48 →
    ∃ result, walkEpt virtualAddress image ptPointer = .ok result ∧
      (∀ r ∈ rs, Covers r virtualAddress.toNat → Translated r virtualAddress result) ∧
      ((∀ r ∈ rs, ¬Covers r virtualAddress.toNat) → result.success = false)

lemma translates_built {layout : MemoryLayout} {rs : List MemoryRegion} (h : Built layout 4 rs)
    (hvalid : ∀ r ∈ rs, r.Valid (2 ^ 48)) (hphys : ∀ r ∈ rs, r.physicalAddress.toNat + r.size.toNat ≤ 2 ^ 48)
    (hapart : rs.Pairwise Apart) (hfits : Fits layout) :
    Translates rs (eptImage (referenced layout)) layout.level1Table.address := by
  intro virtualAddress hlt
  have hclosed := h.closed_four (fun r hr => (hvalid r hr).startIdx_le (le_refl _))
  have hend : ∀ r ∈ rs, r.endIdx < 512 ^ 4 := by
    intro r hr
    have hle := (hvalid r hr).virtual_le
    have heq := (hvalid r hr).endIdx_eq (le_refl _)
    omega
  obtain ⟨result, hresult, hagrees⟩ := walkEpt_translate h hclosed hfits hend hlt
  refine ⟨result, hresult, ?_, ?_⟩
  · intro r hr hc
    obtain ⟨k, htranslate, hk, h1, h2⟩ := translate_some h hvalid hapart hr hc
    rw [htranslate] at hagrees
    obtain ⟨hsuccess, haddr, hattr⟩ := hagrees
    exact ⟨hsuccess, haddr.trans (physAt_offset (hvalid r hr) (hphys r hr) hk h1 h2), hattr⟩
  · intro hnone
    rw [translate_none h hvalid hnone] at hagrees
    exact hagrees

/-- The tables of a layout of four levels, written with the EPT serializers, translate exactly the
addresses of the regions, as long as the addresses of the tables fit into the entries and the level 1
table is not full. -/
theorem walkEpt_translates {large : Bool} {calls : List (Bool × MemoryRegion)} {layout : MemoryLayout}
    {address : Unsigned64} (hvalid : ∀ call ∈ calls, call.2.Valid (2 ^ 48))
    (hphys : ∀ call ∈ calls, call.2.physicalAddress.toNat + call.2.size.toNat ≤ 2 ^ 48)
    (hapart : (calls.map Prod.snd).Pairwise Apart)
    (hrun : addMemoryRegions (emptyLayout 4 large) calls = .ok layout) (haligned : address.toNat % 4096 = 0)
    (hfits : calls ≠ [] → address.toNat + 4096 * (tableList layout).length ≤ 2 ^ 48)
    (hfree : ∃ c < 512, ∀ call ∈ calls, ∀ v, Covers call.2 v → v / 2 ^ 39 ≠ c) :
    ∃ updated image, updateReferences (setAddress layout address) = .ok updated ∧
      serialize updated eptSerializers = .ok image ∧ Translates (calls.map Prod.snd) image address := by
  have hbuilt := built_setAddress (addMemoryRegions_built (Or.inr rfl)
    (fun call hcall => (hvalid call hcall).startIdx_le (le_refl _)) hrun) address
  have hvalid' : ∀ r ∈ calls.map Prod.snd, r.Valid (2 ^ 48) := by
    intro r hr
    obtain ⟨call, hcall, rfl⟩ := List.mem_map.mp hr
    exact hvalid call hcall
  have hclosed := hbuilt.closed_four (fun r hr => (hvalid' r hr).startIdx_le (le_refl _))
  refine ⟨referenced (setAddress layout address), ?_⟩
  have hlength : (referenced (setAddress layout address)).level1Table.length =
      (setAddress layout address).level1Table.length := by rw [referenced_level1]
  rcases List.eq_nil_or_concat calls with rfl | ⟨init, last, hcalls⟩
  · obtain rfl := Except.ok.inj hrun
    refine ⟨[], updateReferences_eq hclosed, rfl, ?_⟩
    intro virtualAddress _
    exact ⟨_, walkEpt_nil virtualAddress address, by simp, fun _ => rfl⟩
  · have hlast : last ∈ calls := by simp [hcalls]
    have hv := hvalid last hlast
    refine ⟨eptImage (referenced (setAddress layout address)), updateReferences_eq hclosed, ?_, ?_⟩
    · apply serialize_eq
      · rw [hlength]
        apply hbuilt.counted.length_pos (i := entryRange (last.2.startIdx / 512 ^ 3))
        have hle := hv.startIdx_le (le_refl _)
        rw [hbuilt.refs last.2 (List.mem_map_of_mem hlast) (last.2.startIdx / 512 ^ 3) (le_refl _) (by omega)]
        exact refEntry_ne_null _
      · obtain ⟨c, hc, hfree⟩ := hfree
        rw [hlength]
        apply hbuilt.counted.length_lt (i := ⟨c, hc⟩)
        by_contra hne
        obtain ⟨r, hr, n, h1, h2, hn, -⟩ := (hbuilt.level1 _).resolve_left hne
        obtain ⟨call, hcall, rfl⟩ := List.mem_map.mp hr
        have hstart := (hvalid call hcall).startIdx_le (le_refl _)
        have hcovers := (covers_iff (hvalid call hcall) (max call.2.startIdx (n * 512 ^ 3) * 4096)).mpr (by omega)
        have hne' := hfree call hcall _ hcovers
        have hmod := congrArg Fin.val hn
        have hend := (hvalid call hcall).endIdx_eq (le_refl _)
        have hle := (hvalid call hcall).virtual_le
        simp only [entryRange] at hmod
        omega
    · have hfits' : Fits (setAddress layout address) := by
        have hbelow := hfits (List.ne_nil_of_mem hlast)
        rw [tableList, List.length_cons, Nat.add_comm _ 1] at hbelow
        rw [← tablesFrom_setAddress layout address] at hbelow
        exact ⟨haligned, hbelow⟩
      apply translates_built hbuilt hvalid' _ hapart hfits'
      intro r hr
      obtain ⟨call, hcall, rfl⟩ := List.mem_map.mp hr
      exact hphys call hcall

lemma pageRegion_valid : (pageRegion 0).Valid (2 ^ 48) := by
  constructor <;> decide

lemma pageRegion_slot {v : Nat} (h : Covers (pageRegion 0) v) : v / 2 ^ 39 ≠ 1 := by
  obtain ⟨-, h2⟩ := h
  have hsum : (pageRegion 0).virtualAddress.toNat + (pageRegion 0).size.toNat = 4096 := by decide
  omega

lemma pageRegion_layout : ∃ layout, addMemoryRegions (emptyLayout 4 true) [(true, pageRegion 0)] = .ok layout ∧
    (tableList layout).length = 4 ∧ layout.level1Table.data 0 = refEntry 0 ∧
    layout.level1Table.length = 1 ∧
    addressOf ((referenced (setAddress layout (2 ^ 48))).structures 2) 0 = 0x1000000003000 :=
  ⟨_, rfl, rfl, rfl, rfl, rfl⟩

/-- Two megabytes behind the first page. -/
def largePage : MemoryRegion := ⟨0x40000000, 0x200000, 0x200000, .uc, false, true⟩

lemma twoPages_valid : ∀ call ∈ [(true, largePage), (true, pageRegion 0)], call.2.Valid (2 ^ 48) := by
  rw [List.forall_mem_cons, List.forall_mem_singleton]
  exact ⟨by constructor <;> decide, pageRegion_valid⟩

lemma twoPages_slot : ∀ call ∈ [(true, largePage), (true, pageRegion 0)], ∀ v, Covers call.2 v → v / 2 ^ 39 ≠ 1 := by
  rw [List.forall_mem_cons, List.forall_mem_singleton]
  refine ⟨fun v h => ?_, fun v h => pageRegion_slot h⟩
  have hlt : v < 0x400000 := h.2
  omega

lemma twoPages_layout : ∃ layout, addMemoryRegions (emptyLayout 4 true) [(true, largePage), (true, pageRegion 0)] =
    .ok layout ∧ (tableList layout).length = 4 :=
  ⟨_, rfl, rfl⟩

/-- A large and a small page: addresses inside both are translated, and one between the two is not. -/
theorem walkEpt_translates_firstPage : ∃ layout updated image,
    addMemoryRegions (emptyLayout 4 true) [(true, largePage), (true, pageRegion 0)] = .ok layout ∧
      updateReferences (setAddress layout 0x100000) = .ok updated ∧
      serialize updated eptSerializers = .ok image ∧ Translates [largePage, pageRegion 0] image 0x100000 ∧
      (∃ result, walkEpt 0x201234 image 0x100000 = .ok result ∧ result.translatedAddr = 0x40001234) ∧
      (∃ result, walkEpt 0x234 image 0x100000 = .ok result ∧ result.translatedAddr = 0x1234) ∧
      ∃ result, walkEpt 0x1234 image 0x100000 = .ok result ∧ result.success = false := by
  obtain ⟨layout, hrun, htables⟩ := twoPages_layout
  have hphys : ∀ call ∈ [(true, largePage), (true, pageRegion 0)],
      call.2.physicalAddress.toNat + call.2.size.toNat ≤ 2 ^ 48 := by decide
  have hapart : ([(true, largePage), (true, pageRegion 0)].map Prod.snd).Pairwise Apart := by
    refine List.pairwise_pair.mpr ?_
    rintro v ⟨hlarge, hsmall⟩
    have hfirst : 0x200000 ≤ v := hlarge.1
    have hlast : v < 0x1000 := hsmall.2
    omega
  obtain ⟨updated, image, hupdated, himage, htranslates⟩ := @walkEpt_translates true
    [(true, largePage), (true, pageRegion 0)] layout 0x100000 twoPages_valid hphys hapart hrun (by decide)
    (fun _ => by rw [htables]; decide) ⟨1, by decide, twoPages_slot⟩
  have hlarge : Covers largePage 0x201234 := ⟨by decide, by decide⟩
  have hsmall : Covers (pageRegion 0) 0x234 := ⟨by decide, by decide⟩
  obtain ⟨result₁, hwalk₁, hinside₁, -⟩ := htranslates 0x201234 (by decide)
  obtain ⟨result₂, hwalk₂, hinside₂, -⟩ := htranslates 0x234 (by decide)
  obtain ⟨result₃, hwalk₃, -, houtside⟩ := htranslates 0x1234 (by decide)
  refine ⟨layout, updated, image, hrun, hupdated, himage, htranslates,
    ⟨result₁, hwalk₁, (hinside₁ largePage (by simp) hlarge).2.1⟩,
    ⟨result₂, hwalk₂, (hinside₂ (pageRegion 0) (by simp) hsmall).2.1⟩, result₃, hwalk₃, houtside ?_⟩
  rw [List.forall_mem_map, List.forall_mem_cons, List.forall_mem_singleton]
  exact ⟨fun h => absurd h.1 (by decide), fun h => absurd h.2 (by decide)⟩

/-- Tables from 2^48 on: the level 1 entry loses the upper bits of the address of the next table, and
the walk ends below the table pointer. -/
theorem walkEpt_truncates : (pageRegion 0).Valid (2 ^ 48) ∧ Covers (pageRegion 0) 0 ∧ ∃ layout updated image,
    addMemoryRegions (emptyLayout 4 true) [(true, pageRegion 0)] = .ok layout ∧
      updateReferences (setAddress layout (2 ^ 48)) = .ok updated ∧
      serialize updated eptSerializers = .ok image ∧
      (∃ result, walkEpt 0 image (2 ^ 48) = .ok result ∧ result.success = false) ∧
      ¬Translates [pageRegion 0] image (2 ^ 48) := by
  have hcovers : Covers (pageRegion 0) 0 := ⟨by decide, by decide⟩
  refine ⟨pageRegion_valid, hcovers, ?_⟩
  obtain ⟨layout, hrun, htables, hlevel1, hlength, haddress⟩ := pageRegion_layout
  have hbuilt := built_setAddress (addMemoryRegions_built (Or.inr rfl)
    (by simpa using pageRegion_valid.startIdx_le (le_refl _)) hrun) (2 ^ 48)
  have hclosed := hbuilt.closed_four (by simpa using pageRegion_valid.startIdx_le (le_refl _))
  have hreferenced := referenced_level1 (setAddress layout (2 ^ 48))
  have hproper : Proper (setAddress layout (2 ^ 48)).level1Table := fun i hi => (hclosed.level1 i hi).1
  have hcounted := counted_of_resolve hclosed.counted hproper (by rw [hreferenced])
    (congrArg PageTable.data hreferenced)
  have hdata : (referenced (setAddress layout (2 ^ 48))).level1Table.data 0 =
      { refEntry 0 with dstAddress := 0x1000000003000 } := by
    rw [congrArg PageTable.data hreferenced]
    change resolve _ (layout.level1Table.data 0) = _
    rw [hlevel1, resolve, if_neg (by simp [refEntry, nullTableEntry])]
    have hdst : (refEntry 0).dstTableIndex = 0 := rfl
    rw [hdst, haddress]
    rfl
  have hwalk : walkEpt 0 (eptImage (referenced (setAddress layout (2 ^ 48)))) (2 ^ 48) =
      .ok ⟨false, 0, [.entry 1 (Ept.readRef 0x3000 1), .belowPointer 0x3000 (2 ^ 48)]⟩ := by
    have hindex : getIndex 0 (4 - 3) = 0 := by decide
    have hpointer : (referenced (setAddress layout (2 ^ 48))).level1Table.address = 2 ^ 48 := by
      rw [hreferenced]
      rfl
    have hcount : (tableList (referenced (setAddress layout (2 ^ 48)))).length = 4 := by
      rw [← htables, tableList, tableList, List.length_cons, List.length_cons, referenced_levels,
        length_tablesFrom_referenced, tablesFrom_setAddress]
      rfl
    have hread : Ept.createTableEntry (Ept.rawTable (eptRaw (4 - 3))
        (referenced (setAddress layout (2 ^ 48))).level1Table (getIndex 0 (4 - 3))) (4 - 3) =
        .ok (Ept.readRef 0x3000 1) := by
      rw [hindex, Ept.rawTable_eq hcounted, hdata, if_pos (ne_null_of_present rfl)]
      exact Ept.createTableEntry_pml4Ref 0
    have hstep : doWalk 0 (eptImage (referenced (setAddress layout (2 ^ 48)))) (2 ^ 48) eptDeserializers (3 + 1)
        (referenced (setAddress layout (2 ^ 48))).level1Table.address = _ :=
      doWalk_table (k := 0) (by decide) rfl (by rw [hpointer]; decide) (by rw [hcount]; decide) hread
    rw [hpointer] at hstep
    rw [walkEpt, hstep, walkOn]
    rfl
  refine ⟨layout, referenced (setAddress layout (2 ^ 48)), eptImage (referenced (setAddress layout (2 ^ 48))), hrun,
    updateReferences_eq hclosed, ?_, ⟨_, hwalk, rfl⟩, ?_⟩
  · apply serialize_eq
    · rw [hreferenced]
      change 0 < layout.level1Table.length
      omega
    · rw [hreferenced]
      change layout.level1Table.length < 512
      omega
  · intro htranslates
    obtain ⟨result, hresult, hregions, -⟩ := htranslates 0 (by decide)
    rw [hwalk] at hresult
    have hsuccess := (hregions (pageRegion 0) (by simp) hcovers).1
    rw [← Except.ok.inj hresult] at hsuccess
    cases hsuccess

end Muen.Tools.Ptwalk
