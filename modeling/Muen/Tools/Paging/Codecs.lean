import Muen.Tools.Paging.Ia32e
import Mathlib.Data.Fintype.Basic

/-!
# Reading entries back

Both formats of paging structures: an entry that is read back at the level it was written for has its address and the
attributes that the format has a place for. EPT has no memory type in references to tables and no global entries, and
IA-32e has one of the bits of a memory type only in entries that map pages.
-/

namespace Muen.Tools.Paging
open Muen.Lib

/-- The formats of paging structures. -/
inductive Format
  | ept
  | ia32e
deriving DecidableEq

namespace Format

/-- The raw entry in a table of the given level. -/
def raw (f : Format) (level : Nat) : TableEntry → Unsigned64 :=
  match f with
  | .ept => if level = 1 then Ept.rawPml4 else if level = 4 then Ept.rawPt else Ept.rawDir
  | .ia32e => if level = 1 then Ia32e.rawPml4 else if level = 4 then Ia32e.rawPt else Ia32e.rawDir

/-- `Serialize_PML4` and the others. -/
def serialize (f : Format) (level : Nat) (table : PageTable) : List Byte := Ept.serializeTable (f.raw level) table

def createTableEntry : Format → Unsigned64 → Nat → Except WalkError TableEntry
  | .ept => Ept.createTableEntry
  | .ia32e => Ia32e.createTableEntry

/-- `Deserialize_PML4_Entry` and the others. -/
def deserializeEntry : Format → Nat → List Byte → Except WalkError TableEntry
  | .ept => Ept.deserializeEntry
  | .ia32e => Ia32e.deserializeEntry

/-- What a format keeps of an entry. -/
def stored (f : Format) (e : TableEntry) : TableEntry :=
  match f with
  | .ept =>
    { e with
      present := e.readable || e.writable || e.executable
      global := false
      caching := if e.mapsPage then e.caching else .uc }
  | .ia32e =>
    { e with
      global := e.global && e.mapsPage
      caching := if e.mapsPage = false ∧ e.caching = .wp then .wb else e.caching }

end Format

/-- Entries of the last level map pages and those of the first one do not; the address is below 2^48 and aligned to the
size of the page or the table that it designates. -/
structure ProperAt (level : Nat) (e : TableEntry) : Prop where
  last : level = 4 → e.mapsPage = true
  first : level = 1 → e.mapsPage = false
  aligned : e.dstAddress.toNat % (if e.mapsPage then 2 ^ levelShift level else 4096) = 0
  address_lt : e.dstAddress.toNat < 2 ^ 48

/-- An IA-32e entry that maps a large page with memory type WP. -/
def LargeWp (f : Format) (level : Nat) (e : TableEntry) : Prop :=
  f = .ia32e ∧ level ≠ 4 ∧ e.mapsPage = true ∧ e.caching = .wp

section Entries

variable {f : Format} {level : Nat} {e : TableEntry}

lemma ProperAt.page_aligned (h : ProperAt level e) : e.dstAddress.toNat % 4096 = 0 := by
  have haligned := h.aligned
  split_ifs at haligned with hpage
  · have hdvd : 4096 ∣ 2 ^ levelShift level := by
      unfold levelShift
      split <;> decide
    exact Nat.mod_eq_zero_of_dvd (hdvd.trans (Nat.dvd_of_mod_eq_zero haligned))
  · exact haligned

lemma ProperAt.masked (h : ProperAt level e) : e.dstAddress &&& Ept.addressMask = e.dstAddress :=
  MemoryRegion.and_pageAddressMask h.page_aligned h.address_lt

/-- Bit 12 of the address of a large page. -/
lemma ProperAt.pat_clear (h : ProperAt level e) (hlevel : level ≠ 4) (hpage : e.mapsPage = true) (h4 : level ≤ 4)
    (h1 : 1 ≤ level) : e.dstAddress.getLsbD 12 = false := by
  have haligned := h.aligned
  rw [if_pos hpage] at haligned
  have hsmall : e.dstAddress.toNat % 2 ^ 21 = 0 := by
    have hdvd : 2 ^ 21 ∣ 2 ^ levelShift level := by
      interval_cases level
      · decide
      · decide
      · decide
      · omega
    exact Nat.mod_eq_zero_of_dvd (hdvd.trans (Nat.dvd_of_mod_eq_zero haligned))
  rw [BitVec.getLsbD, Nat.testBit_eq_decide_div_mod_eq]
  have heven : e.dstAddress.toNat / 2 ^ 12 % 2 = 0 := by omega
  rw [heven]
  rfl

lemma ok_of_toOption {ε α : Type} {x : Except ε α} {a : α} (h : x.toOption = some a) : x = .ok a := by
  cases x with
  | error e => cases h
  | ok b => rw [Option.some.inj h]

/-! ### EPT -/

namespace Ept

lemma raw_or (hpresent : e.present = true) (level : Nat) :
    Format.ept.raw level e = e.dstAddress &&& addressMask ||| Format.ept.raw level { e with dstAddress := 0 } := by
  have hentry := createEntry_or e.dstAddress e.readable e.writable e.executable
  have hmap : createMapEntry e.dstAddress true e.readable e.writable e.executable e.mapsPage true e.caching =
      e.dstAddress &&& addressMask |||
        createMapEntry 0 true e.readable e.writable e.executable e.mapsPage true e.caching := by
    unfold createMapEntry
    rw [hentry]
    cases e.mapsPage <;> simp [bitSet, BitVec.or_assoc]
  have hdir : createDirEntry e.dstAddress true e.readable e.writable e.executable e.mapsPage true e.caching =
      e.dstAddress &&& addressMask |||
        createDirEntry 0 true e.readable e.writable e.executable e.mapsPage true e.caching := by
    unfold createDirEntry
    rw [hmap]
    cases e.mapsPage <;> simp [bitSet, BitVec.or_assoc]
  simp only [Format.raw]
  split_ifs
  · simp only [rawPml4, hpresent, hentry]
  · simp only [rawPt, hpresent, hmap]
  · simp only [rawDir, hpresent, hdir]

lemma pml4_flags : ∀ readable writable executable : Bool,
    createEntry 0 true readable writable executable &&& addressMask = 0 ∧
    (createTableEntry (createEntry 0 true readable writable executable) 1).toOption =
      some ⟨0, 0, readable || writable || executable, readable, writable, executable, false, false, .uc⟩ := by
  decide

lemma dir_flags (caching : Caching) : ∀ readable writable executable mapPage : Bool,
    createDirEntry 0 true readable writable executable mapPage true caching &&& addressMask = 0 ∧
    ∀ level ∈ [2, 3], (createTableEntry (createDirEntry 0 true readable writable executable mapPage true caching)
      level).toOption = some ⟨0, 0, readable || writable || executable, readable, writable, executable, mapPage, false,
        if mapPage then caching else .uc⟩ := by
  cases caching <;> decide

lemma pt_flags (caching : Caching) : ∀ readable writable executable : Bool,
    createMapEntry 0 true readable writable executable true true caching &&& addressMask = 0 ∧
    (createTableEntry (createMapEntry 0 true readable writable executable true true caching) 4).toOption =
      some ⟨0, 0, readable || writable || executable, readable, writable, executable, true, false, caching⟩ := by
  cases caching <;> decide

/-- Only the memory type of an absent entry is written. -/
lemma absent_flags (caching : Caching) : ∀ mapPage : Bool, ∀ level ∈ [1, 2, 3, 4],
    ((createTableEntry 0 level).toOption.map (·.present) = some false) ∧
    ((createTableEntry (createMapEntry 0 false false false false mapPage true caching)
      level).toOption.map (·.present) = some false) ∧
    ((createTableEntry (createDirEntry 0 false false false false mapPage true caching)
      level).toOption.map (·.present) = some false) := by
  cases caching <;> decide

end Ept

/-! ### IA-32e -/

namespace Ia32e

lemma raw_or (e : TableEntry) (level : Nat) :
    Format.ia32e.raw level e = e.dstAddress &&& addressMask ||| Format.ia32e.raw level { e with dstAddress := 0 } := by
  have hentry : ∀ writethrough cacheDisable : Bool,
      createEntry e.dstAddress e.writable e.readable e.present writethrough cacheDisable (!e.executable) =
        e.dstAddress &&& addressMask |||
          createEntry 0 e.writable e.readable e.present writethrough cacheDisable (!e.executable) :=
    fun _ _ => createEntry_or _ _ _ _ _ _ _
  simp only [Format.raw]
  split_ifs
  · simp only [rawPml4]
    rw [hentry]
  · simp only [rawPt]
    rw [hentry]
    cases (patMapping e.caching).pat <;> cases e.global <;> simp [bitSet, BitVec.or_assoc]
  · simp only [rawDir]
    exact createDirEntry_or _ _ _ _ _ _ _ _

/-- The raw form of flags, at each level. -/
def flagEntry (level : Nat) (present readable writable executable mapsPage global : Bool) (caching : Caching) :
    Unsigned64 :=
  Format.ia32e.raw level ⟨0, 0, present, readable, writable, executable, mapsPage, global, caching⟩

lemma pml4_flags (caching : Caching) : ∀ present readable writable executable global : Bool,
    flagEntry 1 present readable writable executable false global caching &&& addressMask = 0 ∧
    bitTest (flagEntry 1 present readable writable executable false global caching) pageSizeFlag = false ∧
    (createTableEntry (flagEntry 1 present readable writable executable false global caching) 1).toOption =
      some ⟨0, 0, present, readable, writable, executable, false, false, if caching = .wp then .wb else caching⟩ := by
  cases caching <;> decide

lemma dir_flags (caching : Caching) : ∀ present readable writable executable mapsPage global : Bool,
    (mapsPage = true → caching ≠ .wp) → ∀ level ∈ [2, 3],
    flagEntry level present readable writable executable mapsPage global caching &&& addressMask = 0 ∧
    bitTest (flagEntry level present readable writable executable mapsPage global caching) pageSizeFlag = mapsPage ∧
    (createTableEntry (flagEntry level present readable writable executable mapsPage global caching) level).toOption =
      some ⟨0, 0, present, readable, writable, executable, mapsPage, global && mapsPage,
        if mapsPage = false ∧ caching = .wp then .wb else caching⟩ := by
  cases caching <;> decide

/-- A large page with memory type WP that is absent. -/
lemma absent_wp_flags : ∀ readable writable executable global : Bool, ∀ level ∈ [2, 3],
    let raw := flagEntry level false readable writable executable true global .wp
    bitTest raw presentFlag = false ∧ bitTest raw pcdFlag = false ∧ bitTest raw pwtFlag = false := by
  decide

lemma createTableEntry_of_bits {rawEntry : Unsigned64} (level : Nat) (hpcd : bitTest rawEntry pcdFlag = false)
    (hpwt : bitTest rawEntry pwtFlag = false) :
    ∃ e, createTableEntry rawEntry level = .ok e ∧ e.present = bitTest rawEntry presentFlag := by
  unfold createTableEntry
  simp only [hpcd, hpwt]
  cases bitTest rawEntry (if level < 4 then pdPatFlag else ptePatFlag) &&
      (bitTest rawEntry pageSizeFlag || decide (level = 4)) with
  | false => exact ⟨_, rfl, rfl⟩
  | true => exact ⟨_, rfl, rfl⟩

lemma pt_flags (caching : Caching) : ∀ present readable writable executable global : Bool,
    flagEntry 4 present readable writable executable true global caching &&& addressMask = 0 ∧
    (createTableEntry (flagEntry 4 present readable writable executable true global caching) 4).toOption =
      some ⟨0, 0, present, readable, writable, executable, true, global, caching⟩ := by
  cases caching <;> decide

end Ia32e

/-- What is read of an entry that is written, and where its address and its attributes are in the raw entry. -/
structure ReadBack (f : Format) (level : Nat) (e : TableEntry) : Prop where
  read : ∃ n, f.createTableEntry (f.raw level e) level = .ok { f.stored e with dstTableIndex := n }
  address : f.raw level e &&& Ept.addressMask = e.dstAddress
  attributes : ∀ a, f.raw level { e with dstAddress := a } &&& ~~~Ept.addressMask =
    f.raw level e &&& ~~~Ept.addressMask

lemma and_not_mask (a c : Unsigned64) :
    (a &&& Ept.addressMask ||| c) &&& ~~~Ept.addressMask = c &&& ~~~Ept.addressMask := by
  rw [BitVec.and_or_distrib_right, BitVec.and_assoc, BitVec.and_not_self]
  simp

lemma ept_readBack (h1 : 1 ≤ level) (h4 : level ≤ 4) (h : ProperAt level e) (hpresent : e.present = true) :
    ReadBack .ept level e := by
  have hflags : Format.ept.raw level { e with dstAddress := 0 } &&& Ept.addressMask = 0 ∧
      Ept.createTableEntry (Format.ept.raw level { e with dstAddress := 0 }) level =
        .ok { Format.ept.stored { e with dstAddress := 0 } with dstTableIndex := 0 } := by
    have hcases : level = 1 ∨ level = 4 ∨ level = 2 ∨ level = 3 := by omega
    rcases hcases with rfl | rfl | hdir
    · have hflags := Ept.pml4_flags e.readable e.writable e.executable
      simp only [Format.raw, if_true, Ept.rawPml4, hpresent]
      refine ⟨hflags.1, (ok_of_toOption hflags.2).trans ?_⟩
      simp [Format.stored, h.first rfl]
    · have hflags := Ept.pt_flags e.caching e.readable e.writable e.executable
      simp only [Format.raw, Nat.reduceEqDiff, if_false, if_true, Ept.rawPt, hpresent, h.last rfl]
      refine ⟨hflags.1, (ok_of_toOption hflags.2).trans ?_⟩
      simp [Format.stored]
    · have hflags := Ept.dir_flags e.caching e.readable e.writable e.executable e.mapsPage
      have hne1 : level ≠ 1 := by omega
      have hne4 : level ≠ 4 := by omega
      simp only [Format.raw, if_neg hne1, if_neg hne4, Ept.rawDir, hpresent]
      exact ⟨hflags.1, ok_of_toOption (hflags.2 level (by simp [hdir]))⟩
  obtain ⟨hmask, hread⟩ := hflags
  refine ⟨?_, ?_, fun a => ?_⟩
  · rw [Ept.raw_or hpresent]
    refine ⟨if e.mapsPage then 0 else (getIndex e.dstAddress level).val,
      (Ept.createTableEntry_or hmask level).trans ?_⟩
    rw [hread, h.masked]
    rfl
  · rw [Ept.raw_or hpresent, Ept.decode_address hmask, h.masked]
  · rw [Ept.raw_or (e := { e with dstAddress := a }) hpresent, Ept.raw_or hpresent, and_not_mask, and_not_mask]

lemma ia32e_readBack (h1 : 1 ≤ level) (h4 : level ≤ 4) (h : ProperAt level e) (hwp : ¬LargeWp .ia32e level e) :
    ReadBack .ia32e level e := by
  have hflags : Format.ia32e.raw level { e with dstAddress := 0 } &&& Ia32e.addressMask = 0 ∧
      (level < 4 → bitTest (Format.ia32e.raw level { e with dstAddress := 0 }) Ia32e.pageSizeFlag = true →
        e.mapsPage = true) ∧
      Ia32e.createTableEntry (Format.ia32e.raw level { e with dstAddress := 0 }) level =
        .ok { Format.ia32e.stored { e with dstAddress := 0 } with dstTableIndex := 0 } := by
    have hraw : Format.ia32e.raw level { e with dstAddress := 0 } = Ia32e.flagEntry level e.present e.readable
        e.writable e.executable e.mapsPage e.global e.caching := by
      simp only [Ia32e.flagEntry, Format.raw]
      split_ifs <;> rfl
    rw [hraw]
    have hcases : level = 1 ∨ level = 4 ∨ level = 2 ∨ level = 3 := by omega
    rcases hcases with rfl | rfl | hdir
    · have hflags := Ia32e.pml4_flags e.caching e.present e.readable e.writable e.executable e.global
      rw [h.first rfl]
      refine ⟨hflags.1, fun _ hpage => absurd (hflags.2.1.symm.trans hpage) (by decide), ?_⟩
      refine (ok_of_toOption hflags.2.2).trans ?_
      simp [Format.stored]
    · have hflags := Ia32e.pt_flags e.caching e.present e.readable e.writable e.executable e.global
      rw [h.last rfl]
      refine ⟨hflags.1, fun hlt => absurd hlt (by decide), (ok_of_toOption hflags.2).trans ?_⟩
      simp [Format.stored]
    · have hne : e.mapsPage = true → e.caching ≠ .wp := fun hpage hc => hwp ⟨rfl, by omega, hpage, hc⟩
      have hflags := Ia32e.dir_flags e.caching e.present e.readable e.writable e.executable e.mapsPage e.global hne
        level (by simp [hdir])
      exact ⟨hflags.1, fun _ hpage => hflags.2.1.symm.trans hpage, ok_of_toOption hflags.2.2⟩
  obtain ⟨hmask, hpage, hread⟩ := hflags
  have hpat : level < 4 → bitTest (Format.ia32e.raw level { e with dstAddress := 0 }) Ia32e.pageSizeFlag = true →
      e.dstAddress.getLsbD 12 = false :=
    fun hlt hsize => h.pat_clear (by omega) (hpage hlt hsize) h4 h1
  refine ⟨?_, ?_, fun a => ?_⟩
  · rw [Ia32e.raw_or]
    refine ⟨if e.mapsPage then 0 else (getIndex e.dstAddress level).val,
      (Ia32e.createTableEntry_or hmask level hpat).trans ?_⟩
    have hmasked : e.dstAddress &&& Ia32e.addressMask = e.dstAddress := h.masked
    rw [hread, hmasked]
    rfl
  · rw [Ia32e.raw_or]
    exact (Ia32e.decode_address hmask).trans h.masked
  · rw [Ia32e.raw_or { e with dstAddress := a }, Ia32e.raw_or e]
    exact (and_not_mask _ _).trans (and_not_mask _ _).symm

lemma ept_read_absent (h1 : 1 ≤ level) (h4 : level ≤ 4) (habsent : e.present = false) :
    ∃ e', Ept.createTableEntry (Format.ept.raw level e) level = .ok e' ∧ e'.present = false := by
  have hentry : ∀ a readable writable executable, Ept.createEntry a false readable writable executable = 0 :=
    fun _ _ _ _ => rfl
  have hflags := Ept.absent_flags e.caching e.mapsPage level (by interval_cases level <;> simp)
  have hok : ∀ rawEntry, (Ept.createTableEntry rawEntry level).toOption.map (·.present) = some false →
      ∃ e', Ept.createTableEntry rawEntry level = .ok e' ∧ e'.present = false := by
    intro rawEntry h
    obtain ⟨e', he', hpresent⟩ := Option.map_eq_some_iff.mp h
    exact ⟨e', ok_of_toOption he', hpresent⟩
  simp only [Format.raw]
  split_ifs
  · simp only [Ept.rawPml4, habsent, hentry]
    exact hok _ hflags.1
  · simp only [Ept.rawPt, habsent]
    exact hok _ hflags.2.1
  · simp only [Ept.rawDir, habsent]
    exact hok _ hflags.2.2

lemma ia32e_read_absent_wp (h1 : 1 ≤ level) (h4 : level ≤ 4) (h : ProperAt level e)
    (hwp : LargeWp .ia32e level e) (habsent : e.present = false) :
    ∃ e', Ia32e.createTableEntry (Format.ia32e.raw level e) level = .ok e' ∧ e'.present = false := by
  obtain ⟨-, hlast, hpage, hcaching⟩ := hwp
  have hfirst : level ≠ 1 := by
    intro h1
    rw [h.first h1] at hpage
    cases hpage
  have hraw : Format.ia32e.raw level { e with dstAddress := 0 } =
      Ia32e.flagEntry level false e.readable e.writable e.executable true e.global .wp := by
    simp only [Ia32e.flagEntry, Format.raw, if_neg hfirst, if_neg hlast, Ia32e.rawDir, habsent, hpage, hcaching]
  have hflags := Ia32e.absent_wp_flags e.readable e.writable e.executable e.global level
    (by interval_cases level <;> simp_all)
  rw [Ia32e.raw_or, hraw]
  have hbit : ∀ pos, pos < 64 → Ia32e.addressMask.getLsbD pos = false →
      bitTest (e.dstAddress &&& Ia32e.addressMask |||
        Ia32e.flagEntry level false e.readable e.writable e.executable true e.global .wp) pos =
      bitTest (Ia32e.flagEntry level false e.readable e.writable e.executable true e.global .wp) pos :=
    fun pos hpos hmask => Ia32e.decode_bit _ _ pos hpos hmask
  obtain ⟨e', hread, hpresent⟩ := Ia32e.createTableEntry_of_bits level
    ((hbit Ia32e.pcdFlag (by decide) (by decide)).trans hflags.2.1)
    ((hbit Ia32e.pwtFlag (by decide) (by decide)).trans hflags.2.2)
  rw [hbit Ia32e.presentFlag (by decide) (by decide), hflags.1] at hpresent
  exact ⟨e', hread, hpresent⟩

/-- An entry that is not present is read as one that is not present. -/
lemma read_absent (h1 : 1 ≤ level) (h4 : level ≤ 4) (h : ProperAt level e) (habsent : e.present = false) :
    ∃ e', f.createTableEntry (f.raw level e) level = .ok e' ∧ e'.present = false := by
  cases f with
  | ept => exact ept_read_absent h1 h4 habsent
  | ia32e =>
    by_cases hwp : LargeWp .ia32e level e
    · exact ia32e_read_absent_wp h1 h4 h hwp habsent
    · obtain ⟨n, hread⟩ := (ia32e_readBack h1 h4 h hwp).read
      exact ⟨_, hread, habsent⟩

end Entries

/-- The entry that is read at the place of an entry of a table in binary form. -/
def Format.entryAt (f : Format) (level : Nat) (table : PageTable) (i : EntryRange) : Except WalkError TableEntry :=
  f.deserializeEntry level ((f.serialize level table).drop (8 * i.val))

lemma entryAt_eq (f : Format) (level : Nat) {table : PageTable} (hcounted : table.Counted) (i : EntryRange) :
    f.entryAt level table i = f.createTableEntry
      (if table.data i ≠ nullTableEntry then f.raw level (table.data i) else 0) level := by
  have hword := Ept.readUnsigned64_eq (Ept.take_drop_serializeTable (f.raw level) table i)
  rw [Ept.rawTable_eq hcounted] at hword
  unfold Format.entryAt
  cases f with
  | ept =>
    simp only [Format.deserializeEntry, Ept.deserializeEntry, Format.serialize, hword]
    rfl
  | ia32e =>
    simp only [Format.deserializeEntry, Ia32e.deserializeEntry, Format.serialize, hword]
    rfl

/-- The entries of a table that is written and read at the same level. -/
theorem entry_read_back (f : Format) (level : Nat) (table : PageTable) (h1 : 1 ≤ level) (h4 : level ≤ 4)
    (hcounted : table.Counted) (i : EntryRange)
    (h : table.data i ≠ nullTableEntry → ProperAt level (table.data i)) :
    ((f = .ia32e ∨ (table.data i).present = true) → table.data i ≠ nullTableEntry →
      ¬LargeWp f level (table.data i) →
      ReadBack f level (table.data i) ∧
        ∃ n, f.entryAt level table i = .ok { f.stored (table.data i) with dstTableIndex := n }) ∧
    ((table.data i).present = false → ∃ e', f.entryAt level table i = .ok e' ∧ e'.present = false) := by
  rw [entryAt_eq f level hcounted]
  constructor
  · intro hkept hne hwp
    have hback : ReadBack f level (table.data i) := by
      cases f with
      | ept => exact ept_readBack h1 h4 (h hne) (hkept.resolve_left (by decide))
      | ia32e => exact ia32e_readBack h1 h4 (h hne) hwp
    rw [if_pos hne]
    exact ⟨hback, hback.read⟩
  · intro habsent
    by_cases hne : table.data i ≠ nullTableEntry
    · rw [if_pos hne]
      exact read_absent h1 h4 (h hne) habsent
    · rw [if_neg hne]
      cases f <;> interval_cases level <;> exact ⟨_, rfl, rfl⟩

/-- A write-through page of two megabytes in an IA-32e page directory. -/
theorem entry_read_back_large :
    let e : TableEntry := ⟨0, 0x40200000, true, true, false, true, true, true, .wt⟩
    let table : PageTable := ⟨1, 0, Function.update (fun _ => nullTableEntry) 3 e⟩
    ∃ n, Format.ia32e.entryAt 3 table 3 = .ok { e with dstTableIndex := n } :=
  ((entry_read_back .ia32e 3
    ⟨1, 0, Function.update (fun _ => nullTableEntry) 3 ⟨0, 0x40200000, true, true, false, true, true, true, .wt⟩⟩
    (by decide) (by decide) (by unfold PageTable.Counted; decide +kernel) 3
    (fun _ => ⟨by decide, by decide, by decide, by decide⟩)).1 (Or.inl rfl) (by decide)
    (fun h => absurd h.2.2.2 (by decide))).2

/-- A reference to a page table is read without its memory type from an EPT page directory, and the address of a
large page with memory type WP is read with the bit of the memory type. -/
theorem entry_not_read_back :
    let ref : TableEntry := ⟨0, 0x1000, true, true, true, true, false, false, .wb⟩
    let page : TableEntry := ⟨0, 0x200000, true, true, true, true, true, false, .wp⟩
    let tableOf : TableEntry → PageTable := fun e => ⟨1, 0, Function.update (fun _ => nullTableEntry) 0 e⟩
    ProperAt 3 ref ∧ ProperAt 3 page ∧
      (Format.ept.entryAt 3 (tableOf ref) 0).map (·.caching) = .ok .uc ∧
      (Format.ia32e.entryAt 3 (tableOf page) 0).map (·.dstAddress) = .ok 0x201000 := by
  refine ⟨⟨by decide, by decide, by decide, by decide⟩, ⟨by decide, by decide, by decide, by decide⟩, ?_, ?_⟩
  · rw [entryAt_eq .ept 3 (by unfold PageTable.Counted; decide +kernel)]
    rfl
  · rw [entryAt_eq .ia32e 3 (by unfold PageTable.Counted; decide +kernel)]
    rfl

end Muen.Tools.Paging
