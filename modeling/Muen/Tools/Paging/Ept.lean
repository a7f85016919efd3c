import Muen.Lib.Bytes
import Muen.Tools.Paging.Layouts

/-!
# Paging.EPT

The binary form of EPT paging structures. An entry that is read back at the level it was written
for has the address and the attributes it was written with.
-/

namespace Muen.Tools.Paging
open Muen.Lib

inductive WalkError where
  | constraintError (message : String)
  | endError
deriving DecidableEq, Repr

namespace Ept

def readFlag : Nat := 0
def writeFlag : Nat := 1
def executeFlag : Nat := 2
def ignorePatFlag : Nat := 6
def presentFlag : Nat := 7
def activeFlag : Nat := 52

def eptMtMapping : Caching → Unsigned64
  | .uc => 0x00
  | .wc => 0x08
  | .wt => 0x20
  | .wp => 0x28
  | .wb => 0x30

def addressMask : Unsigned64 := 0x0000fffffffff000

def eptMtMask : Unsigned64 := 0x0000000000000038

def cacheMapping (eptMemoryType : Nat) : Except WalkError Caching :=
  match eptMemoryType with
  | 0 => .ok .uc
  | 1 => .ok .wc
  | 4 => .ok .wt
  | 5 => .ok .wp
  | 6 => .ok .wb
  | n => .error (.constraintError ("Invalid EPT memory type: " ++ toString n))

def createEntry (address : Unsigned64) (present readable writable executable : Bool) : Unsigned64 :=
  if present then
    let result := address &&& addressMask
    let result := if readable then bitSet result readFlag else result
    let result := if writable then bitSet result writeFlag else result
    let result := if executable then bitSet result executeFlag else result
    bitSet result activeFlag
  else 0

def createMapEntry (address : Unsigned64) (present readable writable executable mapPage ignorePat : Bool)
    (memoryType : Caching) : Unsigned64 :=
  let result := createEntry address present readable writable executable
  if mapPage then
    let result := if ignorePat then bitSet result ignorePatFlag else result
    result ||| eptMtMapping memoryType
  else result

def createDirEntry (address : Unsigned64) (present readable writable executable mapPage ignorePat : Bool)
    (memoryType : Caching) : Unsigned64 :=
  let result := createMapEntry address present readable writable executable mapPage ignorePat memoryType
  if mapPage then bitSet result presentFlag else result

end Ept

/-! ### Indexes and offsets of addresses -/

def pml4IndexMask : Unsigned64 := 0x0000ff8000000000
def pdptIndexMask : Unsigned64 := 0x0000007fc0000000
def pdIndexMask : Unsigned64 := 0x000000003fe00000
def ptIndexMask : Unsigned64 := 0x00000000001ff000

def levelMask : Nat → Unsigned64
  | 1 => pml4IndexMask
  | 2 => pdptIndexMask
  | 3 => pdIndexMask
  | _ => ptIndexMask

def levelShift : Nat → Nat
  | 1 => 39
  | 2 => 30
  | 3 => 21
  | _ => 12

lemma levelMask_toNat (level : Nat) : (levelMask level).toNat = (2 ^ 9 - 1) <<< levelShift level := by
  unfold levelMask levelShift
  split <;> decide

lemma index_eq (address : Unsigned64) (level : Nat) :
    ((address &&& levelMask level) >>> levelShift level).toNat = address.toNat / 2 ^ levelShift level % 512 := by
  rw [BitVec.toNat_ushiftRight, bitVec_and_mask_toNat _ _ 9 _ (levelMask_toNat level), Nat.shiftRight_eq_div_pow,
    Nat.mul_div_cancel _ (Nat.two_pow_pos _)]
  rfl

def getIndex (address : Unsigned64) (level : Nat) : EntryRange :=
  ⟨((address &&& levelMask level) >>> levelShift level).toNat, by
    rw [index_eq]
    exact Nat.mod_lt _ (by decide)⟩

def offsetMap : Nat → Unsigned64
  | 2 => 2 ^ 30 - 1
  | 3 => 2 ^ 21 - 1
  | _ => 2 ^ 12 - 1

def getOffset (address : Unsigned64) (level : Nat) : Unsigned64 := address &&& offsetMap level

namespace Ept

/-- The table entry of a raw entry that is read at the given level. -/
def createTableEntry (rawEntry : Unsigned64) (level : Nat) : Except WalkError TableEntry := do
  let dstAddr := rawEntry &&& addressMask
  let readable := bitTest rawEntry readFlag
  let writable := bitTest rawEntry writeFlag
  let executable := bitTest rawEntry executeFlag
  let mapsPage := bitTest rawEntry presentFlag || level = 4
  let eptMt := ((rawEntry &&& eptMtMask) / 2 ^ 3).toNat
  let caching ← cacheMapping eptMt
  .ok {
    dstTableIndex := if mapsPage then 0 else (getIndex dstAddr level).val
    dstAddress := dstAddr
    present := readable || writable || executable
    readable := readable
    writable := writable
    executable := executable
    mapsPage := mapsPage
    global := false
    caching := caching }

/-- `Unsigned_64'Read` on the rest of a file. -/
def readUnsigned64 (stream : List Byte) : Except WalkError Unsigned64 :=
  let bytes := stream.take 8
  if bytes.length = 8 then .ok (BitVec.ofNat 64 (ofLeBytes bytes)) else .error .endError

def deserializeEntry (level : Nat) (stream : List Byte) : Except WalkError TableEntry := do
  let rawEntry ← readUnsigned64 stream
  createTableEntry rawEntry level

def deserializePml4Entry (stream : List Byte) : Except WalkError TableEntry := deserializeEntry 1 stream

def deserializePdptEntry (stream : List Byte) : Except WalkError TableEntry := deserializeEntry 2 stream

def deserializePdEntry (stream : List Byte) : Except WalkError TableEntry := deserializeEntry 3 stream

def deserializePtEntry (stream : List Byte) : Except WalkError TableEntry := deserializeEntry 4 stream

/-- The table as an array of raw entries, filled by an iteration over the entries. -/
def rawTable (raw : TableEntry → Unsigned64) (table : PageTable) : EntryRange → Unsigned64 :=
  table.iterate.foldl (fun rawTable p => Function.update rawTable p.1 (raw p.2)) (fun _ => 0)

/-- A table in the binary form that writing the array gives. -/
def serializeTable (raw : TableEntry → Unsigned64) (table : PageTable) : List Byte :=
  (List.finRange 512).flatMap (fun i => leBytes 8 (rawTable raw table i).toNat)

def rawPml4 (e : TableEntry) : Unsigned64 :=
  createEntry e.dstAddress e.present e.readable e.writable e.executable

def rawDir (e : TableEntry) : Unsigned64 :=
  createDirEntry e.dstAddress e.present e.readable e.writable e.executable e.mapsPage true e.caching

def rawPt (e : TableEntry) : Unsigned64 :=
  createMapEntry e.dstAddress e.present e.readable e.writable e.executable e.mapsPage true e.caching

def serializePml4 (table : PageTable) : List Byte := serializeTable rawPml4 table

def serializePdpt (table : PageTable) : List Byte := serializeTable rawDir table

def serializePd (table : PageTable) : List Byte := serializeTable rawDir table

def serializePt (table : PageTable) : List Byte := serializeTable rawPt table

/-! ### Reading entries back -/

lemma foldl_rawTable (raw : TableEntry → Unsigned64) (data : EntryRange → TableEntry) (is : List EntryRange)
    (i : EntryRange) : ∀ rawTable : EntryRange → Unsigned64,
    ((is.filter (fun i => data i ≠ nullTableEntry)).map (fun i => (i, data i))).foldl
        (fun rawTable p => Function.update rawTable p.1 (raw p.2)) rawTable i =
      if i ∈ is ∧ data i ≠ nullTableEntry then raw (data i) else rawTable i := by
  induction is with
  | nil =>
    intro rawTable
    simp
  | cons j is ih =>
    intro rawTable
    by_cases hj : data j = nullTableEntry
    · rw [List.filter_cons_of_neg (by simpa using hj), ih]
      by_cases hij : i = j
      · subst hij
        simp [hj]
      · simp [hij]
    · rw [List.filter_cons_of_pos (by simpa using hj), List.map_cons, List.foldl_cons, ih]
      by_cases hij : i = j
      · subst hij
        simp [hj]
      · simp [hij]

/-- The array holds the raw form of the present entries and zero elsewhere. -/
lemma rawTable_eq {table : PageTable} (h : table.Counted) (raw : TableEntry → Unsigned64) (i : EntryRange) :
    rawTable raw table i = if table.data i ≠ nullTableEntry then raw (table.data i) else 0 := by
  rw [rawTable, PageTable.iterate_eq h, PageTable.presentEntries, foldl_rawTable]
  simp

lemma serializeTable_length (raw : TableEntry → Unsigned64) (table : PageTable) :
    (serializeTable raw table).length = 4096 := by
  rw [serializeTable, length_flatMap_const _ 8 (fun _ => leBytes_length 8 _), List.length_finRange]

/-- The eight bytes at the place of an entry. -/
lemma take_drop_serializeTable (raw : TableEntry → Unsigned64) (table : PageTable) (i : EntryRange) :
    ((serializeTable raw table).drop (8 * i.val)).take 8 = leBytes 8 (rawTable raw table i).toNat := by
  have hi : (List.finRange 512)[i.val]? = some i := by
    rw [List.getElem?_eq_getElem (by simp), List.getElem_finRange]
    rfl
  exact take_drop_flatMap (fun i => leBytes 8 (rawTable raw table i).toNat) 8 (fun _ => leBytes_length 8 _) _ hi

lemma readUnsigned64_eq {stream : List Byte} {word : Unsigned64} (h : stream.take 8 = leBytes 8 word.toNat) :
    readUnsigned64 stream = .ok word := by
  rw [readUnsigned64, h, if_pos (leBytes_length 8 _), ofLeBytes_leBytes 8 _ word.isLt, BitVec.ofNat_toNat,
    BitVec.setWidth_eq]

section Decode

variable {a c : Unsigned64}

lemma decode_address (hc : c &&& addressMask = 0) :
    (a &&& addressMask ||| c) &&& addressMask = a &&& addressMask := by
  rw [BitVec.and_or_distrib_right, hc, BitVec.and_assoc, BitVec.and_self]
  exact BitVec.or_zero

lemma decode_bit {pos : Nat} (hpos : pos < 64) (hmask : addressMask.getLsbD pos = false) :
    bitTest (a &&& addressMask ||| c) pos = bitTest c pos := by
  rw [bitTest_eq _ hpos, bitTest_eq _ hpos, BitVec.getLsbD_or, BitVec.getLsbD_and, hmask, Bool.and_false,
    Bool.false_or]

lemma decode_memoryType : (a &&& addressMask ||| c) &&& eptMtMask = c &&& eptMtMask := by
  have hmask : addressMask &&& eptMtMask = 0 := by decide
  rw [BitVec.and_or_distrib_right, BitVec.and_assoc, hmask]
  simp

/-- What is read from an address and flags depends on the flags but for the address. -/
lemma createTableEntry_or (hc : c &&& addressMask = 0) (level : Nat) :
    createTableEntry (a &&& addressMask ||| c) level = (createTableEntry c level).map (fun e =>
      { e with
        dstAddress := a &&& addressMask
        dstTableIndex := if e.mapsPage then 0 else (getIndex (a &&& addressMask) level).val }) := by
  unfold createTableEntry
  rw [decode_address hc, decode_memoryType, decode_bit (by decide) (by decide), decode_bit (by decide) (by decide),
    decode_bit (by decide) (by decide), decode_bit (by decide) (by decide)]
  dsimp only
  cases cacheMapping ((c &&& eptMtMask) / 2 ^ 3).toNat with
  | error e => rfl
  | ok caching => rfl

lemma createEntry_or (a : Unsigned64) (readable writable executable : Bool) :
    createEntry a true readable writable executable =
      a &&& addressMask ||| createEntry 0 true readable writable executable := by
  cases readable <;> cases writable <;> cases executable <;>
    simp [createEntry, bitSet, BitVec.or_assoc]

lemma createMapEntry_or (a : Unsigned64) (writable executable mapPage : Bool) (memoryType : Caching) :
    createMapEntry a true true writable executable mapPage true memoryType =
      a &&& addressMask ||| createMapEntry 0 true true writable executable mapPage true memoryType := by
  unfold createMapEntry
  rw [createEntry_or]
  cases mapPage <;> simp [bitSet, BitVec.or_assoc]

lemma createDirEntry_or (a : Unsigned64) (writable executable mapPage : Bool) (memoryType : Caching) :
    createDirEntry a true true writable executable mapPage true memoryType =
      a &&& addressMask ||| createDirEntry 0 true true writable executable mapPage true memoryType := by
  unfold createDirEntry
  rw [createMapEntry_or]
  cases mapPage <;> simp [bitSet, BitVec.or_assoc]

lemma createMapEntry_flags (writable executable mapPage : Bool) (memoryType : Caching) :
    createMapEntry 0 true true writable executable mapPage true memoryType &&& addressMask = 0 := by
  cases writable <;> cases executable <;> cases mapPage <;> cases memoryType <;> decide

lemma createDirEntry_flags (writable executable mapPage : Bool) (memoryType : Caching) :
    createDirEntry 0 true true writable executable mapPage true memoryType &&& addressMask = 0 := by
  cases writable <;> cases executable <;> cases mapPage <;> cases memoryType <;> decide

/-- A mapping of the first page, read back. -/
lemma createTableEntry_dirFlags (writable executable : Bool) (memoryType : Caching) {level : Nat}
    (hlevel : level = 2 ∨ level = 3) :
    createTableEntry (createDirEntry 0 true true writable executable true true memoryType) level =
      .ok ⟨0, 0, true, true, writable, executable, true, false, memoryType⟩ := by
  rcases hlevel with rfl | rfl <;> cases writable <;> cases executable <;> cases memoryType <;> rfl

lemma createTableEntry_ptFlags (writable executable : Bool) (memoryType : Caching) :
    createTableEntry (createMapEntry 0 true true writable executable true true memoryType) 4 =
      .ok ⟨0, 0, true, true, writable, executable, true, false, memoryType⟩ := by
  cases writable <;> cases executable <;> cases memoryType <;> rfl

/-- A mapping that is read back at its level. -/
lemma createTableEntry_dirPage (r : MemoryRegion) {level : Nat} (hlevel : level = 2 ∨ level = 3) :
    createTableEntry (rawDir (r.pageEntry a)) level = .ok (r.pageEntry (a &&& addressMask)) := by
  simp only [rawDir, MemoryRegion.pageEntry]
  rw [createDirEntry_or, createTableEntry_or (createDirEntry_flags ..), createTableEntry_dirFlags _ _ _ hlevel]
  rfl

lemma createTableEntry_ptPage (r : MemoryRegion) :
    createTableEntry (rawPt (r.pageEntry a)) 4 = .ok (r.pageEntry (a &&& addressMask)) := by
  simp only [rawPt, MemoryRegion.pageEntry]
  rw [createMapEntry_or, createTableEntry_or (createMapEntry_flags ..), createTableEntry_ptFlags]
  rfl

/-- What is read of a reference to a table at the given address. -/
def readRef (address : Unsigned64) (level : Nat) : TableEntry :=
  ⟨(getIndex address level).val, address, true, true, true, true, false, false, .uc⟩

lemma createTableEntry_dirRef (n : Nat) {level : Nat} (hlevel : level = 2 ∨ level = 3) :
    createTableEntry (rawDir { refEntry n with dstAddress := a }) level = .ok (readRef (a &&& addressMask) level) := by
  have hflags : createTableEntry (createDirEntry 0 true true true true false true .wb) level = .ok (readRef 0 level) := by
    rcases hlevel with rfl | rfl <;> rfl
  simp only [rawDir, refEntry]
  rw [createDirEntry_or, createTableEntry_or (createDirEntry_flags ..), hflags]
  rfl

lemma createTableEntry_pml4Ref (n : Nat) :
    createTableEntry (rawPml4 { refEntry n with dstAddress := a }) 1 = .ok (readRef (a &&& addressMask) 1) := by
  have hflags : createTableEntry (createEntry 0 true true true true) 1 = .ok (readRef 0 1) := rfl
  simp only [rawPml4, refEntry]
  rw [createEntry_or, createTableEntry_or (by decide), hflags]
  rfl

/-- Nothing is read where nothing was written. -/
lemma createTableEntry_zero (level : Nat) (h1 : 1 ≤ level) (h4 : level ≤ 4) :
    ∃ e, createTableEntry 0 level = .ok e ∧ e.present = false := by
  interval_cases level <;> exact ⟨_, rfl, rfl⟩

end Decode

end Ept

end Muen.Tools.Paging
