import Muen.Tools.Paging.Ept

/-!
# Paging.IA32e

The binary form of IA-32e paging structures. The memory type of an entry is spread over three bits, one of which
has its place in entries that map pages only, and there at another position on the last level.
-/

namespace Muen.Tools.Paging.Ia32e
open Muen.Lib

def presentFlag : Nat := 0
def rwFlag : Nat := 1
def usFlag : Nat := 2
def pwtFlag : Nat := 3
def pcdFlag : Nat := 4
def pageSizeFlag : Nat := 7
def ptePatFlag : Nat := 7
def globalFlag : Nat := 8
def activeFlag : Nat := 11
def pdPatFlag : Nat := 12
def nxeFlag : Nat := 63

structure PatEntry where
  pat : Bool
  pcd : Bool
  pwt : Bool

def patMapping : Caching → PatEntry
  | .wb => ⟨false, false, false⟩
  | .wt => ⟨false, false, true⟩
  | .wc => ⟨false, true, false⟩
  | .uc => ⟨false, true, true⟩
  | .wp => ⟨true, false, false⟩

def addressMask : Unsigned64 := 0x0000fffffffff000

def cacheMapping (ia32eMemType : Nat) : Except WalkError Caching :=
  match ia32eMemType with
  | 0 => .ok .wb
  | 1 => .ok .wt
  | 2 => .ok .wc
  | 3 => .ok .uc
  | 4 => .ok .wp
  | n => .error (.constraintError ("Invalid IA32-e memory type: " ++ toString n))

def createEntry (address : Unsigned64) (writable userAccess present writethrough cacheDisable execDisable : Bool) :
    Unsigned64 :=
  let result := address &&& addressMask
  let result := if present then bitSet (bitSet result presentFlag) activeFlag else result
  let result := if writable then bitSet result rwFlag else result
  let result := if userAccess then bitSet result usFlag else result
  let result := if writethrough then bitSet result pwtFlag else result
  let result := if cacheDisable then bitSet result pcdFlag else result
  if execDisable then bitSet result nxeFlag else result

def createDirEntry (address : Unsigned64) (writable userAccess present mapPage global : Bool) (caching : Caching)
    (execDisable : Bool) : Unsigned64 :=
  let pat := patMapping caching
  let result := createEntry address writable userAccess present pat.pwt pat.pcd execDisable
  if mapPage then
    let result := bitSet result pageSizeFlag
    let result := if pat.pat then bitSet result pdPatFlag else result
    if global then bitSet result globalFlag else result
  else result

/-- The table entry of a raw entry that is read at the given level. -/
def createTableEntry (rawEntry : Unsigned64) (level : Nat) : Except WalkError TableEntry := do
  let dstAddr := rawEntry &&& addressMask
  let mapsPage := bitTest rawEntry pageSizeFlag || level = 4
  let patBit := bitTest rawEntry (if level < 4 then pdPatFlag else ptePatFlag)
  let pcdBit := bitTest rawEntry pcdFlag
  let pwtBit := bitTest rawEntry pwtFlag
  let patIndex := (if patBit && mapsPage then 4 else 0) + (if pcdBit then 2 else 0) + (if pwtBit then 1 else 0)
  let caching ← cacheMapping patIndex
  .ok {
    dstTableIndex := if mapsPage then 0 else (getIndex dstAddr level).val
    dstAddress := dstAddr
    present := bitTest rawEntry presentFlag
    readable := bitTest rawEntry usFlag
    writable := bitTest rawEntry rwFlag
    executable := !bitTest rawEntry nxeFlag
    mapsPage := mapsPage
    global := bitTest rawEntry globalFlag
    caching := caching }

def deserializeEntry (level : Nat) (stream : List Byte) : Except WalkError TableEntry := do
  let rawEntry ← Ept.readUnsigned64 stream
  createTableEntry rawEntry level

def deserializePml4Entry (stream : List Byte) : Except WalkError TableEntry := deserializeEntry 1 stream

def deserializePdptEntry (stream : List Byte) : Except WalkError TableEntry := deserializeEntry 2 stream

def deserializePdEntry (stream : List Byte) : Except WalkError TableEntry := deserializeEntry 3 stream

def deserializePtEntry (stream : List Byte) : Except WalkError TableEntry := deserializeEntry 4 stream

def rawPml4 (e : TableEntry) : Unsigned64 :=
  let pat := patMapping e.caching
  createEntry e.dstAddress e.writable e.readable e.present pat.pwt pat.pcd (!e.executable)

def rawDir (e : TableEntry) : Unsigned64 :=
  createDirEntry e.dstAddress e.writable e.readable e.present e.mapsPage e.global e.caching (!e.executable)

def rawPt (e : TableEntry) : Unsigned64 :=
  let pat := patMapping e.caching
  let result := createEntry e.dstAddress e.writable e.readable e.present pat.pwt pat.pcd (!e.executable)
  let result := if pat.pat then bitSet result ptePatFlag else result
  if e.global then bitSet result globalFlag else result

def serializePml4 (table : PageTable) : List Byte := Ept.serializeTable rawPml4 table

def serializePdpt (table : PageTable) : List Byte := Ept.serializeTable rawDir table

def serializePd (table : PageTable) : List Byte := Ept.serializeTable rawDir table

def serializePt (table : PageTable) : List Byte := Ept.serializeTable rawPt table

/-! ### Addresses and flags -/

lemma createEntry_or (a : Unsigned64) (writable userAccess present writethrough cacheDisable execDisable : Bool) :
    createEntry a writable userAccess present writethrough cacheDisable execDisable =
      a &&& addressMask ||| createEntry 0 writable userAccess present writethrough cacheDisable execDisable := by
  unfold createEntry
  cases present <;> cases writable <;> cases userAccess <;> cases writethrough <;> cases cacheDisable <;>
    cases execDisable <;> simp [bitSet, BitVec.or_assoc]

lemma createDirEntry_or (a : Unsigned64) (writable userAccess present mapPage global : Bool) (caching : Caching)
    (execDisable : Bool) : createDirEntry a writable userAccess present mapPage global caching execDisable =
      a &&& addressMask ||| createDirEntry 0 writable userAccess present mapPage global caching execDisable := by
  unfold createDirEntry
  simp only
  rw [createEntry_or]
  cases mapPage <;> cases global <;> cases (patMapping caching).pat <;> simp [bitSet, BitVec.or_assoc]

lemma decode_address {a c : Unsigned64} (hc : c &&& addressMask = 0) :
    (a &&& addressMask ||| c) &&& addressMask = a &&& addressMask := Ept.decode_address hc

lemma decode_bit (a c : Unsigned64) (pos : Nat) (hpos : pos < 64) (hmask : addressMask.getLsbD pos = false) :
    bitTest (a &&& addressMask ||| c) pos = bitTest c pos := Ept.decode_bit hpos hmask

/-- The bit for the memory type of large pages is clear in an aligned address. -/
lemma decode_patBit {a c : Unsigned64} (ha : a.getLsbD 12 = false) :
    bitTest (a &&& addressMask ||| c) pdPatFlag = bitTest c pdPatFlag := by
  rw [bitTest_eq _ (by decide), bitTest_eq _ (by decide), BitVec.getLsbD_or, BitVec.getLsbD_and]
  have hbit : a.getLsbD pdPatFlag = false := ha
  rw [hbit, Bool.false_and, Bool.false_or]

/-- What is read from an address and flags depends on the flags but for the address. -/
lemma createTableEntry_or {a c : Unsigned64} (hc : c &&& addressMask = 0) (level : Nat)
    (hpat : level < 4 → bitTest c pageSizeFlag = true → a.getLsbD 12 = false) :
    createTableEntry (a &&& addressMask ||| c) level = (createTableEntry c level).map (fun e =>
      { e with
        dstAddress := a &&& addressMask
        dstTableIndex := if e.mapsPage then 0 else (getIndex (a &&& addressMask) level).val }) := by
  have hsize : bitTest (a &&& addressMask ||| c) pageSizeFlag = bitTest c pageSizeFlag :=
    decode_bit a c _ (by decide) (by decide)
  have hmem : (bitTest (a &&& addressMask ||| c) (if level < 4 then pdPatFlag else ptePatFlag) &&
      (bitTest c pageSizeFlag || decide (level = 4))) =
      (bitTest c (if level < 4 then pdPatFlag else ptePatFlag) && (bitTest c pageSizeFlag || decide (level = 4))) := by
    by_cases hlevel : level < 4
    · rw [if_pos hlevel, decide_eq_false (by omega), Bool.or_false]
      cases hpage : bitTest c pageSizeFlag with
      | false => rw [Bool.and_false, Bool.and_false]
      | true => rw [decode_patBit (hpat hlevel hpage)]
    · rw [if_neg hlevel, decode_bit a c _ (by decide) (by decide)]
  unfold createTableEntry
  rw [hsize, decode_address hc]
  simp only
  rw [hmem, decode_bit a c pcdFlag (by decide) (by decide),
    decode_bit a c pwtFlag (by decide) (by decide),
    decode_bit a c presentFlag (by decide) (by decide),
    decode_bit a c usFlag (by decide) (by decide),
    decode_bit a c rwFlag (by decide) (by decide),
    decode_bit a c nxeFlag (by decide) (by decide),
    decode_bit a c globalFlag (by decide) (by decide)]
  cases cacheMapping _ with
  | error e => rfl
  | ok caching => rfl

end Muen.Tools.Paging.Ia32e
