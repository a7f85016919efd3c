import Muen.Lib.Literals
import Muen.Lib.Bytes
import Mathlib.Data.BitVec
import Mathlib.Logic.Function.Basic

/-!
# PCI config spaces

`Dev_Mngr.Pciconf.Addrspace`: the config spaces of all devices, read and written by the byte. What a register
makes of a byte that is written to it is up to the device.
-/

namespace Muen.Components.Dm

open Lib (Byte leBytes ofLeBytes)

abbrev Word16 := BitVec 16
abbrev Word32 := BitVec 32

/-- `Musinfo.SID_Type`. -/
abbrev SID := BitVec 16

/-- `Mudm.Offset_Type`. -/
abbrev Offset := BitVec 8

/-- `Device_Space_Type`. -/
abbrev DeviceSpace := ℕ → Byte

namespace DeviceSpace

variable (respond : ℕ → Byte → Byte → Byte) (space : DeviceSpace)

/-- `Read` for an element of the given number of bytes. -/
def read (offset size : ℕ) : ℕ := ofLeBytes ((List.range size).map (fun i => space (offset + i)))

def readByte (offset : Offset) : Byte := BitVec.ofNat 8 (space.read offset.toNat 1)
def readWord16 (offset : Offset) : Word16 := BitVec.ofNat 16 (space.read offset.toNat 2)
def readWord32 (offset : Offset) : Word32 := BitVec.ofNat 32 (space.read offset.toNat 4)

/-- `Write` of the bytes of an element. -/
def write : DeviceSpace → ℕ → List Byte → DeviceSpace
  | space, _, [] => space
  | space, offset, b :: bs => write (Function.update space offset (respond offset (space offset) b)) (offset + 1) bs

variable {respond space}

lemma write_of_lt {offset pos : ℕ} {bs : List Byte} (h : pos < offset) : write respond space offset bs pos = space pos := by
  induction bs generalizing space offset with
  | nil => rfl
  | cons b bs ih =>
    rw [write, ih (by omega), Function.update_of_ne (by omega)]

lemma write_of_ge {offset pos : ℕ} {bs : List Byte} (h : offset + bs.length ≤ pos) :
    write respond space offset bs pos = space pos := by
  induction bs generalizing space offset with
  | nil => rfl
  | cons b bs ih =>
    rw [List.length_cons] at h
    rw [write, ih (by omega), Function.update_of_ne (by omega)]

/-- A byte that is written. -/
lemma write_at {offset i : ℕ} {bs : List Byte} {b : Byte} (h : bs[i]? = some b) :
    write respond space offset bs (offset + i) = respond (offset + i) (space (offset + i)) b := by
  induction bs generalizing space offset i with
  | nil => simp at h
  | cons b' bs ih =>
    cases i with
    | zero =>
      obtain rfl : b' = b := by simpa using h
      simp only [Nat.add_zero]
      rw [write, write_of_lt (Nat.lt_succ_self offset), Function.update_self]
    | succ i =>
      rw [List.getElem?_cons_succ] at h
      rw [write, show offset + (i + 1) = offset + 1 + i by omega, ih h, Function.update_of_ne (by omega)]

/-- Two writes of one size, of which the second one brings back what the registers held. -/
lemma write_write {offset : ℕ} {bs : List Byte}
    (hrestore : ∀ i b, bs[i]? = some b →
      respond (offset + i) (respond (offset + i) (space (offset + i)) b) (space (offset + i)) = space (offset + i)) :
    write respond (write respond space offset bs) offset
      ((List.range bs.length).map (fun i => space (offset + i))) = space := by
  funext pos
  have hlength : ((List.range bs.length).map (fun i => space (offset + i))).length = bs.length := by simp
  by_cases hlt : pos < offset
  · rw [write_of_lt hlt, write_of_lt hlt]
  · by_cases hge : offset + bs.length ≤ pos
    · rw [write_of_ge (by rw [hlength]; exact hge), write_of_ge hge]
    · obtain ⟨i, rfl⟩ : ∃ i, pos = offset + i := ⟨pos - offset, by omega⟩
      have hi : i < bs.length := by omega
      have hb : bs[i]? = some bs[i] := List.getElem?_eq_getElem hi
      have hold : ((List.range bs.length).map (fun i => space (offset + i)))[i]? = some (space (offset + i)) := by
        simp [hi]
      rw [write_at hold, write_at hb]
      exact hrestore i _ hb

end DeviceSpace

/-- The registers of the devices: what a register holds after a write, by what it held and what was written. A BAR
takes back what was read from it, and a bit of the command register that is written as zero is zero. -/
structure Hardware where
  respond : SID → ℕ → Byte → Byte → Byte
  bar_restores : ∀ sid offset old value, 0x10 ≤ offset → offset < 0x28 →
    respond sid offset (respond sid offset old value) old = old
  command_clears : ∀ sid offset old value, 4 ≤ offset → offset < 6 → respond sid offset old value &&& ~~~value = 0

/-- A write to physical config space. -/
structure ConfigWrite where
  sid : SID
  offset : Offset
  bytes : List Byte
  deriving DecidableEq

/-- `Addrspace.Memory` with the record of the writes to it. -/
structure Memory where
  space : SID → DeviceSpace
  writes : List ConfigWrite

namespace Memory

def write (hw : Hardware) (m : Memory) (sid : SID) (offset : Offset) (bytes : List Byte) : Memory :=
  ⟨Function.update m.space sid (DeviceSpace.write (hw.respond sid) (m.space sid) offset.toNat bytes),
    m.writes ++ [⟨sid, offset, bytes⟩]⟩

def writeByte (hw : Hardware) (m : Memory) (sid : SID) (offset : Offset) (value : Byte) : Memory :=
  m.write hw sid offset (leBytes 1 value.toNat)

def writeWord16 (hw : Hardware) (m : Memory) (sid : SID) (offset : Offset) (value : Word16) : Memory :=
  m.write hw sid offset (leBytes 2 value.toNat)

def writeWord32 (hw : Hardware) (m : Memory) (sid : SID) (offset : Offset) (value : Word32) : Memory :=
  m.write hw sid offset (leBytes 4 value.toNat)

variable {hw : Hardware} {m : Memory} {sid : SID} {offset : Offset} {bytes : List Byte}

lemma write_space_of_ne {sid' : SID} (h : sid' ≠ sid) : (m.write hw sid offset bytes).space sid' = m.space sid' :=
  Function.update_of_ne h _ _

lemma write_space_self :
    (m.write hw sid offset bytes).space sid =
      DeviceSpace.write (hw.respond sid) (m.space sid) offset.toNat bytes :=
  Function.update_self _ _ _

/-- Bytes outside a write keep what they hold. -/
lemma write_space_outside {sid' : SID} {pos : ℕ} (h : pos < offset.toNat ∨ offset.toNat + bytes.length ≤ pos) :
    (m.write hw sid offset bytes).space sid' pos = m.space sid' pos := by
  by_cases hsid : sid' = sid
  · subst hsid
    rw [write_space_self]
    rcases h with h | h
    · exact DeviceSpace.write_of_lt h
    · exact DeviceSpace.write_of_ge h
  · rw [write_space_of_ne hsid]

end Memory

end Muen.Components.Dm
