import Muen.Components.Muenblock

/-!
# AHCI devices

`Ahci.Device.RW_Sectors` down to the command that `Ata.RW_Sectors` gives to the device: its first sector,
its number of sectors and the physical regions that are built by `Cmd_Slot_Prepare`.
-/

namespace Muen.Components.Ahci

open Muenblock

/-- `Ahci.Status_Type`. -/
inductive Status
  | ok
  | enotsup
  | eio
  deriving DecidableEq

def Status.toUnsigned64 : Status → Unsigned64
  | .ok => 0
  | .enotsup => 1
  | .eio => 10

/-- `Ahci.Signature_Type`. -/
inductive Signature
  | empty
  | sata
  | atapi
  deriving DecidableEq

/-- `Ahci.RW_Type`. -/
inductive RW
  | read
  | write
  deriving DecidableEq

/-- `Ahci.Device_Type`; whether discard and SMART are supported is left to the device. -/
structure Device where
  signature : Signature
  support48Bit : Bool
  sectorSize : Unsigned32
  sectorSizeShift : ℕ
  numberOfSectors : Unsigned64

/-- An entry of the physical region descriptor table: `DBA` and `DBAU` as one address, and `DBC` plus
one. -/
structure Prd where
  address : Unsigned64
  bytes : ℕ

/-- A command for the device. -/
structure Command where
  rw : RW
  start : Unsigned64
  sectors : ℕ
  prdt : List Prd

def bytesPerPrdt : Unsigned32 := 0x400000

/-- The lowest bit of the address has no place in `DBA`. -/
def prdAddress (address : Unsigned64) : Unsigned64 := (address >>> 1) <<< 1

/-- The loop of `Cmd_Slot_Prepare` over the entries of the table. -/
def fillPrdt (address : Unsigned64) : ℕ → Unsigned32 → Unsigned32 → List Prd
  | 0, _, _ => []
  | n + 1, length, addressOffset =>
    let bytes := if length < bytesPerPrdt then length else bytesPerPrdt
    ⟨prdAddress (address + addressOffset.setWidth 64), ((bytes - 1) &&& 0x3fffff).toNat + 1⟩ ::
      fillPrdt address n (length - bytes) (addressOffset + bytes)

/-- `Cmd_Slot_Prepare`: the length that is transferred and the table. -/
def cmdSlotPrepare (len : Unsigned32) (address : Unsigned64) : Unsigned32 × List Prd :=
  let prdtLen := (len - 1) / bytesPerPrdt + 1
  if prdtLen > 8 then (8 * bytesPerPrdt, fillPrdt address 8 (8 * bytesPerPrdt) 0)
  else (len, fillPrdt address prdtLen.toNat len 0)

/-- The number of sectors that a device reads from the registers of a command, of 16 or 8 bits. -/
def registerSectors (support48Bit : Bool) (sectors : Unsigned32) : ℕ :=
  let range := if support48Bit then 65536 else 256
  if sectors.toNat % range = 0 then range else sectors.toNat % range

/-- `Ata.RW_Sectors`: the command, if there is one. -/
def ataRWSectors (dev : Device) (rw : RW) (start : Unsigned64) (count : Unsigned32) (address : Unsigned64) :
    Option Command :=
  if (dev.support48Bit ∧ (start ≥ 0x1000000000000 ∨ count > 64 * 1024)) ∨
      (¬ dev.support48Bit ∧ (start ≥ 0x10000000 ∨ count > 256)) then none
  else
    let r := cmdSlotPrepare (count <<< dev.sectorSizeShift) address
    let sectors := r.1 >>> dev.sectorSizeShift
    let sectors := if (dev.support48Bit ∧ sectors = 65536) ∨ (¬ dev.support48Bit ∧ sectors = 256) then 0
      else sectors
    some ⟨rw, start, registerSectors dev.support48Bit sectors, r.2⟩

/-- `Ahci.Device.RW_Sectors`. -/
def rwSectors (dev : Device) (rw : RW) (start : Unsigned64) (count : Unsigned32) (address : Unsigned64) :
    Option Command :=
  match dev.signature with
  | .sata => ataRWSectors dev rw start count address
  | _ => none

/-- `Ahci.Device.Get_Max_Sector_Count`. -/
def getMaxSectorCount (dev : Device) : Unsigned32 :=
  match dev.signature with
  | .sata => if dev.support48Bit then 64 * 1024 else 256
  | _ => 0

/-- The address in memory of a byte of a transfer. -/
def prdtByte : List Prd → ℕ → Option Unsigned64
  | [], _ => none
  | e :: es, k => if k < e.bytes then some (e.address + BitVec.ofNat 64 k) else prdtByte es (k - e.bytes)

/-- A command transfers the byte of a sector from or to an address. -/
def Command.Moves (c : Command) (sectorSize : ℕ) (sector byte : ℕ) (address : Unsigned64) : Prop :=
  ∃ k < c.sectors * sectorSize, sector = c.start.toNat + k / sectorSize ∧ byte = k % sectorSize ∧
    prdtByte c.prdt k = some address

/-! ### What a command transfers -/

lemma prdAddress_even {address : Unsigned64} (h : address.toNat % 2 = 0) : prdAddress address = address := by
  unfold prdAddress
  apply BitVec.eq_of_toNat_eq
  rw [BitVec.toNat_shiftLeft, BitVec.toNat_ushiftRight, Nat.shiftRight_eq_div_pow, Nat.shiftLeft_eq, Nat.pow_one,
    Nat.div_mul_cancel (Nat.dvd_of_mod_eq_zero h)]
  exact Nat.mod_eq_of_lt address.isLt

/-- An entry covers as many bytes as were given to it. -/
lemma prd_bytes {bytes : Unsigned32} (hpos : 0 < bytes.toNat) (hle : bytes.toNat ≤ 0x400000) :
    ((bytes - 1) &&& 0x3fffff).toNat + 1 = bytes.toNat := by
  have hsub : (bytes - 1).toNat = bytes.toNat - 1 := by
    have : (1 : Unsigned32) ≤ bytes := BitVec.le_def.mpr hpos
    rw [BitVec.toNat_sub_of_le this]
    rfl
  have hmask : (0x3fffff : Unsigned32).toNat = 2 ^ 22 - 1 := by decide
  rw [BitVec.toNat_and, hsub, hmask, Nat.and_two_pow_sub_one_eq_mod, Nat.mod_eq_of_lt (by omega)]
  omega

lemma setWidth_toNat (n : Unsigned32) : (n.setWidth 64).toNat = n.toNat := by
  rw [BitVec.toNat_setWidth]
  exact Nat.mod_eq_of_lt (n.isLt.trans (by decide))

/-- The table covers a contiguous range of memory. -/
lemma prdtByte_fillPrdt {address : Unsigned64} (heven : address.toNat % 2 = 0) (n : ℕ) :
    ∀ (length addressOffset : Unsigned32), length.toNat ≤ n * 0x400000 → addressOffset.toNat % 0x400000 = 0 →
      addressOffset.toNat + length.toNat < 2 ^ 32 → ∀ k < length.toNat,
      prdtByte (fillPrdt address n length addressOffset) k =
        some (address + addressOffset.setWidth 64 + BitVec.ofNat 64 k) := by
  induction n with
  | zero =>
    intro length addressOffset hlen _ _ k hk
    omega
  | succ n ih =>
    intro length addressOffset hlen hoff hsum k hk
    have hprdt : bytesPerPrdt.toNat = 0x400000 := by decide
    have haddr : (address + addressOffset.setWidth 64).toNat % 2 = 0 := by
      rw [BitVec.toNat_add, setWidth_toNat]
      omega
    unfold fillPrdt
    simp only [prdAddress_even haddr]
    by_cases hlt : length < bytesPerPrdt
    · rw [if_pos hlt]
      rw [BitVec.lt_def, hprdt] at hlt
      unfold prdtByte
      rw [prd_bytes (by omega) (by omega), if_pos hk]
    · rw [if_neg hlt]
      rw [BitVec.not_lt, BitVec.le_def, hprdt] at hlt
      unfold prdtByte
      rw [prd_bytes (by rw [hprdt]; omega) (by rw [hprdt])]
      by_cases hfirst : k < bytesPerPrdt.toNat
      · rw [if_pos hfirst]
      · rw [if_neg hfirst]
        have hsub : (length - bytesPerPrdt).toNat = length.toNat - 0x400000 := by
          rw [BitVec.toNat_sub_of_le (BitVec.le_def.mpr (by rw [hprdt]; exact hlt)), hprdt]
        have hadd : (addressOffset + bytesPerPrdt).toNat = addressOffset.toNat + 0x400000 := by
          rw [BitVec.toNat_add, hprdt]
          exact Nat.mod_eq_of_lt (by omega)
        rw [hprdt] at hfirst
        rw [hprdt, ih (length - bytesPerPrdt) (addressOffset + bytesPerPrdt) (by omega) (by omega) (by omega)
          (k - 0x400000) (by omega)]
        refine congrArg some (BitVec.eq_of_toNat_eq ?_)
        rw [BitVec.toNat_add, BitVec.toNat_add, BitVec.toNat_add, BitVec.toNat_add, setWidth_toNat, setWidth_toNat, hadd,
          BitVec.toNat_ofNat, BitVec.toNat_ofNat]
        omega

/-- `Cmd_Slot_Prepare` for a transfer that fits into the table. -/
lemma cmdSlotPrepare_eq {len : Unsigned32} (address : Unsigned64) (hpos : 0 < len.toNat) (hle : len.toNat ≤ 0x2000000) :
    ∃ n, len.toNat ≤ n * 0x400000 ∧ cmdSlotPrepare len address = (len, fillPrdt address n len 0) := by
  have hprdt : bytesPerPrdt.toNat = 0x400000 := by decide
  have hsub : (len - 1).toNat = len.toNat - 1 := by
    have : (1 : Unsigned32) ≤ len := BitVec.le_def.mpr hpos
    rw [BitVec.toNat_sub_of_le this]
    rfl
  have hlen : ((len - 1) / bytesPerPrdt + 1).toNat = (len.toNat - 1) / 0x400000 + 1 := by
    rw [BitVec.toNat_add, BitVec.toNat_udiv, hsub, hprdt]
    exact Nat.mod_eq_of_lt (by simp; omega)
  refine ⟨((len - 1) / bytesPerPrdt + 1).toNat, by rw [hlen]; omega, ?_⟩
  unfold cmdSlotPrepare
  have hnot : ¬ (len - 1) / bytesPerPrdt + 1 > 8 := by
    rw [gt_iff_lt, BitVec.lt_def, hlen]
    simp
    omega
  simp only [if_neg hnot]

/-- The registers hold the number of sectors that was asked for. -/
lemma registerSectors_eq {support48Bit : Bool} {count : Unsigned32} (hpos : 0 < count.toNat)
    (hle : count.toNat ≤ if support48Bit then 65536 else 256) :
    registerSectors support48Bit
      (if (support48Bit ∧ count = 65536) ∨ (¬ support48Bit ∧ count = 256) then 0 else count) = count.toNat := by
  have hcount : ∀ n < 2 ^ 32, count ≠ BitVec.ofNat 32 n → count.toNat ≠ n := by
    intro n hn hne heq
    refine hne (BitVec.eq_of_toNat_eq ?_)
    rw [heq, BitVec.toNat_ofNat, Nat.mod_eq_of_lt hn]
  unfold registerSectors
  cases support48Bit with
  | true =>
    simp only [true_and, not_true_eq_false, false_and, or_false, if_true] at hle ⊢
    by_cases h0 : count = 65536
    · rw [if_pos h0, h0]
      rfl
    · have hne := hcount 65536 (by decide) h0
      rw [if_neg h0, Nat.mod_eq_of_lt (by omega), if_neg (by omega)]
  | false =>
    simp only [Bool.false_eq_true, false_and, not_false_eq_true, true_and, false_or, if_false] at hle ⊢
    by_cases h0 : count = 256
    · rw [if_pos h0, h0]
      rfl
    · have hne := hcount 256 (by decide) h0
      rw [if_neg h0, Nat.mod_eq_of_lt (by omega), if_neg (by omega)]

/-- A transfer of whole sectors that fits into the table, from or to an even address. -/
lemma rwSectors_moves {dev : Device} {rw : RW} {start : Unsigned64} {count : Unsigned32} {address : Unsigned64}
    {c : Command} (h : rwSectors dev rw start count address = some c)
    (hsize : dev.sectorSize.toNat = 2 ^ dev.sectorSizeShift) (hpos : 0 < count.toNat)
    (hfit : count.toNat * dev.sectorSize.toNat ≤ 0x2000000) (heven : address.toNat % 2 = 0) :
    c.rw = rw ∧ ∀ sector byte a, c.Moves dev.sectorSize.toNat sector byte a ↔
      ∃ i < count.toNat, ∃ j < dev.sectorSize.toNat, sector = start.toNat + i ∧ byte = j ∧
        a = address + BitVec.ofNat 64 (i * dev.sectorSize.toNat + j) := by
  have hsizepos : 0 < dev.sectorSize.toNat := by
    rw [hsize]
    exact Nat.two_pow_pos _
  have hbytes : (count <<< dev.sectorSizeShift).toNat = count.toNat * dev.sectorSize.toNat := by
    rw [BitVec.toNat_shiftLeft, Nat.shiftLeft_eq, ← hsize]
    exact Nat.mod_eq_of_lt (by omega)
  have hbytespos : 0 < (count <<< dev.sectorSizeShift).toNat := by
    rw [hbytes]
    exact Nat.mul_pos hpos hsizepos
  obtain ⟨n, hn, hprepare⟩ := cmdSlotPrepare_eq address hbytespos (by rw [hbytes]; exact hfit)
  have hsectors : count <<< dev.sectorSizeShift >>> dev.sectorSizeShift = count := by
    apply BitVec.eq_of_toNat_eq
    rw [BitVec.toNat_ushiftRight, hbytes, Nat.shiftRight_eq_div_pow, hsize]
    exact Nat.mul_div_cancel _ (Nat.two_pow_pos _)
  have hata : ataRWSectors dev rw start count address = some c := by
    unfold rwSectors at h
    cases hsig : dev.signature with
    | sata => rwa [hsig] at h
    | empty => rw [hsig] at h; exact absurd h (by simp)
    | atapi => rw [hsig] at h; exact absurd h (by simp)
  unfold ataRWSectors at hata
  simp only [hprepare, hsectors] at hata
  by_cases hlimit : (dev.support48Bit ∧ (start ≥ 0x1000000000000 ∨ count > 64 * 1024)) ∨
      (¬ dev.support48Bit ∧ (start ≥ 0x10000000 ∨ count > 256))
  · rw [if_pos hlimit] at hata
    exact absurd hata (by simp)
  have hle : count.toNat ≤ if dev.support48Bit then 65536 else 256 := by
    push Not at hlimit
    cases hbit : dev.support48Bit with
    | true => exact BitVec.le_def.mp (BitVec.not_lt.mp (hlimit.1 hbit).2)
    | false => exact BitVec.le_def.mp (BitVec.not_lt.mp (hlimit.2 (by simp [hbit])).2)
  rw [if_neg hlimit, registerSectors_eq hpos hle] at hata
  obtain rfl := Option.some.inj hata
  refine ⟨rfl, fun sector byte a => ?_⟩
  have hbyte : ∀ k < count.toNat * dev.sectorSize.toNat,
      prdtByte (fillPrdt address n (count <<< dev.sectorSizeShift) 0) k = some (address + BitVec.ofNat 64 k) := by
    intro k hk
    have h0 := prdtByte_fillPrdt heven n (count <<< dev.sectorSizeShift) 0 hn (by simp) (by simp; omega) k (by omega)
    simpa using h0
  constructor
  · rintro ⟨k, hk, rfl, rfl, ha⟩
    rw [hbyte k hk] at ha
    refine ⟨k / dev.sectorSize.toNat, Nat.div_lt_of_lt_mul (by rwa [Nat.mul_comm]), k % dev.sectorSize.toNat,
      Nat.mod_lt _ hsizepos, rfl, rfl, ?_⟩
    rw [Nat.div_add_mod']
    exact (Option.some.inj ha).symm
  · rintro ⟨i, hi, _, hj, rfl, rfl, rfl⟩
    have hk : i * dev.sectorSize.toNat + byte < count.toNat * dev.sectorSize.toNat := by
      calc i * dev.sectorSize.toNat + byte < (i + 1) * dev.sectorSize.toNat := by
            rw [Nat.succ_mul]
            omega
        _ ≤ count.toNat * dev.sectorSize.toNat := Nat.mul_le_mul_right _ hi
    refine ⟨i * dev.sectorSize.toNat + byte, hk, ?_, ?_, hbyte _ hk⟩
    · rw [Nat.mul_comm, Nat.mul_add_div hsizepos, Nat.div_eq_of_lt hj, Nat.add_zero]
    · rw [Nat.mul_comm, Nat.mul_add_mod, Nat.mod_eq_of_lt hj]

end Muen.Components.Ahci
