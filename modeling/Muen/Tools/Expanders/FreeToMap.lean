import Muen.Tools.Mucfgcheck.Overlap

/-!
# Expanders.XML_Utils: mappings of a subject

The memory of a subject is mapped with the size of the physical region of the same name, and the memory of its devices
with that of the device. `Is_Free_To_Map` looks for a mapping that overlaps with a region.
-/

namespace Muen.Tools.Expanders.XmlUtils
open Mucfgcheck (InSpace Share share_iff)

structure PhysicalMemory where
  name : String
  size : Unsigned64

structure PhysicalDevice where
  name : String
  memory : List PhysicalMemory

/-- The memory of a subject; it may not have an address yet. -/
structure LogicalMemory where
  logical : String
  physical : String
  virtualAddress : Option Unsigned64

/-- The memory of a logical device. -/
structure LogicalDeviceMemory where
  logical : String
  device : String
  physical : String
  virtualAddress : Unsigned64

/-- The value of the size attribute, which raises if there is no region of the name. -/
def memorySize (physMem : List PhysicalMemory) (name : String) : Option Unsigned64 :=
  (physMem.find? (fun m => m.name = name)).map PhysicalMemory.size

def deviceMemorySize (physDevs : List PhysicalDevice) (device name : String) : Option Unsigned64 := do
  let dev ← physDevs.find? (fun d => d.name = device)
  memorySize dev.memory name

/-- The loop over mappings up to the first one that overlaps. -/
def checkMappings {α : Type} (startAddr : α → Unsigned64) (physicalSize : α → Option Unsigned64)
    (virtualAddress refEndAddr : Unsigned64) : List α → Option Bool
  | [] => some true
  | m :: regions =>
    if startAddr m ≤ refEndAddr then do
      let size ← physicalSize m
      let endAddr := startAddr m + size - 1
      if endAddr ≥ virtualAddress then some false
      else checkMappings startAddr physicalSize virtualAddress refEndAddr regions
    else checkMappings startAddr physicalSize virtualAddress refEndAddr regions

/-- The start of a mapping, which is the last address if it does not have one. -/
def LogicalMemory.startAddr (m : LogicalMemory) : Unsigned64 := m.virtualAddress.getD (BitVec.allOnes 64)

def isFreeToMap (physMem : List PhysicalMemory) (physDevs : List PhysicalDevice) (memRegions : List LogicalMemory)
    (subjDevRegions : List LogicalDeviceMemory) (virtualAddress regionSize : Unsigned64) : Option Bool := do
  let refEndAddr := virtualAddress + regionSize - 1
  let free ← checkMappings LogicalMemory.startAddr (fun m => memorySize physMem m.physical) virtualAddress refEndAddr
    memRegions
  if free then
    checkMappings LogicalDeviceMemory.virtualAddress (fun m => deviceMemorySize physDevs m.device m.physical)
      virtualAddress refEndAddr subjDevRegions
  else some false

/-- A mapping makes the loop return `False`. -/
def Blocks (start size virtualAddress refEndAddr : Unsigned64) : Prop :=
  start ≤ refEndAddr ∧ start + size - 1 ≥ virtualAddress

lemma checkMappings_eq {α : Type} (startAddr : α → Unsigned64) {physicalSize : α → Option Unsigned64}
    (virtualAddress refEndAddr : Unsigned64) {regions : List α}
    (h : ∀ m ∈ regions, ∃ size, physicalSize m = some size) :
    ∃ free, checkMappings startAddr physicalSize virtualAddress refEndAddr regions = some free ∧
      (free = true ↔ ∀ m ∈ regions, ∀ size, physicalSize m = some size →
        ¬Blocks (startAddr m) size virtualAddress refEndAddr) := by
  induction regions with
  | nil => exact ⟨true, rfl, iff_of_true rfl nofun⟩
  | cons m regions ih =>
    obtain ⟨free, hfree, hiff⟩ := ih fun r hr => h r (List.mem_cons_of_mem m hr)
    obtain ⟨size, hsize⟩ := h m List.mem_cons_self
    unfold checkMappings
    by_cases hblocks : Blocks (startAddr m) size virtualAddress refEndAddr
    · refine ⟨false, ?_, iff_of_false Bool.false_ne_true fun hall => hall m List.mem_cons_self size hsize hblocks⟩
      rw [if_pos hblocks.1, hsize]
      exact if_pos hblocks.2
    · refine ⟨free, ?_, ?_⟩
      · by_cases hstart : startAddr m ≤ refEndAddr
        · rw [if_pos hstart, hsize]
          exact (if_neg fun hend => hblocks ⟨hstart, hend⟩).trans hfree
        · rw [if_neg hstart, hfree]
      · rw [hiff, List.forall_mem_cons]
        refine ⟨fun hall => ⟨?_, hall⟩, fun hall => hall.2⟩
        intro size' hsize'
        obtain rfl := Option.some.inj (hsize.symm.trans hsize')
        exact hblocks

/-- The last address of a range. -/
lemma last_toNat {address size : Unsigned64} (h : InSpace address size) :
    (address + size - 1).toNat = address.toNat + size.toNat - 1 := by
  obtain ⟨hsize, hend⟩ := h
  have hlt := address.isLt
  rw [BitVec.toNat_sub, BitVec.toNat_add]
  change (2 ^ 64 - 1 + (address.toNat + size.toNat) % 2 ^ 64) % 2 ^ 64 = _
  omega

lemma blocks_iff {start size virtualAddress regionSize : Unsigned64} (h : InSpace start size)
    (hregion : InSpace virtualAddress regionSize) :
    Blocks start size virtualAddress (virtualAddress + regionSize - 1) ↔
      Share start size virtualAddress regionSize := by
  have hsize := h.1
  have hregionSize := hregion.1
  unfold Blocks
  rw [share_iff hsize hregionSize, BitVec.le_def, ge_iff_le, BitVec.le_def, last_toNat h, last_toNat hregion]
  omega

/-- A mapping without an address blocks regions that end at the top, if its size is one or more than their address. -/
lemma blocks_last_iff {size virtualAddress regionSize : Unsigned64} (hsize : 0 < size.toNat)
    (hregion : InSpace virtualAddress regionSize) :
    Blocks (BitVec.allOnes 64) size virtualAddress (virtualAddress + regionSize - 1) ↔
      virtualAddress.toNat + regionSize.toNat = 2 ^ 64 ∧ (size.toNat = 1 ∨ virtualAddress.toNat + 2 ≤ size.toNat) := by
  have hlt := size.isLt
  have hlt' := virtualAddress.isLt
  have hregionSize := hregion.1
  have hlast : (BitVec.allOnes 64 + size - 1).toNat = (2 * 2 ^ 64 + size.toNat - 2) % 2 ^ 64 := by
    rw [BitVec.toNat_sub, BitVec.toNat_add, BitVec.toNat_allOnes]
    change (2 ^ 64 - 1 + (2 ^ 64 - 1 + size.toNat) % 2 ^ 64) % 2 ^ 64 = _
    omega
  unfold Blocks
  rw [BitVec.le_def, ge_iff_le, BitVec.le_def, last_toNat hregion, hlast, BitVec.toNat_allOnes]
  have hend := hregion.2
  omega

section Exact

variable {physMem : List PhysicalMemory} {physDevs : List PhysicalDevice} {memRegions : List LogicalMemory}
  {subjDevRegions : List LogicalDeviceMemory} {virtualAddress regionSize : Unsigned64}

/-- The memory mappings have a size and those with an address are in the address space. -/
def MemoryInSpace (physMem : List PhysicalMemory) (memRegions : List LogicalMemory) : Prop :=
  ∀ m ∈ memRegions, ∃ size, memorySize physMem m.physical = some size ∧ 0 < size.toNat ∧
    ∀ address, m.virtualAddress = some address → InSpace address size

def DevicesInSpace (physDevs : List PhysicalDevice) (subjDevRegions : List LogicalDeviceMemory) : Prop :=
  ∀ m ∈ subjDevRegions, ∃ size, deviceMemorySize physDevs m.device m.physical = some size ∧
    InSpace m.virtualAddress size

/-- A mapping has an address in common with a region. -/
def Occupied (physMem : List PhysicalMemory) (physDevs : List PhysicalDevice) (memRegions : List LogicalMemory)
    (subjDevRegions : List LogicalDeviceMemory) (virtualAddress regionSize : Unsigned64) : Prop :=
  (∃ m ∈ memRegions, ∃ address size, m.virtualAddress = some address ∧ memorySize physMem m.physical = some size ∧
    Share address size virtualAddress regionSize) ∨
  ∃ m ∈ subjDevRegions, ∃ size, deviceMemorySize physDevs m.device m.physical = some size ∧
    Share m.virtualAddress size virtualAddress regionSize

/-- A region ends at the top of the address space and some memory without an address blocks it. -/
def BlockedAtTop (physMem : List PhysicalMemory) (memRegions : List LogicalMemory)
    (virtualAddress regionSize : Unsigned64) : Prop :=
  virtualAddress.toNat + regionSize.toNat = 2 ^ 64 ∧
    ∃ m ∈ memRegions, m.virtualAddress = none ∧ ∃ size, memorySize physMem m.physical = some size ∧
      (size.toNat = 1 ∨ virtualAddress.toNat + 2 ≤ size.toNat)

lemma memory_blocks_iff (hmem : MemoryInSpace physMem memRegions) (hregion : InSpace virtualAddress regionSize) :
    (∀ m ∈ memRegions, ∀ size, memorySize physMem m.physical = some size →
      ¬Blocks m.startAddr size virtualAddress (virtualAddress + regionSize - 1)) ↔
    (¬∃ m ∈ memRegions, ∃ address size, m.virtualAddress = some address ∧
      memorySize physMem m.physical = some size ∧ Share address size virtualAddress regionSize) ∧
    ¬BlockedAtTop physMem memRegions virtualAddress regionSize := by
  constructor
  · intro hnone
    constructor
    · rintro ⟨m, hm, address, size, haddress, hsize, hshare⟩
      obtain ⟨size', hsize', -, hspace⟩ := hmem m hm
      obtain rfl := Option.some.inj (hsize.symm.trans hsize')
      apply hnone m hm size hsize
      rw [LogicalMemory.startAddr, haddress]
      exact (blocks_iff (hspace address haddress) hregion).mpr hshare
    · rintro ⟨htop, m, hm, haddress, size, hsize, hblocks⟩
      obtain ⟨size', hsize', hpos, -⟩ := hmem m hm
      obtain rfl := Option.some.inj (hsize.symm.trans hsize')
      apply hnone m hm size hsize
      rw [LogicalMemory.startAddr, haddress]
      exact (blocks_last_iff hpos hregion).mpr ⟨htop, hblocks⟩
  · rintro ⟨hshares, htop⟩ m hm size hsize hblocks
    obtain ⟨size', hsize', hpos, hspace⟩ := hmem m hm
    obtain rfl := Option.some.inj (hsize.symm.trans hsize')
    rw [LogicalMemory.startAddr] at hblocks
    cases haddress : m.virtualAddress with
    | none =>
      rw [haddress] at hblocks
      obtain ⟨hend, hblocks⟩ := (blocks_last_iff hpos hregion).mp hblocks
      exact htop ⟨hend, m, hm, haddress, size, hsize, hblocks⟩
    | some address =>
      rw [haddress] at hblocks
      exact hshares ⟨m, hm, address, size, haddress, hsize,
        (blocks_iff (hspace address haddress) hregion).mp hblocks⟩

lemma device_blocks_iff (hdev : DevicesInSpace physDevs subjDevRegions)
    (hregion : InSpace virtualAddress regionSize) :
    (∀ m ∈ subjDevRegions, ∀ size, deviceMemorySize physDevs m.device m.physical = some size →
      ¬Blocks m.virtualAddress size virtualAddress (virtualAddress + regionSize - 1)) ↔
    ¬∃ m ∈ subjDevRegions, ∃ size, deviceMemorySize physDevs m.device m.physical = some size ∧
      Share m.virtualAddress size virtualAddress regionSize := by
  constructor
  · rintro hnone ⟨m, hm, size, hsize, hshare⟩
    obtain ⟨size', hsize', hspace⟩ := hdev m hm
    obtain rfl := Option.some.inj (hsize.symm.trans hsize')
    exact hnone m hm size hsize ((blocks_iff hspace hregion).mpr hshare)
  · intro hshares m hm size hsize hblocks
    obtain ⟨size', hsize', hspace⟩ := hdev m hm
    obtain rfl := Option.some.inj (hsize.symm.trans hsize')
    exact hshares ⟨m, hm, size, hsize, (blocks_iff hspace hregion).mp hblocks⟩

lemma isFreeToMap_iff (hmem : MemoryInSpace physMem memRegions) (hdev : DevicesInSpace physDevs subjDevRegions)
    (hregion : InSpace virtualAddress regionSize) :
    isFreeToMap physMem physDevs memRegions subjDevRegions virtualAddress regionSize = some true ↔
      ¬Occupied physMem physDevs memRegions subjDevRegions virtualAddress regionSize ∧
        ¬BlockedAtTop physMem memRegions virtualAddress regionSize := by
  obtain ⟨free, hfree, hfreeIff⟩ := checkMappings_eq LogicalMemory.startAddr virtualAddress
    (virtualAddress + regionSize - 1) (fun m hm => (hmem m hm).imp fun _ h => h.1)
  obtain ⟨devFree, hdevFree, hdevIff⟩ := checkMappings_eq LogicalDeviceMemory.virtualAddress virtualAddress
    (virtualAddress + regionSize - 1) (fun m hm => (hdev m hm).imp fun _ h => h.1)
  have hrun : isFreeToMap physMem physDevs memRegions subjDevRegions virtualAddress regionSize =
      if free then some devFree else some false := by
    unfold isFreeToMap
    simp only [hfree, hdevFree, Option.bind_eq_bind, Option.bind_some]
  have hboth : isFreeToMap physMem physDevs memRegions subjDevRegions virtualAddress regionSize = some true ↔
      free = true ∧ devFree = true := by
    rw [hrun]
    cases free <;> simp
  rw [hboth, hfreeIff, hdevIff, memory_blocks_iff hmem hregion, device_blocks_iff hdev hregion]
  unfold Occupied
  rw [not_or, and_right_comm]

/-- The check of a list of regions is exact unless the only overlaps are those with regions that end at the top of the
address space, and the search for a mapping unless no mapping overlaps and memory without an address blocks the top. -/
theorem overlap_exact_iff {nodes : List Mucfgcheck.Region} (hnodes : ∀ r ∈ nodes, InSpace r.address r.size)
    (regionType addMsg : String) (errors : List String) (hmem : MemoryInSpace physMem memRegions)
    (hdev : DevicesInSpace physDevs subjDevRegions) (hregion : InSpace virtualAddress regionSize) :
    ((Mucfgcheck.checkMemoryOverlap nodes regionType addMsg errors ≠ errors ↔
        ∃ left right, Mucfgcheck.Pair nodes left right ∧ left.Share right) ↔
      (∃ left right, Mucfgcheck.Pair nodes left right ∧ left.Share right ∧ ¬Mucfgcheck.LowerAtTop left right) ∨
        ∀ left right, Mucfgcheck.Pair nodes left right → ¬Mucfgcheck.LowerAtTop left right) ∧
    ((isFreeToMap physMem physDevs memRegions subjDevRegions virtualAddress regionSize = some true ↔
        ¬Occupied physMem physDevs memRegions subjDevRegions virtualAddress regionSize) ↔
      (Occupied physMem physDevs memRegions subjDevRegions virtualAddress regionSize ∨
        ¬BlockedAtTop physMem memRegions virtualAddress regionSize)) := by
  refine ⟨Mucfgcheck.checkMemoryOverlap_exact_iff hnodes regionType addMsg errors, ?_⟩
  rw [isFreeToMap_iff hmem hdev hregion]
  tauto

/-- The last page of the address space, twice. -/
def topPages : List Mucfgcheck.Region :=
  [⟨"a", 0xfffffffffffff000, 0x1000⟩, ⟨"b", 0xfffffffffffff000, 0x1000⟩]

lemma topPages_inSpace : ∀ r ∈ topPages, InSpace r.address r.size := by
  unfold InSpace topPages
  decide

/-- Memory of one byte that does not have an address yet. -/
def unmapped : LogicalMemory := ⟨"logical", "byte", none⟩

theorem overlap_exact_topPages :
    ((Mucfgcheck.checkMemoryOverlap topPages "region" "" [] ≠ [] ↔
        ∃ left right, Mucfgcheck.Pair topPages left right ∧ left.Share right) ↔
      (∃ left right, Mucfgcheck.Pair topPages left right ∧ left.Share right ∧
          ¬Mucfgcheck.LowerAtTop left right) ∨
        ∀ left right, Mucfgcheck.Pair topPages left right → ¬Mucfgcheck.LowerAtTop left right) ∧
    ((isFreeToMap [⟨"byte", 1⟩] [] [unmapped] [] 0xfffffffffffff000 0x1000 = some true ↔
        ¬Occupied [⟨"byte", 1⟩] [] [unmapped] [] 0xfffffffffffff000 0x1000) ↔
      (Occupied [⟨"byte", 1⟩] [] [unmapped] [] 0xfffffffffffff000 0x1000 ∨
        ¬BlockedAtTop [⟨"byte", 1⟩] [unmapped] 0xfffffffffffff000 0x1000)) := by
  apply overlap_exact_iff topPages_inSpace "region" "" []
  · intro m hm
    rw [List.mem_singleton.mp hm]
    exact ⟨1, rfl, by decide, nofun⟩
  · exact nofun
  · exact ⟨by decide, by decide⟩

/-- The overlap of the two pages is not found, and memory without an address blocks the last page. -/
theorem overlap_not_exact :
    ((∃ left right, Mucfgcheck.Pair topPages left right ∧ left.Share right) ∧
      ¬(Mucfgcheck.checkMemoryOverlap topPages "region" "" [] ≠ [])) ∧
    ¬Occupied [⟨"byte", 1⟩] [] [unmapped] [] 0xfffffffffffff000 0x1000 ∧
      isFreeToMap [⟨"byte", 1⟩] [] [unmapped] [] 0xfffffffffffff000 0x1000 = some false := by
  refine ⟨⟨⟨_, _, ⟨0, 1, by decide, rfl, rfl⟩, 0xfffffffffffff000, ?_⟩, ?_⟩, ?_, ?_⟩
  · decide
  · decide
  · rintro (⟨m, hm, address, size, haddress, -⟩ | ⟨m, hm, -⟩)
    · rw [List.mem_singleton.mp hm] at haddress
      cases haddress
    · exact List.not_mem_nil hm
  · decide

end Exact

end Muen.Tools.Expanders.XmlUtils
