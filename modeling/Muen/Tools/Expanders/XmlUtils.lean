import Muen.Tools.Paging.Traversal

/-!
# Expanders.XML_Utils: the size of page table regions

`Calculate_PT_Size` enters the mappings of a subject into a layout, with the alignment of a memory region as its
physical address since the region has none yet, and counts the tables.
-/

namespace Muen.Tools.Expanders.XmlUtils
open Muen.Lib Paging

/-- A logical memory region with the size and the alignment of its physical region. -/
structure VirtualMemory where
  virtualAddress : Unsigned64
  size : Unsigned64
  alignment : Unsigned64

/-- The memory of a logical device with the size and the address of the physical device memory. -/
structure DeviceMemory where
  virtualAddress : Unsigned64
  size : Unsigned64
  physicalAddress : Unsigned64

def VirtualMemory.region (m : VirtualMemory) : MemoryRegion :=
  ⟨m.alignment, m.virtualAddress, m.size, .wb, false, false⟩

def DeviceMemory.region (m : DeviceMemory) : MemoryRegion :=
  ⟨m.physicalAddress, m.virtualAddress, m.size, .wb, false, false⟩

def calculatePtSize (pagingLevels : Nat) (largePages : Bool) (memoryNodes : List VirtualMemory)
    (deviceNodes : List DeviceMemory) : Except PagingError Unsigned64 := do
  let layout := setLargePageSupport (emptyLayout pagingLevels true) largePages
  let layout ← memoryNodes.foldlM (fun layout m => addMemoryRegion layout m.region) layout
  let layout ← deviceNodes.foldlM (fun layout m => addMemoryRegion layout m.region) layout
  let tableCounts ← getTableCount layout
  .ok (BitVec.ofNat 64 tableCounts.sum * 4096)

/-- The regions in the order in which they are entered. -/
def regions (memoryNodes : List VirtualMemory) (deviceNodes : List DeviceMemory) : List MemoryRegion :=
  memoryNodes.map VirtualMemory.region ++ deviceNodes.map DeviceMemory.region

variable {levels : Nat} {memoryNodes : List VirtualMemory} {deviceNodes : List DeviceMemory}

/-- The size is that of the tables of the layout that maps the regions by small pages. -/
lemma calculatePtSize_eq {P : Nat → Prop} {layout : MemoryLayout} (h : MapsPages levels P layout) (hP : PartlyUsed P)
    (hrun : (regions memoryNodes deviceNodes).foldlM addMemoryRegion (emptyLayout levels false) = .ok layout) :
    calculatePtSize levels false memoryNodes deviceNodes =
      .ok (BitVec.ofNat 64 (1 + (visitedInMaps layout).length) * 4096) := by
  obtain ⟨counts, hcounts, hsum⟩ := h.getTableCount_eq hP
  unfold regions at hrun
  rw [List.foldlM_append] at hrun
  obtain ⟨layout₁, hmemory, hdevices⟩ := bind_eq_ok hrun
  rw [List.foldlM_map] at hmemory hdevices
  unfold calculatePtSize
  change (memoryNodes.foldlM (fun layout m => addMemoryRegion layout m.region) (emptyLayout levels false) >>= _) = _
  rw [hmemory, ok_bind, hdevices, ok_bind, hcounts, ok_bind, hsum]

end Muen.Tools.Expanders.XmlUtils
