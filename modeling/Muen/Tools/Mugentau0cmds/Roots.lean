import Muen.Tools.Paging.Traversal

/-!
# Cmd_Stream.Roots.Utils

The commands that assign the memory of a root object to it: the regions are attached, the page tables created
from the root down, the pages mapped, the object locked and the page tables activated from the bottom up.
-/

namespace Muen.Tools.Mugentau0cmds
open Muen.Lib Paging

/-- The kind of a root object and the attribute that names it. -/
structure Object where
  kind : String
  attr : String × String

inductive Command where
  | clearPages (basePage count : Unsigned64)
  | attachMemoryRegion (object : Object) (region : String) (offset length : Unsigned64) (tableIndex : Nat)
      (writable executable : Bool)
  | createPageTable (object : Object) (page : Unsigned64) (level : Nat) (virtualAddress : Unsigned64)
      (readable writable executable : Bool)
  | mapPages (object : Object) (tableIndex : Nat) (baseVirtualAddress baseOffset count : Unsigned64)
  | mapDevicePages (object : Object) (device : String) (basePage baseVirtualAddress count : Unsigned64)
      (writable executable : Bool)
  | lock (object : Object)
  | activatePageTable (object : Object) (level : Nat) (virtualAddress : Unsigned64)

/-- A logical memory region with the attributes of its physical region. -/
structure LogicalMemory where
  virtualAddress : Unsigned64
  writable : Bool
  executable : Bool
  physicalAddress : Unsigned64
  size : Unsigned64
  caching : Caching
  tau0RootId : String

/-- The memory of a logical device with the attributes of the physical device memory. -/
structure LogicalDeviceMemory where
  virtualAddress : Unsigned64
  writable : Bool
  executable : Bool
  physicalAddress : Unsigned64
  size : Unsigned64
  caching : Caching

structure LogicalDevice where
  tau0DeviceId : String
  memory : List LogicalDeviceMemory

def LogicalMemory.region (m : LogicalMemory) : MemoryRegion :=
  ⟨m.physicalAddress, m.virtualAddress, m.size, m.caching, m.writable, m.executable⟩

def LogicalDeviceMemory.region (m : LogicalDeviceMemory) : MemoryRegion :=
  ⟨m.physicalAddress, m.virtualAddress, m.size, m.caching, m.writable, m.executable⟩

/-- The variables of `Create_Object_PTs` that `Process_Table` changes. -/
structure TableCmds where
  curPtAddr : Unsigned64
  createCmds : List Command
  activateCmds : List Command

def processTable (object : Object) (levels : Nat) (s : TableCmds) (level tableIndex : Nat) (_ : PageTable) :
    TableCmds :=
  let virtualAddress := getBaseAddress tableIndex (4 - (levels - level))
  let s := if level > 1 then
      { s with
        createCmds := s.createCmds ++
          [.createPageTable object s.curPtAddr (levels + 1 - level) virtualAddress true true true]
        activateCmds := s.activateCmds ++ [.activatePageTable object (levels + 1 - level) virtualAddress] }
    else s
  { s with curPtAddr := s.curPtAddr + 4096 }

/-- The stream with the commands that create the page tables, and the commands that activate them. -/
def createObjectPTs (object : Object) (stream : List Command) (memLayout : MemoryLayout)
    (ptAddress ptSize : Unsigned64) : Except PagingError (List Command × List Command) := do
  let stream := stream ++ [.clearPages ptAddress (ptSize / 4096)]
  let s ← traverseTables memLayout (processTable object memLayout.levels) ⟨ptAddress, [], []⟩
  let stream := stream ++ [.createPageTable object ptAddress memLayout.levels 0 true true true]
  .ok (stream ++ s.createCmds.reverse, s.activateCmds ++ [.activatePageTable object memLayout.levels 0])

/-- The variables of `Assign_Memory`, and the number of the next table that `Allocate_Page_Table` returns. -/
structure AssignState where
  stream : List Command
  mapCmdBuf : List Command
  memLayout : MemoryLayout
  currentPT : Nat

def assignRegion (object : Object) (s : AssignState) (m : LogicalMemory) : Except PagingError AssignState := do
  let pageCount := m.size / 4096
  let attach := .attachMemoryRegion object m.tau0RootId 0 pageCount s.currentPT m.writable m.executable
  let map := .mapPages object s.currentPT m.virtualAddress 0 pageCount
  let memLayout ← addMemoryRegion s.memLayout m.region
  .ok ⟨s.stream ++ [attach], s.mapCmdBuf ++ [map], memLayout, s.currentPT + 1⟩

def assignDeviceRegion (object : Object) (device : String) (s : AssignState) (m : LogicalDeviceMemory) :
    Except PagingError AssignState := do
  let map := .mapDevicePages object device m.physicalAddress m.virtualAddress (m.size / 4096) m.writable
    m.executable
  let memLayout ← addMemoryRegion s.memLayout m.region
  .ok { s with mapCmdBuf := s.mapCmdBuf ++ [map], memLayout := memLayout }

def assignDeviceMemory (object : Object) (s : AssignState) (logicalDevs : List LogicalDevice) :
    Except PagingError AssignState :=
  logicalDevs.foldlM (fun s dev => dev.memory.foldlM (assignDeviceRegion object dev.tau0DeviceId) s) s

/-- The commands, and the number of the next table. -/
def assignMemory (object : Object) (currentPT : Nat) (logicalMem : List LogicalMemory)
    (logicalDevs : List LogicalDevice) (ptAddr ptSize : Unsigned64) (pagingLevels : Nat) :
    Except PagingError (List Command × Nat) := do
  let memLayout := setLargePageSupport (setAddress (emptyLayout pagingLevels true) ptAddr) false
  let s ← logicalMem.foldlM (assignRegion object) ⟨[], [], memLayout, currentPT⟩
  let s ← assignDeviceMemory object s logicalDevs
  let (stream, activatePTBuf) ← createObjectPTs object s.stream s.memLayout ptAddr ptSize
  .ok (stream ++ s.mapCmdBuf ++ [.lock object] ++ activatePTBuf, s.currentPT)

end Muen.Tools.Mugentau0cmds
