import Muen.Tools.AllocMap
import Mathlib.Data.String.Basic

/-!
# Mucfgalloc

`Allocator` of the physical memory allocator: the memory map is built from the memory blocks, the device memory
and the regions with an address, and the other regions are allocated in it.
-/

namespace Muen.Tools.Mucfgalloc
open AllocMap Lib

inductive Content
  | none
  | file
  | fill
  deriving DecidableEq

/-- A `memory` element of the policy. -/
structure MemoryRegion where
  name : String
  type : String
  size : Unsigned64
  alignment : Option Unsigned64
  physicalAddress : Option Unsigned64
  content : Content
  deriving DecidableEq

structure MemoryBlock where
  name : String
  physicalAddress : Unsigned64
  size : Unsigned64
  allocatable : Option Bool
  deriving DecidableEq

structure DeviceMemory where
  name : String
  physicalAddress : Unsigned64
  size : Unsigned64
  deriving DecidableEq

structure Device where
  name : String
  memory : List DeviceMemory
  deriving DecidableEq

structure Policy where
  memory : List MemoryRegion
  memoryBlocks : List MemoryBlock
  devices : List Device
  deriving DecidableEq

inductive AllocError
  /-- The precondition of an operation of the map. -/
  | assertFailure
  | internalError (message : String)
  | duplicateRegion (message : String)
  | overlappingPhysicalMemory (message : String)
  | map (e : MapError)
  deriving DecidableEq

/-- An operation of the map behind the check of its precondition. -/
def checked (pre : Prop) [Decidable pre] (x : Except MapError Map) : Except AllocError Map :=
  if pre then
    match x with
    | .ok map => .ok map
    | .error e => .error (.map e)
  else .error .assertFailure

def lastAddress (physicalAddress size : Unsigned64) : Unsigned64 := physicalAddress + size - 1

def addEmptyRegion (map : Map) (b : MemoryBlock) : Except AllocError Map :=
  let last := lastAddress b.physicalAddress b.size
  checked (b.physicalAddress < last)
    (insertEmptyRegion map b.name (b.allocatable.getD true) b.physicalAddress last)

def addEmptyRegions (policy : Policy) (map : Map) : Except AllocError Map :=
  if policy.memoryBlocks = [] then .error (.internalError "No physical memory found")
  else policy.memoryBlocks.foldlM addEmptyRegion map

def addDeviceRegion (devName : String) (map : Map) (m : DeviceMemory) : Except AllocError Map :=
  let last := lastAddress m.physicalAddress m.size
  checked (m.physicalAddress < last)
    (insertDeviceRegion map (devName ++ "." ++ m.name) m.physicalAddress last)

def addDeviceRegions (policy : Policy) (map : Map) : Except AllocError Map :=
  policy.devices.foldlM (fun map d => d.memory.foldlM (addDeviceRegion d.name) map) map

def addFixedRegion (map : Map) (r : MemoryRegion) : Except AllocError Map :=
  match r.physicalAddress with
  | none => .ok map
  | some physicalAddress =>
    let last := lastAddress physicalAddress r.size
    checked (physicalAddress < last) (allocateFixed map r.name physicalAddress last)

def addFixedRegions (policy : Policy) (map : Map) : Except AllocError Map :=
  policy.memory.foldlM addFixedRegion map

/-! ### Variable regions -/

/-- `Region_Type`. -/
structure RegionType where
  alignment : Unsigned64
  size : Unsigned64
  name : String
  deriving DecidableEq

/-- `"<"`. -/
def RegionType.lt (left right : RegionType) : Bool :=
  if left.size < right.size then true
  else if left.size = right.size then
    if left.alignment < right.alignment then true
    else if left.alignment = right.alignment then decide (right.name < left.name)
    else false
  else false

/-- `Insert` of an ordered set, from the least element on; there is no result for an element that is in the set. -/
def insertOrdered (r : RegionType) : List RegionType → Option (List RegionType)
  | [] => some [r]
  | x :: xs =>
    if r.lt x then some (r :: x :: xs)
    else if x.lt r then (insertOrdered r xs).map (x :: ·)
    else none

/-- The alignment of a region; regions without one are assumed to be 4k-aligned. -/
def MemoryRegion.align (r : MemoryRegion) : Unsigned64 := r.alignment.getD 4096

def MemoryRegion.regionType (r : MemoryRegion) : RegionType := ⟨r.align, r.size, r.name⟩

def insertRegion (set : List RegionType) (r : MemoryRegion) : Except AllocError (List RegionType) :=
  match insertOrdered r.regionType set with
  | some set => .ok set
  | none =>
    .error (.duplicateRegion ("Region '" ++ r.name ++ "' (Size " ++ toString r.size.toNat ++ ", Alignment " ++
      toString r.align.toNat ++ ") inserted twice"))

def allocateRegion (map : Map) (r : RegionType) : Except AllocError Map :=
  checked (0 < r.size ∧ 0 < r.alignment) (allocateVariable map r.name r.size r.alignment)

/-- `Allocate_Variable_Regions`; the path selects the elements. -/
def allocateVariableRegions (path : MemoryRegion → Bool) (policy : Policy) (map : Map) : Except AllocError Map := do
  let set ← (policy.memory.filter path).foldlM insertRegion []
  set.reverse.foldlM allocateRegion map

def isSystem (r : MemoryRegion) : Bool := "system".toList.isPrefixOf r.type.toList

/-- The paths of the passes, in their order. -/
def paths : List (MemoryRegion → Bool) :=
  [fun r => r.physicalAddress = none ∧ r.content = .file,
    fun r => r.physicalAddress = none ∧ r.content = .fill ∧ isSystem r,
    fun r => r.physicalAddress = none ∧ r.content = .fill ∧ ¬isSystem r,
    fun r => r.physicalAddress = none ∧ ¬(r.content = .file ∨ r.content = .fill)]

/-! ### Write -/

/-- The address in the first element with the name. -/
def setAddress (name : String) (address : Unsigned64) : List MemoryRegion → Option (List MemoryRegion)
  | [] => none
  | r :: rs =>
    if r.name = name then some ({ r with physicalAddress := some address } :: rs)
    else (setAddress name address rs).map (r :: ·)

/-- `Update_DOM`. -/
def updateDOM (memory : List MemoryRegion) (r : Region) : Except AllocError (List MemoryRegion) :=
  match setAddress r.name r.firstAddress memory with
  | some memory => .ok memory
  | none => .error (.internalError ("Allocated region '" ++ r.name ++ "' not found in policy"))

/-- The memory map from the policy, with the regions that have an address. -/
def fixedMap (policy : Policy) : Except AllocError Map := do
  let map ← addEmptyRegions policy CursorList.empty
  let map ← addDeviceRegions policy map
  addFixedRegions policy map

def allocate (policy : Policy) : Except AllocError (List MemoryRegion) := do
  let map ← fixedMap policy
  let map ← paths.foldlM (fun map path => allocateVariableRegions path policy map) map
  (map.elems.filter (fun r => r.kind = .allocated)).foldlM updateDOM policy.memory

/-- `Write`: the memory elements of the output. -/
def write (policy : Policy) : Except AllocError (List MemoryRegion) :=
  match allocate policy with
  | .error (.map (.overlappingEmptyRegion message)) => .error (.overlappingPhysicalMemory message)
  | result => result

end Muen.Tools.Mucfgalloc
