import Muen.Lib.Literals
import Muen.Lib.AddressSpace
import Muen.Lib.Fallible
import Muen.Components.Controller.Lifecycle

/-!
# Init.Memory

The three passes over the memory regions of a subject that is initialized: the writable regions are cleared and filled
with their content, and the content of all regions is checked. Subject info lists the regions among other resources
in an array of fixed size. The memory is the one that the code reads and writes through objects at given addresses.
-/

namespace Muen.Components.Init
open Muen.Lib Controller

abbrev Memory := AddressSpace 64

/-! ### Subject info -/

abbrev Hash := BitVec 256

def noHash : Hash := 0

inductive ContentType
  | uninitialized | fill | file
deriving DecidableEq

inductive MemoryKind
  | subject | subjectInfo | subjectBinary | subjectZeropage | subjectInitrd | subjectChannel | subjectState
  | subjectTimedEvent | subjectInterrupts | subjectSchedulingInfo | subjectBios | subjectAcpiRsdp | subjectAcpiXsdt
  | subjectAcpiFadt | subjectAcpiDsdt | subjectDevice | subjectSolo5BootInfo | subjectCrashAudit | kernelInterface
deriving DecidableEq

def noPattern : Fin 257 := 256

/-- A memory region, with the predicate of its type. -/
structure Memregion where
  kind : MemoryKind
  content : ContentType
  writable : Bool
  pattern : Fin 257
  address : Unsigned64
  size : Unsigned64
  hash : Hash
  size_mod : size.toNat % 64 = 0
  pattern_iff : pattern ≠ noPattern ↔ content = .fill
deriving DecidableEq

lemma noPattern_uninitialized : noPattern ≠ noPattern ↔ ContentType.uninitialized = .fill := by decide

def nullMemregion : Memregion :=
  ⟨.subject, .uninitialized, false, noPattern, 0, 0, noHash, rfl, noPattern_uninitialized⟩

inductive Resource
  | none
  | memory (memData : Memregion)
  | event
  | vector
  | device
  | deviceMemory
deriving DecidableEq

/-- The region of a resource, if it has the given hash and content. -/
def Resource.withHash (hash : Hash) (content : ContentType) : Resource → Option Memregion
  | memory m => if m.content = content then (if m.hash = hash then some m else Option.none) else Option.none
  | _ => Option.none

def muenSubjectInfoMagic : Unsigned64 := 0x03006f666e69756d

def nullName : String := ""

/-- The resources are an array with the indexes from 1 to 255. -/
structure SubjectInfo where
  magic : Unsigned64
  name : String
  resources : List Resource
  resources_length : resources.length = 255

namespace SubjectInfo

def isValid (sinfo : SubjectInfo) : Bool := sinfo.magic = muenSubjectInfoMagic

/-- The first region with the given hash and content, or none, which is a region too. -/
def memoryByHash (sinfo : SubjectInfo) (hash : Hash) (content : ContentType) : Memregion :=
  (sinfo.resources.findSome? (Resource.withHash hash content)).getD nullMemregion

end SubjectInfo

structure ResourceIterator where
  resourceIdx : Fin 255
  owner : String
  done : Bool

namespace ResourceIterator

def create (container : SubjectInfo) : ResourceIterator := ⟨0, container.name, false⟩

def element (container : SubjectInfo) (iter : ResourceIterator) : Resource :=
  container.resources.getD iter.resourceIdx.val .none

def hasElement (container : SubjectInfo) (iter : ResourceIterator) : Bool :=
  !iter.done && iter.element container ≠ .none

/-- The indexes of the array start at one. -/
def index (iter : ResourceIterator) : Nat := iter.resourceIdx.val + 1

def next (iter : ResourceIterator) : ResourceIterator :=
  if h : iter.owner ≠ nullName ∧ iter.resourceIdx.val < 254 then
    { iter with resourceIdx := ⟨iter.resourceIdx.val + 1, by omega⟩ }
  else { iter with done := true }

end ResourceIterator

/-! ### Address space -/

def memset (region : Memregion) (pattern : Fin 257) (m : Memory) : Memory :=
  let p : Unsigned64 := BitVec.ofNat 64 pattern.val
  let data := p <<< 56 + p <<< 48 + p <<< 40 + p <<< 32 + p <<< 24 + p <<< 16 + p <<< 8 + p
  (List.range (region.size.toNat / 8)).foldl
    (fun m i => m.writeLe (region.address + BitVec.ofNat 64 (8 * i)) 8 data.toNat) m

def memcopy (source destination : Memregion) (m : Memory) : Memory :=
  (List.range (source.size.toNat / 8)).foldl (fun m i =>
    m.writeLe (destination.address + BitVec.ofNat 64 (8 * i)) 8
      (m.readLe (source.address + BitVec.ofNat 64 (8 * i)) 8)) m

/-- The number of blocks wraps around for an empty region. -/
def calculateHash (sha256 : List Byte → Hash) (source : Memregion) (m : Memory) : Hash :=
  let blockRangeLast := source.size / 64 - 1
  sha256 ((List.range (blockRangeLast.toNat + 1)).flatMap
    (fun i => m.read (source.address + BitVec.ofNat 64 (64 * i)) 64))

/-- What an initialization rests on: subject info, the place of the status page, the stack pointer, and SHA-256. -/
structure Subject where
  sinfo : SubjectInfo
  statusAddress : Unsigned64
  stackPointer : Unsigned64
  sha256 : List Byte → Hash

namespace Subject

variable (subject : Subject)

/-! ### Status -/

def getState (m : Memory) : SubjectState := BitVec.ofNat 64 (m.readLe subject.statusAddress 8)

def setState (state : SubjectState) (m : Memory) : Memory := m.writeLe subject.statusAddress 8 state.toNat

def setDiagnostics (value : Nat) (m : Memory) : Memory := m.writeLe (subject.statusAddress + 16) 8 value

def diagUnexpectedCmd : Nat := 0x0001

/-- State, watchdog, diagnostics and padding of the status page. -/
def initializeStatus (m : Memory) : Memory :=
  m.write subject.statusAddress
    (leBytes 8 SubjectState.initial.toNat ++ leBytes 8 0 ++ leBytes 8 0 ++ List.replicate 4072 0)

/-! ### Passes -/

def isStack (region : Memregion) : Bool :=
  let endAddress := region.address + region.size - 1
  decide (region.address ≤ subject.stackPointer) && decide (subject.stackPointer ≤ endAddress)

def isStatus (region : Memregion) : Bool := region.address = subject.statusAddress

def shouldProcess (region : Memregion) : Bool := !subject.isStack region && !subject.isStatus region

/-- A round of a loop, for a resource with its index. The index is set as diagnostics, and the body is run for the
regions to process. -/
def visit (body : Memregion → Memory → Memory × Bool) (m : Memory) (x : Resource × Nat) : Memory × Bool :=
  let m := subject.setDiagnostics x.2 m
  match x.1 with
  | .memory region => if subject.shouldProcess region then body region m else (m, true)
  | _ => (m, true)

/-- A loop over the resources that the iterator yields, which ends when the body fails. -/
def processMemregions (body : Memregion → Memory → Memory × Bool) : Nat → ResourceIterator → Memory → Memory × Bool
  | 0, _, m => (m, true)
  | left + 1, iter, m =>
    if iter.hasElement subject.sinfo then
      let (m, success) := subject.visit body m (iter.element subject.sinfo, iter.index)
      if success then processMemregions body left iter.next m else (m, false)
    else (m, true)

/-- The iterator yields at most as many resources as the array has. -/
def forMemregions (body : Memregion → Memory → Memory × Bool) (m : Memory) : Memory × Bool :=
  subject.processMemregions body 256 (ResourceIterator.create subject.sinfo) m

end Subject

/-- The regions that are cleared and set up. -/
def Memregion.isSetUp (r : Memregion) : Bool :=
  r.writable && decide (r.kind ≠ .subjectState) && decide (r.kind ≠ .subjectTimedEvent)

namespace Subject

variable (subject : Subject)

def clearWritable (m : Memory) : Memory :=
  (subject.forMemregions (fun region m => (if region.isSetUp then memset region 0 m else m, true)) m).1

def initRegionContent (region : Memregion) (m : Memory) : Memory × Bool :=
  match region.content with
  | .file => (m, true)
  | .fill => (memset region region.pattern m, true)
  | .uninitialized =>
    if region.hash ≠ noHash then
      let srcRegion := subject.sinfo.memoryByHash region.hash .file
      if srcRegion = nullMemregion ∨ srcRegion.size ≠ region.size then (m, false)
      else (memcopy srcRegion region m, true)
    else (m, true)

def setupWritable (m : Memory) : Memory × Bool :=
  subject.forMemregions
    (fun region m => if region.isSetUp then subject.initRegionContent region m else (m, true)) m

/-- The hashes that are checked. -/
def hashMatches (region : Memregion) (m : Memory) : Bool :=
  if region.kind ≠ .subjectChannel ∧ region.hash ≠ noHash then
    calculateHash subject.sha256 region m = region.hash
  else true

def checkHashes (m : Memory) : Memory × Bool :=
  subject.forMemregions (fun region m => (m, subject.hashMatches region m)) m

end Subject

end Muen.Components.Init
