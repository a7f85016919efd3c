import Muen.Lib.Literals
import Mathlib.Data.BitVec
import Mathlib.Data.Fin.Basic

/-!
# The system policy of the kernel

`Skp` and its children: the tables that are generated from the policy and compiled into the kernel.
`Policy` carries what the generator ensures: the groups of a partition stand at the indexes up to the
last one, a group stands in one partition only, and the tables of subjects agree with those of groups.
-/

namespace Muen.Kernel

/-- `SK.Word64`. -/
abbrev Word64 := BitVec 64

/-- `SK.Word32`. -/
abbrev Word32 := BitVec 32

/-- `SK.Byte`. -/
abbrev Byte := BitVec 8

/-- `Skp.Scheduling.Scheduling_Group_Index_Range`. -/
abbrev GroupIndex := Fin 64

/-- `Skp.Events.Event_Range` with the six event bits of the policy. -/
abbrev EventNr := Fin 64

/-- `Skp.Scheduling.Minor_Frame_Type`. -/
structure MinorFrame (partitions : ℕ) where
  partitionID : Fin partitions
  barrier : Option ℕ
  deadline : Word64

/-- `Skp.Scheduling.Major_Frame_Type`: the last minor frame and all of them. -/
structure MajorFrame (partitions lastMinor : ℕ) where
  length : Fin (lastMinor + 1)
  minorFrames : Fin (lastMinor + 1) → MinorFrame partitions

/-- `Skp.Events.Source_Event_Action_Kind`. -/
inductive SourceAction
  | noAction
  | subjectSleep
  | subjectYield
  | systemReboot
  | systemPoweroff
  | systemPanic
  | unmaskIrq
  deriving DecidableEq

/-- `Skp.Events.Source_Event_Type`. -/
structure SourceEvent (subjects : ℕ) where
  sourceAction : SourceAction
  targetSubject : Option (Fin subjects)
  targetEvent : Option EventNr
  handover : Bool
  sendIPI : Bool
  irqNumber : Byte

/-- `Skp.Events.Target_Event_Type`. -/
inductive TargetEvent
  | noAction
  | injectInterrupt (vector : Byte)
  | reset
  deriving DecidableEq

/-- `Skp.Interrupts.Vector_Route_Type`. -/
structure VectorRoute (subjects : ℕ) where
  subject : Option (Fin subjects)
  vector : Byte

/-- `SK.CPU_Registers_Type`. -/
structure CpuRegisters where
  cr2 : Word64
  rax : Word64
  rbx : Word64
  rcx : Word64
  rdx : Word64
  rdi : Word64
  rsi : Word64
  rbp : Word64
  r08 : Word64
  r09 : Word64
  r10 : Word64
  r11 : Word64
  r12 : Word64
  r13 : Word64
  r14 : Word64
  r15 : Word64
  deriving DecidableEq

/-- `SK.Segment_Type`. -/
structure Segment where
  selector : Word64
  base : Word64
  limit : Word32
  accessRights : Word32
  deriving DecidableEq

def nullSegment : Segment := ⟨0, 0, 0, 0⟩

/-- `SK.Segment_Registers_Type`. -/
structure SegmentRegisters where
  cs : Segment
  ss : Segment
  ds : Segment
  es : Segment
  fs : Segment
  gs : Segment
  tr : Segment
  ldtr : Segment
  deriving DecidableEq

/-- The entries of `Skp.Subjects` from which the state and the VMCS of a subject are set up. -/
structure SubjectSpec where
  vmcsAddress : Word64
  gprs : CpuRegisters
  entryPoint : Word64
  stackAddress : Word64
  cr0 : Word64
  cr0Shadow : Word64
  cr4 : Word64
  cr4Shadow : Word64
  segments : SegmentRegisters
  msrCount : Word32
  pml4Address : Word64
  eptPointer : Word64
  ioBitmapAddress : Word64
  msrBitmapAddress : Word64
  msrStoreAddress : Word64
  execPin : Word32
  execProc : Word32
  execProc2 : Word32
  exitCtrls : Word32
  entryCtrls : Word32
  cr0Mask : Word64
  cr4Mask : Word64
  exceptionBitmap : Word32

structure Policy where
  subjects : ℕ
  partitions : ℕ
  groups : ℕ
  cpus : ℕ
  lastMajor : ℕ
  lastMinor : ℕ
  /-- `Skp.Subjects.Get_CPU_ID`. -/
  subjectCpu : Fin subjects → Fin cpus
  subjectSpec : Fin subjects → SubjectSpec
  schedulingPlans : Fin cpus → Fin (lastMajor + 1) → MajorFrame partitions lastMinor
  /-- `Skp.Scheduling.Major_Frames`. -/
  majorFramePeriod : Fin (lastMajor + 1) → Word64
  vmxTimerRate : ℕ
  /-- `Scheduling_Partition_Config`: the last group index and the groups of a partition. -/
  lastGroupIndex : Fin partitions → GroupIndex
  partitionGroups : Fin partitions → GroupIndex → Option (Fin groups)
  /-- `Scheduling_Group_Config`: the initial subject and the index of a group. -/
  initialSubject : Fin groups → Fin subjects
  groupIndex : Fin groups → GroupIndex
  subjectToPartition : Fin subjects → Fin partitions
  subjectToGroup : Fin subjects → Fin groups
  lastTrap : ℕ
  getTrap : Fin subjects → Fin (lastTrap + 1) → SourceEvent subjects
  getSourceEvent : Fin subjects → EventNr → SourceEvent subjects
  getTargetEvent : Fin subjects → EventNr → TargetEvent
  remapOffset : Byte
  vectorRouting : Byte → VectorRoute subjects
  /-- `Vect_Nr in Mask_IRQ_Type`. -/
  maskIrq : Byte → Bool
  partitionGroups_isSome : ∀ p i, (partitionGroups p i).isSome ↔ i ≤ lastGroupIndex p
  partitionGroups_unique : ∀ p i g, partitionGroups p i = some g →
    groupIndex g = i ∧ subjectToPartition (initialSubject g) = p
  subject_in_partition : ∀ s,
    partitionGroups (subjectToPartition s) (groupIndex (subjectToGroup s)) = some (subjectToGroup s)
  initialSubject_group : ∀ g, subjectToGroup (initialSubject g) = g

namespace Policy

variable (P : Policy)

abbrev Subject := Fin P.subjects
abbrev Partition := Fin P.partitions
abbrev Group := Fin P.groups
abbrev Cpu := Fin P.cpus
abbrev Major := Fin (P.lastMajor + 1)
abbrev Minor := Fin (P.lastMinor + 1)

instance (priority := 2000) neZero_major : NeZero (P.lastMajor + 1) := ⟨Nat.succ_ne_zero _⟩

instance (priority := 2000) neZero_minor : NeZero (P.lastMinor + 1) := ⟨Nat.succ_ne_zero _⟩

variable {P}

/-- The one partition a group belongs to. -/
def partitionOf (g : P.Group) : P.Partition := P.subjectToPartition (P.initialSubject g)

/-- A subject is in the partition of its group. -/
lemma subjectToPartition_eq (s : P.Subject) : P.subjectToPartition s = partitionOf (P.subjectToGroup s) :=
  (P.partitionGroups_unique _ _ _ (P.subject_in_partition s)).2.symm

/-- A group stands at its own index of its own partition, and nowhere else. -/
lemma partitionGroups_eq_some (p : P.Partition) (i : GroupIndex) (g : P.Group) :
    P.partitionGroups p i = some g ↔ partitionOf g = p ∧ P.groupIndex g = i := by
  constructor
  · intro h
    exact (P.partitionGroups_unique p i g h).symm
  · rintro ⟨rfl, rfl⟩
    have h := P.subject_in_partition (P.initialSubject g)
    rwa [P.initialSubject_group] at h

lemma exists_group {p : P.Partition} {i : GroupIndex} (h : i ≤ P.lastGroupIndex p) :
    ∃ g, P.partitionGroups p i = some g :=
  Option.isSome_iff_exists.mp ((P.partitionGroups_isSome p i).mpr h)

/-- Groups of one partition are told apart by their index. -/
lemma groupIndex_injective {g g' : P.Group} (hp : partitionOf g = partitionOf g')
    (hi : P.groupIndex g = P.groupIndex g') : g = g' := by
  have h := (partitionGroups_eq_some _ _ g).mpr ⟨rfl, rfl⟩
  have h' := (partitionGroups_eq_some _ _ g').mpr ⟨hp.symm, hi.symm⟩
  exact Option.some.inj (h.symm.trans h')

end Policy

/-! ### A small policy -/

/-- `Skp.Events.Null_Source_Event`. -/
def nullSourceEvent {subjects : ℕ} : SourceEvent subjects := ⟨.noAction, none, none, false, false, 0⟩

/-- The specification of a subject that starts with cleared registers. -/
def clearedSpec (vmcsAddress : Word64) : SubjectSpec where
  vmcsAddress := vmcsAddress
  gprs := ⟨0, 0, 0, 0, 0, 0, 0, 0, 0, 0, 0, 0, 0, 0, 0, 0⟩
  entryPoint := 0
  stackAddress := 0
  cr0 := 0
  cr0Shadow := 0
  cr4 := 0
  cr4Shadow := 0
  segments := ⟨nullSegment, nullSegment, nullSegment, nullSegment, nullSegment, nullSegment, nullSegment,
    nullSegment⟩
  msrCount := 0
  pml4Address := 0
  eptPointer := 0
  ioBitmapAddress := 0
  msrBitmapAddress := 0
  msrStoreAddress := 0
  execPin := 0
  execProc := 0
  execProc2 := 0
  exitCtrls := 0
  entryCtrls := 0
  cr0Mask := 0
  cr4Mask := 0
  exceptionBitmap := 0

/-- One CPU and two partitions: the first one, which the CPU always runs, has the group of the subjects 0
and 3 and the group of the subject 1, the second one has the group of the subject 2. Event 0 of the
subject 0 puts it to sleep, vector 33 is routed to it, and there are no other events and traps. -/
def smallPolicy : Policy where
  subjects := 4
  partitions := 2
  groups := 3
  cpus := 1
  lastMajor := 0
  lastMinor := 0
  subjectCpu _ := 0
  subjectSpec s := clearedSpec (BitVec.ofNat 64 (4096 * (s.val + 1)))
  schedulingPlans _ _ := ⟨0, fun _ => ⟨0, none, 100⟩⟩
  majorFramePeriod _ := 100
  vmxTimerRate := 0
  lastGroupIndex p := if p = 0 then 1 else 0
  partitionGroups p i := if p = 0 then (if i = 0 then some 0 else if i = 1 then some 1 else none)
    else if i = 0 then some 2 else none
  initialSubject g := g.castSucc
  groupIndex g := if g = 1 then 1 else 0
  subjectToPartition s := if s = 2 then 1 else 0
  subjectToGroup s := if s = 2 then 2 else if s = 1 then 1 else 0
  lastTrap := 0
  getTrap _ _ := nullSourceEvent
  getSourceEvent s e := if s = 0 ∧ e = 0 then { nullSourceEvent with sourceAction := .subjectSleep }
    else nullSourceEvent
  getTargetEvent _ _ := .noAction
  remapOffset := 32
  vectorRouting v := if v = 33 then ⟨some 0, 40⟩ else ⟨none, 0⟩
  maskIrq _ := false
  partitionGroups_isSome := by decide
  partitionGroups_unique := by decide
  subject_in_partition := by decide
  initialSubject_group := by decide

instance : NeZero smallPolicy.subjects := ⟨by decide⟩
instance : NeZero smallPolicy.partitions := ⟨by decide⟩
instance : NeZero smallPolicy.groups := ⟨by decide⟩
instance : NeZero smallPolicy.cpus := ⟨by decide⟩

end Muen.Kernel
