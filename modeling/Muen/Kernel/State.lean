import Muen.Kernel.Policy

/-!
# The state of the kernel on one CPU

`SK.Bitops` and `SK.Atomics`, the records of `SK`, and the variables of the kernel packages that the
scheduler and the exit handlers read and write. `Scheduler` holds the variables that only the kernel
of this CPU writes; the others are shared with the kernels of other CPUs or with subjects.
-/

namespace Muen.Kernel

/-! ### Bits of words -/

/-- `SK.Bitops.Bit_Test`, and `SK.Atomics.Bit_Test`. -/
def bitTest (value : Word64) (pos : Fin 64) : Bool := value.getLsbD pos

/-- `SK.Bitops.Bit_Set`, and `SK.Atomics.Set`. -/
def bitSet (value : Word64) (pos : Fin 64) : Word64 := value ||| BitVec.twoPow 64 pos

/-- `SK.Bitops.Bit_Clear`, and `SK.Atomics.Clear`. -/
def bitClear (value : Word64) (pos : Fin 64) : Word64 := value &&& ~~~BitVec.twoPow 64 pos

/-- `SK.Bitops.Find_Highest_Bit_Set`. -/
def findHighestBitSet (field : Word64) : Option (Fin 64) :=
  if field = 0 then none else (List.finRange 64).reverse.find? (bitTest field)

@[simp] lemma bitTest_bitSet (value : Word64) (pos i : Fin 64) :
    bitTest (bitSet value pos) i = (bitTest value i || decide (pos = i)) := by
  simp [bitTest, bitSet, Fin.ext_iff, eq_comm]

@[simp] lemma bitTest_bitClear (value : Word64) (pos i : Fin 64) :
    bitTest (bitClear value pos) i = (bitTest value i && !decide (pos = i)) := by
  simp [bitTest, bitClear, Fin.ext_iff, eq_comm]

@[simp] lemma bitTest_zero (i : Fin 64) : bitTest 0 i = false := by
  simp [bitTest]

/-- A word is zero if and only if none of its bits is set. -/
lemma eq_zero_iff_bitTest (value : Word64) : value = 0 ↔ ∀ i, bitTest value i = false := by
  constructor
  · rintro rfl i
    exact bitTest_zero i
  · intro h
    ext i hi
    rw [← BitVec.getLsbD_eq_getElem]
    simpa [bitTest] using h ⟨i, hi⟩

/-! ### Records -/

/-- `SK.Subject_State_Type`. -/
structure SubjectState where
  regs : CpuRegisters
  exitReason : Word32
  intrState : Word32
  activityState : Word32
  sysenterCs : Word32
  instructionLen : Word32
  exitQualification : Word64
  guestPhysAddr : Word64
  rip : Word64
  rsp : Word64
  cr0 : Word64
  shadowCr0 : Word64
  cr3 : Word64
  cr4 : Word64
  shadowCr4 : Word64
  rflags : Word64
  ia32Efer : Word64
  sysenterEsp : Word64
  sysenterEip : Word64
  segmentRegs : SegmentRegisters
  gdtr : Segment
  idtr : Segment
  running : Bool
  deriving DecidableEq

/-- `Subjects.Segment_ID_Type`. -/
inductive SegmentID
  | cs | ss | ds | es | fs | gs | tr | ldtr
  deriving DecidableEq

/-- The fields of a VMCS that the kernel uses, under the names of `SK.Constants`. -/
inductive VmcsField
  | vmxExitReason | vmxExitIntrInfo | vmxExitQualification | vmxExitInstructionLen | guestPhysicalAddress
  | guestInterruptibility | guestActivityState | guestRip | guestRsp | guestCr0 | cr0ReadShadow | guestCr3
  | guestCr4 | cr4ReadShadow | guestRflags | guestIa32Efer | guestBaseGdtr | guestLimitGdtr
  | guestBaseIdtr | guestLimitIdtr | guestSysenterCs | guestSysenterEip | guestSysenterEsp
  | guestSel (segment : SegmentID) | guestBase (segment : SegmentID) | guestLimit (segment : SegmentID)
  | guestAccessRights (segment : SegmentID)
  | guestVmxPreemptTimer | vmEntryInterruptInfo | vmcsLinkPointer | eptPointer
  | pinBasedExecControl | cpuBasedExecControl | cpuBasedExecControl2 | exceptionBitmap | cr0Mask | cr4Mask
  | cr3TargetCount | ioBitmapA | ioBitmapB | msrBitmap | vmExitMsrStoreAddress | vmEntryMsrLoadAddress
  | vmExitMsrStoreCount | vmEntryMsrLoadCount | vmExitControls | vmEntryControls
  | hostSelCs | hostSelDs | hostSelEs | hostSelSs | hostSelFs | hostSelGs | hostSelTr | hostCr0 | hostCr3
  | hostCr4 | hostBaseGdtr | hostBaseIdtr | hostBaseTr | hostRsp | hostRip | hostIa32Efer
  deriving DecidableEq

/-- The VMCS regions in memory and the one that is current on the CPU. -/
structure Vmx where
  current : Option Word64
  memory : Word64 → VmcsField → Word64

/-- `SK.XSAVE_Area_Type`; the registers that the kernel never looks at are bytes at their offsets. -/
structure XsaveArea where
  fcw : BitVec 16
  mxcsr : Word32
  mxcsrMask : Word32
  xstateBV : Word64
  registers : ℕ → Byte

/-- `SK.FPU.FPU_State_Type`. -/
structure FpuState where
  xcr0 : Word64
  xsaveArea : XsaveArea

/-- The variables of `SK.FPU` and the FPU registers of the CPU. -/
structure Fpu (P : Policy) where
  subjectStates : P.Subject → FpuState
  activeXcr0Features : Word64
  currentXcr0 : Word64
  registers : XsaveArea

/-- `Mutimedevents.Timed_Event_Interface_Type`. -/
structure TimedEvent where
  tscTriggerValue : Word64
  eventNr : EventNr
  deriving DecidableEq

/-- `SK.Scheduler.Scheduling_Partition_Type`. -/
structure SchedulingPartition (P : Policy) where
  activeGroupIndex : GroupIndex
  earliestTimer : Option P.Group
  sleeping : Bool

/-- `SK.Scheduler.Scheduling_Group_Type`. -/
structure SchedulingGroup (P : Policy) where
  activeSubject : P.Subject
  nextTimer : Option P.Group
  prevTimer : Option P.Group
  timeout : Word64

/-- The state of `SK.Scheduler` without the activity indicators, and `SK.CPU_Info`. -/
structure Scheduler (P : Policy) where
  cpuID : P.Cpu
  isBSP : Bool
  currentMinorFrameID : P.Minor
  currentMajorFrameID : P.Major
  currentMajorStartCycles : Word64
  partitions : P.Partition → SchedulingPartition P
  groups : P.Group → SchedulingGroup P

structure State (P : Policy) where
  scheduler : Scheduler P
  /-- `Global_Group_Activity_Indicator`. -/
  groupActivity : P.Partition → Word64
  /-- `SK.Subjects_Events.Global_Pending_Events`. -/
  pendingEvents : P.Subject → Word64
  /-- `SK.Subjects_Interrupts.Pending_Interrupts`: the four words of a subject. -/
  pendingInterrupts : P.Subject → Fin 4 → Word64
  timedEvents : P.Subject → TimedEvent
  /-- `SK.Subjects.Descriptors`. -/
  descriptors : P.Subject → SubjectState
  /-- `SK.Scheduling_Info.Sched_Info`: start and end of the minor frame shown to a partition. -/
  schedulingInfo : P.Partition → Word64 × Word64
  vmx : Vmx
  fpu : Fpu P
  /-- The IRQ lines that are masked in the I/O APIC. -/
  maskedIrqs : Byte → Bool
  tsc : Word64
  /-- `SK.Tau0_Interface.New_Major`. -/
  newMajor : P.Major

/-! ### Elementary updates -/

section Updates

variable {P : Policy}

def Scheduler.setPartition (s : Scheduler P) (p : P.Partition)
    (f : SchedulingPartition P → SchedulingPartition P) : Scheduler P :=
  { s with partitions := Function.update s.partitions p (f (s.partitions p)) }

def Scheduler.setGroup (s : Scheduler P) (g : P.Group) (f : SchedulingGroup P → SchedulingGroup P) :
    Scheduler P :=
  { s with groups := Function.update s.groups g (f (s.groups g)) }

@[simp] lemma Scheduler.setPartition_self (s : Scheduler P) (p : P.Partition)
    (f : SchedulingPartition P → SchedulingPartition P) :
    (s.setPartition p f).partitions p = f (s.partitions p) :=
  Function.update_self ..

lemma Scheduler.setPartition_of_ne (s : Scheduler P) {p q : P.Partition}
    (f : SchedulingPartition P → SchedulingPartition P) (h : q ≠ p) :
    (s.setPartition p f).partitions q = s.partitions q :=
  Function.update_of_ne h ..

@[simp] lemma Scheduler.setGroup_self (s : Scheduler P) (g : P.Group)
    (f : SchedulingGroup P → SchedulingGroup P) : (s.setGroup g f).groups g = f (s.groups g) :=
  Function.update_self ..

lemma Scheduler.setGroup_of_ne (s : Scheduler P) {g g' : P.Group}
    (f : SchedulingGroup P → SchedulingGroup P) (h : g' ≠ g) : (s.setGroup g f).groups g' = s.groups g' :=
  Function.update_of_ne h ..

/-- An update of the scheduler's own variables. -/
def State.onScheduler (f : Scheduler P → Scheduler P) (s : State P) : State P :=
  { s with scheduler := f s.scheduler }

/-- `SK.Atomics.Set` on the activity indicator of a partition. -/
def State.setActivity (p : P.Partition) (i : GroupIndex) (s : State P) : State P :=
  { s with groupActivity := Function.update s.groupActivity p (bitSet (s.groupActivity p) i) }

def State.clearActivity (p : P.Partition) (i : GroupIndex) (s : State P) : State P :=
  { s with groupActivity := Function.update s.groupActivity p (bitClear (s.groupActivity p) i) }

def State.setDescriptor (id : P.Subject) (f : SubjectState → SubjectState) (s : State P) : State P :=
  { s with descriptors := Function.update s.descriptors id (f (s.descriptors id)) }

/-- `SK.Subjects.Set_Running`. -/
def setRunning (id : P.Subject) (value : Bool) : State P → State P :=
  State.setDescriptor id (fun d => { d with running := value })

/-- `SK.Subjects.Set_Activity_State`. -/
def setActivityState (id : P.Subject) (value : Word32) : State P → State P :=
  State.setDescriptor id (fun d => { d with activityState := value })

/-- `SK.Subjects.Increment_RIP`: the interruptibility block bits are cleared as well. -/
def incrementRIP (id : P.Subject) : State P → State P :=
  State.setDescriptor id (fun d =>
    { d with
      rip := d.rip + d.instructionLen.setWidth 64
      intrState := if d.intrState &&& 3 ≠ 0 then d.intrState &&& ~~~3 else d.intrState })

def State.setEvents (id : P.Subject) (f : Word64 → Word64) (s : State P) : State P :=
  { s with pendingEvents := Function.update s.pendingEvents id (f (s.pendingEvents id)) }

/-- `SK.Subjects_Events.Set_Event_Pending`. -/
def setEventPending (id : P.Subject) (event : EventNr) : State P → State P :=
  State.setEvents id (fun w => bitSet w event)

/-- `SK.Subjects_Events.Clear_Events`. -/
def clearEvents (id : P.Subject) : State P → State P := State.setEvents id (fun _ => 0)

/-- The word and the bit of a vector in the pending interrupts of a subject. -/
def toPos (vector : Byte) : Fin 4 × Fin 64 :=
  (⟨vector.toNat / 64, by have := vector.isLt; omega⟩, ⟨vector.toNat % 64, by omega⟩)

def State.setInterrupts (id : P.Subject) (f : (Fin 4 → Word64) → Fin 4 → Word64) (s : State P) : State P :=
  { s with pendingInterrupts := Function.update s.pendingInterrupts id (f (s.pendingInterrupts id)) }

/-- `SK.Subjects_Interrupts.Insert_Interrupt`. -/
def insertInterrupt (id : P.Subject) (vector : Byte) : State P → State P :=
  State.setInterrupts id (fun d => Function.update d (toPos vector).1 (bitSet (d (toPos vector).1) (toPos vector).2))

/-- `SK.Subjects_Interrupts.Interrupt_Clear`. -/
def interruptClear (id : P.Subject) (vector : Byte) : State P → State P :=
  State.setInterrupts id
    (fun d => Function.update d (toPos vector).1 (bitClear (d (toPos vector).1) (toPos vector).2))

/-- `SK.Subjects_Interrupts.Init_Interrupts`. -/
def initInterrupts (id : P.Subject) : State P → State P := State.setInterrupts id (fun _ _ => 0)

/-- `SK.Subjects_Interrupts.Has_Pending_Interrupt`. -/
def hasPendingInterrupt (data : Fin 4 → Word64) : Bool := decide (∃ w, data w ≠ 0)

/-- The search of `SK.Subjects_Interrupts.Consume_Interrupt`: the highest vector that is pending. -/
def findInterrupt (data : Fin 4 → Word64) : Option Byte :=
  [3, 2, 1, 0].findSome? (fun w : Fin 4 =>
    (findHighestBitSet (data w)).map (fun pos => BitVec.ofNat 8 (w.val * 64 + pos.val)))

def State.setTimedEvent (id : P.Subject) (f : TimedEvent → TimedEvent) (s : State P) : State P :=
  { s with timedEvents := Function.update s.timedEvents id (f (s.timedEvents id)) }

/-- `SK.Timed_Events.Clear_Event`. -/
def clearEvent (id : P.Subject) : State P → State P :=
  State.setTimedEvent id (fun e => { e with tscTriggerValue := BitVec.allOnes 64 })

/-- `SK.Timed_Events.Init_Event`. -/
def initEvent (id : P.Subject) : State P → State P :=
  State.setTimedEvent id (fun _ => ⟨BitVec.allOnes 64, 0⟩)

/-- `SK.Scheduling_Info.Set_Scheduling_Info`. -/
def setSchedulingInfo (id : P.Partition) (scheduleStart scheduleEnd : Word64) (s : State P) : State P :=
  { s with schedulingInfo := Function.update s.schedulingInfo id (scheduleStart, scheduleEnd) }

end Updates

end Muen.Kernel
