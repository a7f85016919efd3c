import Muen.Kernel.State
import Muen.Lib.Atomic

/-!
# SK.Scheduler

The scheduler of one CPU as programs of atomic steps: every access to the activity indicators, the
pending events and the other variables that are shared with other CPUs is a step of its own, and so is
every update of the scheduler's own variables.
-/

namespace Muen.Kernel

open Lib

variable {P : Policy}

/-- What a step of the kernel is labelled with: a run-time check that failed, a call of
`Activate_Group` for a group of a partition, and the group of a deactivation that has cleared its
activity bit and has not yet tested again whether its subject is active. -/
structure Label (P : Policy) where
  failed : Bool := false
  activating : Option (P.Partition × P.Group) := none
  deactivating : Option P.Group := none

/-- Procedures of the kernel. -/
abbrev Proc (P : Policy) := Prog (Label P) (State P)

/-- A run-time check of the Ada program that fails. -/
def failed : Label P := { failed := true }

/-! ### The current subject -/

def currentSchedulingPartitionID (s : Scheduler P) : P.Partition :=
  ((P.schedulingPlans s.cpuID s.currentMajorFrameID).minorFrames s.currentMinorFrameID).partitionID

def currentSchedulingGroupID (s : Scheduler P) : Option P.Group :=
  let partitionID := currentSchedulingPartitionID s
  P.partitionGroups partitionID (s.partitions partitionID).activeGroupIndex

def getCurrentSubjectID (s : Scheduler P) : Option P.Subject :=
  (currentSchedulingGroupID s).map (fun g => (s.groups g).activeSubject)

/-- The call of `Get_Current_Subject_ID`; the conversion of `No_Group` to a group would fail. -/
def getCurrentSubject : Proc P P.Subject := do
  let id ← Prog.read {} (fun s => getCurrentSubjectID s.scheduler)
  Prog.require failed id

def setCurrentSubjectID (id : P.Subject) : Proc P Unit := do
  let groupID ← Prog.read {} (fun s => currentSchedulingGroupID s.scheduler)
  let groupID ← Prog.require failed groupID
  Prog.modify {} (State.onScheduler (fun s => s.setGroup groupID (fun x => { x with activeSubject := id })))

/-! ### Timer lists -/

def isGroupInTimerList (partitionID : P.Partition) (groupID : P.Group) (s : Scheduler P) : Bool :=
  (s.partitions partitionID).earliestTimer = some groupID ∨ (s.groups groupID).prevTimer ≠ none

def setEarliestTimer (partitionID : P.Partition) (timer : Option P.Group) (s : Scheduler P) : Scheduler P :=
  s.setPartition partitionID (fun x => { x with earliestTimer := timer })

/-- `Scheduling_Groups (Group).Next_Timer := Timer` unless the group is `No_Group`. -/
def setNextTimer (group timer : Option P.Group) (s : Scheduler P) : Scheduler P :=
  match group with
  | none => s
  | some g => s.setGroup g (fun x => { x with nextTimer := timer })

def setPrevTimer (group timer : Option P.Group) (s : Scheduler P) : Scheduler P :=
  match group with
  | none => s
  | some g => s.setGroup g (fun x => { x with prevTimer := timer })

def removeGroupFromTimerList (partitionID : P.Partition) (groupID : P.Group) (s : Scheduler P) :
    Scheduler P :=
  let prevGroup := (s.groups groupID).prevTimer
  let nextGroup := (s.groups groupID).nextTimer
  let s := if prevGroup = none then setEarliestTimer partitionID nextGroup s
    else setNextTimer prevGroup nextGroup s
  let s := setPrevTimer nextGroup prevGroup s
  s.setGroup groupID (fun x => { x with prevTimer := none, nextTimer := none })

/-- The local procedure `Insert` of `Deactivate_Group`. -/
def insertGroup (partition : P.Partition) (group : P.Group) (deadline : Word64) (prev next : Option P.Group)
    (s : Scheduler P) : Scheduler P :=
  let s := s.setGroup group (fun x => { x with timeout := deadline, prevTimer := prev, nextTimer := next })
  let s := if prev = none then setEarliestTimer partition (some group) s
    else setNextTimer prev (some group) s
  setPrevTimer next (some group) s

/-- The insertion loop of `Deactivate_Group`. -/
def insertLoop (partitionID : P.Partition) (groupID : P.Group) (groupDeadline : Word64) :
    ℕ → Option P.Group → Option P.Group → Scheduler P → Option (Scheduler P)
  | 0, _, _, _ => none
  | _ + 1, prevGroup, none, s => some (insertGroup partitionID groupID groupDeadline prevGroup none s)
  | fuel + 1, prevGroup, some nextGroup, s =>
    if groupDeadline < (s.groups nextGroup).timeout then
      some (insertGroup partitionID groupID groupDeadline prevGroup (some nextGroup) s)
    else insertLoop partitionID groupID groupDeadline fuel (some nextGroup) (s.groups nextGroup).nextTimer s

/-- The timer list part of `Deactivate_Group`: a group that is in the list already is left there. -/
def insertTimer (partitionID : P.Partition) (groupID : P.Group) (groupDeadline : Word64) (s : Scheduler P) :
    Option (Scheduler P) :=
  if isGroupInTimerList partitionID groupID s then some s
  else insertLoop partitionID groupID groupDeadline (P.groups + 1) none
    (s.partitions partitionID).earliestTimer s

/-! ### Activation -/

/-- `Is_Active`; the argument is the group of the deactivation that the test is part of, if any. -/
def isActive (deactivating : Option P.Group) (id : P.Subject) : Proc P Bool := do
  let label : Label P := { deactivating := deactivating }
  let running ← Prog.read label (fun s => (s.descriptors id).running)
  if running then pure true else do
    let event ← Prog.read label (fun s => decide (s.pendingEvents id ≠ 0))
    if event then pure true else do
      let interrupt ← Prog.read label (fun s => hasPendingInterrupt (s.pendingInterrupts id))
      if interrupt then pure true else do
        let now ← Prog.read label State.tsc
        Prog.read label (fun s => decide ((s.timedEvents id).tscTriggerValue ≤ now))

def activateGroup (deactivating : Option P.Group) (partitionID : P.Partition) (groupID : P.Group) :
    Proc P Unit := do
  Prog.modify { activating := some (partitionID, groupID), deactivating := deactivating }
    (State.onScheduler (removeGroupFromTimerList partitionID groupID))
  Prog.modify { deactivating := deactivating } (State.setActivity partitionID (P.groupIndex groupID))

def deactivateGroup (partitionID : P.Partition) (groupIndex : GroupIndex) (id : P.Subject) :
    Proc P Unit := do
  let groupDeadline ← Prog.read {} (fun s => (s.timedEvents id).tscTriggerValue)
  Prog.attempt {} failed (fun s =>
    (insertTimer partitionID (P.subjectToGroup id) groupDeadline s.scheduler).map
      (fun scheduler => { s with scheduler := scheduler }))
  Prog.modify {} (State.clearActivity partitionID groupIndex)

/-- A deactivation with the test that follows it: the group is activated again if its subject has
become active in the meantime. The result says whether it has. -/
def deactivateAndTest (partitionID : P.Partition) (groupIndex : GroupIndex) (groupID : P.Group)
    (id : P.Subject) : Proc P Bool := do
  deactivateGroup partitionID groupIndex id
  let subjectIsActive ← isActive (some groupID) id
  if subjectIsActive then do
    activateGroup (some groupID) partitionID groupID
    pure true
  else pure false

def successorGroup (partitionID : P.Partition) (groupIndex : GroupIndex) : GroupIndex :=
  if groupIndex < P.lastGroupIndex partitionID then groupIndex + 1 else 0

/-- One round of the loop of `Find_Next_Active_Scheduling_Group`: the group at the index, if it is
active. -/
def examineGroup (partitionID : P.Partition) (groupIndex : GroupIndex) : Proc P (Option P.Group) := do
  let indicatedAsActive ← Prog.read {} (fun s => bitTest (s.groupActivity partitionID) groupIndex)
  if indicatedAsActive then do
    let nextGroup ← Prog.require failed (P.partitionGroups partitionID groupIndex)
    let subject ← Prog.read {} (fun s => (s.scheduler.groups nextGroup).activeSubject)
    let subjectIsActive ← isActive none subject
    if subjectIsActive then do
      Prog.modify {} (State.onScheduler (fun s =>
        if isGroupInTimerList partitionID nextGroup s then removeGroupFromTimerList partitionID nextGroup s
        else s))
      pure (some nextGroup)
    else do
      let reactivated ← deactivateAndTest partitionID groupIndex nextGroup subject
      pure (if reactivated then some nextGroup else none)
  else pure none

def findLoop (partitionID : P.Partition) (current : GroupIndex) :
    ℕ → GroupIndex → Proc P (Option P.Group × GroupIndex)
  | 0, _ => Prog.fail failed
  | fuel + 1, groupIndex => do
    let nextGroupIndex := successorGroup partitionID groupIndex
    let nextGroup ← examineGroup partitionID nextGroupIndex
    if nextGroup.isSome ∨ nextGroupIndex = current then pure (nextGroup, nextGroupIndex)
    else findLoop partitionID current fuel nextGroupIndex

def findNextActiveSchedulingGroup (partitionID : P.Partition) : Proc P (Option P.Group × GroupIndex) := do
  let current ← Prog.read {} (fun s => (s.scheduler.partitions partitionID).activeGroupIndex)
  findLoop partitionID current 64 current

def indicateActivity (id : P.Subject) (sameCPU : Bool) : Proc P Unit := do
  let set := State.setActivity (P.subjectToPartition id) (P.groupIndex (P.subjectToGroup id))
  if sameCPU then do
    let active ← Prog.read {} (fun s => (s.scheduler.groups (P.subjectToGroup id)).activeSubject)
    if id = active then Prog.modify {} set else pure ()
  else Prog.modify {} set

/-! ### Scheduling operations -/

/-- The loop of `Update_Timer_List`: the first group whose timer has not expired. -/
def timerLoop (partition : P.Partition) (now : Word64) : ℕ → Option P.Group → Proc P (Option P.Group)
  | _, none => pure none
  | 0, some _ => Prog.fail failed
  | fuel + 1, some group => do
    let timer ← Prog.read {} (fun s => s.scheduler.groups group)
    if timer.timeout ≤ now then do
      activateGroup none partition group
      timerLoop partition now fuel timer.nextTimer
    else pure (some group)

def updateTimerList (partition : P.Partition) : Proc P Unit := do
  let earliest ← Prog.read {} (fun s => (s.scheduler.partitions partition).earliestTimer)
  let now ← Prog.read {} State.tsc
  let cur ← timerLoop partition now P.groups earliest
  Prog.modify {} (State.onScheduler (fun s => setPrevTimer cur none (setEarliestTimer partition cur s)))

def setActiveGroupIndex (partitionID : P.Partition) (groupIndex : GroupIndex) (s : Scheduler P) :
    Scheduler P :=
  s.setPartition partitionID (fun x => { x with activeGroupIndex := groupIndex })

def setSleeping (partitionID : P.Partition) (value : Bool) (s : Scheduler P) : Scheduler P :=
  s.setPartition partitionID (fun x => { x with sleeping := value })

/-- The switch to the next group: its subject runs, and it is the active group of its partition. -/
def switchGroup (partitionID : P.Partition) (group : P.Group) (groupIndex : GroupIndex) : Proc P Unit := do
  let subject ← Prog.read {} (fun s => (s.scheduler.groups group).activeSubject)
  Prog.modify {} (setRunning subject true)
  Prog.modify {} (State.onScheduler (setActiveGroupIndex partitionID groupIndex))

def updateSchedulingPartition : Proc P Unit := do
  let currentSubject ← getCurrentSubject
  let partitionID := P.subjectToPartition currentSubject
  updateTimerList partitionID
  let next ← findNextActiveSchedulingGroup partitionID
  match next.1 with
  | none => pure ()
  | some nextGroup => do
    let sleeping ← Prog.read {} (fun s => (s.scheduler.partitions partitionID).sleeping)
    if sleeping then do
      Prog.modify {} (setActivityState currentSubject 0)
      Prog.modify {} (State.onScheduler (setSleeping partitionID false))
      switchGroup partitionID nextGroup next.2
    else switchGroup partitionID nextGroup next.2

/-- The part of `Reschedule_Partition` that deactivates the group of the subject if that is not
active. -/
def deactivateSubject (partitionID : P.Partition) (id : P.Subject) : Proc P Unit := do
  let subjectIsActive ← isActive none id
  if subjectIsActive then pure () else do
    let groupIndex ← Prog.read {} (fun s => (s.scheduler.partitions partitionID).activeGroupIndex)
    let _ ← deactivateAndTest partitionID groupIndex (P.subjectToGroup id) id
    pure ()

/-- The part of `Reschedule_Partition` that switches to the next group, or puts the partition to sleep
if there is none. -/
def switchOrSleep (partitionID : P.Partition) (id : P.Subject) (next : Option P.Group × GroupIndex) :
    Proc P Unit :=
  match next.1 with
  | some nextGroup => switchGroup partitionID nextGroup next.2
  | none => do
    Prog.modify {} (setActivityState id 1)
    Prog.modify {} (State.onScheduler (setSleeping partitionID true))

def reschedulePartition (id : P.Subject) (incrRIP sleep : Bool) : Proc P P.Subject := do
  let partitionID ← Prog.read {} (fun s => currentSchedulingPartitionID s.scheduler)
  Prog.modify {} (if sleep then setRunning id false else fun s => s)
  deactivateSubject partitionID id
  Prog.modify {} (if incrRIP then incrementRIP id else fun s => s)
  let next ← findNextActiveSchedulingGroup partitionID
  switchOrSleep partitionID id next
  getCurrentSubject

/-- The change of the major frame that the BSP makes between the two barriers at the end of a major
frame; all CPUs see it after the second barrier. -/
def updateMajorFrame (s : State P) : State P :=
  { s with
    scheduler :=
      { s.scheduler with
        currentMajorFrameID := s.newMajor
        currentMajorStartCycles := s.scheduler.currentMajorStartCycles +
          P.majorFramePeriod s.scheduler.currentMajorFrameID } }

/-- The deadline of a minor frame in the scheduling plan of this CPU. -/
def frameDeadline (s : Scheduler P) (major : P.Major) (minor : P.Minor) : Word64 :=
  ((P.schedulingPlans s.cpuID major).minorFrames minor).deadline

/-- The switch to the next minor frame, or to the first one of the next major frame. -/
def switchMinorFrame (s : Scheduler P) : Proc P Unit := do
  let major := P.schedulingPlans s.cpuID s.currentMajorFrameID
  if h : s.currentMinorFrameID.val < major.length.val then
    Prog.modify {} (State.onScheduler (fun x =>
      { x with currentMinorFrameID := ⟨s.currentMinorFrameID.val + 1, by have := major.length.isLt; omega⟩ }))
  else do
    Prog.modify {} updateMajorFrame
    Prog.modify {} (State.onScheduler (fun x => { x with currentMinorFrameID := 0 }))

def updateSchedulingInfo : Proc P P.Subject := do
  let old ← Prog.read {} State.scheduler
  switchMinorFrame old
  updateSchedulingPartition
  let nextSubject ← getCurrentSubject
  Prog.modify {} (fun s => setSchedulingInfo (P.subjectToPartition nextSubject)
    (old.currentMajorStartCycles + frameDeadline old old.currentMajorFrameID old.currentMinorFrameID)
    (s.scheduler.currentMajorStartCycles +
      frameDeadline s.scheduler s.scheduler.currentMajorFrameID s.scheduler.currentMinorFrameID) s)
  pure nextSubject

/-! ### Initial values -/

/-- `Null_Scheduling_Partition`. -/
def nullSchedulingPartition : SchedulingPartition P := ⟨0, none, false⟩

/-- `Init_Scheduling_Groups`: the initial subject of every group is its active one, and no group is in
a timer list. -/
def initSchedulingGroups (g : P.Group) : SchedulingGroup P :=
  ⟨P.initialSubject g, none, none, BitVec.allOnes 64⟩

/-- The elaboration of `SK.Scheduler` on the BSP: all defined groups of a partition are marked as
active. -/
def initActivity (p : P.Partition) : Word64 :=
  (List.finRange 64).foldl (fun w i => if i ≤ P.lastGroupIndex p then bitSet w i else w) 0

/-- `SK.Null_Subject_State`. -/
def nullSubjectState : SubjectState where
  regs := ⟨0, 0, 0, 0, 0, 0, 0, 0, 0, 0, 0, 0, 0, 0, 0, 0⟩
  exitReason := 0
  intrState := 0
  activityState := 0
  sysenterCs := 0
  instructionLen := 0
  exitQualification := 0
  guestPhysAddr := 0
  rip := 0
  rsp := 0
  cr0 := 0
  shadowCr0 := 0
  cr3 := 0
  cr4 := 0
  shadowCr4 := 0
  rflags := 0
  ia32Efer := 0
  sysenterEsp := 0
  sysenterEip := 0
  segmentRegs := ⟨nullSegment, nullSegment, nullSegment, nullSegment, nullSegment, nullSegment,
    nullSegment, nullSegment⟩
  gdtr := nullSegment
  idtr := nullSegment
  running := false

/-- The state in which the kernel starts on a CPU: the scheduler's variables have their initial values,
and memory is cleared. -/
def startState (cpuID : P.Cpu) (isBSP : Bool) : State P where
  scheduler := ⟨cpuID, isBSP, 0, 0, 0, fun _ => nullSchedulingPartition, initSchedulingGroups⟩
  groupActivity := initActivity
  pendingEvents _ := 0
  pendingInterrupts _ _ := 0
  timedEvents _ := ⟨BitVec.allOnes 64, 0⟩
  descriptors _ := nullSubjectState
  schedulingInfo _ := (0, 0)
  vmx := ⟨none, fun _ _ => 0⟩
  fpu := ⟨fun _ => ⟨0, ⟨0, 0, 0, 0, fun _ => 0⟩⟩, 0, 0, ⟨0, 0, 0, 0, fun _ => 0⟩⟩
  maskedIrqs _ := false
  tsc := 0
  newMajor := 0

end Muen.Kernel
