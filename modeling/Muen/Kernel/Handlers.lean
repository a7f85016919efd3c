import Muen.Kernel.Machine

/-!
# SK.Kernel

The handlers of VM exits, from the dispatch on the exit reason to the return to a subject, and the
initialization of subjects and of the scheduler.
-/

namespace Muen.Kernel

open Lib

variable {P : Policy}

/-! ### Subjects -/

/-- `Kernel.Init_Subject`. -/
def initSubject (hw : Hardware) (id : P.Subject) : Proc P Unit := do
  let spec := P.subjectSpec id
  Prog.modify {} (State.onFpu (fpuResetState id))
  Prog.modify {} (clearEvents id)
  Prog.modify {} (initInterrupts id)
  Prog.modify {} (initEvent id)
  Prog.modify {} (fun s => vmxLoad spec.vmcsAddress (vmxReset spec.vmcsAddress s))
  Prog.modify {} (vmcsWriteAll (controlFields hw spec ++ hostFields hw ++ guestFields spec))
  Prog.modify {} (resetState id)

/-- The action of an event that has been consumed by its target. -/
def handleTargetEvent (hw : Hardware) (id : P.Subject) : TargetEvent → Proc P Unit
  | .noAction => pure ()
  | .injectInterrupt vector => Prog.modify {} (insertInterrupt id vector)
  | .reset => initSubject hw id

/-- The loop of `Handle_Pending_Target_Event`: events are consumed from the highest number on, as many
as there are event numbers. The result says whether there was one. -/
def targetEventLoop (hw : Hardware) (id : P.Subject) : ℕ → Bool → Proc P Bool
  | 0, eventHandled => pure eventHandled
  | n + 1, eventHandled => do
    let found ← Prog.read {} (fun s => findHighestBitSet (s.pendingEvents id))
    match found with
    | none => pure eventHandled
    | some event => do
      Prog.modify {} (State.setEvents id (fun w => bitClear w event))
      handleTargetEvent hw id (P.getTargetEvent id event)
      targetEventLoop hw id n true

def handlePendingTargetEvent (hw : Hardware) (id : P.Subject) : Proc P Unit := do
  let eventHandled ← targetEventLoop hw id 64 false
  let running ← Prog.read {} (fun s => (s.descriptors id).running)
  Prog.modify {} (if eventHandled ∧ ¬ running then setRunning id true else fun s => s)

/-- The part of `Inject_Interrupt` for a subject that accepts interrupts. -/
def injectPending (id : P.Subject) : Proc P Unit := do
  let found ← Prog.read {} (fun s => findInterrupt (s.pendingInterrupts id))
  match found with
  | none => pure ()
  | some vector => do
    Prog.modify {} (interruptClear id vector)
    vmcsWrite [(.vmEntryInterruptInfo, 0x80000000 + vector.setWidth 64)]
    Prog.modify {} (setRunning id true)

def injectInterrupt (id : P.Subject) : Proc P Unit := do
  let d ← Prog.read {} (fun s => s.descriptors id)
  (if acceptsInterrupts d then injectPending id else pure ())
  let interruptPending ← Prog.read {} (fun s => hasPendingInterrupt (s.pendingInterrupts id))
  (if interruptPending then vmcsSetInterruptWindow true else pure ())

/-! ### Events -/

/-- The source action of an event; the result is the next subject. `Power.Reboot`, `Power.Shutdown` and
`Handle_System_Panic` do not return. -/
def handleSourceAction (id : P.Subject) (event : SourceEvent P.subjects) (incrRIP : Bool) :
    Proc P P.Subject :=
  match event.sourceAction with
  | .noAction => pure id
  | .subjectSleep => reschedulePartition id incrRIP true
  | .subjectYield => reschedulePartition id incrRIP false
  | .systemReboot => Prog.halt
  | .systemPoweroff => Prog.halt
  | .systemPanic => Prog.halt
  | .unmaskIrq => do
    Prog.modify {} (fun s => { s with maskedIrqs := Function.update s.maskedIrqs event.irqNumber false })
    pure id

/-- An event is made pending for its target, and the group of the target is marked as active. -/
def sendTargetEvent (target : P.Subject) : Option EventNr → Proc P Unit
  | none => pure ()
  | some event => do
    Prog.modify {} (setEventPending target event)
    let cpuID ← Prog.read {} (fun s => s.scheduler.cpuID)
    indicateActivity target (P.subjectCpu target = cpuID)

/-- The target part of `Handle_Source_Event`. -/
def handleTarget (target : P.Subject) (event : SourceEvent P.subjects) (nextSubject : P.Subject) :
    Proc P P.Subject := do
  sendTargetEvent target event.targetEvent
  if event.handover then do
    setCurrentSubjectID target
    pure target
  else pure nextSubject

def handleSourceEvent (id : P.Subject) (event : SourceEvent P.subjects) (incrRIP : Bool) :
    Proc P P.Subject := do
  let nextSubject ← handleSourceAction id event incrRIP
  match event.targetSubject with
  | none => pure nextSubject
  | some target => handleTarget target event nextSubject

/-! ### Exits -/

/-- The VMCS of the next subject is loaded if it is another one. -/
def loadIfChanged (currentSubject nextSubject : P.Subject) : Proc P Unit :=
  Prog.modify {} (if currentSubject ≠ nextSubject then vmxLoad (vmcsAddress nextSubject) else fun s => s)

/-- The event of a hypercall: `RAX` must be an event number. -/
def hypercallEvent (currentSubject : P.Subject) (rax : Word64) : Option (SourceEvent P.subjects) :=
  let eventNr : EventNr := ⟨(rax &&& 63).toNat % 64, Nat.mod_lt _ (by decide)⟩
  if BitVec.ofNat 64 eventNr.val = rax then some (P.getSourceEvent currentSubject eventNr) else none

/-- The event of a hypercall is handled if there is one. -/
def handleHypercallEvent (currentSubject : P.Subject) : Option (SourceEvent P.subjects) → Proc P P.Subject
  | none => pure currentSubject
  | some event => handleSourceEvent currentSubject event false

def handleHypercall (currentSubject : P.Subject) (uncheckedEventNr : Word64) : Proc P Unit := do
  let nextSubject ← handleHypercallEvent currentSubject (hypercallEvent currentSubject uncheckedEventNr)
  Prog.modify {} (incrementRIP currentSubject)
  loadIfChanged currentSubject nextSubject

/-- The interrupt of a vector that the policy routes to a subject. -/
def routeInterrupt (route : VectorRoute P.subjects) : Proc P Unit :=
  match route.subject with
  | none => pure ()
  | some subject => do
    Prog.modify {} (insertInterrupt subject route.vector)
    indicateActivity subject true

def handleIrq (vector : Byte) : Proc P Unit :=
  if P.remapOffset ≤ vector ∧ vector < 253 then do
    routeInterrupt (P.vectorRouting vector)
    Prog.modify {} (fun s => if P.maskIrq vector then
      { s with maskedIrqs := Function.update s.maskedIrqs (vector - 32) true } else s)
  else pure ()

/-- The value of `XSETBV` is rejected. -/
def xsetbvInvalid (supported : Word64) (d : SubjectState) (newValue : Word64) (index : Word32) : Bool :=
  ¬ isCpl0 d ∨ index ≠ 0 ∨ supported ||| newValue ≠ supported ∨ ¬ bitTest newValue 0 ∨
  (bitTest newValue 2 ∧ ¬ bitTest newValue 1) ∨
  ((bitTest newValue 5 ∨ bitTest newValue 6 ∨ bitTest newValue 6) ∧
    ¬ (bitTest newValue 5 ∧ bitTest newValue 6 ∧ bitTest newValue 6)) ∨
  (bitTest newValue 5 ∧ ¬ bitTest newValue 2)

def handleXsetbv (currentSubject : P.Subject) (rax rdx rcx : Word64) : Proc P Unit := do
  let newValue : Word64 := ((rdx.setWidth 32).setWidth 64 <<< 32) + (rax.setWidth 32).setWidth 64
  let invalid ← Prog.read {} (fun s => xsetbvInvalid s.fpu.activeXcr0Features (s.descriptors currentSubject)
    newValue (rcx.setWidth 32))
  if invalid then Prog.modify {} (insertInterrupt currentSubject 13)
  else do
    Prog.modify {} (State.onFpu (fpuSetXcr0 currentSubject newValue))
    Prog.modify {} (incrementRIP currentSubject)

/-- The timed event of the next subject, if it has expired. -/
def handleTimedEvent (eventSubject : P.Subject) : Proc P P.Subject := do
  let now ← Prog.read {} State.tsc
  let timedEvent ← Prog.read {} (fun s => s.timedEvents eventSubject)
  if timedEvent.tscTriggerValue ≤ now then do
    let nextSubject ← handleSourceEvent eventSubject (P.getSourceEvent eventSubject timedEvent.eventNr) false
    Prog.modify {} (clearEvent eventSubject)
    pure nextSubject
  else pure eventSubject

def handleTimerExpiry (currentSubject : P.Subject) : Proc P Unit := do
  let eventSubject ← updateSchedulingInfo
  let nextSubject ← handleTimedEvent eventSubject
  loadIfChanged currentSubject nextSubject

/-- `Handle_Trap`; a trap number out of range ends in `Panic_Unknown_Trap`. -/
def handleTrap (currentSubject : P.Subject) (trapNr : BitVec 16) : Proc P Unit :=
  if h : trapNr.toNat < P.lastTrap + 1 then do
    let nextSubject ← handleSourceEvent currentSubject (P.getTrap currentSubject ⟨trapNr.toNat, h⟩) true
    loadIfChanged currentSubject nextSubject
  else Prog.halt

/-- `Scheduler.Set_VMX_Exit_Timer`. -/
def setVmxExitTimer : Proc P Unit := do
  let now ← Prog.read {} State.tsc
  let scheduler ← Prog.read {} State.scheduler
  let deadline := scheduler.currentMajorStartCycles +
    frameDeadline scheduler scheduler.currentMajorFrameID scheduler.currentMinorFrameID
  let cycles := if now < deadline then deadline - now else 0
  vmcsWrite [(.guestVmxPreemptTimer, cycles / BitVec.ofNat 64 (2 ^ P.vmxTimerRate))]

/-- The dispatch of `Handle_Vmx_Exit` on the basic exit reason. NMIs and machine checks end in `Error`. -/
def handleExit (currentSubject : P.Subject) (exitReason exitInterruptionInfo : Word64) (cpl0 : Bool)
    (regs : CpuRegisters) : Proc P Unit :=
  let basicExitReason : BitVec 16 := exitReason.setWidth 16
  if basicExitReason = 1 then handleIrq (exitInterruptionInfo.setWidth 8)
  else if basicExitReason = 18 ∧ cpl0 then handleHypercall currentSubject regs.rax
  else if basicExitReason = 52 then handleTimerExpiry currentSubject
  else if basicExitReason = 7 then vmcsSetInterruptWindow false
  else if basicExitReason = 0 ∧ exitInterruptionInfo &&& 0x07ff = 0x0202 then Prog.halt
  else if basicExitReason = 0 ∧ exitInterruptionInfo &&& 0x07ff = 0x0312 then Prog.halt
  else if basicExitReason = 41 then Prog.halt
  else if basicExitReason = 55 then handleXsetbv currentSubject regs.rax regs.rdx regs.rcx
  else handleTrap currentSubject basicExitReason

def handleVmxExit (hw : Hardware) (regs : CpuRegisters) : Proc P CpuRegisters := do
  let currentSubject ← getCurrentSubject
  let exitReason ← vmcsRead .vmxExitReason
  Prog.modify {} (saveState currentSubject exitReason regs)
  Prog.modify {} (State.onFpu (fpuSaveState hw currentSubject))
  let exitInterruptionInfo ← vmcsRead .vmxExitIntrInfo
  let d ← Prog.read {} (fun s => s.descriptors currentSubject)
  handleExit currentSubject exitReason exitInterruptionInfo (isCpl0 d) regs
  let nextSubject ← getCurrentSubject
  handlePendingTargetEvent hw nextSubject
  injectInterrupt nextSubject
  setVmxExitTimer
  Prog.modify {} (State.onFpu (fpuRestoreState hw nextSubject))
  Prog.modify {} (filterState nextSubject)
  restoreState nextSubject

/-! ### Initialization -/

/-- The subjects of this CPU are initialized one after the other. -/
def initSubjects (hw : Hardware) (cpuID : P.Cpu) : List P.Subject → Proc P Unit
  | [] => pure ()
  | id :: ids => do
    (if P.subjectCpu id = cpuID then initSubject hw id else pure ())
    initSubjects hw cpuID ids

/-- `Scheduler.Init`. -/
def schedulerInit (hw : Hardware) : Proc P Unit := do
  Prog.modify {} (State.onScheduler (fun s => { s with groups := initSchedulingGroups }))
  let cpuID ← Prog.read {} (fun s => s.scheduler.cpuID)
  initSubjects hw cpuID (List.finRange P.subjects)
  let now ← Prog.read {} State.tsc
  let currentSubject ← getCurrentSubject
  Prog.modify {} (vmxLoad (vmcsAddress currentSubject))
  Prog.modify {} (fun s => setSchedulingInfo (P.subjectToPartition currentSubject) now
    (now + frameDeadline s.scheduler 0 0) s)
  Prog.modify {} (State.onScheduler (fun s =>
    if s.isBSP then { s with currentMajorStartCycles := now } else s))

/-- The state of a CPU after `Scheduler.Init`: no other CPU and no subject interferes with it, since all
CPUs wait for each other before the first subject runs. -/
def Booted (hw : Hardware) (s : State P) : Prop :=
  ∃ s₀ : State P, s₀.scheduler.partitions = (fun _ => nullSchedulingPartition) ∧
    s₀.groupActivity = initActivity ∧ s₀.pendingEvents = (fun _ => 0) ∧
    (schedulerInit hw).exec s₀ = some ((), s)

end Muen.Kernel
