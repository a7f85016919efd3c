import Muen.Kernel.TimedEvents

/-!
# Exit handling

The runs of one CPU in which subjects run and exit. When `Handle_Vmx_Exit` returns, the subject that the
scheduler has selected is resumed with its own VMCS, FPU state and registers, and the saved state of all subjects
but that one and the one that has exited is left alone.
-/

namespace Muen.Kernel

open Lib Relation

variable {P : Policy}

/-- The part of the saved state of a subject that its own execution consists of. -/
structure Context where
  regs : CpuRegisters
  rip : Word64
  rsp : Word64
  cr0 : Word64
  shadowCr0 : Word64
  cr3 : Word64
  cr4 : Word64
  shadowCr4 : Word64
  segmentRegs : SegmentRegisters
  deriving DecidableEq

def SubjectState.context (d : SubjectState) : Context :=
  ⟨d.regs, d.rip, d.rsp, d.cr0, d.shadowCr0, d.cr3, d.cr4, d.shadowCr4, d.segmentRegs⟩

/-- A subject runs: the fields of VMCSs that the processor keeps and the FPU registers change. -/
def guestRuns (memory : Word64 → VmcsField → Word64) (registers : XsaveArea) (s : State P) : State P :=
  { s with vmx := { s.vmx with memory := memory }, fpu := { s.fpu with registers := registers } }

/-- What happens on one CPU: the current subject runs, and it exits with some registers. -/
inductive ExitOp
  | run (memory : Word64 → VmcsField → Word64) (registers : XsaveArea)
  | vmxExit (regs : CpuRegisters)

/-- The CPU; others change neither the scheduler's own variables nor the VMCSs, the FPU states and the saved state
of subjects. -/
def exitSystem (P : Policy) (hw : Hardware) : System ExitOp (Label P) Unit (State P) where
  rely c c' := c'.2.scheduler = c.2.scheduler ∧ c'.2.vmx = c.2.vmx ∧ c'.2.fpu = c.2.fpu ∧
    c'.2.descriptors = c.2.descriptors
  enabled _ _ := True
  prog
    | .run memory registers => Prog.modify {} (guestRuns memory registers)
    | .vmxExit regs => do
      let _ ← handleVmxExit hw regs
      pure ()

/-- An assertion on all source events of a policy, those of hypercalls and timers and those of traps. -/
def Policy.AllEvents (P : Policy) (E : P.Subject → SourceEvent P.subjects → Prop) : Prop :=
  (∀ id event, E id (P.getSourceEvent id event)) ∧ ∀ id trap, E id (P.getTrap id trap)

/-- A handover stays in the scheduling group of the subject. -/
def StaysInGroup (id : P.Subject) (event : SourceEvent P.subjects) : Prop :=
  event.handover = true → ∀ target, event.targetSubject = some target →
    P.subjectToGroup target = P.subjectToGroup id

/-- A handover does not put the subject to sleep and does not yield. -/
def KeepsRunning (event : SourceEvent P.subjects) : Prop :=
  event.handover = true → event.targetSubject ≠ none →
    event.sourceAction ≠ .subjectSleep ∧ event.sourceAction ≠ .subjectYield

/-- The subject `next` is resumed with its own state after the exit of the subject `exiting`. -/
structure Resumed (hw : Hardware) (old : State P) (exiting next : P.Subject) (regs : CpuRegisters)
    (new : State P) : Prop where
  current : getCurrentSubjectID new.scheduler = some next
  vmcs : new.vmx.current = some (vmcsAddress next)
  xcr0 : new.fpu.currentXcr0 = (new.fpu.subjectStates next).xcr0
  fpu : ∃ registers, new.fpu.registers =
    hw.xrstor new.fpu.activeXcr0Features (new.fpu.subjectStates next).xsaveArea registers
  regs : regs = (new.descriptors next).regs
  others : ∀ id, id ≠ exiting → id ≠ next → (new.descriptors id).context = (old.descriptors id).context
  groups : ∀ g, P.subjectToGroup (new.scheduler.groups g).activeSubject = g
  partition : P.subjectToPartition next = currentSchedulingPartitionID new.scheduler

/-! ### Assertions -/

/-- The saved contexts of all subjects that are not exempt are those of `old`, and the VMCS of `loaded` is loaded. -/
structure Kept (old : State P) (exempt : P.Subject → Prop) (loaded : P.Subject) (s : State P) : Prop where
  contexts : ∀ id, ¬exempt id → (s.descriptors id).context = (old.descriptors id).context
  vmcs : s.vmx.current = some (vmcsAddress loaded)

/-- Beside that, `current` is the current subject. -/
structure Mid (old : State P) (exempt : P.Subject → Prop) (loaded current : P.Subject) (s : State P) : Prop
    extends Kept old exempt loaded s where
  current : getCurrentSubjectID s.scheduler = some current

section Assertions

variable {hw : Hardware} {old s : State P} {exempt : P.Subject → Prop} {loaded current : P.Subject}

lemma exitSystem_interferes : Interferes False (exitSystem P hw).rely :=
  ⟨fun _ _ h => h.1, fun h => h.elim⟩

lemma Kept.of_same {s' : State P} (h : Kept old exempt loaded s) (hdescriptors : s'.descriptors = s.descriptors)
    (hvmx : s'.vmx.current = s.vmx.current) : Kept old exempt loaded s' :=
  ⟨fun id hid => by rw [hdescriptors]; exact h.contexts id hid, hvmx.trans h.vmcs⟩

/-- A descriptor is changed that is exempt, or its context is not. -/
lemma Kept.setDescriptor {id : P.Subject} {f : SubjectState → SubjectState} (h : Kept old exempt loaded s)
    (hf : exempt id ∨ ∀ d, (f d).context = d.context) : Kept old exempt loaded (State.setDescriptor id f s) := by
  refine ⟨fun id' hid' => ?_, h.vmcs⟩
  change (Function.update s.descriptors id (f (s.descriptors id)) id').context = (old.descriptors id').context
  by_cases hid : id' = id
  · subst hid
    rw [Function.update_self, hf.resolve_left hid']
    exact h.contexts id' hid'
  · rw [Function.update_of_ne hid]
    exact h.contexts id' hid'

lemma kept_stable : Stable (exitSystem P hw).rely (fun c => Kept old exempt loaded c.2) :=
  fun _ _ hc h => h.of_same hc.2.2.2 (congrArg Vmx.current hc.2.1)

lemma kept_framed : Framed (exitSystem P hw).rely (Kept old exempt loaded) where
  stable := kept_stable
  scheduler _ _ _ h := h.of_same rfl rfl
  setActivity _ _ _ h := h.of_same rfl rfl
  clearActivity _ _ _ h := h.of_same rfl rfl
  setRunning _ _ _ h := h.setDescriptor (.inr (fun _ => rfl))
  setActivityState _ _ _ h := h.setDescriptor (.inr (fun _ => rfl))

lemma mid_stable : Stable (exitSystem P hw).rely (fun c => Mid old exempt loaded current c.2) :=
  fun c c' hc h => ⟨kept_stable c c' hc h.toKept, by rw [hc.1]; exact h.current⟩

lemma vmcsWriteAll_current (fields : List (VmcsField × Word64)) (s : State P) :
    (vmcsWriteAll fields s).vmx.current = s.vmx.current := by
  unfold vmcsWriteAll
  split <;> rfl

lemma vmcsWriteAll_descriptors (fields : List (VmcsField × Word64)) (s : State P) :
    (vmcsWriteAll fields s).descriptors = s.descriptors := by
  unfold vmcsWriteAll
  split <;> rfl

/-- Everything that the kernel does for an exempt subject whose VMCS is loaded. -/
lemma mid_ownFramed (h : exempt loaded) :
    OwnFramed (exitSystem P hw).rely loaded (Mid old exempt loaded current) where
  stable := mid_stable
  setDescriptor s f hs := ⟨hs.toKept.setDescriptor (.inl h), hs.current⟩
  setEvents _ _ _ hs := ⟨hs.toKept.of_same rfl rfl, hs.current⟩
  setInterrupts _ _ _ hs := ⟨hs.toKept.of_same rfl rfl, hs.current⟩
  setTimedEvent _ _ _ hs := ⟨hs.toKept.of_same rfl rfl, hs.current⟩
  setActivity _ _ _ hs := ⟨hs.toKept.of_same rfl rfl, hs.current⟩
  setMaskedIrqs _ _ hs := ⟨hs.toKept.of_same rfl rfl, hs.current⟩
  vmcsWriteAll s fields hs := by
    refine ⟨hs.toKept.of_same (vmcsWriteAll_descriptors _ _) (vmcsWriteAll_current _ _), ?_⟩
    rw [vmcsWriteAll_scheduler]
    exact hs.current
  setFpuState _ _ hs := ⟨hs.toKept.of_same rfl rfl, hs.current⟩
  vmxInit _ hs := ⟨⟨hs.contexts, rfl⟩, hs.current⟩

end Assertions

/-! ### Source events -/

section Events

variable {hw : Hardware} {old : State P} {exempt : P.Subject → Prop} {loaded current : P.Subject}
  {c : Unit × State P}

lemma Good.mid (h : Good False (Kept old exempt loaded) c) (hid : getCurrentSubjectID c.2.scheduler = some current) :
    Good False (Mid old exempt loaded current) c :=
  ⟨h.timers, h.core, h.kept, hid⟩

/-- After a handover to a subject of the current group, that subject is the current one. -/
lemma Good.handover {target : P.Subject} (h : Good False (Mid old exempt loaded current) c)
    (htarget : P.subjectToGroup target = P.subjectToGroup current) :
    Good False (Mid old exempt loaded target) (c.1, State.onScheduler (fun s =>
      s.setGroup (P.subjectToGroup target) (fun x => { x with activeSubject := target })) c.2) := by
  obtain ⟨f, hf, -⟩ := h.timers
  have hgroup := (h.core.current_subject h.kept.current).2.1
  rw [← htarget] at hgroup
  have hlinks : (c.2.scheduler.setGroup (P.subjectToGroup target)
      (fun x => { x with activeSubject := target })).links = c.2.scheduler.links := by
    unfold Scheduler.links Scheduler.setGroup
    rw [proj_update_same SchedulingGroup.nextTimer, proj_update_same SchedulingGroup.prevTimer] <;> rfl
  have htimeout : (c.2.scheduler.setGroup (P.subjectToGroup target)
      (fun x => { x with activeSubject := target })).timeout = c.2.scheduler.timeout :=
    setGroup_timeout_same _ rfl
  refine ⟨⟨f, ⟨hlinks ▸ hf.links, hf.owned, htimeout ▸ hf.sorted⟩, fun h => h.elim⟩, ⟨fun g => ?_, ?_⟩,
    h.kept.toKept.of_same rfl rfl, ?_⟩
  · simp only [State.onScheduler]
    by_cases hg : g = P.subjectToGroup target
    · rw [hg, Scheduler.setGroup_self]
    · rw [Scheduler.setGroup_of_ne _ _ hg]
      exact h.core.activeSubject g
  · exact h.core.activeGroupIndex
  · change (currentSchedulingGroupID c.2.scheduler).map _ = some target
    rw [hgroup]
    simp only [State.onScheduler, Option.map_some, Scheduler.setGroup_self]

/-- The source action: without a change of the group the next subject is the same one. -/
lemma handleSourceAction_sat {id : P.Subject} {event : SourceEvent P.subjects} {incrRIP : Bool}
    (hrip : incrRIP = true → exempt id) (h : Good False (Mid old exempt loaded id) c) :
    (handleSourceAction id event incrRIP).Sat (exitSystem P hw).rely (AtStep False True)
      (fun next c' => Good False (Mid old exempt loaded next) c' ∧
        (event.sourceAction ≠ .subjectSleep → event.sourceAction ≠ .subjectYield → next = id)) c := by
  have hR : Interferes False (exitSystem P hw).rely := exitSystem_interferes
  have hK : Framed (exitSystem P hw).rely (Kept old exempt loaded) := kept_framed
  have hkept := h.imp (fun _ hs => hs.toKept)
  obtain ⟨-, -, hpart⟩ := h.core.current_subject h.kept.current
  have hstable : ∀ (next : P.Subject) (p : Prop), Stable (exitSystem P hw).rely
      (fun c => Good False (Mid old exempt loaded next) c ∧ p) :=
    fun next p c c' hc h => ⟨hR.good mid_stable c c' hc h.1, h.2⟩
  have hreschedule : ∀ sleep : Bool, (reschedulePartition id incrRIP sleep).Sat (exitSystem P hw).rely
      (AtStep False True) (fun next c' => Good False (Mid old exempt loaded next) c') c := by
    intro sleep
    refine (reschedulePartition_sat hR hK hpart (fun h => h.elim) (fun htrue s hs => ?_) hkept).mono
      (fun next c' h' => h'.1.mid h'.2)
    exact hs.setDescriptor (.inl (hrip htrue))
  unfold handleSourceAction
  cases haction : event.sourceAction with
  | noAction => exact Prog.sat_pure (hstable _ _) ⟨h, fun _ _ => rfl⟩
  | subjectSleep => exact (hreschedule true).mono (fun _ _ h' => ⟨h', fun hne => absurd rfl hne⟩)
  | subjectYield => exact (hreschedule false).mono (fun _ _ h' => ⟨h', fun _ hne => absurd rfl hne⟩)
  | systemReboot => exact fun _ _ => trivial
  | systemPoweroff => exact fun _ _ => trivial
  | systemPanic => exact fun _ _ => trivial
  | unmaskIrq =>
    refine Prog.sat_modify (hR.good mid_stable) h (fun _ h => h.atStep) (fun c₁ h₁ => ?_)
    refine Prog.sat_pure (hstable _ _) ⟨?_, fun _ _ => rfl⟩
    exact h₁.update (u := fun s => { s with maskedIrqs := Function.update s.maskedIrqs event.irqNumber false })
      rfl rfl ⟨h₁.kept.toKept.of_same rfl rfl, h₁.kept.current⟩

lemma sendTargetEvent_sat {target : P.Subject} {event : Option EventNr} (hloaded : exempt loaded)
    (h : Good False (Mid old exempt loaded current) c) :
    (sendTargetEvent target event).Sat (exitSystem P hw).rely (AtStep False True)
      (fun _ => Good False (Mid old exempt loaded current)) c := by
  have hR : Interferes False (exitSystem P hw).rely := exitSystem_interferes
  have hO : OwnFramed (exitSystem P hw).rely loaded (Mid old exempt loaded current) := mid_ownFramed hloaded
  have hg := hR.good hO.stable
  cases event with
  | none => exact Prog.sat_pure hg h
  | some event =>
    refine Prog.sat_modify hg h (fun _ h => h.atStep) (fun c₁ h₁ => ?_)
    have h₁' := h₁.update (u := setEventPending target event) rfl rfl (hO.setEvents _ _ _ h₁.kept)
    refine Prog.sat_read hg h₁' (fun _ h => h.atStep) (fun c₂ h₂ => ?_)
    exact indicateActivity_sat hR hO h₂

/-- A source event of the current subject: the result is the current subject afterwards. -/
lemma handleSourceEvent_sat {id : P.Subject} {event : SourceEvent P.subjects} {incrRIP : Bool}
    (hloaded : exempt loaded) (hgroup : StaysInGroup id event) (hrun : KeepsRunning event)
    (hrip : incrRIP = true → exempt id) (h : Good False (Mid old exempt loaded id) c) :
    (handleSourceEvent id event incrRIP).Sat (exitSystem P hw).rely (AtStep False True)
      (fun next => Good False (Mid old exempt loaded next)) c := by
  have hR : Interferes False (exitSystem P hw).rely := exitSystem_interferes
  have hg : ∀ next : P.Subject, Stable (exitSystem P hw).rely (Good False (Mid old exempt loaded next)) :=
    fun next => hR.good mid_stable
  refine Prog.sat_bind ((handleSourceAction_sat hrip h).mono (fun next c₁ h₁ => ?_))
  cases htarget : event.targetSubject with
  | none => exact Prog.sat_pure (hg next) h₁.1
  | some target =>
    refine Prog.sat_bind ((sendTargetEvent_sat hloaded h₁.1).mono (fun _ c₂ h₂ => ?_))
    by_cases hhandover : event.handover = true
    · rw [if_pos hhandover]
      have haction := hrun hhandover (by rw [htarget]; exact Option.some_ne_none target)
      obtain rfl := h₁.2 haction.1 haction.2
      have hsame := hgroup hhandover target htarget
      refine Prog.sat_bind (Prog.sat_read (hg next) h₂ (fun _ h => h.atStep) (fun c₃ h₃ => ?_))
      have hcur := (h₃.core.current_subject h₃.kept.current).2.1
      rw [← hsame] at hcur
      refine Prog.sat_bind (require_sat hcur Prog.Sat.stable (fun c₄ hc₄ => ?_))
      have h₄ := (hg next).steps hc₄ h₃
      refine ⟨h₄.atStep, fun c₅ hc₅ => ?_⟩
      exact Prog.sat_pure (hg target) ((hg target).steps hc₅ (h₄.handover hsame))
    · rw [if_neg hhandover]
      exact Prog.sat_pure (hg next) h₂

end Events

/-! ### Exits -/

section Exits

variable {hw : Hardware} {old : State P} {exempt : P.Subject → Prop} {loaded current id : P.Subject}
  {c : Unit × State P} (hgroups : P.AllEvents StaysInGroup) (hruns : P.AllEvents (fun _ => KeepsRunning))

/-- Some subject is current, and its VMCS is loaded. -/
def Selected (old : State P) (exempt : P.Subject → Prop) (s : State P) : Prop :=
  ∃ next, Mid old exempt next next s

lemma selected_stable : Stable (exitSystem P hw).rely (Good False (Selected old exempt)) := by
  apply exitSystem_interferes.good
  rintro c c' hc ⟨next, h⟩
  exact ⟨next, mid_stable c c' hc h⟩

lemma Good.selected (h : Good False (Mid old exempt current current) c) : Good False (Selected old exempt) c :=
  h.imp (fun _ hs => ⟨current, hs⟩)

lemma loadIfChanged_sat {next : P.Subject} (h : Good False (Mid old exempt id next) c) :
    (loadIfChanged id next).Sat (exitSystem P hw).rely (AtStep False True)
      (fun _ => Good False (Selected old exempt)) c := by
  have hg : Stable (exitSystem P hw).rely (Good False (Mid old exempt id next)) :=
    exitSystem_interferes.good mid_stable
  intro c₁ hc₁
  have h₁ := hg.steps hc₁ h
  refine ⟨h₁.atStep, fun c₂ hc₂ => selected_stable.steps hc₂ ?_⟩
  by_cases hne : id ≠ next
  · rw [if_pos hne]
    have hloaded : Mid old exempt next next (vmxLoad (vmcsAddress next) c₁.2) :=
      ⟨⟨h₁.kept.contexts, rfl⟩, h₁.kept.current⟩
    exact (Good.selected ⟨h₁.timers, h₁.core, hloaded⟩)
  · rw [if_neg hne]
    obtain rfl := not_not.mp hne
    exact h₁.selected

include hgroups hruns

lemma handleHypercall_sat {rax : Word64} (hid : exempt id) (h : Good False (Mid old exempt id id) c) :
    (handleHypercall id rax).Sat (exitSystem P hw).rely (AtStep False True)
      (fun _ => Good False (Selected old exempt)) c := by
  have hg : ∀ next : P.Subject, Stable (exitSystem P hw).rely (Good False (Mid old exempt id next)) :=
    fun next => exitSystem_interferes.good mid_stable
  have hevent : (handleHypercallEvent id (hypercallEvent id rax)).Sat (exitSystem P hw).rely (AtStep False True)
      (fun next => Good False (Mid old exempt id next)) c := by
    unfold hypercallEvent
    dsimp only
    split
    · exact handleSourceEvent_sat hid (hgroups.1 id _) (hruns.1 id _) (fun hf => absurd hf (by simp)) h
    · exact Prog.sat_pure (hg id) h
  refine Prog.sat_bind (hevent.mono (fun next c₁ h₁ => ?_))
  refine Prog.sat_modify (hg next) h₁ (fun _ h => h.atStep) (fun c₂ h₂ => loadIfChanged_sat ?_)
  exact h₂.update (u := incrementRIP id) rfl rfl ⟨h₂.kept.toKept.setDescriptor (.inl hid), h₂.kept.current⟩

lemma handleTimedEvent_sat (hloaded : exempt loaded) (h : Good False (Mid old exempt loaded id) c) :
    (handleTimedEvent id).Sat (exitSystem P hw).rely (AtStep False True)
      (fun next => Good False (Mid old exempt loaded next)) c := by
  have hg : ∀ next : P.Subject, Stable (exitSystem P hw).rely (Good False (Mid old exempt loaded next)) :=
    fun next => exitSystem_interferes.good mid_stable
  refine Prog.sat_read (hg id) h (fun _ h => h.atStep) (fun c₁ h₁ => ?_)
  refine Prog.sat_read (hg id) h₁ (fun _ h => h.atStep) (fun c₂ h₂ => ?_)
  by_cases hexpired : (c₂.2.timedEvents id).tscTriggerValue ≤ c₁.2.tsc
  · rw [if_pos hexpired]
    refine Prog.sat_bind ((handleSourceEvent_sat hloaded (hgroups.1 id _) (hruns.1 id _)
      (fun hf => absurd hf Bool.false_ne_true) h₂).mono (fun next c₃ h₃ => ?_))
    refine Prog.sat_modify (hg next) h₃ (fun _ h => h.atStep) (fun c₄ h₄ => Prog.sat_pure (hg next) ?_)
    exact h₄.putOff (fun _ => rfl) ⟨h₄.kept.toKept.of_same rfl rfl, h₄.kept.current⟩
  · rw [if_neg hexpired]
    exact Prog.sat_pure (hg id) h₂

lemma handleTimerExpiry_sat (hid : exempt id) (h : Good False (Mid old exempt id id) c) :
    (handleTimerExpiry id).Sat (exitSystem P hw).rely (AtStep False True)
      (fun _ => Good False (Selected old exempt)) c := by
  have hR : Interferes False (exitSystem P hw).rely := exitSystem_interferes
  have hK : Framed (exitSystem P hw).rely (Kept old exempt id) := kept_framed
  have hupdate := updateSchedulingInfo_sat (E := True) hR hK (fun _ _ _ _ hs => hs.of_same rfl rfl)
    (h.imp (fun _ hs => hs.toKept))
  refine Prog.sat_bind (hupdate.mono (fun event c₁ h₁ => ?_))
  exact Prog.sat_bind ((handleTimedEvent_sat hgroups hruns hid (h₁.1.mid h₁.2)).mono
    (fun next c₂ h₂ => loadIfChanged_sat h₂))

lemma handleTrap_sat {trapNr : BitVec 16} (hid : exempt id) (h : Good False (Mid old exempt id id) c) :
    (handleTrap id trapNr).Sat (exitSystem P hw).rely (AtStep False True)
      (fun _ => Good False (Selected old exempt)) c := by
  unfold handleTrap
  split
  · exact Prog.sat_bind ((handleSourceEvent_sat hid (hgroups.2 id _) (hruns.2 id _) (fun _ => hid) h).mono
      (fun next c₁ h₁ => loadIfChanged_sat h₁))
  · exact fun _ _ => trivial

omit hgroups hruns in
lemma handleXsetbv_sat {rax rdx rcx : Word64} (hid : exempt id) (h : Good False (Mid old exempt id id) c) :
    (handleXsetbv id rax rdx rcx).Sat (exitSystem P hw).rely (AtStep False True)
      (fun _ => Good False (Selected old exempt)) c := by
  have hR : Interferes False (exitSystem P hw).rely := exitSystem_interferes
  have hO : OwnFramed (exitSystem P hw).rely id (Mid old exempt id id) := mid_ownFramed hid
  have hg := hR.good hO.stable
  refine Prog.sat_read hg h (fun _ h => h.atStep) (fun c₁ h₁ => ?_)
  split
  · refine (modify_sat hR hO (fun c₂ h₂ => ?_) h₁).mono (fun _ _ h₃ => h₃.selected)
    exact h₂.update (u := insertInterrupt id 13) rfl rfl (hO.setInterrupts _ _ _ h₂.kept)
  · refine Prog.sat_modify hg h₁ (fun _ h => h.atStep) (fun c₂ h₂ => ?_)
    refine (modify_sat hR hO (fun c₃ h₃ => ?_) ?_).mono (fun _ _ h₄ => h₄.selected)
    · exact h₃.update (u := incrementRIP id) rfl rfl (hO.setDescriptor _ _ h₃.kept)
    · exact h₂.update rfl rfl ⟨h₂.kept.toKept.of_same rfl rfl, h₂.kept.current⟩

lemma handleExit_sat {exitReason info : Word64} {cpl0 : Bool} {regs : CpuRegisters} (hid : exempt id)
    (h : Good False (Mid old exempt id id) c) :
    (handleExit id exitReason info cpl0 regs).Sat (exitSystem P hw).rely (AtStep False True)
      (fun _ => Good False (Selected old exempt)) c := by
  have hR : Interferes False (exitSystem P hw).rely := exitSystem_interferes
  have hO : OwnFramed (exitSystem P hw).rely id (Mid old exempt id id) := mid_ownFramed hid
  unfold handleExit
  dsimp only
  split
  · exact (handleIrq_sat hR hO h).mono (fun _ _ h₁ => h₁.selected)
  split
  · exact handleHypercall_sat hgroups hruns hid h
  split
  · exact handleTimerExpiry_sat hgroups hruns hid h
  split
  · exact (vmcsSetInterruptWindow_sat hR hO h).mono (fun _ _ h₁ => h₁.selected)
  split
  · exact fun _ _ => trivial
  split
  · exact fun _ _ => trivial
  split
  · exact fun _ _ => trivial
  split
  · exact handleXsetbv_sat hid h
  · exact handleTrap_sat hgroups hruns hid h

end Exits

/-! ### The return to a subject -/

section Return

variable {hw : Hardware} {old : State P} {exempt : P.Subject → Prop} {id next : P.Subject} {c : Unit × State P}

/-- The FPU holds the state of the subject. -/
def FpuRestored (hw : Hardware) (id : P.Subject) (s : State P) : Prop :=
  s.fpu.currentXcr0 = (s.fpu.subjectStates id).xcr0 ∧ ∃ registers, s.fpu.registers =
    hw.xrstor s.fpu.activeXcr0Features (s.fpu.subjectStates id).xsaveArea registers

lemma fpuRestored_restore (s : State P) : FpuRestored hw id (State.onFpu (fpuRestoreState hw id) s) :=
  ⟨rfl, s.fpu.registers, rfl⟩

lemma setVmxExitTimer_sat (hnext : exempt next) (h : Good False (Mid old exempt next next) c) :
    (setVmxExitTimer : Proc P Unit).Sat (exitSystem P hw).rely (AtStep False True)
      (fun _ => Good False (Mid old exempt next next)) c := by
  have hR : Interferes False (exitSystem P hw).rely := exitSystem_interferes
  have hO : OwnFramed (exitSystem P hw).rely next (Mid old exempt next next) := mid_ownFramed hnext
  have hg := hR.good hO.stable
  refine Prog.sat_read hg h (fun _ h => h.atStep) (fun c₁ h₁ => ?_)
  exact Prog.sat_read hg h₁ (fun _ h => h.atStep) (fun c₂ h₂ => vmcsWrite_sat hR hO h₂)

lemma vmcsWriteAll_fpu (fields : List (VmcsField × Word64)) (s : State P) :
    (vmcsWriteAll fields s).fpu = s.fpu := by
  unfold vmcsWriteAll
  split <;> rfl

/-- The subject that returns to execution: its VMCS is loaded and the FPU holds its state. -/
structure Returning (hw : Hardware) (old : State P) (exempt : P.Subject → Prop) (next : P.Subject) (s : State P) :
    Prop extends Mid old exempt next next s where
  fpu : FpuRestored hw next s

lemma returning_stable : Stable (exitSystem P hw).rely (Good False (Returning hw old exempt next)) := by
  apply exitSystem_interferes.good
  intro c c' hc h
  refine ⟨mid_stable c c' hc h.toMid, ?_⟩
  unfold FpuRestored
  rw [hc.2.2.1]
  exact h.fpu

/-- The state of the subject goes to the VMCS, and its registers are the result. -/
lemma restoreState_sat (hnext : exempt next) (h : Good False (Returning hw old exempt next) c) :
    (restoreState next : Proc P CpuRegisters).Sat (exitSystem P hw).rely (AtStep False True)
      (fun regs c' => Good False (Returning hw old exempt next) c' ∧ regs = (c'.2.descriptors next).regs) c := by
  have hO : OwnFramed (exitSystem P hw).rely next (Mid old exempt next next) := mid_ownFramed hnext
  have hstable : ∀ d : SubjectState, Stable (exitSystem P hw).rely (fun c' : Unit × State P =>
      Good False (Returning hw old exempt next) c' ∧ c'.2.descriptors next = d) :=
    fun d c c' hc h => ⟨returning_stable c c' hc h.1, by rw [hc.2.2.2]; exact h.2⟩
  refine Prog.sat_read (hstable _) ⟨h, rfl⟩ (fun _ h => h.1.atStep) (fun c₁ h₁ => ?_)
  refine Prog.sat_bind (Prog.sat_read (hstable _) h₁ (fun _ h => h.1.atStep) (fun c₂ h₂ => ?_))
  cases c₂.2.vmx.current with
  | none => exact fun _ _ => trivial
  | some address =>
    intro c₃ hc₃
    have h₃ := (hstable _).steps hc₃ h₂
    refine ⟨h₃.1.atStep, fun c₄ hc₄ => ?_⟩
    have hwritten : Returning hw old exempt next (vmcsWriteAll (restoreFields (c₁.2.descriptors next)) c₃.2) := by
      refine ⟨hO.vmcsWriteAll _ _ h₃.1.kept.toMid, ?_⟩
      unfold FpuRestored
      rw [vmcsWriteAll_fpu]
      exact h₃.1.kept.fpu
    have h₄ := (hstable (c.2.descriptors next)).steps hc₄
      ⟨h₃.1.update (vmcsWriteAll_scheduler _ _) (vmcsWriteAll_timedEvents _ _) hwritten,
        (congrFun (vmcsWriteAll_descriptors _ _) next).trans h₃.2⟩
    refine Prog.sat_pure ?_ ⟨h₄.1, by rw [h₁.2, h₄.2]⟩
    exact fun c c' hc h => ⟨returning_stable c c' hc h.1, by rw [hc.2.2.2]; exact h.2⟩

/-- The rest of `Handle_Vmx_Exit`, from the selection of the subject that runs next on. -/
lemma resume_sat (h : Good False (Selected old (fun i => i = id)) c) :
    (getCurrentSubject >>= fun nextSubject => do
      handlePendingTargetEvent hw nextSubject
      injectInterrupt nextSubject
      setVmxExitTimer
      Prog.modify {} (State.onFpu (fpuRestoreState hw nextSubject))
      Prog.modify {} (filterState nextSubject)
      restoreState nextSubject : Proc P CpuRegisters).Sat (exitSystem P hw).rely (AtStep False True)
      (fun regs c' => ∃ next, Good False (Returning hw old (fun i => i = id ∨ i = next) next) c' ∧
        regs = (c'.2.descriptors next).regs) c := by
  have hR : Interferes False (exitSystem P hw).rely := exitSystem_interferes
  refine Prog.sat_bind (Prog.sat_read selected_stable h (fun _ h => h.atStep) (fun c₁ h₁ => ?_))
  obtain ⟨next, hnext⟩ := h₁.kept
  refine require_sat hnext.current Prog.Sat.stable ?_
  -- from here on the next subject is exempt as well
  have hO : OwnFramed (exitSystem P hw).rely next (Mid old (fun i => i = id ∨ i = next) next next) :=
    mid_ownFramed (.inr rfl)
  have hg := hR.good hO.stable
  have h₁' : Good False (Mid old (fun i => i = id ∨ i = next) next next) c₁ :=
    ⟨h₁.timers, h₁.core, ⟨fun i hi => hnext.contexts i (fun he => hi (.inl he)), hnext.vmcs⟩, hnext.current⟩
  refine Prog.sat_bind ((handlePendingTargetEvent_sat hR hO h₁').mono (fun _ c₂ h₂ => ?_))
  refine Prog.sat_bind ((injectInterrupt_sat hR hO h₂).mono (fun _ c₃ h₃ => ?_))
  refine Prog.sat_bind ((setVmxExitTimer_sat (.inr rfl) h₃).mono (fun _ c₄ h₄ => ?_))
  refine Prog.sat_modify hg h₄ (fun _ h => h.atStep) (fun c₅ h₅ => ?_)
  have h₅' : Good False (Returning hw old (fun i => i = id ∨ i = next) next)
      (c₅.1, State.onFpu (fpuRestoreState hw next) c₅.2) :=
    ⟨h₅.timers, h₅.core, ⟨h₅.kept.toKept.of_same rfl rfl, h₅.kept.current⟩, fpuRestored_restore c₅.2⟩
  refine Prog.sat_modify returning_stable h₅' (fun _ h => h.atStep) (fun c₆ h₆ => ?_)
  have hfiltered : Mid old (fun i => i = id ∨ i = next) next next (filterState next c₆.2) :=
    hO.setDescriptor c₆.2 (fun d => { d with cr4 := bitSet d.cr4 6 }) h₆.kept.toMid
  have h₆' : Good False (Returning hw old (fun i => i = id ∨ i = next) next) (c₆.1, filterState next c₆.2) :=
    h₆.update rfl rfl ⟨hfiltered, h₆.kept.fpu⟩
  exact (restoreState_sat (.inr rfl) h₆').mono (fun regs c₇ h₇ => ⟨next, h₇⟩)

end Return

/-! ### Runs -/

section Runs

variable {hw : Hardware} {c : Unit × State P} (hgroups : P.AllEvents StaysInGroup)
  (hruns : P.AllEvents (fun _ => KeepsRunning))

include hgroups hruns

lemma handleVmxExit_sat {id : P.Subject} {regs : CpuRegisters} (h : Good False VmcsLoaded c)
    (hid : getCurrentSubjectID c.2.scheduler = some id) :
    (handleVmxExit hw regs).Sat (exitSystem P hw).rely (AtStep False True)
      (fun regs c' => ∃ next, Good False (Returning hw c.2 (fun i => i = id ∨ i = next) next) c' ∧
        regs = (c'.2.descriptors next).regs) c := by
  have hR : Interferes False (exitSystem P hw).rely := exitSystem_interferes
  have hO : OwnFramed (exitSystem P hw).rely id (Mid c.2 (fun i => i = id) id id) := mid_ownFramed rfl
  have hg := hR.good hO.stable
  obtain ⟨id', hid', hvmcs⟩ := h.kept
  obtain rfl := Option.some.inj (hid.symm.trans hid')
  have h₀ : Good False (Mid c.2 (fun i => i = id) id id) c := ⟨h.timers, h.core, ⟨fun _ _ => rfl, hvmcs⟩, hid⟩
  refine Prog.sat_bind (Prog.sat_read hg h₀ (fun _ h => h.atStep) (fun c₁ h₁ => ?_))
  refine require_sat h₁.kept.current Prog.Sat.stable ?_
  refine Prog.sat_bind ((vmcsRead_sat hR hO h₁).mono (fun exitReason c₂ h₂ => ?_))
  refine Prog.sat_modify hg h₂ (fun _ h => h.atStep) (fun c₃ h₃ => ?_)
  have h₃' := h₃.update (u := saveState id exitReason regs) rfl rfl (hO.setDescriptor _ _ h₃.kept)
  refine Prog.sat_modify hg h₃' (fun _ h => h.atStep) (fun c₄ h₄ => ?_)
  have h₄' := h₄.update (u := State.onFpu (fpuSaveState hw id)) rfl rfl
    ⟨h₄.kept.toKept.of_same rfl rfl, h₄.kept.current⟩
  refine Prog.sat_bind ((vmcsRead_sat hR hO h₄').mono (fun info c₅ h₅ => ?_))
  refine Prog.sat_read hg h₅ (fun _ h => h.atStep) (fun c₆ h₆ => ?_)
  have hexit : (handleExit id exitReason info (isCpl0 (c₆.2.descriptors id)) regs).Sat (exitSystem P hw).rely
      (AtStep False True) (fun _ => Good False (Selected c.2 (fun i => i = id))) c₆ := by
    have hexempt : (fun i => i = id) id := rfl
    exact handleExit_sat hgroups hruns hexempt h₆
  exact Prog.sat_bind (hexit.mono (fun _ c₇ h₇ => resume_sat h₇))

lemma exitOp_sat (op : ExitOp) (h : Good False VmcsLoaded c) :
    ((exitSystem P hw).prog op).Sat (exitSystem P hw).rely (AtStep False True) (fun _ => Good False VmcsLoaded) c := by
  have hg : Stable (exitSystem P hw).rely (Good False VmcsLoaded) := by
    apply exitSystem_interferes.good
    rintro c c' hc ⟨id, hid, hvmcs⟩
    exact ⟨id, by rw [hc.1]; exact hid, by rw [hc.2.1]; exact hvmcs⟩
  cases op with
  | run memory registers =>
    intro c₁ hc₁
    have h₁ := hg.steps hc₁ h
    exact ⟨h₁.atStep, fun c₂ hc₂ => hg.steps hc₂ (h₁.update (u := guestRuns memory registers) rfl rfl h₁.kept)⟩
  | vmxExit regs =>
    obtain ⟨id, hid, -⟩ := h.kept
    refine Prog.sat_bind ((handleVmxExit_sat hgroups hruns h hid).mono ?_)
    rintro regs' c₁ ⟨next, h₁, -⟩
    exact Prog.sat_pure hg (h₁.imp (fun _ hs => ⟨next, hs.current, hs.vmcs⟩))

/-- When a handover stays in the group of the subject and does not come with a rescheduling, an exit in any reached
state resumes the subject that is scheduled with its own state, and nobody else's is touched. -/
theorem handleVmxExit_resumes {regs regs' : CpuRegisters} {c' : Unit × State P}
    (hx : (exitSystem P hw).Reached (fun c => Booted hw c.2) (none, c))
    (hexit : ReflTransGen (Prog.Trans (exitSystem P hw).rely) (handleVmxExit hw regs, c) (.done regs', c')) :
    ∃ exiting next, getCurrentSubjectID c.2.scheduler = some exiting ∧
      Resumed hw c.2 exiting next regs' c'.2 := by
  have hstable : Stable (exitSystem P hw).rely (Good False VmcsLoaded) := by
    apply exitSystem_interferes.good
    rintro c c' hc ⟨id, hid, hvmcs⟩
    exact ⟨id, by rw [hc.1]; exact hid, by rw [hc.2.1]; exact hvmcs⟩
  have hinit : ∀ c : Unit × State P, Booted hw c.2 → Good False VmcsLoaded c := by
    intro c hc
    have hbooted := booted_good hc
    obtain ⟨f, hf, -⟩ := hbooted.timers
    exact ⟨⟨f, hf, fun h => h.elim⟩, hbooted.core, hbooted.kept⟩
  have hholds := hx.holds hinit hstable (fun _ op h _ => exitOp_sat hgroups hruns op h)
  have hinv : Good False VmcsLoaded c := hholds.idle
  obtain ⟨id, hid, -⟩ := hinv.kept
  obtain ⟨next, h, hregs⟩ := (handleVmxExit_sat hgroups hruns hinv hid).returns hexit
  refine ⟨id, next, hid, h.kept.current, h.kept.vmcs, h.kept.fpu.1, h.kept.fpu.2, hregs, ?_, h.core.activeSubject,
    (h.core.current_subject h.kept.current).2.2⟩
  intro i hexiting hnext
  exact h.kept.contexts i (fun hi => hi.elim hexiting hnext)

end Runs

/-! ### Runs of small policies -/

/-- An exit of the small policy's subjects by a hypercall. -/
def hypercallVmcs (_ : Word64) (field : VmcsField) : Word64 := if field = .vmxExitReason then 18 else 0

def clearedArea : XsaveArea := ⟨0, 0, 0, 0, fun _ => 0⟩

/-- The hypercall of event 0. -/
def hypercallRegs : CpuRegisters := ⟨0, 0, 0, 0, 0, 0, 0, 0, 0, 0, 0, 0, 0, 0, 0, 0⟩

/-- The state in which the first subject makes its first hypercall. -/
def atHypercall (P : Policy) (s₀ : State P) : Option (State P) :=
  ((schedulerInit plainHardware).exec s₀).map (fun r => guestRuns hypercallVmcs clearedArea r.2)

lemma atHypercall_reached {s₀ s : State P} (hs₀ : s₀.scheduler.partitions = (fun _ => nullSchedulingPartition) ∧
    s₀.groupActivity = initActivity ∧ s₀.pendingEvents = (fun _ => 0)) (h : atHypercall P s₀ = some s) :
    (exitSystem P plainHardware).Reached (fun c => Booted plainHardware c.2) (none, ((), s)) := by
  obtain ⟨⟨_, s₁⟩, hboot, hrun⟩ := Option.map_eq_some_iff.mp h
  have hstart : (exitSystem P plainHardware).Reached (fun c => Booted plainHardware c.2) (none, ((), s₁)) :=
    ⟨((), s₁), ⟨s₀, hs₀.1, hs₀.2.1, hs₀.2.2, hboot⟩, ReflTransGen.refl⟩
  have hop : (exitSystem P plainHardware).enabled ((), s₁) (.run hypercallVmcs clearedArea) := trivial
  exact hstart.exec hop (congrArg (fun s => some ((), s)) hrun)

/-- An event that puts the subject to sleep and hands over to the subject 3. -/
def sleepAndHandover : SourceEvent 4 := ⟨.subjectSleep, some 3, none, true, false, 0⟩

/-- The small policy with that event as the event 0 of the subject 0, which is of the same group. -/
def handoverPolicy : Policy :=
  { smallPolicy with
    getSourceEvent := fun s event =>
      if s.val = 0 ∧ event = 0 then sleepAndHandover else (nullSourceEvent : SourceEvent 4) }

/-- The subject 3 becomes the active subject of the group of the subject 1. -/
theorem handleVmxExit_resumes_fails : handoverPolicy.AllEvents StaysInGroup ∧
    ∃ (s : State handoverPolicy) (regs regs' : CpuRegisters) (c' : Unit × State handoverPolicy),
      (exitSystem handoverPolicy plainHardware).Reached (fun c => Booted plainHardware c.2) (none, ((), s)) ∧
      ReflTransGen (Prog.Trans (exitSystem handoverPolicy plainHardware).rely)
        (handleVmxExit plainHardware regs, ((), s)) (.done regs', c') ∧
      ¬∃ exiting next, getCurrentSubjectID s.scheduler = some exiting ∧
        Resumed plainHardware s exiting next regs' c'.2 := by
  constructor
  · constructor
    · unfold StaysInGroup
      decide
    · unfold StaysInGroup
      decide
  have hrun : (atHypercall handoverPolicy (startState (0 : Fin 1) true)).any (fun s =>
      ((handleVmxExit plainHardware hypercallRegs).exec s).any (fun r =>
        decide ((handoverPolicy.subjectToGroup (r.2.scheduler.groups (1 : Fin 3)).activeSubject).val = 0))) = true := by
    decide
  obtain ⟨s, hs, hexit⟩ := (Option.any_eq_true _ _).mp hrun
  obtain ⟨⟨regs', s'⟩, hexec, hgroup⟩ := (Option.any_eq_true _ _).mp hexit
  refine ⟨s, hypercallRegs, regs', ((), s'), atHypercall_reached ⟨rfl, rfl, rfl⟩ hs, Prog.exec_runs hexec, ?_⟩
  rintro ⟨exiting, next, -, hresumed⟩
  have hone := congrArg Fin.val (hresumed.groups (1 : Fin 3))
  rw [of_decide_eq_true hgroup] at hone
  exact absurd hone (by decide)

/-- The first subject goes to sleep, and the other group's one is resumed. -/
theorem handleVmxExit_resumes_sleep : ∃ (s : State smallPolicy) (regs : CpuRegisters) (c' : Unit × State smallPolicy),
    getCurrentSubjectID s.scheduler = some 0 ∧ getCurrentSubjectID c'.2.scheduler = some 1 ∧
      ∃ exiting next, getCurrentSubjectID s.scheduler = some exiting ∧
        Resumed plainHardware s exiting next regs c'.2 := by
  have hrun : (atHypercall smallPolicy (startState 0 true)).any (fun s =>
      decide (getCurrentSubjectID s.scheduler = some 0) &&
      ((handleVmxExit plainHardware hypercallRegs).exec s).any (fun r =>
        decide (getCurrentSubjectID r.2.scheduler = some 1))) = true := by
    decide
  obtain ⟨s, hs, hfacts⟩ := (Option.any_eq_true _ _).mp hrun
  rw [Bool.and_eq_true] at hfacts
  obtain ⟨hcurrent, hexit⟩ := hfacts
  obtain ⟨⟨regs', s'⟩, hexec, hnext⟩ := (Option.any_eq_true _ _).mp hexit
  have hgroups : smallPolicy.AllEvents StaysInGroup := by
    constructor <;> unfold StaysInGroup <;> decide
  have hruns : smallPolicy.AllEvents (fun _ => KeepsRunning) := by
    constructor <;> unfold KeepsRunning <;> decide
  exact ⟨s, regs', ((), s'), of_decide_eq_true hcurrent, of_decide_eq_true hnext,
    handleVmxExit_resumes hgroups hruns (atHypercall_reached ⟨rfl, rfl, rfl⟩ hs) (Prog.exec_runs hexec)⟩

end Muen.Kernel
