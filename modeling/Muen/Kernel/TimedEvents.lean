import Muen.Kernel.HandlerSpec
import Muen.Kernel.TimerListRuns
import Muen.Kernel.Xcr0

/-!
# Timers and timed events

The runs of one CPU in which subjects are put to sleep and woken, and the current subject writes its timed
event. A group that is woken while it is in the timer list stays there with the timeout it was inserted with;
no group oversleeps as long as its subject does not bring its timed event forward in the meantime.
-/

namespace Muen.Kernel

open Lib Relation

variable {P : Policy}

/-- No group that waits in a timer list waits for longer than until the timed event of its subject. -/
def NoOversleep (s : State P) : Prop :=
  ∀ g, isGroupInTimerList (Policy.partitionOf g) g s.scheduler = true →
    bitTest (s.groupActivity (Policy.partitionOf g)) (P.groupIndex g) = false →
    (s.scheduler.groups g).timeout ≤ (s.timedEvents (s.scheduler.groups g).activeSubject).tscTriggerValue

/-- `Update_Timer_List` returns, and it activates every waiting group whose timed event has expired. -/
def WakesExpired (rely : Unit × State P → Unit × State P → Prop) (c : Unit × State P) : Prop :=
  ∀ g, isGroupInTimerList (Policy.partitionOf g) g c.2.scheduler = true →
    bitTest (c.2.groupActivity (Policy.partitionOf g)) (P.groupIndex g) = false →
    (c.2.timedEvents (c.2.scheduler.groups g).activeSubject).tscTriggerValue ≤ c.2.tsc →
    (∃ c', ReflTransGen (Prog.Trans rely) (updateTimerList (Policy.partitionOf g), c) (.done (), c')) ∧
    ∀ c', ReflTransGen (Prog.Trans rely) (updateTimerList (Policy.partitionOf g), c) (.done (), c') →
      bitTest (c'.2.groupActivity (Policy.partitionOf g)) (P.groupIndex g) = true

/-- What happens on one CPU; all but `Indicate_Activity` is done for the current subject. -/
inductive TimedOp (P : Policy)
  | updateSchedulingInfo
  | reschedulePartition (incrRIP sleep : Bool)
  | indicateActivity (id : P.Subject) (sameCPU : Bool)
  | handleIrq (vector : Byte)
  | handlePendingTargetEvent
  | writeTimedEvent (event : TimedEvent)

/-- One CPU on which the current subject makes the writes of its timed event that are allowed. The environment
sets activity bits, and time goes on; what else is not the scheduler's is arbitrary. -/
def timedSystem (hw : Hardware) (allowed : State P → TimedEvent → Prop) :
    System (TimedOp P) (Label P) Unit (State P) where
  rely c c' := c'.2.scheduler = c.2.scheduler ∧ c'.2.timedEvents = c.2.timedEvents ∧
    (∀ p i, bitTest (c.2.groupActivity p) i = true → bitTest (c'.2.groupActivity p) i = true) ∧
    c.2.tsc ≤ c'.2.tsc
  enabled c
    | .writeTimedEvent event => allowed c.2 event
    | _ => True
  prog
    | .updateSchedulingInfo => do
      let _ ← updateSchedulingInfo
      pure ()
    | .reschedulePartition incrRIP sleep => do
      let id ← getCurrentSubject
      let _ ← reschedulePartition id incrRIP sleep
      pure ()
    | .indicateActivity id sameCPU => indicateActivity id sameCPU
    | .handleIrq vector => do
      handleIrq vector
      let id ← getCurrentSubject
      injectInterrupt id
    | .handlePendingTargetEvent => do
      let id ← getCurrentSubject
      handlePendingTargetEvent hw id
    | .writeTimedEvent event => do
      let id ← getCurrentSubject
      Prog.modify {} (State.setTimedEvent id (fun _ => event))

/-- While the group of the current subject is in the timer list, the timed event is not brought forward to
before the timeout of the group. -/
def NotForward (s : State P) (event : TimedEvent) : Prop :=
  ∀ id, getCurrentSubjectID s.scheduler = some id →
    isGroupInTimerList (P.subjectToPartition id) (P.subjectToGroup id) s.scheduler = true →
    (s.scheduler.groups (P.subjectToGroup id)).timeout ≤ event.tscTriggerValue

/-! ### The start -/

lemma true_framed {ε : Type} (rely : ε × State P → ε × State P → Prop) : Framed rely (fun _ => True) :=
  ⟨fun _ _ _ _ => trivial, fun _ _ _ _ => trivial, fun _ _ _ _ => trivial, fun _ _ _ _ => trivial,
    fun _ _ _ _ => trivial, fun _ _ _ _ => trivial⟩

lemma true_ownFramed {ε : Type} (rely : ε × State P → ε × State P → Prop) (id : P.Subject) :
    OwnFramed rely id (fun _ => True) :=
  ⟨fun _ _ _ _ => trivial, fun _ _ _ => trivial, fun _ _ _ _ => trivial, fun _ _ _ _ => trivial,
    fun _ _ _ _ => trivial, fun _ _ _ _ => trivial, fun _ _ _ => trivial, fun _ _ _ => trivial,
    fun _ _ _ => trivial, fun _ _ => trivial⟩

lemma initSubjects_sat {X : Prop} {ε : Type} {rely : ε × State P → ε × State P → Prop}
    (hR : Interferes X rely) {hw : Hardware} {cpuID : P.Cpu} (ids : List P.Subject) :
    ∀ {c : ε × State P}, Good X (fun _ => True) c →
      (initSubjects hw cpuID ids).Sat rely (AtStep X False) (fun _ => Good X (fun _ => True)) c := by
  have hg := good_stable hR (true_framed rely)
  induction ids with
  | nil => exact fun h => Prog.sat_pure hg h
  | cons id ids ih =>
    intro c h
    have hinit : (if P.subjectCpu id = cpuID then initSubject hw id else pure () : Proc P Unit).Sat rely
        (AtStep X False) (fun _ => Good X (fun _ => True)) c := by
      by_cases hcpu : P.subjectCpu id = cpuID
      · rw [if_pos hcpu]
        exact initSubject_sat hR (true_ownFramed rely id) h
      · rw [if_neg hcpu]
        exact Prog.sat_pure hg h
    exact Prog.sat_bind (hinit.mono (fun _ _ h₁ => ih h₁))

/-- The VMCS of the current subject is the one that is loaded. -/
def VmcsLoaded (s : State P) : Prop :=
  ∃ id, getCurrentSubjectID s.scheduler = some id ∧ s.vmx.current = some (vmcsAddress id)

/-- After `Scheduler.Init` no group is in a timer list, every group has its initial subject, and the first subject
to run is loaded. -/
lemma booted_good {hw : Hardware} {s : State P} (h : Booted hw s) : Good True VmcsLoaded ((), s) := by
  obtain ⟨s₀, hparts, -, -, hexec⟩ := h
  have hR : Interferes True (fun _ _ : Unit × State P => False) :=
    ⟨fun _ _ h => h.elim, fun _ _ _ h => h.elim⟩
  have hK := true_framed (fun _ _ : Unit × State P => False)
  have hg := good_stable hR hK
  have hsat : (schedulerInit hw).Sat (fun _ _ : Unit × State P => False) (fun _ _ => True)
      (fun _ => Good True VmcsLoaded) ((), s₀) := by
    refine Prog.sat_modify (P := fun c => c = ((), s₀)) (fun _ _ h => h.elim) rfl (fun _ _ => trivial) ?_
    rintro c₁ rfl
    have h₁ : Good True (fun _ => True)
        ((), State.onScheduler (fun s => { s with groups := initSchedulingGroups }) s₀) :=
      good_initialized ⟨rfl, hparts⟩
    refine Prog.Sat.imp (I := AtStep True False) ?_ (fun _ _ _ => trivial)
    refine Prog.sat_read hg h₁ (fun _ h => h.atStep) (fun c₂ h₂ => ?_)
    refine Prog.sat_bind ((initSubjects_sat hR _ h₂).mono (fun _ c₃ h₃ => ?_))
    refine Prog.sat_read hg h₃ (fun _ h => h.atStep) (fun c₄ h₄ => ?_)
    refine Prog.sat_bind ((getCurrentSubject_sat hR hK h₄).mono (fun id c₅ h₅ => ?_))
    have hcurrent : Stable (fun _ _ : Unit × State P => False) (fun c : Unit × State P =>
        Good True (fun _ => True) c ∧ getCurrentSubjectID c.2.scheduler = some id) := fun _ _ h => h.elim
    refine Prog.sat_modify hcurrent h₅ (fun _ h => h.1.atStep) (fun c₆ h₆ => ?_)
    -- from here on the VMCS of the current subject is loaded
    have hloaded : Stable (fun _ _ : Unit × State P => False) (Good True VmcsLoaded) := fun _ _ h => h.elim
    have h₆' : Good True VmcsLoaded (c₆.1, vmxLoad (vmcsAddress id) c₆.2) :=
      ⟨h₆.1.timers, h₆.1.core, id, h₆.2, rfl⟩
    refine Prog.sat_modify hloaded h₆' (fun _ h => h.atStep) (fun c₇ h₇ => ?_)
    have h₇' := h₇.update (u := fun s => setSchedulingInfo (P.subjectToPartition id) c₄.2.tsc
      (c₄.2.tsc + frameDeadline s.scheduler 0 0) s) rfl rfl h₇.kept
    intro c₈ hc₈
    have h₈ := hloaded.steps hc₈ h₇'
    refine ⟨h₈.atStep, fun c₉ hc₉ => hloaded.steps hc₉ ?_⟩
    simp only [State.onScheduler]
    by_cases hbsp : c₈.2.scheduler.isBSP = true
    · rw [if_pos hbsp]
      obtain ⟨id', hid', hvmx⟩ := h₈.kept
      have hstarted := (h₈.imp (fun _ _ => trivial)).schedule hK
        (σ := { c₈.2.scheduler with currentMajorStartCycles := c₄.2.tsc }) rfl rfl rfl h₈.core.activeGroupIndex
      exact ⟨hstarted.timers, hstarted.core, id', hid', hvmx⟩
    · rw [if_neg hbsp]
      exact h₈
  exact hsat.returns (Prog.exec_runs hexec)

/-! ### The operations -/

section Operations

variable {hw : Hardware} {allowed : State P → TimedEvent → Prop}

lemma timedSystem_interferes {X : Prop} : Interferes X (timedSystem hw allowed).rely :=
  ⟨fun _ _ h => h.1, fun _ _ _ h => h.2.1⟩

/-- The write of a timed event that is not brought forward keeps the timers. -/
lemma Good.writeTimedEvent {c : Unit × State P} {id : P.Subject} {event : TimedEvent}
    (h : Good True (fun _ => True) c)
    (hevent : isGroupInTimerList (P.subjectToPartition id) (P.subjectToGroup id) c.2.scheduler = true →
      (c.2.scheduler.groups (P.subjectToGroup id)).timeout ≤ event.tscTriggerValue) :
    Good True (fun _ => True) (c.1, State.setTimedEvent id (fun _ => event) c.2) := by
  obtain ⟨f, hf, hdue⟩ := h.timers
  refine ⟨⟨f, hf, fun _ p g hg => ?_⟩, h.core, trivial⟩
  have hold := hdue trivial p g hg
  change c.2.scheduler.timeout g ≤
    (Function.update c.2.timedEvents id event (c.2.scheduler.core.activeSubject g)).tscTriggerValue
  by_cases hsubject : c.2.scheduler.core.activeSubject g = id
  · have hgroup : P.subjectToGroup id = g := by
      rw [← hsubject]
      exact h.core.activeSubject g
    have hpart : P.subjectToPartition id = p := by
      rw [Policy.subjectToPartition_eq, hgroup]
      exact hf.owned p g hg
    rw [hsubject, Function.update_self]
    rw [hgroup, hpart] at hevent
    exact hevent ((hf.mem_iff (hf.owned p g hg)).mp hg)
  · rw [Function.update_of_ne hsubject]
    exact hold

lemma timedOp_sat {c : Unit × State P} (op : TimedOp P) (h : Good True (fun _ => True) c)
    (hop : (timedSystem hw NotForward).enabled c op) :
    ((timedSystem hw NotForward).prog op).Sat (timedSystem hw NotForward).rely (AtStep True True)
      (fun _ => Good True (fun _ => True)) c := by
  have hR : Interferes True (timedSystem hw (NotForward (P := P))).rely := timedSystem_interferes
  have hK := true_framed (timedSystem hw (NotForward (P := P))).rely
  have hO := fun id => true_ownFramed (timedSystem hw (NotForward (P := P))).rely id
  have hg := good_stable hR hK
  cases op with
  | updateSchedulingInfo =>
    refine Prog.sat_bind ((updateSchedulingInfo_sat hR hK (fun _ _ _ _ _ => trivial) h).mono ?_)
    exact fun _ c₁ h₁ => Prog.sat_pure hg h₁.1
  | reschedulePartition incrRIP sleep =>
    refine Prog.sat_bind ((getCurrentSubject_sat hR hK h).mono ?_)
    rintro id c₁ ⟨h₁, hid⟩
    obtain ⟨hactive, -, hpart⟩ := h₁.core.current_subject hid
    -- the current subject stays the active one of its group
    have hK' := hK.active hR (P.subjectToGroup id) id
    have h₁' : Good True (fun s => True ∧ (s.scheduler.groups (P.subjectToGroup id)).activeSubject = id) c₁ :=
      ⟨h₁.timers, h₁.core, trivial, hactive⟩
    refine Prog.sat_bind ((reschedulePartition_sat hR hK' hpart (fun _ s hs => hs.2) (fun _ s hs => hs)
      h₁').mono ?_)
    exact fun _ c₂ h₂ => Prog.sat_pure hg (h₂.1.imp (fun _ _ => trivial))
  | indicateActivity id sameCPU => exact indicateActivity_sat hR (hO id) h
  | handleIrq vector =>
    obtain ⟨g, -, -, -⟩ := h.core.current
    refine Prog.sat_bind ((handleIrq_sat hR (hO (P.initialSubject g)) h).mono (fun _ c₁ h₁ => ?_))
    refine Prog.sat_bind ((getCurrentSubject_sat hR hK h₁).mono (fun id c₂ h₂ => ?_))
    exact injectInterrupt_sat hR (hO id) h₂.1
  | handlePendingTargetEvent =>
    refine Prog.sat_bind ((getCurrentSubject_sat hR hK h).mono (fun id c₁ h₁ => ?_))
    exact handlePendingTargetEvent_sat hR (hO id) h₁.1
  | writeTimedEvent event =>
    have hsame : Stable (timedSystem hw NotForward).rely
        (fun c' : Unit × State P => Good True (fun _ => True) c' ∧ c'.2.scheduler = c.2.scheduler) :=
      fun c c' hc h => ⟨hg c c' hc h.1, hc.1.trans h.2⟩
    refine Prog.sat_bind (Prog.sat_read hsame ⟨h, rfl⟩ (fun _ h => h.1.atStep) (fun c₁ h₁ => ?_))
    obtain ⟨g, -, -, hid⟩ := h₁.1.core.current
    refine require_sat hid Prog.Sat.stable ?_
    intro c₂ hc₂
    obtain ⟨h₂, hs₂⟩ := hsame.steps hc₂ h₁
    have hid₀ : getCurrentSubjectID c.2.scheduler = some (c₁.2.scheduler.groups g).activeSubject := by
      rw [← h₁.2]
      exact hid
    refine ⟨h₂.atStep, fun c₃ hc₃ => hg.steps hc₃ (h₂.writeTimedEvent ?_)⟩
    rw [hs₂]
    exact hop _ hid₀

lemma timedSystem_holds {x : Option (Prog (Label P) (State P) Unit) × (Unit × State P)}
    (hx : (timedSystem hw NotForward).Reached (fun c => Booted hw c.2) x) :
    (timedSystem hw NotForward).Holds (AtStep True True) (Good True (fun _ => True)) x :=
  hx.holds (fun _ h => (booted_good h).imp (fun _ _ => trivial)) (good_stable timedSystem_interferes (true_framed _))
    (fun _ op => timedOp_sat op)

/-! ### Waking up -/

/-- No group of a timer list oversleeps, whether it is marked as active or not. -/
lemma TimersOk.noneOversleeps {s : State P} (h : TimersOk True s) : NoOversleep s := by
  obtain ⟨f, hf, hdue⟩ := h
  intro g hin _
  exact hdue trivial _ g ((hf.mem_iff rfl).mpr hin)

/-- `Activate_Group` sets the activity bit of the group and clears none. -/
lemma timedSystem_activates (p : P.Partition) :
    Activates (timedSystem hw allowed).rely True False (fun _ => True) p
      (fun g c => bitTest (c.2.groupActivity p) (P.groupIndex g) = true) where
  stable g c c' hc h := hc.2.2.1 _ _ h
  scheduler g c f h := h
  activate g c h hlinked := by
    have hbit : ∀ i, Stable (timedSystem hw allowed).rely
        (fun c : Unit × State P => bitTest (c.2.groupActivity p) i = true) := fun i c c' hc h => hc.2.2.1 _ _ h
    have hset : ∀ (s : State P) i j, i = j ∨ bitTest (s.groupActivity p) i = true →
        bitTest ((State.setActivity p j s).groupActivity p) i = true := by
      intro s i j hor
      change bitTest (Function.update s.groupActivity p (bitSet (s.groupActivity p) j) p) i = true
      rw [Function.update_self, bitTest_bitSet, Bool.or_eq_true, decide_eq_true_iff]
      exact hor.symm.imp id Eq.symm
    have hbits : (activateGroup none p g).Sat (timedSystem hw allowed).rely (fun _ _ => True)
        (fun _ c' => bitTest (c'.2.groupActivity p) (P.groupIndex g) = true ∧
          ∀ g', bitTest (c.2.groupActivity p) (P.groupIndex g') = true →
            bitTest (c'.2.groupActivity p) (P.groupIndex g') = true) c := by
      intro c₁ hc₁
      refine ⟨trivial, fun c₂ hc₂ => ⟨trivial, fun c₃ hc₃ => ⟨?_, fun g' hg' => ?_⟩⟩⟩
      · exact (hbit _).steps hc₃ (hset _ _ _ (Or.inl rfl))
      · have h₁ := (hbit _).steps hc₁ hg'
        have h₂ : bitTest (c₂.2.groupActivity p) (P.groupIndex g') = true := (hbit _).steps hc₂ h₁
        exact (hbit _).steps hc₃ (hset _ _ _ (Or.inr h₂))
    exact (activateGroup_sat timedSystem_interferes (true_framed _) h hlinked).and hbits

/-- A group that does not oversleep is woken. -/
lemma Good.wakesExpired {c : Unit × State P} (h : Good True (fun _ => True) c) :
    WakesExpired (timedSystem hw allowed).rely c := by
  obtain ⟨f, hf, hdue⟩ := h.timers
  intro g hin _ hexpired
  have hmem := (hf.mem_iff rfl).mpr hin
  have htimeout := hdue trivial _ g hmem
  have hnow : Stable (timedSystem hw allowed).rely (fun c' : Unit × State P => c.2.tsc ≤ c'.2.tsc) :=
    fun c₁ c₂ hc h₁ => BitVec.le_trans h₁ hc.2.2.2
  have hactivates : Activates (timedSystem hw allowed).rely True False (fun _ => True) (Policy.partitionOf g)
      (fun g' c => bitTest (c.2.groupActivity (Policy.partitionOf g)) (P.groupIndex g') = true) :=
    timedSystem_activates (Policy.partitionOf g)
  have hsat := updateTimerList_activates timedSystem_interferes (true_framed _) hactivates h hf
    (B := fun g' => g' = g) (R := fun now => c.2.tsc ≤ now) hnow (BitVec.le_refl _) (by
      rintro g' now rfl hle
      exact ⟨hmem, BitVec.le_trans htimeout (BitVec.le_trans hexpired hle)⟩)
  refine ⟨?_, fun c' hrun => (hsat.returns hrun).2 g rfl⟩
  obtain ⟨_, c', hrun⟩ := hsat.exists_return (fun _ => id)
  exact ⟨c', hrun⟩

end Operations

/-- As long as no timed event is brought forward while the group of its subject is in the timer list, no group
oversleeps: between two operations, at every step inside of one, and when `Update_Timer_List` is run. -/
theorem noOversleep {hw : Hardware} {x : Option (Prog (Label P) (State P) Unit) × (Unit × State P)}
    (hx : (timedSystem hw NotForward).Reached (fun c => Booted hw c.2) x) :
    (∀ c, x = (none, c) → NoOversleep c.2 ∧ WakesExpired (timedSystem hw NotForward).rely c) ∧
    (∀ l u k c, x = (some (.step l u k), c) → NoOversleep c.2) := by
  have hholds := timedSystem_holds hx
  constructor
  · rintro c rfl
    exact ⟨hholds.idle.timers.noneOversleeps, hholds.idle.wakesExpired⟩
  · rintro l u k c rfl
    exact hholds.label.timers.noneOversleeps

/-! ### Runs of a small policy -/

instance {hw : Hardware} {allowed : State P → TimedEvent → Prop} [∀ s event, Decidable (allowed s event)]
    (c : Unit × State P) (op : TimedOp P) : Decidable ((timedSystem hw allowed).enabled c op) :=
  match op with
  | .updateSchedulingInfo => isTrue trivial
  | .reschedulePartition _ _ => isTrue trivial
  | .indicateActivity _ _ => isTrue trivial
  | .handleIrq _ => isTrue trivial
  | .handlePendingTargetEvent => isTrue trivial
  | .writeTimedEvent event => inferInstanceAs (Decidable (allowed c.2 event))

instance (s : State smallPolicy) (event : TimedEvent) : Decidable (NotForward s event) :=
  inferInstanceAs (Decidable (∀ id, getCurrentSubjectID s.scheduler = some id →
    isGroupInTimerList (smallPolicy.subjectToPartition id) (smallPolicy.subjectToGroup id) s.scheduler = true →
    (s.scheduler.groups (smallPolicy.subjectToGroup id)).timeout ≤ event.tscTriggerValue))

/-- Subject 0 goes to sleep until 1000 when no other subject is active, is woken by an interrupt, asks to be
woken at 500 and goes to sleep again. -/
def sleepsAgain (trigger : Word64) : List (TimedOp smallPolicy) :=
  [.reschedulePartition false false, .reschedulePartition false true, .writeTimedEvent ⟨1000, 0⟩,
    .reschedulePartition false true, .handleIrq 33, .writeTimedEvent ⟨trigger, 0⟩,
    .reschedulePartition false true]

/-- A subject that runs may enable interrupts. -/
def enableInterrupts (s : State smallPolicy) : State smallPolicy :=
  State.setDescriptor 0 (fun d => { d with rflags := 0x202 }) s

/-- The state after the operations that follow the initialization. -/
def afterInit (allowed : State smallPolicy → TimedEvent → Prop) [∀ s event, Decidable (allowed s event)]
    (ops : List (TimedOp smallPolicy)) : Option (State smallPolicy) :=
  ((schedulerInit plainHardware).exec (startState 0 true)).bind
    (fun r => (timedSystem plainHardware allowed).execOps () ops (enableInterrupts r.2))

lemma afterInit_reached {allowed : State smallPolicy → TimedEvent → Prop} [∀ s event, Decidable (allowed s event)]
    {ops : List (TimedOp smallPolicy)} {s : State smallPolicy} (h : afterInit allowed ops = some s) :
    (timedSystem plainHardware allowed).Reached (fun c => Booted plainHardware c.2) (none, ((), s)) := by
  obtain ⟨⟨_, s₁⟩, hboot, hops⟩ := Option.bind_eq_some_iff.mp h
  have hstart : (timedSystem plainHardware allowed).Reached (fun c => Booted plainHardware c.2)
      (none, ((), enableInterrupts s₁)) :=
    ⟨((), s₁), ⟨_, rfl, rfl, rfl, hboot⟩,
      ReflTransGen.single (.interfere ⟨rfl, rfl, fun _ _ => id, BitVec.le_refl _⟩)⟩
  exact hstart.execOps hops

/-- A group oversleeps when its subject brings its timed event forward. -/
theorem noOversleep_fails : ∃ s : State smallPolicy,
    (timedSystem plainHardware (fun _ _ => True)).Reached (fun c => Booted plainHardware c.2) (none, ((), s)) ∧
      ¬NoOversleep s := by
  have hrun : (afterInit (fun _ _ => True) (sleepsAgain 500)).any (fun s =>
      isGroupInTimerList 0 0 s.scheduler && !bitTest (s.groupActivity 0) 0 &&
        decide ((s.scheduler.groups 0).timeout = 1000) &&
        decide ((s.timedEvents (s.scheduler.groups 0).activeSubject).tscTriggerValue = 500)) = true := by
    decide +kernel
  obtain ⟨s, hs, hfacts⟩ := (Option.any_eq_true _ _).mp hrun
  simp only [Bool.and_eq_true, Bool.not_eq_true', decide_eq_true_eq] at hfacts
  obtain ⟨⟨⟨hin, hbit⟩, htimeout⟩, htrigger⟩ := hfacts
  refine ⟨s, afterInit_reached hs, fun h => ?_⟩
  have hle := h 0 hin hbit
  rw [htimeout, htrigger] at hle
  exact absurd hle (by decide)

/-- Subject 0 puts its timed event off when it is woken. -/
theorem noOversleep_putOff : ∃ s : State smallPolicy,
    (timedSystem plainHardware NotForward).Reached (fun c => Booted plainHardware c.2) (none, ((), s)) ∧
      (s.scheduler.groups 0).timeout = 1000 ∧ NoOversleep s := by
  have hrun : (afterInit NotForward (sleepsAgain 2000)).any (fun s =>
      decide ((s.scheduler.groups 0).timeout = 1000)) = true := by
    decide +kernel
  obtain ⟨s, hs, htimeout⟩ := (Option.any_eq_true _ _).mp hrun
  have hreached := afterInit_reached hs
  exact ⟨s, hreached, of_decide_eq_true htimeout, ((noOversleep hreached).1 _ rfl).1⟩

end Muen.Kernel
