import Muen.Kernel.HandlerSpec
import Muen.Kernel.Interrupts
import Muen.Kernel.Xcr0

/-!
# Wake-ups from other CPUs

Subjects on other CPUs send events while a CPU deactivates the groups of its partitions. A sender makes the event
pending and then sets the activity bit of the group; the scheduler clears the bit and then tests once more whether
the subject is active. No event is left pending for a group whose activity bit is not set.
-/

namespace Muen.Kernel

open Lib Relation

variable {P : Policy}

/-- For every subject, the number of senders that have made an event pending for it and have not indicated its
activity yet. -/
abbrev Senders (P : Policy) := P.Subject → ℕ

/-- What other CPUs do: a sender makes one of its two steps, or something else happens that leaves the partitions
`own` of this CPU alone. -/
inductive OtherCpus (own : P.Partition → Prop) : Senders P × State P → Senders P × State P → Prop
  | setEventPending {n : Senders P} {s : State P} (id : P.Subject) (event : EventNr) :
      OtherCpus own (n, s) (Function.update n id (n id + 1), setEventPending id event s)
  | indicateActivity {n : Senders P} {s s' : State P} (id : P.Subject) : 0 < n id →
      (indicateActivity id false).exec s = some ((), s') →
      OtherCpus own (n, s) (Function.update n id (n id - 1), s')
  | other {n : Senders P} {s s' : State P} : s'.scheduler = s.scheduler →
      (∀ id, own (P.subjectToPartition id) → s'.pendingEvents id = s.pendingEvents id) →
      (∀ p, own p → s'.groupActivity p = s.groupActivity p) → OtherCpus own (n, s) (n, s')

/-- The operations of the scheduler, for the current subject; a handover is followed by the events of the subject
that runs next. -/
inductive WakeOp (P : Policy)
  | updateSchedulingInfo
  | reschedulePartition (incrRIP sleep : Bool)
  | handlePendingTargetEvent
  | handover (target : P.Subject)

/-- The CPU that receives events; a handover is to a subject of the same group. -/
def wakeSystem (hw : Hardware) (own : P.Partition → Prop) :
    System (WakeOp P) (Label P) (Senders P) (State P) where
  rely := OtherCpus own
  enabled c
    | .handover target => ∀ id, getCurrentSubjectID c.2.scheduler = some id →
      P.subjectToGroup target = P.subjectToGroup id
    | _ => True
  prog
    | .updateSchedulingInfo => do
      let _ ← updateSchedulingInfo
      pure ()
    | .reschedulePartition incrRIP sleep => do
      let id ← getCurrentSubject
      let _ ← reschedulePartition id incrRIP sleep
      pure ()
    | .handlePendingTargetEvent => do
      let id ← getCurrentSubject
      handlePendingTargetEvent hw id
    | .handover target => do
      setCurrentSubjectID target
      handlePendingTargetEvent hw target

/-- A deactivation has cleared an activity bit and has not finished its second test yet. -/
def Deactivating : Option (Prog (Label P) (State P) Unit) → Prop
  | some (.step l _ _) => l.deactivating ≠ none
  | _ => False

/-- A group whose active subject has a pending event is marked as active, or the subject is being executed. -/
def NoLostWakeUp (own : P.Partition → Prop) (s : State P) : Prop :=
  ∀ g, own (Policy.partitionOf g) → s.pendingEvents (s.scheduler.groups g).activeSubject ≠ 0 →
    bitTest (s.groupActivity (Policy.partitionOf g)) (P.groupIndex g) = true ∨
      getCurrentSubjectID s.scheduler = some (s.scheduler.groups g).activeSubject

/-! ### The invariant -/

/-- The activity bit of the group is set, or a sender is about to set it. -/
def Indicated (c : Senders P × State P) (g : P.Group) : Prop :=
  bitTest (c.2.groupActivity (Policy.partitionOf g)) (P.groupIndex g) = true ∨
    0 < c.1 (c.2.scheduler.groups g).activeSubject

/-- Every group whose active subject has a pending event is indicated as active, but for the exempt one. -/
structure Safe (own : P.Partition → Prop) (exempt : Option P.Group) (c : Senders P × State P) : Prop where
  activeSubject : ∀ g, P.subjectToGroup (c.2.scheduler.groups g).activeSubject = g
  indicated : ∀ g, own (Policy.partitionOf g) → exempt ≠ some g →
    c.2.pendingEvents (c.2.scheduler.groups g).activeSubject ≠ 0 → Indicated c g

/-- Exempt are only the group that is being deactivated and the current one. -/
def AtWake (own : P.Partition → Prop) (o : Option (Label P)) (c : Senders P × State P) : Prop :=
  ∃ exempt, Safe own exempt c ∧ ∀ g, exempt = some g →
    (o.bind Label.deactivating = some g ∨ currentSchedulingGroupID c.2.scheduler = some g)

/-- An update that makes no event pending and clears no activity bit. -/
structure Neutral (u : State P → State P) : Prop where
  activeSubject : ∀ s, (u s).scheduler.core.activeSubject = s.scheduler.core.activeSubject
  activity : ∀ s p i, bitTest (s.groupActivity p) i = true → bitTest ((u s).groupActivity p) i = true
  pendingEvents : ∀ s id i, bitTest ((u s).pendingEvents id) i = true → bitTest (s.pendingEvents id) i = true

section Invariant

variable {own : P.Partition → Prop} {exempt : Option P.Group} {c c' : Senders P × State P}

lemma indicateActivity_exec {id : P.Subject} {s s' : State P}
    (h : (indicateActivity id false).exec s = some ((), s')) :
    s' = State.setActivity (P.subjectToPartition id) (P.groupIndex (P.subjectToGroup id)) s :=
  (congrArg Prod.snd (Option.some.inj h)).symm

lemma bitTest_setActivity {s : State P} {p q : P.Partition} {i j : GroupIndex}
    (h : bitTest (s.groupActivity p) i = true) : bitTest ((State.setActivity q j s).groupActivity p) i = true := by
  change bitTest (Function.update s.groupActivity q (bitSet (s.groupActivity q) j) p) i = true
  by_cases hp : p = q
  · subst hp
    rw [Function.update_self, bitTest_bitSet, h, Bool.true_or]
  · rw [Function.update_of_ne hp, h]

lemma bitTest_setActivity_self (s : State P) (p : P.Partition) (i : GroupIndex) :
    bitTest ((State.setActivity p i s).groupActivity p) i = true := by
  change bitTest (Function.update s.groupActivity p (bitSet (s.groupActivity p) i) p) i = true
  rw [Function.update_self, bitTest_bitSet, decide_eq_true rfl, Bool.or_true]

/-- A group stays indicated when its subject does, and the bit and the senders only grow. -/
lemma Indicated.mono {g : P.Group} (h : Indicated c g)
    (hsubject : (c'.2.scheduler.groups g).activeSubject = (c.2.scheduler.groups g).activeSubject)
    (hbit : bitTest (c.2.groupActivity (Policy.partitionOf g)) (P.groupIndex g) = true →
      bitTest (c'.2.groupActivity (Policy.partitionOf g)) (P.groupIndex g) = true)
    (hsender : 0 < c.1 (c.2.scheduler.groups g).activeSubject →
      0 < c'.1 (c.2.scheduler.groups g).activeSubject ∨
        bitTest (c'.2.groupActivity (Policy.partitionOf g)) (P.groupIndex g) = true) : Indicated c' g := by
  unfold Indicated
  rw [hsubject]
  rcases h with h | h
  · exact .inl (hbit h)
  · exact (hsender h).symm

/-- Other CPUs leave a group indicated. -/
lemma OtherCpus.indicated (hc : OtherCpus own c c') {g : P.Group} (hown : own (Policy.partitionOf g))
    (hgroup : P.subjectToGroup (c.2.scheduler.groups g).activeSubject = g) (h : Indicated c g) :
    Indicated c' g := by
  cases hc with
  | @setEventPending n s id event =>
    refine h.mono rfl (fun hbit => hbit) (fun hn => .inl ?_)
    by_cases hid : (s.scheduler.groups g).activeSubject = id
    · simp only [hid, Function.update_self]
      omega
    · simp only [Function.update_of_ne hid]
      exact hn
  | @indicateActivity n s s' id _ hexec =>
    obtain rfl := indicateActivity_exec hexec
    refine h.mono rfl bitTest_setActivity (fun hn => ?_)
    by_cases hid : (s.scheduler.groups g).activeSubject = id
    · right
      rw [← hid, Policy.subjectToPartition_eq]
      simp only at hgroup
      rw [hgroup]
      exact bitTest_setActivity_self ..
    · left
      simp only [Function.update_of_ne hid]
      exact hn
  | other hs _ hbits =>
    refine h.mono (by rw [hs]) (fun hbit => ?_) (fun hn => .inl hn)
    rw [hbits _ hown]
    exact hbit

lemma OtherCpus.scheduler (hc : OtherCpus own c c') : c'.2.scheduler = c.2.scheduler := by
  cases hc with
  | setEventPending => rfl
  | indicateActivity id _ hexec =>
    obtain rfl := indicateActivity_exec hexec
    rfl
  | other hs _ _ => exact hs

/-- Other CPUs make events pending only with a sender that is about to indicate it. -/
lemma OtherCpus.pendingEvents (hc : OtherCpus own c c') (id : P.Subject) (hown : own (P.subjectToPartition id)) :
    c'.2.pendingEvents id = c.2.pendingEvents id ∨
      (∃ event, c'.2.pendingEvents id = bitSet (c.2.pendingEvents id) event) ∧ 0 < c'.1 id := by
  cases hc with
  | @setEventPending n s id' event =>
    by_cases hid : id = id'
    · subst hid
      refine .inr ⟨⟨event, Function.update_self ..⟩, ?_⟩
      simp only [Function.update_self]
      omega
    · exact .inl (Function.update_of_ne hid ..)
  | indicateActivity id' _ hexec =>
    obtain rfl := indicateActivity_exec hexec
    exact .inl rfl
  | other _ hpending _ => exact .inl (hpending id hown)

lemma Safe.own_subject (h : Safe own exempt c) {g : P.Group} (hown : own (Policy.partitionOf g)) :
    own (P.subjectToPartition (c.2.scheduler.groups g).activeSubject) := by
  rw [Policy.subjectToPartition_eq, h.activeSubject g]
  exact hown

lemma safe_stable : Stable (OtherCpus own) (Safe own exempt) := by
  intro c c' hc h
  have hs := hc.scheduler
  refine ⟨fun g => by rw [hs]; exact h.activeSubject g, fun g hown hne hpending => ?_⟩
  rw [hs] at hpending
  rcases hc.pendingEvents _ (h.own_subject hown) with hsame | ⟨-, hsender⟩
  · rw [hsame] at hpending
    exact hc.indicated hown (h.activeSubject g) (h.indicated g hown hne hpending)
  · right
    rw [hs]
    exact hsender

lemma Safe.mono (h : Safe own none c) : Safe own exempt c :=
  ⟨h.activeSubject, fun g hown _ => h.indicated g hown (by simp)⟩

lemma Safe.atWake (h : Safe own none c) (o : Option (Label P)) : AtWake own o c :=
  ⟨none, h, fun g hg => by simp at hg⟩

/-- The exempt group is not needed any more when it is indicated or nothing is pending for it. -/
lemma Safe.resume {g : P.Group} (h : Safe own (some g) c)
    (hg : own (Policy.partitionOf g) → c.2.pendingEvents (c.2.scheduler.groups g).activeSubject ≠ 0 →
      Indicated c g) : Safe own none c := by
  refine ⟨h.activeSubject, fun g' hown _ hpending => ?_⟩
  by_cases hgg : g = g'
  · subst hgg
    exact hg hown hpending
  · exact h.indicated g' hown (fun he => hgg (Option.some.inj he)) hpending

lemma Neutral.nonzero {u : State P → State P} (hu : Neutral u) {s : State P} {id : P.Subject}
    (h : (u s).pendingEvents id ≠ 0) : s.pendingEvents id ≠ 0 := by
  intro hzero
  refine h ((eq_zero_iff_bitTest _).mpr (fun i => ?_))
  by_contra hbit
  have hold := hu.pendingEvents s id i (by simpa using hbit)
  rw [hzero, bitTest_zero] at hold
  exact Bool.false_ne_true hold

lemma Safe.update {u : State P → State P} (h : Safe own exempt c) (hu : Neutral u) :
    Safe own exempt (c.1, u c.2) := by
  have hsubject : ∀ g, ((u c.2).scheduler.groups g).activeSubject = (c.2.scheduler.groups g).activeSubject :=
    fun g => congrFun (hu.activeSubject c.2) g
  refine ⟨fun g => (congrArg P.subjectToGroup (hsubject g)).trans (h.activeSubject g), ?_⟩
  intro g hown hne hpending
  rw [hsubject g] at hpending
  have hold := h.indicated g hown hne (hu.nonzero hpending)
  exact hold.mono (hsubject g) (hu.activity c.2 _ _) .inl

end Invariant

/-! ### Neutral updates -/

/-- An update of anything but active subjects, activity bits and pending events. -/
lemma neutral_of_same {u : State P → State P}
    (hsubject : ∀ s, (u s).scheduler.core.activeSubject = s.scheduler.core.activeSubject)
    (hactivity : ∀ s, (u s).groupActivity = s.groupActivity)
    (hpending : ∀ s, (u s).pendingEvents = s.pendingEvents) : Neutral u where
  activeSubject := hsubject
  activity s p i h := by rw [hactivity]; exact h
  pendingEvents s id i h := by rw [hpending] at h; exact h

lemma neutral_onScheduler {f : Scheduler P → Scheduler P} (hf : ∀ s, (f s).core = s.core) :
    Neutral (State.onScheduler f) :=
  neutral_of_same (fun s => congrArg Core.activeSubject (hf s.scheduler)) (fun _ => rfl) (fun _ => rfl)

lemma neutral_setPartition {f : SchedulingPartition P → SchedulingPartition P} (p : P.Partition) :
    Neutral (State.onScheduler (fun s => s.setPartition p f)) :=
  neutral_of_same (fun _ => rfl) (fun _ => rfl) (fun _ => rfl)

lemma neutral_setDescriptor (id : P.Subject) (f : SubjectState → SubjectState) :
    Neutral (State.setDescriptor id f) :=
  neutral_of_same (fun _ => rfl) (fun _ => rfl) (fun _ => rfl)

lemma neutral_setActivity (p : P.Partition) (i : GroupIndex) : Neutral (State.setActivity p i) where
  activeSubject _ := rfl
  activity _ _ _ h := bitTest_setActivity h
  pendingEvents _ _ _ h := h

lemma neutral_ite {u : State P → State P} (hu : Neutral u) (b : Bool) :
    Neutral (if b then u else fun s => s) := by
  cases b with
  | true => exact hu
  | false => exact neutral_of_same (fun _ => rfl) (fun _ => rfl) (fun _ => rfl)

/-! ### The scheduler -/

section Scheduler

variable {own : P.Partition → Prop} {exempt : Option P.Group} {c : Senders P × State P}

/-- A program of the CPU after each step of which all pending events are indicated. -/
abbrev KeepsSafe {α : Type} (own : P.Partition → Prop) (p : Proc P α) : Prop :=
  p.Keeps (OtherCpus own) (AtWake own) (Safe own none)

/-- The active subject of its group, with the invariant but for an exempt group. -/
structure Serves (own : P.Partition → Prop) (exempt : Option P.Group) (id : P.Subject)
    (c : Senders P × State P) : Prop where
  safe : Safe own exempt c
  active : (c.2.scheduler.groups (P.subjectToGroup id)).activeSubject = id

lemma serves_stable {id : P.Subject} : Stable (OtherCpus own) (Serves own exempt id) :=
  fun c c' hc h => ⟨safe_stable c c' hc h.safe, by rw [hc.scheduler]; exact h.active⟩

lemma Serves.update {id : P.Subject} {u : State P → State P} (h : Serves own exempt id c) (hu : Neutral u) :
    Serves own exempt id (c.1, u c.2) :=
  ⟨h.safe.update hu, (congrFun (hu.activeSubject c.2) _).trans h.active⟩

lemma Serves.mono {id : P.Subject} (h : Serves own none id c) : Serves own exempt id c :=
  ⟨h.safe.mono, h.active⟩

lemma Serves.atWake {id : P.Subject} (h : Serves own (some (P.subjectToGroup id)) id c) {l : Label P}
    (hl : l.deactivating = some (P.subjectToGroup id)) : AtWake own (some l) c := by
  refine ⟨_, h.safe, fun g hg => .inl ?_⟩
  rw [← hg]
  exact hl

lemma Serves.resume {id : P.Subject} (h : Serves own (some (P.subjectToGroup id)) id c)
    (hid : own (P.subjectToPartition id) → c.2.pendingEvents id ≠ 0 → Indicated c (P.subjectToGroup id)) :
    Safe own none c := by
  refine h.safe.resume (fun hown hpending => hid ?_ ?_)
  · rw [Policy.subjectToPartition_eq]
    exact hown
  · rw [h.active] at hpending
    exact hpending

lemma keepsSafe_modify {u : State P → State P} (hu : Neutral u) (l : Label P) :
    KeepsSafe own (Prog.modify l u : Proc P Unit) :=
  Prog.keeps_modify safe_stable (fun _ h => h.atWake _) (fun _ h => h.update hu)

lemma keepsSafe_read {α : Type} (l : Label P) (f : State P → α) : KeepsSafe own (Prog.read l f : Proc P α) :=
  Prog.keeps_read safe_stable (fun _ h => h.atWake _) f

lemma keepsSafe_pure {α : Type} (a : α) : KeepsSafe own (pure a : Proc P α) := Prog.keeps_pure safe_stable a

lemma keepsSafe_fail {α : Type} : KeepsSafe own (Prog.fail failed : Proc P α) :=
  Prog.keeps_fail safe_stable (fun _ h => h.atWake _) (fun _ h => h.atWake _)

lemma getCurrentSubject_keepsSafe : KeepsSafe own (getCurrentSubject : Proc P P.Subject) :=
  (keepsSafe_read _ _).bind
    (fun o => Prog.keeps_require safe_stable (fun _ h => h.atWake _) (fun _ h => h.atWake _) o)

lemma activateGroup_keepsSafe (p : P.Partition) (g : P.Group) :
    KeepsSafe own (activateGroup none p g : Proc P Unit) :=
  (keepsSafe_modify (neutral_onScheduler (fun s => removeGroupFromTimerList_core s p g)) _).bind
    (fun _ => keepsSafe_modify (neutral_setActivity _ _) _)

lemma timerLoop_keepsSafe (p : P.Partition) (now : Word64) (fuel : ℕ) :
    ∀ cur : Option P.Group, KeepsSafe own (timerLoop p now fuel cur : Proc P (Option P.Group)) := by
  induction fuel with
  | zero =>
    intro cur
    cases cur with
    | none => exact keepsSafe_pure none
    | some g => exact keepsSafe_fail
  | succ fuel ih =>
    intro cur
    cases cur with
    | none => exact keepsSafe_pure none
    | some g =>
      refine (keepsSafe_read _ _).bind (fun timer => ?_)
      by_cases hexpired : timer.timeout ≤ now
      · rw [if_pos hexpired]
        exact (activateGroup_keepsSafe p g).bind (fun _ => ih timer.nextTimer)
      · rw [if_neg hexpired]
        exact keepsSafe_pure (some g)

lemma updateTimerList_keepsSafe (p : P.Partition) : KeepsSafe own (updateTimerList p : Proc P Unit) := by
  refine (keepsSafe_read _ _).bind (fun earliest => (keepsSafe_read _ _).bind (fun now => ?_))
  refine (timerLoop_keepsSafe p now _ earliest).bind (fun cur => ?_)
  apply keepsSafe_modify
  apply neutral_onScheduler
  intro s
  rw [setPrevTimer_core, setEarliestTimer_core]

lemma switchGroup_keepsSafe (p : P.Partition) (g : P.Group) (i : GroupIndex) :
    KeepsSafe own (switchGroup p g i : Proc P Unit) :=
  (keepsSafe_read _ _).bind (fun _ => (keepsSafe_modify (neutral_setDescriptor _ _) _).bind
    (fun _ => keepsSafe_modify (neutral_setPartition p) _))

lemma switchOrSleep_keepsSafe (p : P.Partition) (id : P.Subject) (next : Option P.Group × GroupIndex) :
    KeepsSafe own (switchOrSleep p id next : Proc P Unit) := by
  obtain ⟨next, i⟩ := next
  cases next with
  | some g => exact switchGroup_keepsSafe p g i
  | none =>
    refine (keepsSafe_modify (neutral_setDescriptor _ _) _).bind (fun _ => ?_)
    exact keepsSafe_modify (neutral_setPartition p) _

lemma switchMinorFrame_keepsSafe (σ : Scheduler P) : KeepsSafe own (switchMinorFrame σ : Proc P Unit) := by
  have hframe : ∀ u : State P → State P, (∀ s, (u s).scheduler.core.activeSubject = s.scheduler.core.activeSubject) →
      (∀ s, (u s).groupActivity = s.groupActivity) → (∀ s, (u s).pendingEvents = s.pendingEvents) →
      KeepsSafe own (Prog.modify {} u : Proc P Unit) :=
    fun u hsubject hactivity hpending => keepsSafe_modify (neutral_of_same hsubject hactivity hpending) _
  unfold switchMinorFrame
  by_cases hlast : σ.currentMinorFrameID.val < (P.schedulingPlans σ.cpuID σ.currentMajorFrameID).length.val
  · dsimp only
    rw [dif_pos hlast]
    exact hframe _ (fun _ => rfl) (fun _ => rfl) (fun _ => rfl)
  · dsimp only
    rw [dif_neg hlast]
    refine (hframe updateMajorFrame (fun _ => rfl) (fun _ => rfl) (fun _ => rfl)).bind (fun _ => ?_)
    exact hframe _ (fun _ => rfl) (fun _ => rfl) (fun _ => rfl)

/-! ### Deactivation -/

lemma bitTest_clearActivity {s : State P} {p q : P.Partition} {i j : GroupIndex} (hne : ¬(p = q ∧ i = j))
    (h : bitTest (s.groupActivity p) i = true) :
    bitTest ((State.clearActivity q j s).groupActivity p) i = true := by
  change bitTest (Function.update s.groupActivity q (bitClear (s.groupActivity q) j) p) i = true
  by_cases hp : p = q
  · subst hp
    have hi : j ≠ i := fun he => hne ⟨rfl, he.symm⟩
    rw [Function.update_self, bitTest_bitClear, h, decide_eq_false hi]
    rfl
  · rw [Function.update_of_ne hp, h]

/-- Clearing the activity bit of a group leaves all other groups indicated. -/
lemma Safe.clear {g : P.Group} (h : Safe own none c) :
    Safe own (some g) (c.1, State.clearActivity (Policy.partitionOf g) (P.groupIndex g) c.2) := by
  refine ⟨h.activeSubject, fun g' hown hne hpending => ?_⟩
  refine (h.indicated g' hown (by simp) hpending).mono rfl (bitTest_clearActivity ?_) .inl
  rintro ⟨hp, hi⟩
  exact hne (congrArg some (Policy.groupIndex_injective hp hi).symm)

lemma insertTimer_keepsCore {p : P.Partition} {g : P.Group} {d : Word64} {s s' : Scheduler P}
    (h : insertTimer p g d s = some s') : s'.core = s.core := by
  have hloop : ∀ (fuel : ℕ) (prev next : Option P.Group),
      insertLoop p g d fuel prev next s = some s' → s'.core = s.core := by
    intro fuel
    induction fuel with
    | zero => exact fun _ _ h => absurd h (by simp [insertLoop])
    | succ fuel ih =>
      intro prev next h
      cases next with
      | none =>
        rw [← Option.some.inj h]
        exact insertGroup_core s p g d prev none
      | some n =>
        unfold insertLoop at h
        by_cases hlt : d < (s.groups n).timeout
        · rw [if_pos hlt] at h
          rw [← Option.some.inj h]
          exact insertGroup_core s p g d prev (some n)
        · rw [if_neg hlt] at h
          exact ih _ _ h
  unfold insertTimer at h
  by_cases hin : isGroupInTimerList p g s = true
  · rw [if_pos hin] at h
    rw [Option.some.inj h]
  · rw [if_neg hin] at h
    exact hloop _ _ _ h

lemma neutral_insertTimer (p : P.Partition) (g : P.Group) (d : Word64) :
    Neutral (fun s : State P => ((insertTimer p g d s.scheduler).map
      (fun scheduler => { s with scheduler := scheduler })).getD s) := by
  apply neutral_of_same
  · intro s
    cases h : insertTimer p g d s.scheduler with
    | none => rfl
    | some σ => exact congrArg Core.activeSubject (insertTimer_keepsCore h)
  · intro s
    cases insertTimer p g d s.scheduler <;> rfl
  · intro s
    cases insertTimer p g d s.scheduler <;> rfl

lemma deactivateGroup_serves {id : P.Subject} (h : Serves own none id c) :
    (deactivateGroup (Policy.partitionOf (P.subjectToGroup id)) (P.groupIndex (P.subjectToGroup id)) id).Sat
      (OtherCpus own) (AtWake own) (fun _ => Serves own (some (P.subjectToGroup id)) id) c := by
  refine Prog.sat_read serves_stable h (fun _ h => h.safe.atWake _) (fun c₁ h₁ => ?_)
  have hinsert : (Prog.attempt {} failed (fun s => (insertTimer (Policy.partitionOf (P.subjectToGroup id))
      (P.subjectToGroup id) (c₁.2.timedEvents id).tscTriggerValue s.scheduler).map
        (fun scheduler => { s with scheduler := scheduler })) : Proc P Unit).Sat
      (OtherCpus own) (AtWake own) (fun _ => Serves own none id) c₁ := by
    intro c₂ hc₂
    have h₂ := serves_stable.steps hc₂ h₁
    have h₂' := h₂.update (neutral_insertTimer (Policy.partitionOf (P.subjectToGroup id)) (P.subjectToGroup id)
      (c₁.2.timedEvents id).tscTriggerValue)
    refine ⟨h₂.safe.atWake _, ?_⟩
    dsimp only
    split
    · exact Prog.sat_pure serves_stable h₂'
    · exact fun c₃ hc₃ => ⟨(serves_stable.steps hc₃ h₂').safe.atWake _,
        fun c₄ hc₄ => (serves_stable.steps hc₄ (serves_stable.steps hc₃ h₂')).safe.atWake _⟩
  refine Prog.sat_bind (hinsert.mono (fun _ c₂ h₂ => ?_))
  intro c₃ hc₃
  have h₃ := serves_stable.steps hc₃ h₂
  exact ⟨h₃.safe.atWake _, fun c₄ hc₄ => serves_stable.steps hc₄ ⟨h₃.safe.clear, h₃.active⟩⟩

/-- The second test: where it finds the subject inactive, no event was pending after the bit had been cleared, and
whoever has sent one since indicates it. -/
lemma isActive_serves {id : P.Subject} (h : Serves own (some (P.subjectToGroup id)) id c) :
    (isActive (some (P.subjectToGroup id)) id).Sat (OtherCpus own) (AtWake own)
      (fun active c' => Serves own (some (P.subjectToGroup id)) id c' ∧ (active = false → Safe own none c')) c := by
  have hstable : ∀ active : Bool, Stable (OtherCpus own) (fun c' : Senders P × State P =>
      Serves own (some (P.subjectToGroup id)) id c' ∧ (active = false → Safe own none c')) :=
    fun active c c' hc h => ⟨serves_stable c c' hc h.1, fun ha => safe_stable c c' hc (h.2 ha)⟩
  have hyes : ∀ c' : Senders P × State P, Serves own (some (P.subjectToGroup id)) id c' →
      (pure true : Proc P Bool).Sat (OtherCpus own) (AtWake own)
        (fun active c' => Serves own (some (P.subjectToGroup id)) id c' ∧ (active = false → Safe own none c')) c' :=
    fun c' h' => Prog.sat_pure (hstable true) ⟨h', fun ha => absurd ha (by simp)⟩
  refine Prog.sat_read serves_stable h (fun _ h => h.atWake rfl) (fun c₁ h₁ => ?_)
  by_cases hrunning : (c₁.2.descriptors id).running = true
  · rw [if_pos hrunning]
    exact hyes c₁ h₁
  rw [if_neg hrunning]
  refine Prog.sat_read serves_stable h₁ (fun _ h => h.atWake rfl) (fun c₂ h₂ => ?_)
  by_cases hevent : decide (c₂.2.pendingEvents id ≠ 0) = true
  · rw [if_pos hevent]
    exact hyes c₂ h₂
  rw [if_neg hevent]
  have hnone : Serves own none id c₂ :=
    ⟨h₂.resume (fun _ hpending => absurd (decide_eq_true hpending) hevent), h₂.active⟩
  refine Prog.sat_read serves_stable hnone (fun _ h => h.safe.atWake _) (fun c₃ h₃ => ?_)
  by_cases hinterrupt : hasPendingInterrupt (c₃.2.pendingInterrupts id) = true
  · rw [if_pos hinterrupt]
    exact hyes c₃ h₃.mono
  rw [if_neg hinterrupt]
  refine Prog.sat_read serves_stable h₃ (fun _ h => h.safe.atWake _) (fun c₄ h₄ => ?_)
  intro c₅ hc₅
  have h₅ := serves_stable.steps hc₅ h₄
  exact ⟨h₅.safe.atWake _, fun c₆ hc₆ => (hstable _).steps hc₆ ⟨h₅.mono, fun _ => h₅.safe⟩⟩

lemma activateGroup_serves {id : P.Subject} (h : Serves own (some (P.subjectToGroup id)) id c) :
    (activateGroup (some (P.subjectToGroup id)) (Policy.partitionOf (P.subjectToGroup id))
      (P.subjectToGroup id)).Sat (OtherCpus own) (AtWake own) (fun _ => Safe own none) c := by
  intro c₁ hc₁
  have h₁ := serves_stable.steps hc₁ h
  refine ⟨h₁.atWake rfl, fun c₂ hc₂ => ?_⟩
  have h₂ := serves_stable.steps hc₂ (h₁.update (neutral_onScheduler (fun s =>
    removeGroupFromTimerList_core s (Policy.partitionOf (P.subjectToGroup id)) (P.subjectToGroup id))))
  refine ⟨h₂.atWake rfl, fun c₃ hc₃ => safe_stable.steps hc₃ ?_⟩
  exact (h₂.update (neutral_setActivity _ _)).resume (fun _ _ => .inl (bitTest_setActivity_self _ _ _))

lemma deactivateAndTest_serves {id : P.Subject} (h : Serves own none id c) :
    (deactivateAndTest (Policy.partitionOf (P.subjectToGroup id)) (P.groupIndex (P.subjectToGroup id))
      (P.subjectToGroup id) id).Sat (OtherCpus own) (AtWake own) (fun _ => Safe own none) c := by
  refine Prog.sat_bind ((deactivateGroup_serves h).mono (fun _ c₁ h₁ => ?_))
  refine Prog.sat_bind ((isActive_serves h₁).mono (fun active c₂ h₂ => ?_))
  cases active with
  | true => exact Prog.sat_bind ((activateGroup_serves h₂.1).mono (fun _ c₃ h₃ => keepsSafe_pure true c₃ h₃))
  | false => exact keepsSafe_pure false c₂ (h₂.2 rfl)

lemma examineGroup_keepsSafe (p : P.Partition) (i : GroupIndex) : KeepsSafe own (examineGroup p i) := by
  refine (keepsSafe_read _ _).bind (fun indicated => ?_)
  cases indicated with
  | false => exact keepsSafe_pure none
  | true =>
    cases hg : P.partitionGroups p i with
    | none => exact (keepsSafe_fail : KeepsSafe own (Prog.fail failed : Proc P (Option P.Group)))
    | some g =>
      obtain ⟨hp, hi⟩ := (Policy.partitionGroups_eq_some p i g).mp hg
      intro c h
      refine Prog.sat_read safe_stable h (fun _ h => h.atWake _) (fun c₁ h₁ => ?_)
      -- the scheduler goes on with the subject that it reads here
      obtain ⟨id, hid⟩ : ∃ id, (c₁.2.scheduler.groups g).activeSubject = id := ⟨_, rfl⟩
      have hgroup : P.subjectToGroup id = g := hid ▸ h₁.activeSubject g
      rw [hid]
      subst hgroup hp hi
      have hserves : Serves own none id c₁ := ⟨h₁, hid⟩
      refine Prog.sat_bind ((isActive_sat serves_stable (fun _ h => h.safe.atWake _) hserves id).mono
        (fun active c₂ h₂ => ?_))
      cases active with
      | true =>
        refine Prog.Keeps.bind (keepsSafe_modify (neutral_onScheduler (fun s => ?_)) _)
          (fun _ => keepsSafe_pure _) c₂ h₂.safe
        split
        · exact removeGroupFromTimerList_core s _ _
        · rfl
      | false => exact Prog.sat_bind ((deactivateAndTest_serves h₂).mono (fun _ c₃ h₃ => keepsSafe_pure _ c₃ h₃))

lemma findLoop_keepsSafe (p : P.Partition) (current : GroupIndex) (fuel : ℕ) :
    ∀ i, KeepsSafe own (findLoop p current fuel i) := by
  induction fuel with
  | zero => exact fun _ => keepsSafe_fail
  | succ fuel ih =>
    intro i
    refine (examineGroup_keepsSafe p _).bind (fun next => ?_)
    by_cases hstop : next.isSome ∨ successorGroup p i = current
    · rw [if_pos hstop]
      exact keepsSafe_pure _
    · rw [if_neg hstop]
      exact ih _

lemma findNextActiveSchedulingGroup_keepsSafe (p : P.Partition) :
    KeepsSafe own (findNextActiveSchedulingGroup p) :=
  (keepsSafe_read _ _).bind (fun current => findLoop_keepsSafe p current 64 current)

/-! ### Scheduling operations -/

lemma updateSchedulingPartition_keepsSafe : KeepsSafe own (updateSchedulingPartition : Proc P Unit) := by
  refine getCurrentSubject_keepsSafe.bind (fun id => ?_)
  refine (updateTimerList_keepsSafe _).bind (fun _ => ?_)
  refine (findNextActiveSchedulingGroup_keepsSafe _).bind (fun next => ?_)
  obtain ⟨next, i⟩ := next
  cases next with
  | none => exact keepsSafe_pure ()
  | some g =>
    refine (keepsSafe_read _ _).bind (fun sleeping => ?_)
    cases sleeping with
    | true =>
      refine (keepsSafe_modify (neutral_setDescriptor _ _) _).bind (fun _ => ?_)
      refine (keepsSafe_modify (neutral_setPartition _) _).bind (fun _ => ?_)
      exact switchGroup_keepsSafe _ g i
    | false => exact switchGroup_keepsSafe _ g i

lemma updateSchedulingInfo_keepsSafe : KeepsSafe own (updateSchedulingInfo : Proc P P.Subject) := by
  refine (keepsSafe_read _ _).bind (fun old => ?_)
  refine (switchMinorFrame_keepsSafe old).bind (fun _ => ?_)
  refine updateSchedulingPartition_keepsSafe.bind (fun _ => ?_)
  refine getCurrentSubject_keepsSafe.bind (fun next => ?_)
  refine (keepsSafe_modify ?_ _).bind (fun _ => keepsSafe_pure next)
  exact neutral_of_same (fun _ => rfl) (fun _ => rfl) (fun _ => rfl)

/-- The current subject is the active one of the group at the active index of the current partition. -/
lemma current_of_getCurrentSubjectID {s : Scheduler P} {id : P.Subject} (hid : getCurrentSubjectID s = some id) :
    ∃ g, currentSchedulingGroupID s = some g ∧ (s.groups g).activeSubject = id ∧
      Policy.partitionOf g = currentSchedulingPartitionID s ∧
      P.groupIndex g = (s.partitions (currentSchedulingPartitionID s)).activeGroupIndex := by
  obtain ⟨g, hg, hactive⟩ := Option.map_eq_some_iff.mp hid
  exact ⟨g, hg, hactive, (Policy.partitionGroups_eq_some _ _ g).mp hg⟩

lemma reschedulePartition_safe {id : P.Subject} {incrRIP sleep : Bool} (h : Safe own none c)
    (hid : getCurrentSubjectID c.2.scheduler = some id) :
    (reschedulePartition id incrRIP sleep).Sat (OtherCpus own) (AtWake own) (fun _ => Safe own none) c := by
  obtain ⟨g, -, hactive, hp, hi⟩ := current_of_getCurrentSubjectID hid
  have hgroup : P.subjectToGroup id = g := hactive ▸ h.activeSubject g
  subst hgroup
  have hsame : Stable (OtherCpus own) (fun c' : Senders P × State P =>
      Serves own none id c' ∧ c'.2.scheduler = c.2.scheduler) :=
    fun c c' hc h => ⟨serves_stable c c' hc h.1, hc.scheduler.trans h.2⟩
  refine Prog.sat_read hsame ⟨⟨h, hactive⟩, rfl⟩ (fun _ h => h.1.safe.atWake _) ?_
  rintro c₁ ⟨h₁, hs₁⟩
  rw [hs₁, ← hp]
  refine Prog.sat_modify hsame ⟨h₁, hs₁⟩ (fun _ h => h.1.safe.atWake _) ?_
  rintro c₂ ⟨h₂, hs₂⟩
  have hrun := h₂.update (neutral_ite (neutral_setDescriptor id (fun d => { d with running := false })) sleep)
  have hs : ((if sleep then setRunning id false else fun s => s) c₂.2).scheduler = c.2.scheduler := by
    cases sleep <;> exact hs₂
  have hdeactivate : (deactivateSubject (Policy.partitionOf (P.subjectToGroup id)) id).Sat (OtherCpus own)
      (AtWake own) (fun _ => Safe own none) (c₂.1, (if sleep then setRunning id false else fun s => s) c₂.2) := by
    refine Prog.sat_bind ((isActive_sat hsame (fun _ h => h.1.safe.atWake _) ⟨hrun, hs⟩ id).mono
      (fun active c₃ h₃ => ?_))
    cases active with
    | true => exact keepsSafe_pure () c₃ h₃.1.safe
    | false =>
      refine Prog.sat_read hsame h₃ (fun _ h => h.1.safe.atWake _) ?_
      rintro c₄ ⟨h₄, hs₄⟩
      rw [hs₄, hp, ← hi, ← hp]
      exact Prog.sat_bind ((deactivateAndTest_serves h₄).mono (fun _ c₅ h₅ => keepsSafe_pure () c₅ h₅))
  refine Prog.sat_bind (hdeactivate.mono (fun _ c₃ h₃ => ?_))
  refine Prog.Keeps.bind (keepsSafe_modify (neutral_ite (neutral_setDescriptor id _) incrRIP) _) (fun _ => ?_) c₃ h₃
  refine (findNextActiveSchedulingGroup_keepsSafe _).bind (fun next => ?_)
  exact (switchOrSleep_keepsSafe _ id next).bind (fun _ => getCurrentSubject_keepsSafe)

end Scheduler

/-! ### Target events -/

/-- An update of what belongs to subjects. -/
structure Local (u : State P → State P) : Prop extends Neutral u where
  scheduler : ∀ s, (u s).scheduler = s.scheduler

/-- An assertion that other CPUs and updates of what belongs to subjects keep. -/
structure Robust (own : P.Partition → Prop) (J : Senders P × State P → Prop) : Prop where
  stable : Stable (OtherCpus own) J
  atWake : ∀ o c, J c → AtWake own o c
  update : ∀ u c, Local u → J c → J (c.1, u c.2)

section TargetEvents

variable {own : P.Partition → Prop} {c : Senders P × State P} {J : Senders P × State P → Prop}

lemma local_of_same {u : State P → State P} (hs : ∀ s, (u s).scheduler = s.scheduler)
    (hactivity : ∀ s, (u s).groupActivity = s.groupActivity)
    (hpending : ∀ s, (u s).pendingEvents = s.pendingEvents) : Local u :=
  ⟨neutral_of_same (fun s => by rw [hs]) hactivity hpending, hs⟩

lemma local_setEvents (id : P.Subject) {f : Word64 → Word64}
    (hf : ∀ w i, bitTest (f w) i = true → bitTest w i = true) : Local (State.setEvents id f : State P → State P) where
  activeSubject _ := rfl
  activity _ _ _ h := h
  pendingEvents s id' i h := by
    change bitTest (Function.update s.pendingEvents id (f (s.pendingEvents id)) id') i = true at h
    by_cases hid : id' = id
    · subst hid
      rw [Function.update_self] at h
      exact hf _ i h
    · rw [Function.update_of_ne hid] at h
      exact h
  scheduler _ := rfl

lemma local_vmcsWriteAll (fields : List (VmcsField × Word64)) : Local (vmcsWriteAll fields : State P → State P) := by
  apply local_of_same (vmcsWriteAll_scheduler fields)
  · intro s
    unfold vmcsWriteAll
    split <;> rfl
  · intro s
    unfold vmcsWriteAll
    split <;> rfl

lemma safe_robust : Robust own (Safe own none) :=
  ⟨safe_stable, fun o _ h => h.atWake o, fun _ _ hu h => h.update hu.toNeutral⟩

lemma Robust.modify (hJ : Robust own J) {u : State P → State P} (hu : Local u) (l : Label P) :
    (Prog.modify l u : Proc P Unit).Keeps (OtherCpus own) (AtWake own) J :=
  Prog.keeps_modify hJ.stable (fun _ h => hJ.atWake _ _ h) (fun c h => hJ.update u c hu h)

lemma initSubject_keeps (hJ : Robust own J) (hw : Hardware) (id : P.Subject) :
    (initSubject hw id).Keeps (OtherCpus own) (AtWake own) J := by
  have hclear : Local (clearEvents id : State P → State P) :=
    local_setEvents id (fun _ i h => absurd ((bitTest_zero i).symm.trans h) Bool.false_ne_true)
  refine (hJ.modify (u := State.onFpu (fpuResetState id)) ?_ _).bind (fun _ => ?_)
  · exact local_of_same (fun _ => rfl) (fun _ => rfl) (fun _ => rfl)
  refine (hJ.modify hclear _).bind (fun _ => ?_)
  refine (hJ.modify (u := initInterrupts id) ?_ _).bind (fun _ => ?_)
  · exact local_of_same (fun _ => rfl) (fun _ => rfl) (fun _ => rfl)
  refine (hJ.modify (u := initEvent id) ?_ _).bind (fun _ => ?_)
  · exact local_of_same (fun _ => rfl) (fun _ => rfl) (fun _ => rfl)
  refine (hJ.modify (u := fun s => vmxLoad _ (vmxReset _ s)) ?_ _).bind (fun _ => ?_)
  · exact local_of_same (fun _ => rfl) (fun _ => rfl) (fun _ => rfl)
  refine (hJ.modify (local_vmcsWriteAll _) _).bind (fun _ => ?_)
  exact hJ.modify (u := resetState id) (local_of_same (fun _ => rfl) (fun _ => rfl) (fun _ => rfl)) _

lemma handleTargetEvent_keeps (hJ : Robust own J) (hw : Hardware) (id : P.Subject) (event : TargetEvent) :
    (handleTargetEvent hw id event).Keeps (OtherCpus own) (AtWake own) J := by
  cases event with
  | noAction => exact Prog.keeps_pure hJ.stable ()
  | injectInterrupt vector =>
    exact hJ.modify (u := insertInterrupt id vector) (local_of_same (fun _ => rfl) (fun _ => rfl) (fun _ => rfl)) _
  | reset => exact initSubject_keeps hJ hw id

/-- The events of the current subject are consumed: when `n` rounds are left, `64 - n` events have been consumed
and none of them is pending, or one has been sent again and is indicated. -/
structure Draining (own : P.Partition → Prop) (id : P.Subject) (n : ℕ) (c : Senders P × State P) : Prop where
  serves : Serves own (some (P.subjectToGroup id)) id c
  current : currentSchedulingGroupID c.2.scheduler = some (P.subjectToGroup id)
  drained : own (P.subjectToPartition id) → Indicated c (P.subjectToGroup id) ∨
    ∃ consumed : Finset EventNr, consumed.card + n = 64 ∧
      ∀ event ∈ consumed, bitTest (c.2.pendingEvents id) event = false

lemma draining_robust (id : P.Subject) (n : ℕ) : Robust own (Draining own id n) where
  stable := by
    intro c c' hc h
    refine ⟨serves_stable c c' hc h.serves, by rw [hc.scheduler]; exact h.current, fun hown => ?_⟩
    have hgroup : own (Policy.partitionOf (P.subjectToGroup id)) := Policy.subjectToPartition_eq id ▸ hown
    rcases h.drained hown with hindicated | ⟨consumed, hcard, hnone⟩
    · exact .inl (hc.indicated hgroup (h.serves.safe.activeSubject _) hindicated)
    · rcases hc.pendingEvents id hown with hsame | ⟨-, hsender⟩
      · exact .inr ⟨consumed, hcard, by rw [hsame]; exact hnone⟩
      · left
        right
        rw [hc.scheduler, h.serves.active]
        exact hsender
  atWake o c h := ⟨_, h.serves.safe, fun g hg => .inr (by rw [← hg]; exact h.current)⟩
  update u c hu h := by
    refine ⟨h.serves.update hu.toNeutral, ?_, fun hown => ?_⟩
    · exact (congrArg currentSchedulingGroupID (hu.scheduler c.2)).trans h.current
    · rcases h.drained hown with hindicated | ⟨consumed, hcard, hnone⟩
      · exact .inl (hindicated.mono (by rw [hu.scheduler]) (hu.activity c.2 _ _) .inl)
      · refine .inr ⟨consumed, hcard, fun event hevent => ?_⟩
        by_contra hbit
        have hold := hu.pendingEvents c.2 id event (by simpa using hbit)
        rw [hnone event hevent] at hold
        exact Bool.false_ne_true hold

/-- When nothing is pending, or all events have been consumed once, the current group is as good as any other. -/
lemma Draining.finished {id : P.Subject} {n : ℕ} (h : Draining own id n c)
    (hn : n = 0 ∨ c.2.pendingEvents id = 0) : Safe own none c := by
  refine h.serves.resume (fun hown hpending => ?_)
  rcases h.drained hown with hindicated | ⟨consumed, hcard, hnone⟩
  · exact hindicated
  · rcases hn with rfl | hzero
    · have hall : consumed = Finset.univ := Finset.eq_univ_of_card consumed (by rw [Fintype.card_fin]; omega)
      refine absurd ((eq_zero_iff_bitTest _).mpr (fun i => hnone i ?_)) hpending
      rw [hall]
      exact Finset.mem_univ i
    · exact absurd hzero hpending

/-- Consuming a pending event. -/
lemma Draining.consume {id : P.Subject} {n : ℕ} {event : EventNr} (h : Draining own id (n + 1) c)
    (hpending : own (P.subjectToPartition id) → bitTest (c.2.pendingEvents id) event = true) :
    Draining own id n (c.1, State.setEvents id (fun w => bitClear w event) c.2) := by
  have hlocal : Local (State.setEvents id (fun w => bitClear w event) : State P → State P) := by
    apply local_setEvents
    intro w i hbit
    rw [bitTest_bitClear, Bool.and_eq_true] at hbit
    exact hbit.1
  have hupdated := (draining_robust id (n + 1)).update _ c hlocal h
  refine ⟨hupdated.serves, hupdated.current, fun hown => ?_⟩
  rcases h.drained hown with hindicated | ⟨consumed, hcard, hnone⟩
  · exact .inl hindicated
  · have hnew : event ∉ consumed := fun hmem => by
      have hfalse := hnone event hmem
      rw [hpending hown] at hfalse
      exact Bool.false_ne_true hfalse.symm
    refine .inr ⟨insert event consumed, ?_, fun i hi => ?_⟩
    · rw [Finset.card_insert_of_notMem hnew]
      omega
    · change bitTest (Function.update c.2.pendingEvents id (bitClear (c.2.pendingEvents id) event) id) i = false
      rw [Function.update_self, bitTest_bitClear]
      rcases Finset.mem_insert.mp hi with rfl | hmem
      · simp
      · rw [hnone i hmem, Bool.false_and]

lemma targetEventLoop_drains (hw : Hardware) (id : P.Subject) (n : ℕ) :
    ∀ (handled : Bool) (c : Senders P × State P), Draining own id n c →
      (targetEventLoop hw id n handled).Sat (OtherCpus own) (AtWake own) (fun _ => Safe own none) c := by
  induction n with
  | zero => exact fun handled c h => Prog.sat_pure safe_stable (h.finished (.inl rfl))
  | succ n ih =>
    intro handled c h
    have hR : Robust own (Draining own id (n + 1)) := draining_robust id (n + 1)
    refine Prog.sat_read hR.stable h (hR.atWake _) (fun c₁ h₁ => ?_)
    cases hfound : findHighestBitSet (c₁.2.pendingEvents id) with
    | none => exact Prog.sat_pure safe_stable (h₁.finished (.inr (findHighestBitSet_none.mp hfound)))
    | some event =>
      -- no other CPU takes the event away before it is consumed
      have hboth : Stable (OtherCpus own) (fun c' : Senders P × State P => Draining own id (n + 1) c' ∧
          (own (P.subjectToPartition id) → bitTest (c'.2.pendingEvents id) event = true)) := by
        intro c c' hc h'
        refine ⟨hR.stable c c' hc h'.1, fun hown => ?_⟩
        rcases hc.pendingEvents id hown with hsame | ⟨⟨other, hset⟩, -⟩
        · rw [hsame]
          exact h'.2 hown
        · rw [hset, bitTest_bitSet, h'.2 hown, Bool.true_or]
      refine Prog.sat_modify hboth ⟨h₁, fun _ => (findHighestBitSet_some hfound).1⟩ (fun _ h => hR.atWake _ _ h.1)
        (fun c₂ h₂ => ?_)
      refine Prog.sat_bind ((handleTargetEvent_keeps (draining_robust id n) hw id _ _ (h₂.1.consume h₂.2)).mono ?_)
      exact fun _ c₃ h₃ => ih true c₃ h₃

lemma handlePendingTargetEvent_drains (hw : Hardware) {id : P.Subject} (h : Draining own id 64 c) :
    (handlePendingTargetEvent hw id).Sat (OtherCpus own) (AtWake own) (fun _ => Safe own none) c := by
  refine Prog.sat_bind ((targetEventLoop_drains hw id 64 false c h).mono (fun handled c₁ h₁ => ?_))
  refine Prog.Keeps.bind (keepsSafe_read _ _) (fun running => keepsSafe_modify ?_ _) c₁ h₁
  by_cases hrun : handled = true ∧ ¬running = true
  · rw [if_pos hrun]
    exact neutral_setDescriptor id _
  · rw [if_neg hrun]
    exact neutral_of_same (fun _ => rfl) (fun _ => rfl) (fun _ => rfl)

end TargetEvents

/-! ### Runs -/

section Runs

variable {hw : Hardware} {own : P.Partition → Prop}

/-- The start of the CPU: no event is pending, and no other CPU has sent one. -/
def WakeStart (hw : Hardware) (c : Senders P × State P) : Prop := Booted hw c.2 ∧ c.1 = fun _ => 0

lemma initSubjects_keepsSafe (hw : Hardware) (cpuID : P.Cpu) (ids : List P.Subject) :
    KeepsSafe own (initSubjects hw cpuID ids) := by
  induction ids with
  | nil => exact keepsSafe_pure ()
  | cons id ids ih =>
    have hinit : KeepsSafe own (if P.subjectCpu id = cpuID then initSubject hw id else pure () : Proc P Unit) := by
      by_cases hcpu : P.subjectCpu id = cpuID
      · rw [if_pos hcpu]
        exact initSubject_keeps safe_robust hw id
      · rw [if_neg hcpu]
        exact keepsSafe_pure ()
    exact hinit.bind (fun _ => ih)

lemma WakeStart.safe {c : Senders P × State P} (h : WakeStart hw c) : Safe own none c := by
  obtain ⟨⟨s₀, -, -, hpending, hexec⟩, -⟩ := h
  have hstart : Safe own none (c.1, State.onScheduler (fun s => { s with groups := initSchedulingGroups }) s₀) :=
    ⟨P.initialSubject_group, fun g _ _ hne => absurd (congrFun hpending _) hne⟩
  have hrest : ∀ f : Unit → Proc P Unit, KeepsSafe own (f ()) →
      (Prog.modify {} (State.onScheduler (fun s => { s with groups := initSchedulingGroups })) >>= f).exec s₀ =
        some ((), c.2) → Safe own none c :=
    fun f hf hexec => (hf _ hstart).returns (Prog.exec_runs hexec)
  unfold schedulerInit at hexec
  refine hrest _ ?_ hexec
  refine (keepsSafe_read _ _).bind (fun cpuID => ?_)
  refine (initSubjects_keepsSafe hw cpuID _).bind (fun _ => ?_)
  refine (keepsSafe_read _ _).bind (fun now => ?_)
  refine getCurrentSubject_keepsSafe.bind (fun id => ?_)
  have hsame : ∀ u : State P → State P, (∀ s, (u s).scheduler.core.activeSubject = s.scheduler.core.activeSubject) →
      (∀ s, (u s).groupActivity = s.groupActivity) → (∀ s, (u s).pendingEvents = s.pendingEvents) →
      KeepsSafe own (Prog.modify {} u : Proc P Unit) :=
    fun u hsubject hactivity hpending => keepsSafe_modify (neutral_of_same hsubject hactivity hpending) _
  refine (hsame (vmxLoad (vmcsAddress id)) (fun _ => rfl) (fun _ => rfl) (fun _ => rfl)).bind (fun _ => ?_)
  refine (hsame (fun s => setSchedulingInfo (P.subjectToPartition id) now
    (now + frameDeadline s.scheduler 0 0) s) (fun _ => rfl) (fun _ => rfl) (fun _ => rfl)).bind (fun _ => ?_)
  refine hsame _ (fun s => ?_) (fun _ => rfl) (fun _ => rfl)
  by_cases hbsp : s.scheduler.isBSP = true
  · simp only [State.onScheduler, hbsp, if_true]
    rfl
  · simp only [State.onScheduler, hbsp]
    rfl

lemma Safe.draining {c : Senders P × State P} {id : P.Subject} (h : Safe own none c)
    (hid : getCurrentSubjectID c.2.scheduler = some id) : Draining own id 64 c := by
  obtain ⟨g, hg, hactive, -⟩ := current_of_getCurrentSubjectID hid
  have hgroup : P.subjectToGroup id = g := hactive ▸ h.activeSubject g
  subst hgroup
  exact ⟨⟨h.mono, hactive⟩, hg, fun _ => .inr ⟨∅, by simp, by simp⟩⟩

/-- After a handover to a subject of the same group, the group is the only one that may not be indicated. -/
lemma Safe.handover {c : Senders P × State P} {target : P.Subject} (h : Safe own none c)
    (hcurrent : currentSchedulingGroupID c.2.scheduler = some (P.subjectToGroup target)) :
    Draining own target 64 (c.1, State.onScheduler (fun s => s.setGroup (P.subjectToGroup target)
      (fun x => { x with activeSubject := target })) c.2) := by
  have hactive : ∀ g, ((State.onScheduler (fun s => s.setGroup (P.subjectToGroup target)
      (fun x => { x with activeSubject := target })) c.2).scheduler.groups g).activeSubject =
      if g = P.subjectToGroup target then target else (c.2.scheduler.groups g).activeSubject := by
    intro g
    simp only [State.onScheduler]
    by_cases hg : g = P.subjectToGroup target
    · rw [if_pos hg, hg, Scheduler.setGroup_self]
    · rw [if_neg hg, Scheduler.setGroup_of_ne _ _ hg]
  refine ⟨⟨⟨fun g => (congrArg P.subjectToGroup (hactive g)).trans ?_, fun g hown hne hpending => ?_⟩, ?_⟩,
    hcurrent, fun _ => .inr ⟨∅, by simp, by simp⟩⟩
  · by_cases hg : g = P.subjectToGroup target
    · rw [if_pos hg, hg]
    · rw [if_neg hg]
      exact h.activeSubject g
  · have hg : g ≠ P.subjectToGroup target := fun he => hne (congrArg some he.symm)
    have hsubject := (hactive g).trans (if_neg hg)
    have hold : c.2.pendingEvents (c.2.scheduler.groups g).activeSubject ≠ 0 :=
      fun hzero => hpending ((congrArg c.2.pendingEvents hsubject).trans hzero)
    exact (h.indicated g hown (by simp) hold).mono hsubject id .inl
  · exact (hactive _).trans (if_pos rfl)

lemma wakeOp_sat {c : Senders P × State P} (op : WakeOp P) (h : Safe own none c)
    (hop : (wakeSystem hw own).enabled c op) :
    ((wakeSystem hw own).prog op).Sat (OtherCpus own) (AtWake own) (fun _ => Safe own none) c := by
  -- the current subject, at the time it is read
  have hcurrent : ∀ k : P.Subject → Proc P Unit,
      (∀ id c', Safe own none c' → getCurrentSubjectID c'.2.scheduler = some id →
        (k id).Sat (OtherCpus own) (AtWake own) (fun _ => Safe own none) c') →
      (getCurrentSubject >>= k).Sat (OtherCpus own) (AtWake own) (fun _ => Safe own none) c := by
    intro k hk
    refine Prog.sat_bind (Prog.sat_read safe_stable h (fun _ h => h.atWake _) (fun c₁ h₁ => ?_))
    cases hid : getCurrentSubjectID c₁.2.scheduler with
    | none => exact fun c₂ hc₂ => ⟨(safe_stable.steps hc₂ h₁).atWake _,
        fun c₃ hc₃ => (safe_stable.steps hc₃ (safe_stable.steps hc₂ h₁)).atWake _⟩
    | some id =>
      refine Prog.sat_pure Prog.Sat.stable (hk id c₁ h₁ hid)
  cases op with
  | updateSchedulingInfo => exact updateSchedulingInfo_keepsSafe.bind (fun _ => keepsSafe_pure ()) c h
  | reschedulePartition incrRIP sleep =>
    refine hcurrent _ (fun id c₁ h₁ hid => ?_)
    exact Prog.sat_bind ((reschedulePartition_safe h₁ hid).mono (fun _ c₂ h₂ => keepsSafe_pure () c₂ h₂))
  | handlePendingTargetEvent =>
    exact hcurrent _ (fun id c₁ h₁ hid => handlePendingTargetEvent_drains hw (h₁.draining hid))
  | handover target =>
    have hsame : Stable (OtherCpus own) (fun c' : Senders P × State P =>
        Safe own none c' ∧ c'.2.scheduler = c.2.scheduler) :=
      fun c c' hc h => ⟨safe_stable c c' hc h.1, hc.scheduler.trans h.2⟩
    refine Prog.sat_bind (Prog.sat_read hsame ⟨h, rfl⟩ (fun _ h => h.1.atWake _) ?_)
    rintro c₁ ⟨h₁, hs₁⟩
    cases hg : currentSchedulingGroupID c₁.2.scheduler with
    | none => exact fun c₂ hc₂ => ⟨(safe_stable.steps hc₂ h₁).atWake _,
        fun c₃ hc₃ => (safe_stable.steps hc₃ (safe_stable.steps hc₂ h₁)).atWake _⟩
    | some g =>
      have hid : getCurrentSubjectID c.2.scheduler = some (c.2.scheduler.groups g).activeSubject := by
        rw [getCurrentSubjectID, ← hs₁, hg]
        rfl
      have htarget : P.subjectToGroup target = g := (hop _ hid).trans (h.activeSubject g)
      subst htarget
      intro c₂ hc₂
      obtain ⟨h₂, hs₂⟩ := hsame.steps hc₂ ⟨h₁, hs₁⟩
      have hcur : currentSchedulingGroupID c₂.2.scheduler = some (P.subjectToGroup target) := by
        rw [hs₂, ← hs₁]
        exact hg
      refine ⟨h₂.atWake _, fun c₃ hc₃ => handlePendingTargetEvent_drains hw ?_⟩
      exact (draining_robust target 64).stable.steps hc₃ (h₂.handover hcur)

/-- A pending event is never left without its activity bit: whenever no sender is between its two steps and the CPU
is not in the middle of a deactivation. -/
theorem noLostWakeUp {x : Option (Prog (Label P) (State P) Unit) × (Senders P × State P)}
    (hx : (wakeSystem hw own).Reached (WakeStart hw) x) (hsenders : ∀ id, x.2.1 id = 0)
    (hdeactivating : ¬Deactivating x.1) : NoLostWakeUp own x.2.2 := by
  have hholds : (wakeSystem hw own).Holds (AtWake own) (Safe own none) x :=
    hx.holds (fun _ h => h.safe) safe_stable (fun _ op => wakeOp_sat op)
  have hexempt : ∃ exempt, Safe own exempt x.2 ∧
      ∀ g, exempt = some g → currentSchedulingGroupID x.2.2.scheduler = some g := by
    obtain ⟨p, c⟩ := x
    have hidle : Safe own none c → ∃ exempt, Safe own exempt c ∧
        ∀ g, exempt = some g → currentSchedulingGroupID c.2.scheduler = some g :=
      fun h => ⟨none, h, fun g hg => absurd hg (by simp)⟩
    cases p with
    | none => exact hidle hholds.idle
    | some p =>
      cases p with
      | done a => exact hidle (hholds c ReflTransGen.refl)
      | halt =>
        obtain ⟨exempt, hsafe, hcurrent⟩ := hholds.halted
        exact ⟨exempt, hsafe, fun g hg => (hcurrent g hg).resolve_left (by simp)⟩
      | step l u k =>
        obtain ⟨exempt, hsafe, hcurrent⟩ := hholds.label
        refine ⟨exempt, hsafe, fun g hg => (hcurrent g hg).resolve_left (fun hl => hdeactivating ?_)⟩
        have hl' : l.deactivating = some g := hl
        rw [Deactivating, hl']
        exact Option.some_ne_none g
  obtain ⟨exempt, hsafe, hcurrent⟩ := hexempt
  intro g hown hpending
  by_cases hg : exempt = some g
  · right
    rw [getCurrentSubjectID, hcurrent g hg]
    rfl
  · rcases hsafe.indicated g hown hg hpending with hbit | hsender
    · exact .inl hbit
    · rw [hsenders] at hsender
      exact absurd hsender (Nat.lt_irrefl 0)

end Runs

/-! ### A run of a small policy -/

instance {hw : Hardware} {own : P.Partition → Prop} (c : Senders P × State P) (op : WakeOp P) :
    Decidable ((wakeSystem hw own).enabled c op) :=
  match op with
  | .updateSchedulingInfo => isTrue trivial
  | .reschedulePartition _ _ => isTrue trivial
  | .handlePendingTargetEvent => isTrue trivial
  | .handover target => inferInstanceAs (Decidable (∀ id, getCurrentSubjectID c.2.scheduler = some id →
      P.subjectToGroup target = P.subjectToGroup id))

/-- The state in which subject 0 has gone to sleep and subject 1 runs. -/
def afterSleep : Option (State smallPolicy) :=
  ((schedulerInit plainHardware).exec (startState 0 true)).bind (fun r =>
    (wakeSystem plainHardware (fun _ => True)).execOps (fun _ => 0) [.reschedulePartition false true] r.2)

/-- An event is sent to subject 0 while it sleeps. -/
theorem noLostWakeUp_sleeping : ∃ s : State smallPolicy,
    getCurrentSubjectID s.scheduler = some 1 ∧ (s.scheduler.groups 0).activeSubject = 0 ∧
      s.pendingEvents 0 ≠ 0 ∧ NoLostWakeUp (fun _ => True) s := by
  have hrun : afterSleep.any (fun s => decide (getCurrentSubjectID s.scheduler = some 1) &&
      decide ((s.scheduler.groups 0).activeSubject = 0) && decide (s.pendingEvents 0 = 0)) = true := by
    decide
  obtain ⟨s, hs, hfacts⟩ := (Option.any_eq_true _ _).mp hrun
  simp only [Bool.and_eq_true, decide_eq_true_eq] at hfacts
  obtain ⟨⟨hcurrent, hactive⟩, hpending⟩ := hfacts
  obtain ⟨⟨_, s₁⟩, hboot, hops⟩ := Option.bind_eq_some_iff.mp hs
  have hstart : WakeStart plainHardware ((fun _ => 0, s₁) : Senders smallPolicy × State smallPolicy) :=
    ⟨⟨_, rfl, rfl, rfl, hboot⟩, rfl⟩
  have hreached : (wakeSystem plainHardware (fun _ => True)).Reached (WakeStart plainHardware)
      (none, ((fun _ => 0 : Senders smallPolicy), s)) :=
    System.Reached.execOps ⟨_, hstart, ReflTransGen.refl⟩ hops
  obtain ⟨c, hc, hsteps⟩ := hreached
  -- a sender makes its two steps
  have hsent := (hsteps.tail (.interfere (.setEventPending 0 5))).tail
    (.interfere (.indicateActivity 0 (by decide) rfl))
  have hsenders : ∀ id : smallPolicy.Subject, Function.update (Function.update (fun _ => 0) 0 (0 + 1)) 0
      (Function.update (fun _ : smallPolicy.Subject => 0) 0 (0 + 1) 0 - 1) id = 0 := by decide
  refine ⟨_, ?_, ?_, ?_, noLostWakeUp ⟨c, hc, hsent⟩ hsenders (fun h => h)⟩
  · exact hcurrent
  · exact hactive
  · change bitSet (s.pendingEvents 0) 5 ≠ 0
    rw [hpending]
    decide

end Muen.Kernel
