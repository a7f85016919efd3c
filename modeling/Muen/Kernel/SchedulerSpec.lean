import Muen.Kernel.TimerList

/-!
# What the procedures of the scheduler keep

Specifications under interference: every procedure keeps the timer lists and the assignment of subjects
to groups, fails no run-time check, and activates a group only when it is in its timer list. Assertions
that do not look at the variables a procedure writes are carried along as a frame.
-/

namespace Muen.Kernel

open Lib Relation

variable {P : Policy} {ε : Type} {X E : Prop} {rely : ε × State P → ε × State P → Prop} {K : State P → Prop}

/-- The environment leaves the scheduler's own variables alone, and the timed events if `X`. -/
structure Interferes (X : Prop) (rely : ε × State P → ε × State P → Prop) : Prop where
  scheduler : ∀ c c', rely c c' → c'.2.scheduler = c.2.scheduler
  timedEvents : X → ∀ c c', rely c c' → c'.2.timedEvents = c.2.timedEvents

/-- An assertion that neither the environment nor a scheduling operation can break. -/
structure Framed (rely : ε × State P → ε × State P → Prop) (K : State P → Prop) : Prop where
  stable : Stable rely (fun c => K c.2)
  scheduler : ∀ (s : State P) (σ : Scheduler P), σ.core.activeSubject = s.scheduler.core.activeSubject →
    K s → K { s with scheduler := σ }
  setActivity : ∀ s p i, K s → K (State.setActivity p i s)
  clearActivity : ∀ s p i, K s → K (State.clearActivity p i s)
  setRunning : ∀ s id b, K s → K (setRunning id b s)
  setActivityState : ∀ s id w, K s → K (setActivityState id w s)

/-- No group waits for longer than until the timed event of its subject. -/
def Due (s : State P) (f : P.Partition → List P.Group) : Prop :=
  ∀ p g, g ∈ f p →
    s.scheduler.timeout g ≤ (s.timedEvents (s.scheduler.core.activeSubject g)).tscTriggerValue

/-- The timer lists are well formed, and no group in them oversleeps if `X`. -/
def TimersOk (X : Prop) (s : State P) : Prop := ∃ f, TimerLists s.scheduler f ∧ (X → Due s f)

/-- The group is in the timer list of the partition. -/
def Linked (p : P.Partition) (g : P.Group) (s : Scheduler P) : Prop := ∃ f, TimerLists s f ∧ g ∈ f p

/-- The active subject of a group is one of the group, and the active group index of a partition is one
of its group indexes. -/
structure CoreOk (s : Scheduler P) : Prop where
  activeSubject : ∀ g, P.subjectToGroup (s.groups g).activeSubject = g
  activeGroupIndex : ∀ p, (s.partitions p).activeGroupIndex ≤ P.lastGroupIndex p

structure Good (X : Prop) (K : State P → Prop) (c : ε × State P) : Prop where
  timers : TimersOk X c.2
  core : CoreOk c.2.scheduler
  kept : K c.2

/-- What holds where a step with label `l` is made. -/
structure StepOk (X : Prop) (l : Label P) (c : ε × State P) : Prop where
  notFailed : l.failed = false
  timers : TimersOk X c.2
  activating : ∀ p g, l.activating = some (p, g) → Linked p g c.2.scheduler

/-- Steps are made where `StepOk` holds, and the kernel halts only if `E`. -/
def AtStep (X E : Prop) : Option (Label P) → ε × State P → Prop
  | some l, c => StepOk X l c
  | none, _ => E

/-! ### Assertions and updates -/

lemma setPartition_same {s : Scheduler P} {p : P.Partition} {f : SchedulingPartition P → SchedulingPartition P}
    (h : f (s.partitions p) = s.partitions p) : s.setPartition p f = s := by
  unfold Scheduler.setPartition
  rw [h, Function.update_eq_self]

lemma setGroup_same {s : Scheduler P} {g : P.Group} {f : SchedulingGroup P → SchedulingGroup P}
    (h : f (s.groups g) = s.groups g) : s.setGroup g f = s := by
  unfold Scheduler.setGroup
  rw [h, Function.update_eq_self]

lemma onScheduler_same {s : State P} {f : Scheduler P → Scheduler P} (h : f s.scheduler = s.scheduler) :
    State.onScheduler f s = s := by
  unfold State.onScheduler
  rw [h]

lemma timersOk_congr {s s' : State P} (hs : s'.scheduler = s.scheduler)
    (ht : X → s'.timedEvents = s.timedEvents) (h : TimersOk X s) : TimersOk X s' := by
  obtain ⟨f, hf, hdue⟩ := h
  refine ⟨f, hs ▸ hf, ?_⟩
  intro hX p g hg
  rw [hs, ht hX]
  exact hdue hX p g hg

lemma Framed.active (hR : Interferes X rely) (hK : Framed rely K) (g : P.Group) (id : P.Subject) :
    Framed rely (fun s => K s ∧ (s.scheduler.groups g).activeSubject = id) where
  stable c c' hc h := ⟨hK.stable c c' hc h.1, by rw [hR.scheduler c c' hc]; exact h.2⟩
  scheduler s σ hσ h := ⟨hK.scheduler s σ hσ h.1, (congrFun hσ g).trans h.2⟩
  setActivity s p i h := ⟨hK.setActivity s p i h.1, h.2⟩
  clearActivity s p i h := ⟨hK.clearActivity s p i h.1, h.2⟩
  setRunning s id' b h := ⟨hK.setRunning s id' b h.1, h.2⟩
  setActivityState s id' w h := ⟨hK.setActivityState s id' w h.1, h.2⟩

lemma Good.imp {K' : State P → Prop} {c : ε × State P} (h : Good X K c) (hK : ∀ s, K s → K' s) :
    Good X K' c :=
  ⟨h.timers, h.core, hK c.2 h.kept⟩

lemma Interferes.good (hR : Interferes X rely) (hK : Stable rely (fun c => K c.2)) :
    Stable rely (Good X K) := by
  intro c c' hc h
  have hs := hR.scheduler c c' hc
  exact ⟨timersOk_congr hs (fun hX => hR.timedEvents hX c c' hc) h.timers, hs ▸ h.core,
    hK c c' hc h.kept⟩

lemma good_stable (hR : Interferes X rely) (hK : Framed rely K) : Stable rely (Good X K) :=
  hR.good hK.stable

lemma linked_stable (hR : Interferes X rely) (p : P.Partition) (g : P.Group) :
    Stable rely (fun c => Linked p g c.2.scheduler) := by
  intro c c' hc h
  rw [hR.scheduler c c' hc]
  exact h

lemma Good.atStep {c : ε × State P} {d : Option P.Group} (h : Good X K c) :
    AtStep X E (some { deactivating := d }) c :=
  ⟨rfl, h.timers, fun _ _ ha => by simp at ha⟩

/-- An update outside of the scheduler's variables and the timed events. -/
lemma Good.update {c : ε × State P} {u : State P → State P} (h : Good X K c)
    (hs : (u c.2).scheduler = c.2.scheduler) (ht : (u c.2).timedEvents = c.2.timedEvents)
    (hK : K (u c.2)) : Good X K (c.1, u c.2) :=
  ⟨timersOk_congr hs (fun _ => ht) h.timers, by rw [hs]; exact h.core, hK⟩

lemma CoreOk.congr {s s' : Scheduler P} (h : CoreOk s) (hs : s'.core = s.core) : CoreOk s' where
  activeSubject g := by
    have hg := congrFun (congrArg Core.activeSubject hs) g
    exact (congrArg P.subjectToGroup hg).trans (h.activeSubject g)
  activeGroupIndex p := by
    have hp := congrFun (congrArg Core.activeGroupIndex hs) p
    exact (le_of_eq hp).trans (h.activeGroupIndex p)

/-- An update of the timer lists. -/
lemma Good.timerLists {c : ε × State P} {σ : Scheduler P} {f : P.Partition → List P.Group}
    (hK : Framed rely K) (h : Good X K c) (hσ : σ.core = c.2.scheduler.core) (hf : TimerLists σ f)
    (hdue : X → Due { c.2 with scheduler := σ } f) : Good X K (c.1, { c.2 with scheduler := σ }) :=
  ⟨⟨f, hf, hdue⟩, h.core.congr hσ, hK.scheduler c.2 σ (congrArg Core.activeSubject hσ) h.kept⟩

/-- Removing a group from the list that it is in. -/
lemma Good.remove {c : ε × State P} {p : P.Partition} {g : P.Group} (hK : Framed rely K) (h : Good X K c)
    (hg : Linked p g c.2.scheduler) :
    Good X K (c.1, State.onScheduler (removeGroupFromTimerList p g) c.2) := by
  obtain ⟨f, hf, hdue⟩ := h.timers
  obtain ⟨f', hf', hmem⟩ := hg
  have hin : isGroupInTimerList p g c.2.scheduler = true := (hf'.mem_iff (hf'.owned p g hmem)).mp hmem
  obtain ⟨as, bs, hfp⟩ := List.append_of_mem ((hf.mem_iff (hf'.owned p g hmem)).mpr hin)
  have hcore := removeGroupFromTimerList_core c.2.scheduler p g
  refine h.timerLists hK hcore (hf.remove hfp) ?_
  intro hX q x hx
  have hxf : x ∈ f q := by
    by_cases hq : q = p
    · subst hq
      rw [Function.update_self] at hx
      rw [hfp]
      simp only [List.mem_append, List.mem_cons] at hx ⊢
      tauto
    · rwa [Function.update_of_ne hq] at hx
  rw [hcore, removeGroupFromTimerList_timeout]
  exact hdue hX q x hxf

/-- An update of the scheduler's variables that are not part of the timer lists. -/
lemma Good.schedule {c : ε × State P} {σ : Scheduler P} (hK : Framed rely K) (h : Good X K c)
    (hlinks : σ.links = c.2.scheduler.links) (htimeout : σ.timeout = c.2.scheduler.timeout)
    (hsubject : σ.core.activeSubject = c.2.scheduler.core.activeSubject)
    (hindex : ∀ p, σ.core.activeGroupIndex p ≤ P.lastGroupIndex p) :
    Good X K (c.1, { c.2 with scheduler := σ }) := by
  obtain ⟨f, hf, hdue⟩ := h.timers
  refine ⟨⟨f, ⟨hlinks ▸ hf.links, hf.owned, htimeout ▸ hf.sorted⟩, ?_⟩, ⟨?_, hindex⟩,
    hK.scheduler c.2 σ hsubject h.kept⟩
  · intro hX p g hg
    rw [hsubject, htimeout]
    exact hdue hX p g hg
  · intro g
    exact (congrArg P.subjectToGroup (congrFun hsubject g)).trans (h.core.activeSubject g)

/-- An update of a partition that leaves its timer list alone. -/
lemma Good.setPartition {c : ε × State P} {p : P.Partition}
    {u : SchedulingPartition P → SchedulingPartition P} (hK : Framed rely K) (h : Good X K c)
    (htimer : (u (c.2.scheduler.partitions p)).earliestTimer = (c.2.scheduler.partitions p).earliestTimer)
    (hindex : (u (c.2.scheduler.partitions p)).activeGroupIndex ≤ P.lastGroupIndex p) :
    Good X K (c.1, State.onScheduler (fun s => s.setPartition p u) c.2) := by
  refine h.schedule hK ?_ rfl rfl ?_
  · unfold Scheduler.links Scheduler.setPartition
    rw [proj_update_same SchedulingPartition.earliestTimer _ htimer]
  · intro q
    show ((c.2.scheduler.setPartition p u).partitions q).activeGroupIndex ≤ P.lastGroupIndex q
    by_cases hq : q = p
    · subst hq
      rw [Scheduler.setPartition_self]
      exact hindex
    · rw [Scheduler.setPartition_of_ne _ _ hq]
      exact h.core.activeGroupIndex q

/-! ### Reads -/

lemma require_sat {α : Type} {I : Option (Label P) → ε × State P → Prop} {Q : α → ε × State P → Prop} {a : α}
    {o : Option α} {c : ε × State P} (ho : o = some a) (hQ : Stable rely (Q a)) (h : Q a c) :
    (Prog.require failed o : Proc P α).Sat rely I Q c := by
  rw [ho]
  exact Prog.sat_pure hQ h

/-- The activity test reads only. -/
lemma isActive_sat {I : Option (Label P) → ε × State P → Prop} {J : ε × State P → Prop} {d : Option P.Group}
    {c : ε × State P} (hJ : Stable rely J) (hI : ∀ c, J c → I (some { deactivating := d }) c) (h : J c)
    (id : P.Subject) : (isActive d id).Sat rely I (fun _ => J) c := by
  refine Prog.sat_read hJ h hI (fun c₁ h₁ => ?_)
  by_cases hr : (c₁.2.descriptors id).running = true
  · rw [if_pos hr]
    exact Prog.sat_pure hJ h₁
  rw [if_neg hr]
  refine Prog.sat_read hJ h₁ hI (fun c₂ h₂ => ?_)
  by_cases he : decide (c₂.2.pendingEvents id ≠ 0) = true
  · rw [if_pos he]
    exact Prog.sat_pure hJ h₂
  rw [if_neg he]
  refine Prog.sat_read hJ h₂ hI (fun c₃ h₃ => ?_)
  by_cases hi : hasPendingInterrupt (c₃.2.pendingInterrupts id) = true
  · rw [if_pos hi]
    exact Prog.sat_pure hJ h₃
  rw [if_neg hi]
  refine Prog.sat_read hJ h₃ hI (fun c₄ h₄ => ?_)
  intro c₅ hc₅
  have h₅ := hJ.steps hc₅ h₄
  exact ⟨hI c₅ h₅, fun c₆ hc₆ => hJ.steps hc₆ h₅⟩

/-- The current group is the one at the active group index of the current partition. -/
lemma CoreOk.current {s : Scheduler P} (h : CoreOk s) :
    ∃ g, currentSchedulingGroupID s = some g ∧ Policy.partitionOf g = currentSchedulingPartitionID s ∧
      getCurrentSubjectID s = some (s.groups g).activeSubject := by
  obtain ⟨g, hg⟩ := Policy.exists_group (h.activeGroupIndex (currentSchedulingPartitionID s))
  have hcur : currentSchedulingGroupID s = some g := hg
  refine ⟨g, hcur, ((Policy.partitionGroups_eq_some _ _ _).mp hg).1, ?_⟩
  rw [getCurrentSubjectID, hcur]
  rfl

/-- The current subject is the active one of its own group, which is a group of the current partition. -/
lemma CoreOk.current_subject {s : Scheduler P} (h : CoreOk s) {id : P.Subject}
    (hid : getCurrentSubjectID s = some id) :
    (s.groups (P.subjectToGroup id)).activeSubject = id ∧
      currentSchedulingGroupID s = some (P.subjectToGroup id) ∧
      P.subjectToPartition id = currentSchedulingPartitionID s := by
  obtain ⟨g, hg, hp, hsubject⟩ := h.current
  obtain rfl := Option.some.inj (hsubject.symm.trans hid)
  have hgroup := h.activeSubject g
  rw [hgroup]
  refine ⟨rfl, hg, ?_⟩
  rw [Policy.subjectToPartition_eq, hgroup, hp]

lemma getCurrentSubject_sat (hR : Interferes X rely) (hK : Framed rely K) {c : ε × State P}
    (h : Good X K c) : (getCurrentSubject : Proc P P.Subject).Sat rely (AtStep X E)
      (fun id c' => Good X K c' ∧ getCurrentSubjectID c'.2.scheduler = some id) c := by
  refine Prog.sat_read (good_stable hR hK) h (fun _ h => h.atStep) (fun c₁ h₁ => ?_)
  obtain ⟨g, -, -, hid⟩ := h₁.core.current
  refine require_sat hid ?_ ⟨h₁, hid⟩
  intro c c' hc hQ
  exact ⟨good_stable hR hK c c' hc hQ.1, by rw [hR.scheduler c c' hc]; exact hQ.2⟩

/-! ### Activation and deactivation -/

section Activation

variable (hR : Interferes X rely) (hK : Framed rely K)

include hR hK

lemma activateGroup_sat {d : Option P.Group} {p : P.Partition} {g : P.Group} {c : ε × State P}
    (h : Good X K c) (hg : Linked p g c.2.scheduler) :
    (activateGroup d p g).Sat rely (AtStep X E)
      (fun _ c' => Good X K c' ∧ c'.2.scheduler = removeGroupFromTimerList p g c.2.scheduler) c := by
  have hsame : ∀ σ : Scheduler P, Stable rely (fun c => Good X K c ∧ c.2.scheduler = σ) :=
    fun σ c c' hc h => ⟨good_stable hR hK c c' hc h.1, (hR.scheduler c c' hc).trans h.2⟩
  refine Prog.sat_modify (hsame c.2.scheduler) ⟨h, rfl⟩ ?_ ?_
  · rintro c₁ ⟨h₁, hs₁⟩
    refine ⟨rfl, h₁.timers, ?_⟩
    intro p' g' ha
    obtain ⟨rfl, rfl⟩ := Prod.mk.inj (Option.some.inj ha)
    rw [hs₁]
    exact hg
  · rintro c₁ ⟨h₁, hs₁⟩ c₂ hc₂
    have hremoved : (State.onScheduler (removeGroupFromTimerList p g) c₁.2).scheduler =
        removeGroupFromTimerList p g c.2.scheduler := congrArg (removeGroupFromTimerList p g) hs₁
    obtain ⟨h₂, hs₂⟩ := (hsame _).steps hc₂ ⟨h₁.remove hK (by rw [hs₁]; exact hg), hremoved⟩
    refine ⟨h₂.atStep, fun c₃ hc₃ => (hsame _).steps hc₃ ⟨?_, hs₂⟩⟩
    exact h₂.update rfl rfl (hK.setActivity _ _ _ h₂.kept)

lemma deactivateGroup_sat {p : P.Partition} {i : GroupIndex} {id : P.Subject} {c : ε × State P}
    (hp : Policy.partitionOf (P.subjectToGroup id) = p)
    (hid : X → ∀ s, K s → (s.scheduler.groups (P.subjectToGroup id)).activeSubject = id)
    (h : Good X K c) :
    (deactivateGroup p i id).Sat rely (AtStep X E)
      (fun _ c' => Good X K c' ∧ Linked p (P.subjectToGroup id) c'.2.scheduler) c := by
  refine Prog.sat_read (good_stable hR hK) h (fun _ h => h.atStep) (fun c₁ h₁ => ?_)
  have hstable : Stable rely (fun c => Good X K c ∧
      (X → c.2.timedEvents id = c₁.2.timedEvents id)) := by
    intro c c' hc hc₁
    refine ⟨good_stable hR hK c c' hc hc₁.1, fun hX => ?_⟩
    rw [hR.timedEvents hX c c' hc]
    exact hc₁.2 hX
  refine Prog.sat_attempt hstable ⟨h₁, fun _ => rfl⟩ (fun _ h => h.1.atStep) ?_
  rintro c₂ ⟨h₂, ht₂⟩
  obtain ⟨f, hf, hdue⟩ := h₂.timers
  obtain ⟨σ, f', hins, hf', hcore, hmem, hold⟩ :=
    hf.insertTimer_eq hp (c₁.2.timedEvents id).tscTriggerValue
  have hgood : Good X K (c₂.1, { c₂.2 with scheduler := σ }) := by
    refine h₂.timerLists hK hcore hf' ?_
    intro hX q x hx
    rw [hcore]
    rcases hold q x hx with ⟨hxf, hxt⟩ | ⟨rfl, hxt⟩
    · rw [hxt]
      exact hdue hX q x hxf
    · have hact : c₂.2.scheduler.core.activeSubject (P.subjectToGroup id) = id := hid hX c₂.2 h₂.kept
      rw [hxt, hact, ht₂ hX]
      exact BitVec.le_refl _
  refine ⟨{ c₂.2 with scheduler := σ }, by rw [hins]; rfl, ?_⟩
  have hboth := (good_stable hR hK).and (linked_stable hR p (P.subjectToGroup id))
  intro c₃ hc₃
  have h₃ := hboth.steps hc₃ ⟨hgood, f', hf', hmem⟩
  refine ⟨h₃.1.atStep, fun c₄ hc₄ => hboth.steps hc₄ ⟨?_, h₃.2⟩⟩
  exact h₃.1.update rfl rfl (hK.clearActivity _ _ _ h₃.1.kept)

lemma deactivateAndTest_sat {p : P.Partition} {i : GroupIndex} {id : P.Subject} {c : ε × State P}
    (hp : Policy.partitionOf (P.subjectToGroup id) = p)
    (hid : X → ∀ s, K s → (s.scheduler.groups (P.subjectToGroup id)).activeSubject = id)
    (h : Good X K c) :
    (deactivateAndTest p i (P.subjectToGroup id) id).Sat rely (AtStep X E) (fun _ => Good X K) c := by
  have hboth := (good_stable hR hK).and (linked_stable hR p (P.subjectToGroup id))
  refine Prog.sat_bind ((deactivateGroup_sat hR hK hp hid h).mono (fun _ c₁ h₁ => ?_))
  refine Prog.sat_bind ((isActive_sat hboth (fun _ h => h.1.atStep) h₁ id).mono (fun active c₂ h₂ => ?_))
  cases active with
  | true => exact Prog.sat_bind ((activateGroup_sat hR hK h₂.1 h₂.2).mono
      (fun _ c₃ h₃ => Prog.sat_pure (good_stable hR hK) h₃.1))
  | false => exact Prog.sat_pure (good_stable hR hK) h₂.1

/-- A round of the search keeps the lists. -/
lemma examineGroup_sat {p : P.Partition} {i : GroupIndex} {c : ε × State P} (hi : i ≤ P.lastGroupIndex p)
    (h : Good X K c) : (examineGroup p i).Sat rely (AtStep X E) (fun _ => Good X K) c := by
  obtain ⟨g, hg⟩ := Policy.exists_group hi
  have hgp := (Policy.partitionGroups_eq_some p i g).mp hg
  refine Prog.sat_read (good_stable hR hK) h (fun _ h => h.atStep) (fun c₁ h₁ => ?_)
  by_cases hbit : bitTest (c₁.2.groupActivity p) i = true
  case neg =>
    rw [if_neg hbit]
    exact Prog.sat_pure (good_stable hR hK) h₁
  rw [if_pos hbit, hg]
  refine Prog.sat_read (good_stable hR hK) h₁ (fun _ h => h.atStep) (fun c₂ h₂ => ?_)
  -- from here on the frame also holds the subject that was read
  obtain ⟨id, hid⟩ : ∃ id, (c₂.2.scheduler.groups g).activeSubject = id := ⟨_, rfl⟩
  have hgroup : P.subjectToGroup id = g := hid ▸ h₂.core.activeSubject g
  have hK' := hK.active hR g id
  have h₂' : Good X (fun s => K s ∧ (s.scheduler.groups g).activeSubject = id) c₂ :=
    ⟨h₂.timers, h₂.core, h₂.kept, hid⟩
  rw [hid]
  refine Prog.sat_bind ((isActive_sat (good_stable hR hK') (fun _ h => h.atStep) h₂' id).mono
    (fun active c₃ h₃ => ?_))
  cases active with
  | true =>
    refine Prog.sat_modify (good_stable hR hK') h₃ (fun _ h => h.atStep) (fun c₄ h₄ => ?_)
    refine Prog.sat_pure (good_stable hR hK) ?_
    have h₄' := h₄.imp (fun s hs => hs.1)
    by_cases hin : isGroupInTimerList p g c₄.2.scheduler = true
    · obtain ⟨f, hf, -⟩ := h₄.timers
      simp only [State.onScheduler, hin, if_true]
      exact h₄'.remove hK ⟨f, hf, (hf.mem_iff hgp.1).mpr hin⟩
    · simp only [State.onScheduler, hin]
      exact h₄'
  | false =>
    subst hgroup
    refine Prog.sat_bind ((deactivateAndTest_sat hR hK' hgp.1 (fun _ s hs => hs.2) h₃).mono
      (fun _ c₄ h₄ => ?_))
    exact Prog.sat_pure (good_stable hR hK) (h₄.imp (fun s hs => hs.1))

/-- The number of rounds until the search is back at the current group. -/
def roundsLeft (last current i : GroupIndex) : ℕ :=
  if i.val < current.val then current.val - i.val else last.val - i.val + current.val + 1

omit hR hK in
lemma successorGroup_le (p : P.Partition) (i : GroupIndex) : successorGroup p i ≤ P.lastGroupIndex p := by
  unfold successorGroup
  by_cases hi : i < P.lastGroupIndex p
  · rw [if_pos hi]
    simp only [Fin.lt_def, Fin.le_def, Fin.val_add] at hi ⊢
    have := (P.lastGroupIndex p).isLt
    omega
  · rw [if_neg hi]
    exact Fin.zero_le _

omit hR hK in
/-- A round brings the search nearer to the current group. -/
lemma roundsLeft_successor {p : P.Partition} {current i : GroupIndex} (hc : current ≤ P.lastGroupIndex p)
    (hi : i ≤ P.lastGroupIndex p) (hne : successorGroup p i ≠ current) :
    roundsLeft (P.lastGroupIndex p) current (successorGroup p i) + 1 =
      roundsLeft (P.lastGroupIndex p) current i := by
  unfold successorGroup at hne ⊢
  have hlast := (P.lastGroupIndex p).isLt
  by_cases hlt : i < P.lastGroupIndex p
  · rw [if_pos hlt] at hne ⊢
    simp only [Fin.lt_def, Fin.le_def, ne_eq, Fin.ext_iff, Fin.val_add, roundsLeft] at *
    have hmod : (i.val + (1 : Fin 64).val) % 64 = i.val + 1 := by
      have hone : (1 : Fin 64).val = 1 := rfl
      omega
    rw [hmod] at hne ⊢
    split_ifs <;> omega
  · rw [if_neg hlt] at hne ⊢
    simp only [Fin.lt_def, Fin.le_def, ne_eq, Fin.ext_iff, roundsLeft, Fin.val_zero] at *
    split_ifs <;> omega

lemma findLoop_sat {p : P.Partition} {current : GroupIndex} (hcur : current ≤ P.lastGroupIndex p)
    (fuel : ℕ) : ∀ (i : GroupIndex) (c : ε × State P), i ≤ P.lastGroupIndex p →
      roundsLeft (P.lastGroupIndex p) current i ≤ fuel → Good X K c →
      (findLoop p current fuel i).Sat rely (AtStep X E)
        (fun r c' => Good X K c' ∧ r.2 ≤ P.lastGroupIndex p) c := by
  induction fuel with
  | zero =>
    intro i c hi hrounds _
    have hpos : 0 < roundsLeft (P.lastGroupIndex p) current i := by
      unfold roundsLeft
      split_ifs <;> omega
    omega
  | succ fuel ih =>
    intro i c hi hrounds h
    have hnext := successorGroup_le p i
    refine Prog.sat_bind ((examineGroup_sat hR hK hnext h).mono (fun r c₁ h₁ => ?_))
    by_cases hstop : r.isSome = true ∨ successorGroup p i = current
    · rw [if_pos hstop]
      refine Prog.sat_pure ?_ ⟨h₁, hnext⟩
      exact fun c c' hc hQ => ⟨good_stable hR hK c c' hc hQ.1, hQ.2⟩
    · rw [if_neg hstop]
      have hround := roundsLeft_successor hcur hi (fun he => hstop (.inr he))
      exact ih _ c₁ hnext (by omega) h₁

lemma findNextActiveSchedulingGroup_sat {p : P.Partition} {c : ε × State P} (h : Good X K c) :
    (findNextActiveSchedulingGroup p).Sat rely (AtStep X E)
      (fun r c' => Good X K c' ∧ r.2 ≤ P.lastGroupIndex p) c := by
  refine Prog.sat_read (good_stable hR hK) h (fun _ h => h.atStep) (fun c₁ h₁ => ?_)
  have hcur := h₁.core.activeGroupIndex p
  refine findLoop_sat hR hK hcur 64 _ c₁ hcur ?_ h₁
  have hlast := (P.lastGroupIndex p).isLt
  simp only [roundsLeft, Fin.le_def] at hcur ⊢
  split_ifs <;> omega

/-- The head of the timer list of a partition. -/
def HeadIs (p : P.Partition) (cur : Option P.Group) (s : Scheduler P) : Prop :=
  (s.partitions p).earliestTimer = cur

omit hK in
lemma headIs_stable (p : P.Partition) (cur : Option P.Group) :
    Stable rely (fun c => HeadIs p cur c.2.scheduler) := by
  intro c c' hc h
  rw [hR.scheduler c c' hc]
  exact h

/-- What activating groups of a partition establishes for them, and what keeps it. -/
structure Activates (rely : ε × State P → ε × State P → Prop) (X E : Prop) (K : State P → Prop)
    (p : P.Partition) (A : P.Group → ε × State P → Prop) : Prop where
  stable : ∀ g, Stable rely (A g)
  scheduler : ∀ g c f, A g c → A g (c.1, State.onScheduler f c.2)
  activate : ∀ g c, Good X K c → Linked p g c.2.scheduler →
    (activateGroup none p g).Sat rely (AtStep X E)
      (fun _ c' => (Good X K c' ∧ c'.2.scheduler = removeGroupFromTimerList p g c.2.scheduler) ∧
        A g c' ∧ ∀ g', A g' c → A g' c') c

/-- The loop of `Update_Timer_List` ends at the head of the list that is left, and activates all groups
whose timer has expired. -/
lemma timerLoop_sat {p : P.Partition} {now : Word64} {A : P.Group → ε × State P → Prop}
    (hA : Activates rely X E K p A) (fuel : ℕ) :
    ∀ (f : P.Partition → List P.Group) (c : ε × State P), Good X K c → TimerLists c.2.scheduler f →
      (f p).length ≤ fuel →
      (timerLoop p now fuel (f p).head?).Sat rely (AtStep X E)
        (fun cur c' => (Good X K c' ∧ HeadIs p cur c'.2.scheduler) ∧
          ∀ g, A g c ∨ g ∈ f p ∧ c.2.scheduler.timeout g ≤ now → A g c') c := by
  have hstop : ∀ (cur : Option P.Group) (c : ε × State P) (B : P.Group → Prop), Good X K c →
      HeadIs p cur c.2.scheduler → (∀ g, B g → A g c) →
      (pure cur : Proc P (Option P.Group)).Sat rely (AtStep X E)
        (fun cur c' => (Good X K c' ∧ HeadIs p cur c'.2.scheduler) ∧ ∀ g, B g → A g c') c := by
    intro cur c B h hhead hB
    refine Prog.sat_pure ?_ ⟨⟨h, hhead⟩, hB⟩
    intro c c' hc hQ
    exact ⟨((good_stable hR hK).and (headIs_stable hR p cur)) c c' hc hQ.1,
      fun g hg => hA.stable g c c' hc (hQ.2 g hg)⟩
  induction fuel with
  | zero =>
    intro f c h hf hlen
    have hhead := hf.links.head_eq p
    rw [List.length_eq_zero_iff.mp (Nat.le_zero.mp hlen)] at hhead ⊢
    exact hstop none c _ h hhead (by simp)
  | succ fuel ih =>
    intro f c h hf hlen
    have hhead := hf.links.head_eq p
    cases hfp : f p with
    | nil =>
      rw [hfp] at hhead
      exact hstop none c _ h hhead (by simp)
    | cons g bs =>
      rw [hfp] at hhead hlen
      have hsame : Stable rely (fun c' : ε × State P => (Good X K c' ∧ c'.2.scheduler = c.2.scheduler) ∧
          ∀ g, A g c → A g c') :=
        fun c c' hc h => ⟨⟨good_stable hR hK c c' hc h.1.1, (hR.scheduler c c' hc).trans h.1.2⟩,
          fun g hg => hA.stable g c c' hc (h.2 g hg)⟩
      refine Prog.sat_read hsame ⟨⟨h, rfl⟩, fun _ => id⟩ (fun _ h => h.1.1.atStep) ?_
      rintro c₁ ⟨⟨h₁, hs₁⟩, hA₁⟩
      rw [hs₁]
      by_cases hexp : (c.2.scheduler.groups g).timeout ≤ now
      · rw [if_pos hexp]
        have hlinked : Linked p g c₁.2.scheduler := ⟨f, hs₁ ▸ hf, by rw [hfp]; exact List.mem_cons_self⟩
        refine Prog.sat_bind ((hA.activate g c₁ h₁ hlinked).mono ?_)
        rintro _ c₂ ⟨⟨h₂, hs₂⟩, hg₂, hA₂⟩
        have hf₂ : TimerLists c₂.2.scheduler (Function.update f p bs) := by
          rw [hs₂, hs₁]
          exact hf.remove (List.nil_append (g :: bs) ▸ hfp)
        have hnext : (c.2.scheduler.groups g).nextTimer = bs.head? := (hf.links.links_eq p [] g bs hfp).2
        have hrest := ih _ c₂ h₂ hf₂ (by rw [Function.update_self]; exact Nat.le_of_succ_le_succ hlen)
        rw [Function.update_self, hs₂, hs₁, removeGroupFromTimerList_timeout] at hrest
        rw [hnext]
        refine hrest.mono (fun cur c₃ h₃ => ⟨h₃.1, fun g' hg' => h₃.2 g' ?_⟩)
        rcases hg' with hold | ⟨hmem, hdue⟩
        · exact .inl (hA₂ g' (hA₁ g' hold))
        · rcases List.mem_cons.mp hmem with rfl | hmem
          · exact .inl hg₂
          · exact .inr ⟨hmem, hdue⟩
      · rw [if_neg hexp]
        refine hstop (some g) c₁ _ h₁ (by rw [hs₁]; exact hhead) ?_
        rintro g' (hold | ⟨hmem, hdue⟩)
        · exact hA₁ g' hold
        · -- the list is sorted, so that no timer behind the first one has expired either
          have hsorted := hf.sorted p
          rw [hfp, List.pairwise_cons] at hsorted
          rcases List.mem_cons.mp hmem with rfl | hmem
          · exact absurd hdue hexp
          · exact absurd (BitVec.le_trans (hsorted.1 g' hmem) hdue) hexp

omit hR hK in
/-- Where the loop has ended, the list is what `Update_Timer_List` makes it. -/
lemma TimerLists.headIs_eq {s : Scheduler P} {p : P.Partition} {cur : Option P.Group}
    {f : P.Partition → List P.Group} (hf : TimerLists s f) (h : HeadIs p cur s) :
    setPrevTimer cur none (setEarliestTimer p cur s) = s := by
  have hearliest : setEarliestTimer p cur s = s := setPartition_same (by rw [← h])
  rw [hearliest]
  cases cur with
  | none => rfl
  | some g =>
    have hhead : (f p).head? = some g := (hf.links.head_eq p).symm.trans h
    obtain ⟨bs, hfp⟩ := List.head?_eq_some_iff.mp hhead
    have hprev : (s.groups g).prevTimer = none := (hf.links.links_eq p [] g bs hfp).1
    have hgroup : s.setGroup g (fun x => { x with prevTimer := none }) = s :=
      setGroup_same (by rw [← hprev])
    exact hgroup

lemma updateTimerList_activates {p : P.Partition} {A : P.Group → ε × State P → Prop} {c : ε × State P}
    (hA : Activates rely X E K p A) (h : Good X K c) {f : P.Partition → List P.Group}
    (hf : TimerLists c.2.scheduler f) {B : P.Group → Prop} {R : Word64 → Prop}
    (hnow : Stable rely (fun c => R c.2.tsc)) (hR₀ : R c.2.tsc)
    (hB : ∀ g now, B g → R now → g ∈ f p ∧ c.2.scheduler.timeout g ≤ now) :
    (updateTimerList p).Sat rely (AtStep X E) (fun _ c' => Good X K c' ∧ ∀ g, B g → A g c') c := by
  have hsame : Stable rely (fun c' : ε × State P =>
      (Good X K c' ∧ c'.2.scheduler = c.2.scheduler) ∧ R c'.2.tsc) :=
    fun c c' hc h => ⟨⟨good_stable hR hK c c' hc h.1.1, (hR.scheduler c c' hc).trans h.1.2⟩,
      hnow c c' hc h.2⟩
  refine Prog.sat_read hsame ⟨⟨h, rfl⟩, hR₀⟩ (fun _ h => h.1.1.atStep) ?_
  rintro c₁ ⟨⟨h₁, hs₁⟩, hR₁⟩
  refine Prog.sat_read hsame ⟨⟨h₁, hs₁⟩, hR₁⟩ (fun _ h => h.1.1.atStep) ?_
  rintro c₂ ⟨⟨h₂, hs₂⟩, hR₂⟩
  have hhead : (c₁.2.scheduler.partitions p).earliestTimer = (f p).head? := by
    rw [hs₁]
    exact hf.links.head_eq p
  rw [hhead]
  refine Prog.sat_bind ((timerLoop_sat hR hK hA P.groups f c₂ h₂ (hs₂ ▸ hf) (hf.length_le p)).mono ?_)
  rintro cur c₃ ⟨h₃, hA₃⟩ c₄ hc₄
  obtain ⟨h₄, hhead₄⟩ := ((good_stable hR hK).and (headIs_stable hR p cur)).steps hc₄ h₃
  have hend : Stable rely (fun c' : ε × State P => Good X K c' ∧ ∀ g, B g → A g c') :=
    fun c c' hc h => ⟨good_stable hR hK c c' hc h.1, fun g hg => hA.stable g c c' hc (h.2 g hg)⟩
  refine ⟨h₄.atStep, fun c₅ hc₅ => hend.steps hc₅ ⟨?_, fun g hg => ?_⟩⟩
  · obtain ⟨f₄, hf₄, -⟩ := h₄.timers
    rw [onScheduler_same (hf₄.headIs_eq hhead₄)]
    exact h₄
  · have hBg := hB g c₂.2.tsc hg hR₂
    exact hA.scheduler g c₄ _ ((hA.stable g).steps hc₄ (hA₃ g (.inr ⟨hBg.1, hs₂ ▸ hBg.2⟩)))

lemma updateTimerList_sat {p : P.Partition} {c : ε × State P} (h : Good X K c) :
    (updateTimerList p).Sat rely (AtStep X E) (fun _ => Good X K) c := by
  obtain ⟨f, hf, -⟩ := h.timers
  have hA : Activates rely X E K p (fun _ _ => True) :=
    ⟨fun _ _ _ _ _ => trivial, fun _ _ _ _ => trivial, fun g c h hg =>
      (activateGroup_sat hR hK h hg).mono (fun _ _ h => ⟨h, trivial, fun _ _ => trivial⟩)⟩
  exact (updateTimerList_activates hR hK hA h hf (B := fun _ => False) (R := fun _ => True)
    (fun _ _ _ _ => trivial) trivial (fun _ _ hB => hB.elim)).mono (fun _ _ h => h.1)

/-! ### Scheduling operations -/

lemma switchGroup_sat {p : P.Partition} {g : P.Group} {i : GroupIndex} {c : ε × State P}
    (hi : i ≤ P.lastGroupIndex p) (h : Good X K c) :
    (switchGroup p g i).Sat rely (AtStep X E) (fun _ => Good X K) c := by
  refine Prog.sat_read (good_stable hR hK) h (fun _ h => h.atStep) (fun c₁ h₁ => ?_)
  refine Prog.sat_modify (good_stable hR hK) h₁ (fun _ h => h.atStep) (fun c₂ h₂ => ?_)
  have hrun := h₂.update (u := setRunning (c₁.2.scheduler.groups g).activeSubject true) rfl rfl
    (hK.setRunning _ _ _ h₂.kept)
  intro c₃ hc₃
  have h₃ := (good_stable hR hK).steps hc₃ hrun
  refine ⟨h₃.atStep, fun c₄ hc₄ => (good_stable hR hK).steps hc₄ ?_⟩
  exact h₃.setPartition hK rfl hi

/-- The scheduling operation at the start of a minor frame. -/
lemma updateSchedulingPartition_sat {c : ε × State P} (h : Good X K c) :
    (updateSchedulingPartition : Proc P Unit).Sat rely (AtStep X E) (fun _ => Good X K) c := by
  refine Prog.sat_bind ((getCurrentSubject_sat hR hK h).mono ?_)
  rintro id c₁ ⟨h₁, -⟩
  refine Prog.sat_bind ((updateTimerList_sat hR hK h₁).mono (fun _ c₂ h₂ => ?_))
  refine Prog.sat_bind ((findNextActiveSchedulingGroup_sat hR hK h₂).mono ?_)
  rintro ⟨next, i⟩ c₃ ⟨h₃, hi⟩
  cases next with
  | none => exact Prog.sat_pure (good_stable hR hK) h₃
  | some g =>
    refine Prog.sat_read (good_stable hR hK) h₃ (fun _ h => h.atStep) (fun c₄ h₄ => ?_)
    by_cases hsleep : (c₄.2.scheduler.partitions (P.subjectToPartition id)).sleeping = true
    · rw [if_pos hsleep]
      refine Prog.sat_modify (good_stable hR hK) h₄ (fun _ h => h.atStep) (fun c₅ h₅ => ?_)
      have hactive := h₅.update (u := setActivityState id 0) rfl rfl (hK.setActivityState _ _ _ h₅.kept)
      refine Prog.sat_modify (good_stable hR hK) hactive (fun _ h => h.atStep) (fun c₆ h₆ => ?_)
      exact switchGroup_sat hR hK hi (h₆.setPartition hK rfl (h₆.core.activeGroupIndex _))
    · rw [if_neg hsleep]
      exact switchGroup_sat hR hK hi h₄

lemma deactivateSubject_sat {p : P.Partition} {id : P.Subject} {c : ε × State P}
    (hp : Policy.partitionOf (P.subjectToGroup id) = p)
    (hid : X → ∀ s, K s → (s.scheduler.groups (P.subjectToGroup id)).activeSubject = id)
    (h : Good X K c) : (deactivateSubject p id).Sat rely (AtStep X E) (fun _ => Good X K) c := by
  refine Prog.sat_bind ((isActive_sat (good_stable hR hK) (fun _ h => h.atStep) h id).mono
    (fun active c₁ h₁ => ?_))
  cases active with
  | true => exact Prog.sat_pure (good_stable hR hK) h₁
  | false =>
    refine Prog.sat_read (good_stable hR hK) h₁ (fun _ h => h.atStep) (fun c₂ h₂ => ?_)
    exact Prog.sat_bind ((deactivateAndTest_sat hR hK hp hid h₂).mono
      (fun _ c₃ h₃ => Prog.sat_pure (good_stable hR hK) h₃))

lemma switchOrSleep_sat {p : P.Partition} {id : P.Subject} {next : Option P.Group × GroupIndex}
    {c : ε × State P} (hi : next.2 ≤ P.lastGroupIndex p) (h : Good X K c) :
    (switchOrSleep p id next).Sat rely (AtStep X E) (fun _ => Good X K) c := by
  obtain ⟨next, i⟩ := next
  cases next with
  | some g => exact switchGroup_sat hR hK hi h
  | none =>
    refine Prog.sat_modify (good_stable hR hK) h (fun _ h => h.atStep) (fun c₁ h₁ => ?_)
    have hhlt := h₁.update (u := setActivityState id 1) rfl rfl (hK.setActivityState _ _ _ h₁.kept)
    intro c₂ hc₂
    have h₂ := (good_stable hR hK).steps hc₂ hhlt
    refine ⟨h₂.atStep, fun c₃ hc₃ => (good_stable hR hK).steps hc₃ ?_⟩
    exact h₂.setPartition hK rfl (h₂.core.activeGroupIndex _)

/-- Rescheduling for a subject of the current partition. -/
lemma reschedulePartition_sat {id : P.Subject} {incrRIP sleep : Bool} {c : ε × State P}
    (hp : P.subjectToPartition id = currentSchedulingPartitionID c.2.scheduler)
    (hid : X → ∀ s, K s → (s.scheduler.groups (P.subjectToGroup id)).activeSubject = id)
    (hrip : incrRIP = true → ∀ s, K s → K (incrementRIP id s)) (h : Good X K c) :
    (reschedulePartition id incrRIP sleep).Sat rely (AtStep X E)
      (fun next c' => Good X K c' ∧ getCurrentSubjectID c'.2.scheduler = some next) c := by
  have hsame : Stable rely (fun c' : ε × State P => Good X K c' ∧ c'.2.scheduler = c.2.scheduler) :=
    fun c c' hc h => ⟨good_stable hR hK c c' hc h.1, (hR.scheduler c c' hc).trans h.2⟩
  refine Prog.sat_read hsame ⟨h, rfl⟩ (fun _ h => h.1.atStep) ?_
  rintro c₁ ⟨h₁, hs₁⟩
  rw [hs₁, ← hp]
  refine Prog.sat_modify (good_stable hR hK) h₁ (fun _ h => h.atStep) (fun c₂ h₂ => ?_)
  have hrun : Good X K (c₂.1, (if sleep then setRunning id false else fun s => s) c₂.2) := by
    cases sleep with
    | true => exact h₂.update (u := setRunning id false) rfl rfl (hK.setRunning _ _ _ h₂.kept)
    | false => exact h₂
  have hpart := (Policy.subjectToPartition_eq id).symm
  refine Prog.sat_bind ((deactivateSubject_sat hR hK hpart hid hrun).mono (fun _ c₃ h₃ => ?_))
  refine Prog.sat_modify (good_stable hR hK) h₃ (fun _ h => h.atStep) (fun c₄ h₄ => ?_)
  have hincr : Good X K (c₄.1, (if incrRIP then incrementRIP id else fun s => s) c₄.2) := by
    cases incrRIP with
    | true => exact h₄.update (u := incrementRIP id) rfl rfl (hrip rfl _ h₄.kept)
    | false => exact h₄
  refine Prog.sat_bind ((findNextActiveSchedulingGroup_sat hR hK hincr).mono (fun next c₅ h₅ => ?_))
  refine Prog.sat_bind ((switchOrSleep_sat hR hK h₅.2 h₅.1).mono (fun _ c₆ h₆ => ?_))
  exact getCurrentSubject_sat hR hK h₆

/-- The switch to the next minor frame. -/
lemma switchMinorFrame_sat {σ : Scheduler P} {c : ε × State P} (h : Good X K c) :
    (switchMinorFrame σ).Sat rely (AtStep X E) (fun _ => Good X K) c := by
  have hframe : ∀ {c : ε × State P} (major : P.Major) (start : Word64) (minor : P.Minor), Good X K c →
      Good X K (c.1, { c.2 with scheduler :=
        { c.2.scheduler with
          currentMajorFrameID := major, currentMajorStartCycles := start, currentMinorFrameID := minor } }) :=
    fun _ _ _ h => h.schedule hK rfl rfl rfl h.core.activeGroupIndex
  unfold switchMinorFrame
  by_cases hlast : σ.currentMinorFrameID.val < (P.schedulingPlans σ.cpuID σ.currentMajorFrameID).length.val
  · dsimp only
    rw [dif_pos hlast]
    intro c₁ hc₁
    have h₁ := (good_stable hR hK).steps hc₁ h
    exact ⟨h₁.atStep, fun c₂ hc₂ => (good_stable hR hK).steps hc₂ (hframe _ _ _ h₁)⟩
  · dsimp only
    rw [dif_neg hlast]
    refine Prog.sat_modify (good_stable hR hK) h (fun _ h => h.atStep) (fun c₁ h₁ c₂ hc₂ => ?_)
    have h₂ := (good_stable hR hK).steps hc₂ (hframe _ _ _ h₁)
    exact ⟨h₂.atStep, fun c₃ hc₃ => (good_stable hR hK).steps hc₃ (hframe _ _ _ h₂)⟩

lemma updateSchedulingInfo_sat {c : ε × State P}
    (hinfo : ∀ s p a b, K s → K (setSchedulingInfo p a b s)) (h : Good X K c) :
    (updateSchedulingInfo : Proc P P.Subject).Sat rely (AtStep X E)
      (fun next c' => Good X K c' ∧ getCurrentSubjectID c'.2.scheduler = some next) c := by
  refine Prog.sat_read (good_stable hR hK) h (fun _ h => h.atStep) (fun c₁ h₁ => ?_)
  refine Prog.sat_bind ((switchMinorFrame_sat hR hK h₁).mono (fun _ c₂ h₂ => ?_))
  refine Prog.sat_bind ((updateSchedulingPartition_sat hR hK h₂).mono (fun _ c₃ h₃ => ?_))
  refine Prog.sat_bind ((getCurrentSubject_sat hR hK h₃).mono (fun next c₄ h₄ => ?_))
  have hcur : Stable rely (fun c : ε × State P =>
      Good X K c ∧ getCurrentSubjectID c.2.scheduler = some next) := by
    intro c c' hc hQ
    exact ⟨good_stable hR hK c c' hc hQ.1, by rw [hR.scheduler c c' hc]; exact hQ.2⟩
  refine Prog.sat_modify hcur h₄ (fun _ h => h.1.atStep) (fun c₅ h₅ => ?_)
  refine Prog.sat_pure hcur ⟨?_, h₅.2⟩
  exact h₅.1.update rfl rfl (hinfo _ _ _ _ h₅.1.kept)

end Activation

end Muen.Kernel
