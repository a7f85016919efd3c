import Muen.Kernel.CpuSteps
import Muen.Kernel.Exits
import Muen.Kernel.Xcr0

/-!
# Isolation of subjects

The kernels of all CPUs side by side, on the state that they share, with the subjects that run between their exits. In
every interleaving the state of a subject is changed by its own CPU only, and by subjects that the policy lets write
to it. What is pending for it is what the policy allows.
-/

namespace Muen.Kernel

open Muen.Lib Relation

variable {P : Policy}

/-! ### Subjects -/

/-- The pages of subjects and of scheduling partitions that the policy can map into subjects. -/
inductive Page (P : Policy)
  | state (id : P.Subject)
  | timedEvent (id : P.Subject)
  | interrupts (id : P.Subject)
  | schedulingInfo (id : P.Partition)

/-- The pages that a subject has mapped writable: its own timed event, and what it monitors of other subjects. -/
abbrev Mappings (P : Policy) := P.Subject → Page P → Prop

/-- No subject of another CPU has a page of a subject mapped writable. -/
def Shielded (W : Mappings P) (id : P.Subject) (page : Page P) : Prop :=
  ∀ writer, P.subjectCpu writer ≠ P.subjectCpu id → ¬ W writer page

/-- What a subject does to the shared state when it runs: it writes its mapped pages, and fields of its VMCS change. -/
structure GuestWrites (W : Mappings P) (id : P.Subject) (old new : Shared P) : Prop where
  descriptors : ∀ target, ¬ W id (.state target) → new.descriptors target = old.descriptors target
  timedEvents : ∀ target, ¬ W id (.timedEvent target) → new.timedEvents target = old.timedEvents target
  pendingInterrupts : ∀ target, ¬ W id (.interrupts target) →
    new.pendingInterrupts target = old.pendingInterrupts target
  schedulingInfo : ∀ p, ¬ W id (.schedulingInfo p) → new.schedulingInfo p = old.schedulingInfo p
  vmcs : ∀ address, address ≠ vmcsAddress id → new.vmcs address = old.vmcs address
  groupActivity : new.groupActivity = old.groupActivity
  pendingEvents : new.pendingEvents = old.pendingEvents
  fpuStates : new.fpuStates = old.fpuStates
  maskedIrqs : new.maskedIrqs = old.maskedIrqs
  tsc : new.tsc = old.tsc
  newMajor : new.newMajor = old.newMajor

/-- The subject whose VMCS is current runs, with the registers of the FPU. -/
def GuestRuns (W : Mappings P) (id : P.Subject) (x y : CpuState P × Shared P) : Prop :=
  x.1.currentVmcs = some (vmcsAddress id) ∧ (∃ registers, y.1 = { x.1 with fpuRegisters := registers }) ∧
    GuestWrites W id x.2 y.2

/-- Time passes, and the next major frame is chosen. -/
def TimePasses (x y : Shared P) : Prop := ∃ tsc newMajor, y = { x with tsc := tsc, newMajor := newMajor }

/-- The CPUs of a system, which handle the exits of their subjects. -/
def cpus (P : Policy) (W : Mappings P) (hw : Hardware) :
    Threads P.Cpu CpuRegisters (Label P) (CpuState P) (Shared P) (State P) where
  view := stateView
  prog _ regs := do
    let _ ← handleVmxExit hw regs
    pure ()
  idle _ x y := ∃ id, GuestRuns W id x y
  environment := TimePasses

/-- All CPUs start the initialization of the kernel. -/
def startConfig (P : Policy) (W : Mappings P) (hw : Hardware) (bsp : P.Cpu) : (cpus P W hw).Config where
  threads c := (some (schedulerInit hw), (startState c (c = bsp)).own)
  shared := (startState bsp true).shared

lemma startConfig_bsp (W : Mappings P) (hw : Hardware) (bsp : P.Cpu) :
    (startConfig P W hw bsp).threads bsp = (some (schedulerInit hw), (startState bsp true).own) := by
  simp [startConfig]

/-- What a CPU does to the shared state: its kernel, or the subject that it runs. -/
def Acts (W : Mappings P) (c : P.Cpu) (old new : Shared P) : Prop :=
  Changes c old new ∨ ∃ id, P.subjectCpu id = c ∧ GuestWrites W id old new

/-- Between two states, the state of a subject is the same, but for pages that subjects of other CPUs can write. What
has become pending for it is routed to it or sent to it by subjects of other CPUs. -/
structure Isolated (W : Mappings P) (id : P.Subject) (old new : Shared P) : Prop where
  descriptor : Shielded W id (.state id) → new.descriptors id = old.descriptors id
  fpuState : new.fpuStates id = old.fpuStates id
  timedEvent : Shielded W id (.timedEvent id) → new.timedEvents id = old.timedEvents id
  vmcs : new.vmcs (vmcsAddress id) = old.vmcs (vmcsAddress id)
  schedulingInfo : Shielded W id (.schedulingInfo (P.subjectToPartition id)) →
    new.schedulingInfo (P.subjectToPartition id) = old.schedulingInfo (P.subjectToPartition id)
  groupActivity : ∀ i, bitTest (old.groupActivity (P.subjectToPartition id)) i = true →
    bitTest (new.groupActivity (P.subjectToPartition id)) i = true
  eventsKept : events (old.pendingEvents id) ⊆ events (new.pendingEvents id)
  eventsSent : events (new.pendingEvents id) ⊆ events (old.pendingEvents id) ∪
    {e | ∃ source, P.subjectCpu source ≠ P.subjectCpu id ∧ P.Sends source id e}
  interruptsKept : Shielded W id (.interrupts id) →
    vectors (old.pendingInterrupts id) ⊆ vectors (new.pendingInterrupts id)
  interruptsSent : Shielded W id (.interrupts id) →
    vectors (new.pendingInterrupts id) ⊆ vectors (old.pendingInterrupts id) ∪ {v | P.Routes id v}

section Isolated

variable {W : Mappings P} {id : P.Subject} {x y z : Shared P}

lemma Isolated.refl (W : Mappings P) (id : P.Subject) (x : Shared P) : Isolated W id x x where
  descriptor _ := rfl
  fpuState := rfl
  timedEvent _ := rfl
  vmcs := rfl
  schedulingInfo _ := rfl
  groupActivity _ h := h
  eventsKept := Set.Subset.rfl
  eventsSent := Set.subset_union_left
  interruptsKept _ := Set.Subset.rfl
  interruptsSent _ := Set.subset_union_left

lemma Isolated.trans (h : Isolated W id x y) (h' : Isolated W id y z) : Isolated W id x z where
  descriptor hs := (h'.descriptor hs).trans (h.descriptor hs)
  fpuState := h'.fpuState.trans h.fpuState
  timedEvent hs := (h'.timedEvent hs).trans (h.timedEvent hs)
  vmcs := h'.vmcs.trans h.vmcs
  schedulingInfo hs := (h'.schedulingInfo hs).trans (h.schedulingInfo hs)
  groupActivity i hi := h'.groupActivity i (h.groupActivity i hi)
  eventsKept := h.eventsKept.trans h'.eventsKept
  eventsSent := h'.eventsSent.trans (Set.union_subset h.eventsSent Set.subset_union_right)
  interruptsKept hs := (h.interruptsKept hs).trans (h'.interruptsKept hs)
  interruptsSent hs := (h'.interruptsSent hs).trans (Set.union_subset (h.interruptsSent hs) Set.subset_union_right)

/-- The steps of the kernel of another CPU. -/
lemma Changes.isolated {c : P.Cpu} (h : Changes c x y) (hid : P.subjectCpu id ≠ c) : Isolated W id x y where
  descriptor _ := h.descriptors id hid
  fpuState := h.fpuStates id hid
  timedEvent _ := h.timedEvents id hid
  vmcs := h.vmcs id hid
  schedulingInfo _ := h.schedulingInfo id hid
  groupActivity := h.groupActivity id hid
  eventsKept := h.eventsKept id hid
  eventsSent := by
    apply (h.eventsSent id).trans
    apply Set.union_subset_union_right
    rintro e ⟨source, hsource, hsends⟩
    exact ⟨source, fun heq => hid (heq.symm.trans hsource), hsends⟩
  interruptsKept _ := h.interruptsKept id hid
  interruptsSent _ := by
    apply (h.interruptsSent id).trans
    apply Set.union_subset_union_right
    rintro v (hroutes | ⟨hsame, -⟩)
    · exact hroutes
    · exact absurd hsame hid

/-- The steps of a subject of another CPU. -/
lemma GuestWrites.isolated (hP : P.Assigned) {writer : P.Subject} (h : GuestWrites W writer x y)
    (hwriter : P.subjectCpu writer ≠ P.subjectCpu id) : Isolated W id x y where
  descriptor hs := h.descriptors id (hs writer hwriter)
  fpuState := congrFun h.fpuStates id
  timedEvent hs := h.timedEvents id (hs writer hwriter)
  vmcs := h.vmcs _ fun heq => hwriter (congrArg P.subjectCpu (hP.vmcs _ _ heq.symm))
  schedulingInfo hs := h.schedulingInfo _ (hs writer hwriter)
  groupActivity i hi := by rwa [h.groupActivity]
  eventsKept := by rw [h.pendingEvents]
  eventsSent := by
    rw [h.pendingEvents]
    exact Set.subset_union_left
  interruptsKept hs := by rw [h.pendingInterrupts id (hs writer hwriter)]
  interruptsSent hs := by
    rw [h.pendingInterrupts id (hs writer hwriter)]
    exact Set.subset_union_left

lemma Acts.isolated (hP : P.Assigned) {c : P.Cpu} (h : Acts W c x y) (hid : P.subjectCpu id ≠ c) :
    Isolated W id x y := by
  rcases h with hchanges | ⟨writer, hwriter, hwrites⟩
  · exact hchanges.isolated hid
  · exact hwrites.isolated hP fun heq => hid (heq.symm.trans hwriter)

lemma TimePasses.isolated (h : TimePasses x y) : Isolated W id x y := by
  obtain ⟨tsc, newMajor, rfl⟩ := h
  exact { Isolated.refl W id x with }

end Isolated

/-- The interrupts that are pending for a subject are those that the policy allows, unless a subject has the page of
its interrupts mapped writable. -/
def InterruptsAuthorised (W : Mappings P) (x : Shared P) : Prop :=
  ∀ id, ∀ v ∈ vectors (x.pendingInterrupts id), (P.Routes id v ∨ P.Injects id v) ∨ ∃ writer, W writer (.interrupts id)

lemma Acts.interruptsAuthorised {W : Mappings P} {c : P.Cpu} {x y : Shared P} (h : Acts W c x y)
    (hx : InterruptsAuthorised W x) : InterruptsAuthorised W y := by
  intro id v hv
  rcases h with hchanges | ⟨writer, -, hwrites⟩
  · rcases hchanges.interruptsSent id hv with hbefore | hroutes | ⟨-, hinjects⟩
    · exact hx id v hbefore
    · exact Or.inl (Or.inl hroutes)
    · exact Or.inl (Or.inr hinjects)
  · by_cases hmapped : W writer (.interrupts id)
    · exact Or.inr ⟨writer, hmapped⟩
    · rw [hwrites.pendingInterrupts id hmapped] at hv
      exact hx id v hv

/-! ### Runs -/

section Runs

variable {W : Mappings P} {hw : Hardware} {bsp : P.Cpu} (hP : P.Assigned)

lemma start_authorised (bsp : P.Cpu) : Authorised (startState bsp true : State P).shared := by
  intro id e he
  have hnone : events 0 = ∅ := events_zero
  rw [Set.eq_empty_iff_forall_notMem] at hnone
  exact absurd he (hnone e)

lemma start_interruptsAuthorised (bsp : P.Cpu) : InterruptsAuthorised W (startState bsp true : State P).shared := by
  intro id v hv
  have hnone := Set.eq_empty_iff_forall_notMem.mp vectors_zero
  exact absurd hv (hnone v)

/-- A CPU boots while the others do not make a step. -/
lemma cpus_boot {s : State P} (hboot : (schedulerInit hw).exec (startState bsp true) = some ((), s)) :
    Threads.Runs (fun o => o = some bsp) (startConfig P W hw bsp)
      ((startConfig P W hw bsp).set bsp none s.own s.shared) := by
  refine Threads.Runs.exec ?_ ?_ ?_ hboot
  · rfl
  · rw [startConfig_bsp]
  · rw [startConfig_bsp]
    rfl

/-- A CPU runs its subject and handles the exit while the others do not make a step. -/
lemma cpus_exit {m : (cpus P W hw).Config} {c : P.Cpu} {id : P.Subject} {regs : CpuRegisters} {s s' : State P}
    (hidle : (m.threads c).1 = none) (hruns : GuestRuns W id ((m.threads c).2, m.shared) (s.own, s.shared))
    (hexit : ((cpus P W hw).prog c regs).exec s = some ((), s')) :
    Threads.Runs (fun o => o = some c) m (m.set c none s'.own s'.shared) := by
  have hguest : Threads.Step (some c) m (m.set c none s.own s.shared) := Threads.Step.idle hidle ⟨id, hruns⟩
  have hstart : Threads.Step (some c) (m.set c none s.own s.shared)
      (m.set c (some ((cpus P W hw).prog c regs)) s.own s.shared) := by
    have hstep := Threads.Step.start (c := m.set c none s.own s.shared) (i := c) regs
    rw [Threads.Config.set_self, Threads.Config.set_set] at hstep
    exact hstep rfl
  have hhandles : Threads.Runs (fun o => o = some c) (m.set c (some ((cpus P W hw).prog c regs)) s.own s.shared)
      ((m.set c (some ((cpus P W hw).prog c regs)) s.own s.shared).set c none s'.own s'.shared) := by
    refine Threads.Runs.exec ?_ ?_ ?_ hexit
    · rfl
    · rw [Threads.Config.set_self]
    · rw [Threads.Config.set_self]
      rfl
  rw [Threads.Config.set_set] at hhandles
  exact (hhandles.head ⟨_, rfl, hstart⟩).head ⟨_, rfl, hguest⟩

include hP

lemma cpus_sound : (cpus P W hw).Sound OnCpu Authorised (Acts W) where
  prog c regs := by
    have hprog : Confined c ((cpus P W hw).prog c regs) (fun _ => True) := by
      apply Prog.Upholds.bind (handleVmxExit_confined hP regs)
      exact fun _ _ => confined_pure trivial
    intro s hs
    apply Prog.Guarantees.weaken _ fun _ _ h => Or.inl h
    exact (hprog s ⟨hs.1, hs.2⟩).imp fun _ _ h => ⟨h.1.toOnCpu, h.1.authorised⟩
  idle c x y hown hshared hidle := by
    obtain ⟨id, hcurrent, ⟨registers, hregisters⟩, hwrites⟩ := hidle
    obtain ⟨id', hid', hvmcs⟩ := hown.vmcs _ hcurrent
    obtain rfl := hP.vmcs _ _ hvmcs
    refine ⟨?_, Or.inr ⟨id, hid', hwrites⟩⟩
    rw [hregisters]
    exact hown.of_place rfl rfl
  environment x y hx h := by
    obtain ⟨tsc, newMajor, rfl⟩ := h
    exact hx
  keeps c x y hx h := by
    rcases h with hchanges | ⟨id, -, hwrites⟩
    · exact hchanges.authorised hx
    · intro id' e he
      rw [hwrites.pendingEvents] at he
      exact hx id' e he
  refl c x := Or.inl (Changes.refl c x)

lemma startConfig_kept : Threads.Kept OnCpu Authorised (Acts W) (startConfig P W hw bsp) where
  own c h := absurd h (Option.some_ne_none _)
  program c p hp := by
    obtain rfl := Option.some.inj hp
    have hstart : Found c (stateOf (startState c (c = bsp)).own (startState bsp true : State P).shared) := by
      refine ⟨⟨rfl, Fin.zero_le _, fun _ hg => hg, nofun⟩, start_authorised bsp⟩
    apply Prog.Guarantees.weaken _ fun _ _ h => Or.inl h
    exact (schedulerInit_confined hP _ hstart).imp fun _ _ h => ⟨h.1.toOnCpu, h.1.authorised⟩
  shared := start_authorised bsp

/-- In every interleaving of the CPUs from their start, while the CPU of a subject makes no step, its state stays as it
is, but for pages that subjects of other CPUs have mapped writable. What becomes pending for it is routed to it, or sent
by subjects of other CPUs by events of the policy. -/
theorem subject_isolated {m m' : (cpus P W hw).Config}
    (hreached : Threads.Runs (fun _ => True) (startConfig P W hw bsp) m) {id : P.Subject}
    (hrun : Threads.Runs (fun o => o ≠ some (P.subjectCpu id)) m m') : Isolated W id m.shared m'.shared := by
  have hkept : Threads.Kept OnCpu Authorised (Acts W) m := hreached.kept (cpus_sound hP) (startConfig_kept hP)
  apply Threads.Runs.changes (cpus_sound hP) (Isolated.refl W id) (fun _ _ _ h h' => h.trans h') _ _ hkept hrun
  · intro c hc x y h
    exact h.isolated hP fun heq => hc (congrArg some heq.symm)
  · exact fun x y h => h.isolated

/-- In every state that the CPUs reach together, a pending event of a subject is one that the policy lets a subject
send to it. A pending interrupt is routed to it, the target action of such an event, or the fault of `XSETBV`, unless
the policy lets a subject write to the pending interrupts themselves. -/
theorem pending_authorised {m : (cpus P W hw).Config}
    (hreached : Threads.Runs (fun _ => True) (startConfig P W hw bsp) m) (id : P.Subject) :
    (∀ e, bitTest (m.shared.pendingEvents id) e = true → ∃ source, P.Sends source id e) ∧
      ∀ v ∈ vectors (m.shared.pendingInterrupts id),
        (P.Routes id v ∨ P.Injects id v) ∨ ∃ writer, W writer (.interrupts id) := by
  have hkept : Threads.Kept OnCpu Authorised (Acts W) m := hreached.kept (cpus_sound hP) (startConfig_kept hP)
  have hinterrupts : InterruptsAuthorised W (startConfig P W hw bsp).shared → InterruptsAuthorised W m.shared := by
    apply Threads.Runs.changes (R := fun x y => InterruptsAuthorised W x → InterruptsAuthorised W y)
      (cpus_sound hP) (fun _ h => h) (fun _ _ _ h h' hx => h' (h hx)) _ _ (startConfig_kept hP) hreached
    · exact fun c _ x y h hx => h.interruptsAuthorised hx
    · rintro x y ⟨tsc, newMajor, rfl⟩ hx
      exact hx
  exact ⟨hkept.shared id, hinterrupts (start_interruptsAuthorised bsp) id⟩

end Runs

/-! ### Two CPUs -/

/-- Two CPUs with a subject each; event 0 of the first one is sent to the second one, which gets an interrupt. The
plans are filled up to four minor frames. -/
def pairPolicy : Policy where
  subjects := 2
  partitions := 2
  groups := 2
  cpus := 2
  lastMajor := 0
  lastMinor := 3
  subjectCpu s := s
  subjectSpec s := clearedSpec (BitVec.ofNat 64 (4096 * (s.val + 1)))
  schedulingPlans c _ := if c = 0 then ⟨1, fun m => ⟨0, none, if m = 0 then 50 else 100⟩⟩
    else ⟨0, fun m => if m = 0 then ⟨1, none, 100⟩ else ⟨0, none, 0⟩⟩
  majorFramePeriod _ := 100
  vmxTimerRate := 0
  lastGroupIndex _ := 0
  partitionGroups p i := if i = 0 then some p else none
  initialSubject g := g
  groupIndex _ := 0
  subjectToPartition s := s
  subjectToGroup s := s
  lastTrap := 0
  getTrap _ _ := nullSourceEvent
  getSourceEvent s e := if s = 0 ∧ e = 0 then ⟨.noAction, some 1, some 3, false, false, 0⟩ else nullSourceEvent
  getTargetEvent s e := if s = 1 ∧ e = 3 then .injectInterrupt 40 else .noAction
  remapOffset := 32
  vectorRouting _ := ⟨none, 0⟩
  maskIrq _ := false
  partitionGroups_isSome := by decide
  partitionGroups_unique := by decide
  subject_in_partition := by decide
  initialSubject_group := by decide

lemma pairPolicy_assigned : pairPolicy.Assigned where
  partition := by decide
  plan := by decide
  handover := by
    rintro id event (⟨n, rfl⟩ | ⟨trap, rfl⟩) hhandover
    · revert id n
      decide
    · cases hhandover
  vmcs := by decide

instance : NeZero pairPolicy.cpus := ⟨by decide⟩
instance : NeZero pairPolicy.subjects := ⟨by decide⟩

/-- The first subject is a sibling of the second one: it can write the timed event and the interrupts of that. -/
def pairMappings : Mappings pairPolicy
  | writer, .timedEvent id => writer.val = 0 ∧ id.val = 1
  | writer, .interrupts id => writer.val = 0 ∧ id.val = 1
  | _, _ => False

/-- The first subject has written to the pages of the second one, and exits with a hypercall. -/
def siblingWrites (s : State pairPolicy) : State pairPolicy :=
  { s with
    vmx := { s.vmx with
      memory := Function.update s.vmx.memory (vmcsAddress (0 : pairPolicy.Subject)) (hypercallVmcs 0) }
    timedEvents := Function.update s.timedEvents (1 : Fin 2) ⟨500, 7⟩
    pendingInterrupts := Function.update s.pendingInterrupts (1 : Fin 2) (fun _ => 1) }

lemma siblingWrites_runs {s : State pairPolicy} (hs : s.vmx.current = some (vmcsAddress (0 : pairPolicy.Subject))) :
    GuestRuns pairMappings (0 : pairPolicy.Subject) (s.own, s.shared)
      ((siblingWrites s).own, (siblingWrites s).shared) := by
  have hother : ∀ target : Fin 2, ¬ ((0 : Fin 2).val = 0 ∧ target.val = 1) → target ≠ 1 := by decide
  refine ⟨hs, ⟨s.fpu.registers, rfl⟩, ?_⟩
  constructor
  case timedEvents => exact fun target h => Function.update_of_ne (hother target h) ..
  case pendingInterrupts => exact fun target h => Function.update_of_ne (hother target h) ..
  case vmcs =>
    intro address h
    simp [siblingWrites, State.shared, h]
  all_goals first | rfl | exact fun _ _ => rfl

/-- The first subject has sent event 3 to the second one, and has written its timed event and its interrupts. -/
structure PairWritten (x : Shared pairPolicy) : Prop where
  event : bitTest (x.pendingEvents (1 : pairPolicy.Subject)) 3 = true
  timedEvent : (x.timedEvents (1 : pairPolicy.Subject)).eventNr = 7
  interrupt : 64 ∈ vectors (x.pendingInterrupts (1 : pairPolicy.Subject))

instance (x : Shared pairPolicy) : Decidable (PairWritten x) :=
  decidable_of_iff (bitTest (x.pendingEvents (1 : pairPolicy.Subject)) 3 = true ∧
    (x.timedEvents (1 : pairPolicy.Subject)).eventNr = 7 ∧
      bitTest (x.pendingInterrupts (1 : pairPolicy.Subject) (toPos 64).1) (toPos 64).2 = true)
    ⟨fun h => ⟨h.1, h.2.1, h.2.2⟩, fun h => ⟨h.event, h.timedEvent, h.interrupt⟩⟩

/-- The first CPU boots, runs its subject and handles the exit, while the second one has not started. -/
lemma pair_reached : ∃ m : (cpus pairPolicy pairMappings plainHardware).Config,
    Threads.Runs (fun o => o = some (0 : pairPolicy.Cpu))
      (startConfig pairPolicy pairMappings plainHardware (0 : pairPolicy.Cpu)) m ∧ PairWritten m.shared := by
  have hrun : ((schedulerInit plainHardware).exec (startState (0 : pairPolicy.Cpu) true)).any (fun r =>
      decide (r.2.vmx.current = some (vmcsAddress (0 : pairPolicy.Subject))) &&
      (((cpus pairPolicy pairMappings plainHardware).prog (0 : pairPolicy.Cpu) hypercallRegs).exec
        (siblingWrites r.2)).any (fun r' => decide (PairWritten r'.2.shared))) = true := by decide +kernel
  obtain ⟨⟨_, s⟩, hboot, hfacts⟩ := (Option.any_eq_true _ _).mp hrun
  obtain ⟨hcurrent, hhandled⟩ := Bool.and_eq_true_iff.mp hfacts
  obtain ⟨⟨_, s'⟩, hexit, hwritten⟩ := (Option.any_eq_true _ _).mp hhandled
  obtain ⟨m, hboots, hthread, hshared⟩ : ∃ m : (cpus pairPolicy pairMappings plainHardware).Config,
      Threads.Runs (fun o => o = some (0 : pairPolicy.Cpu))
        (startConfig pairPolicy pairMappings plainHardware (0 : pairPolicy.Cpu)) m ∧
        m.threads (0 : pairPolicy.Cpu) = (none, s.own) ∧ m.shared = s.shared :=
    ⟨_, cpus_boot hboot, Threads.Config.set_self .., rfl⟩
  have hwrites := siblingWrites_runs (of_decide_eq_true hcurrent)
  have hexits := cpus_exit (by rw [hthread]) (by rw [hthread, hshared]; exact hwrites) hexit
  exact ⟨_, hboots.trans hexits, of_decide_eq_true hwritten⟩

theorem subject_isolated_pair : ∃ m : (cpus pairPolicy pairMappings plainHardware).Config,
    Threads.Runs (fun o => o ≠ some (1 : pairPolicy.Cpu))
      (startConfig pairPolicy pairMappings plainHardware (0 : pairPolicy.Cpu)) m ∧ PairWritten m.shared ∧
        Isolated pairMappings (1 : pairPolicy.Subject)
          (startConfig pairPolicy pairMappings plainHardware (0 : pairPolicy.Cpu)).shared m.shared := by
  obtain ⟨m, hrun, hwritten⟩ := pair_reached
  have hothers : Threads.Runs (fun o => o ≠ some (1 : pairPolicy.Cpu)) _ m := hrun.mono (by rintro _ rfl; decide)
  exact ⟨m, hothers, hwritten, subject_isolated pairPolicy_assigned ReflTransGen.refl hothers⟩

theorem pending_authorised_pair : ∃ m : (cpus pairPolicy pairMappings plainHardware).Config, PairWritten m.shared ∧
    (∃ source, pairPolicy.Sends source (1 : pairPolicy.Subject) 3) ∧
      ((pairPolicy.Routes (1 : pairPolicy.Subject) 64 ∨ pairPolicy.Injects (1 : pairPolicy.Subject) 64) ∨
        ∃ writer, pairMappings writer (.interrupts (1 : pairPolicy.Subject))) := by
  obtain ⟨m, hrun, hwritten⟩ := pair_reached
  have hauthorised := pending_authorised pairPolicy_assigned (hrun.mono fun _ _ => trivial) (1 : pairPolicy.Subject)
  exact ⟨m, hwritten, hauthorised.1 3 hwritten.event, hauthorised.2 64 hwritten.interrupt⟩

end Muen.Kernel
