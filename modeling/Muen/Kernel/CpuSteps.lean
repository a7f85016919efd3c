import Muen.Kernel.Handlers
import Muen.Kernel.Interrupts
import Muen.Kernel.TimerList
import Muen.Lib.Threads

/-!
# What the kernel of one CPU does to the shared state

The kernels of all CPUs share the state of subjects. Every atomic step of a CPU, in the initialization and in the
handling of an exit, leaves the state of the subjects of other CPUs alone, but for events and interrupts that the
policy has it send to them.
-/

namespace Muen.Kernel

open Muen.Lib

/-! ### The state of a CPU and the shared one -/

structure CpuState (P : Policy) where
  scheduler : Scheduler P
  currentVmcs : Option Word64
  activeXcr0Features : Word64
  currentXcr0 : Word64
  fpuRegisters : XsaveArea

structure Shared (P : Policy) where
  groupActivity : P.Partition → Word64
  pendingEvents : P.Subject → Word64
  pendingInterrupts : P.Subject → Fin 4 → Word64
  timedEvents : P.Subject → TimedEvent
  descriptors : P.Subject → SubjectState
  schedulingInfo : P.Partition → Word64 × Word64
  vmcs : Word64 → VmcsField → Word64
  fpuStates : P.Subject → FpuState
  maskedIrqs : Byte → Bool
  tsc : Word64
  newMajor : P.Major

variable {P : Policy}

def State.own (s : State P) : CpuState P :=
  ⟨s.scheduler, s.vmx.current, s.fpu.activeXcr0Features, s.fpu.currentXcr0, s.fpu.registers⟩

def State.shared (s : State P) : Shared P :=
  ⟨s.groupActivity, s.pendingEvents, s.pendingInterrupts, s.timedEvents, s.descriptors, s.schedulingInfo,
    s.vmx.memory, s.fpu.subjectStates, s.maskedIrqs, s.tsc, s.newMajor⟩

/-- The state that the kernel of a CPU works on. -/
def stateOf (own : CpuState P) (shared : Shared P) : State P :=
  ⟨own.scheduler, shared.groupActivity, shared.pendingEvents, shared.pendingInterrupts, shared.timedEvents,
    shared.descriptors, shared.schedulingInfo, ⟨own.currentVmcs, shared.vmcs⟩,
    ⟨shared.fpuStates, own.activeXcr0Features, own.currentXcr0, own.fpuRegisters⟩, shared.maskedIrqs, shared.tsc,
    shared.newMajor⟩

def stateView : State P ≃ CpuState P × Shared P where
  toFun s := (s.own, s.shared)
  invFun x := stateOf x.1 x.2
  left_inv _ := rfl
  right_inv _ := rfl

/-! ### The assignment to CPUs -/

/-- A source event of a subject. -/
def IsSourceEvent (source : P.Subject) (event : SourceEvent P.subjects) : Prop :=
  (∃ n, P.getSourceEvent source n = event) ∨ ∃ trap, P.getTrap source trap = event

/-- The policy has an event of one subject with another one as its target. -/
def Policy.Sends (source target : P.Subject) (e : EventNr) : Prop :=
  ∃ event, IsSourceEvent source event ∧ event.targetSubject = some target ∧ event.targetEvent = some e

/-- The policy routes a vector to a subject. -/
def Policy.Routes (target : P.Subject) (vector : Byte) : Prop :=
  ∃ v, (P.vectorRouting v).subject = some target ∧ (P.vectorRouting v).vector = vector

/-- Partitions and the minor frames that they are scheduled in are assigned to CPUs, handovers stay on the CPU, and each
subject has a VMCS of its own. -/
structure Policy.Assigned (P : Policy) : Prop where
  partition : ∀ id id', P.subjectToPartition id = P.subjectToPartition id' → P.subjectCpu id = P.subjectCpu id'
  plan : ∀ c major minor, minor ≤ (P.schedulingPlans c major).length → ∀ id,
    P.subjectToPartition id = ((P.schedulingPlans c major).minorFrames minor).partitionID → P.subjectCpu id = c
  handover : ∀ id event, IsSourceEvent id event → event.handover = true → ∀ target,
    event.targetSubject = some target → P.subjectCpu target = P.subjectCpu id
  vmcs : ∀ id id' : P.Subject, vmcsAddress id = vmcsAddress id' → id = id'

/-- The variables of the scheduler that tell what it may run. -/
def Scheduler.place (s : Scheduler P) : P.Cpu × P.Minor × P.Major × (P.Group → P.Subject) :=
  (s.core.cpuID, s.core.minor, s.core.major, s.core.activeSubject)

lemma Scheduler.place_of_core {s s' : Scheduler P} (h : s'.core = s.core) : s'.place = s.place := by
  rw [place, place, h]

/-- The current minor frame is one of the current major frame, the groups of the CPU have subjects of the CPU, and so
has the current VMCS. -/
structure OnCpu (c : P.Cpu) (own : CpuState P) : Prop where
  cpuID : own.scheduler.core.cpuID = c
  frame : own.scheduler.core.minor ≤ (P.schedulingPlans c own.scheduler.core.major).length
  groups : ∀ g, P.subjectCpu (P.initialSubject g) = c → P.subjectCpu (own.scheduler.core.activeSubject g) = c
  vmcs : ∀ address, own.currentVmcs = some address → ∃ id : P.Subject, P.subjectCpu id = c ∧ address = vmcsAddress id

/-! ### Changes of the shared state -/

/-- The pending events of a subject. -/
def events (word : Word64) : Set EventNr := {e | bitTest word e = true}

/-- The interrupts that a subject's own CPU makes pending: those of target events that it can be sent, and the fault
of `XSETBV`. -/
def Policy.Injects (id : P.Subject) (v : Byte) : Prop :=
  (∃ e, (∃ source, P.Sends source id e) ∧ P.getTargetEvent id e = .injectInterrupt v) ∨ v = 13

/-- The events that are pending for a subject are those that the policy has somebody send to it. -/
def Authorised (x : Shared P) : Prop := ∀ id, ∀ e ∈ events (x.pendingEvents id), ∃ source, P.Sends source id e

/-- What a CPU may do to the shared state. -/
structure Changes (c : P.Cpu) (old new : Shared P) : Prop where
  descriptors : ∀ id, P.subjectCpu id ≠ c → new.descriptors id = old.descriptors id
  fpuStates : ∀ id, P.subjectCpu id ≠ c → new.fpuStates id = old.fpuStates id
  timedEvents : ∀ id, P.subjectCpu id ≠ c → new.timedEvents id = old.timedEvents id
  vmcs : ∀ id, P.subjectCpu id ≠ c → new.vmcs (vmcsAddress id) = old.vmcs (vmcsAddress id)
  schedulingInfo : ∀ id, P.subjectCpu id ≠ c →
    new.schedulingInfo (P.subjectToPartition id) = old.schedulingInfo (P.subjectToPartition id)
  groupActivity : ∀ id, P.subjectCpu id ≠ c → ∀ i, bitTest (old.groupActivity (P.subjectToPartition id)) i = true →
    bitTest (new.groupActivity (P.subjectToPartition id)) i = true
  eventsKept : ∀ id, P.subjectCpu id ≠ c → events (old.pendingEvents id) ⊆ events (new.pendingEvents id)
  eventsSent : ∀ id, events (new.pendingEvents id) ⊆
    events (old.pendingEvents id) ∪ {e | ∃ source, P.subjectCpu source = c ∧ P.Sends source id e}
  interruptsKept : ∀ id, P.subjectCpu id ≠ c →
    vectors (old.pendingInterrupts id) ⊆ vectors (new.pendingInterrupts id)
  interruptsSent : ∀ id, vectors (new.pendingInterrupts id) ⊆
    vectors (old.pendingInterrupts id) ∪ {v | P.Routes id v ∨ P.subjectCpu id = c ∧ P.Injects id v}

/-- The state that the kernel of a CPU finds before a step. -/
structure Found (c : P.Cpu) (s : State P) : Prop extends OnCpu c s.own where
  authorised : Authorised s.shared

/-- What other CPUs do between the steps of a CPU. -/
def Between (s s' : State P) : Prop := s'.own = s.own ∧ (Authorised s.shared → Authorised s'.shared)

lemma found_between {c : P.Cpu} (s s' : State P) (hs : Between s s') (h : Found c s) : Found c s' :=
  ⟨hs.1.symm ▸ h.toOnCpu, hs.2 h.authorised⟩

/-- A procedure of the kernel of a CPU. -/
abbrev Confined {α : Type} (c : P.Cpu) (p : Proc P α) (Q : α → Prop) : Prop :=
  p.Upholds Between (fun s s' => Changes c s.shared s'.shared) (Found c) Q

lemma Changes.authorised {c : P.Cpu} {old new : Shared P} (h : Changes c old new) (hold : Authorised old) :
    Authorised new := by
  intro id e he
  rcases h.eventsSent id he with hbefore | ⟨source, -, hsends⟩
  · exact hold id e hbefore
  · exact ⟨source, hsends⟩

lemma Changes.refl (c : P.Cpu) (x : Shared P) : Changes c x x where
  descriptors _ _ := rfl
  fpuStates _ _ := rfl
  timedEvents _ _ := rfl
  vmcs _ _ := rfl
  schedulingInfo _ _ := rfl
  groupActivity _ _ _ h := h
  eventsKept _ _ := Set.Subset.rfl
  eventsSent _ := Set.subset_union_left
  interruptsKept _ _ := Set.Subset.rfl
  interruptsSent _ := Set.subset_union_left

/-! ### Updates -/

lemma events_bitSet (word : Word64) (e : EventNr) : events (bitSet word e) = insert e (events word) := by
  ext i
  rw [Set.mem_insert_iff, or_comm, @eq_comm _ i e]
  change bitTest (bitSet word e) i = true ↔ bitTest word i = true ∨ e = i
  rw [bitTest_bitSet, Bool.or_eq_true, decide_eq_true_eq]

lemma events_bitClear (word : Word64) (e : EventNr) : events (bitClear word e) ⊆ events word := by
  intro i hi
  have hboth : bitTest (bitClear word e) i = true := hi
  rw [bitTest_bitClear, Bool.and_eq_true] at hboth
  exact hboth.1

lemma events_zero : events 0 = ∅ := by
  apply Set.eq_empty_of_forall_notMem
  intro i hi
  have hset : bitTest 0 i = true := hi
  rw [bitTest_zero] at hset
  cases hset

lemma vectors_zero : vectors (fun _ => 0) = ∅ := by
  apply Set.eq_empty_of_forall_notMem
  intro v hv
  have hset : bitTest 0 (toPos v).2 = true := hv
  rw [bitTest_zero] at hset
  cases hset

/-- All subjects of a partition are on the CPU. -/
def OwnPartition (c : P.Cpu) (p : P.Partition) : Prop := ∀ id, P.subjectToPartition id = p → P.subjectCpu id = c

section Updates

variable {c : P.Cpu} {s : State P} {id : P.Subject}

lemma OnCpu.of_place {own own' : CpuState P} (h : OnCpu c own) (hplace : own'.scheduler.place = own.scheduler.place)
    (hvmcs : own'.currentVmcs = own.currentVmcs) : OnCpu c own' := by
  have hcpu : own'.scheduler.core.cpuID = own.scheduler.core.cpuID := congrArg Prod.fst hplace
  have hminor : own'.scheduler.core.minor = own.scheduler.core.minor := congrArg (fun x => x.2.1) hplace
  have hmajor : own'.scheduler.core.major = own.scheduler.core.major := congrArg (fun x => x.2.2.1) hplace
  have hactive : own'.scheduler.core.activeSubject = own.scheduler.core.activeSubject :=
    congrArg (fun x => x.2.2.2) hplace
  refine ⟨?_, ?_, ?_, ?_⟩
  · rw [hcpu]
    exact h.cpuID
  · rw [hminor, hmajor]
    exact h.frame
  · rw [hactive]
    exact h.groups
  · rw [hvmcs]
    exact h.vmcs

/-- A change of a component at a subject of the CPU. -/
lemma update_foreign {α : Type} (f : P.Subject → α) (hid : P.subjectCpu id = c) (a : α) :
    ∀ id', P.subjectCpu id' ≠ c → Function.update f id a id' = f id' := by
  intro id' hid'
  apply Function.update_of_ne
  rintro rfl
  exact hid' hid

lemma setDescriptor_changes (hid : P.subjectCpu id = c) (f : SubjectState → SubjectState) :
    Changes c s.shared (State.setDescriptor id f s).shared :=
  { Changes.refl c s.shared with descriptors := update_foreign _ hid _ }

lemma setTimedEvent_changes (hid : P.subjectCpu id = c) (f : TimedEvent → TimedEvent) :
    Changes c s.shared (State.setTimedEvent id f s).shared :=
  { Changes.refl c s.shared with timedEvents := update_foreign _ hid _ }

lemma onFpu_changes {u : Fpu P → Fpu P}
    (hu : ∀ id, P.subjectCpu id ≠ c → (u s.fpu).subjectStates id = s.fpu.subjectStates id) :
    Changes c s.shared (State.onFpu u s).shared :=
  { Changes.refl c s.shared with fpuStates := hu }

lemma setEvents_changes {f : Word64 → Word64}
    (hkept : P.subjectCpu id ≠ c → events (s.pendingEvents id) ⊆ events (f (s.pendingEvents id)))
    (hsent : events (f (s.pendingEvents id)) ⊆
      events (s.pendingEvents id) ∪ {e | ∃ source, P.subjectCpu source = c ∧ P.Sends source id e}) :
    Changes c s.shared (State.setEvents id f s).shared := by
  have hself : (State.setEvents id f s).shared.pendingEvents id = f (s.pendingEvents id) := Function.update_self ..
  have hother : ∀ id', id' ≠ id → (State.setEvents id f s).shared.pendingEvents id' = s.pendingEvents id' :=
    fun id' hne => Function.update_of_ne hne ..
  refine { Changes.refl c s.shared with eventsKept := ?_, eventsSent := ?_ }
  · intro id' hid'
    by_cases hne : id' = id
    · subst hne
      rw [hself]
      exact hkept hid'
    · rw [hother id' hne]
      exact Set.Subset.rfl
  · intro id'
    by_cases hne : id' = id
    · subst hne
      rw [hself]
      exact hsent
    · rw [hother id' hne]
      exact Set.subset_union_left

lemma setInterrupts_changes {f : (Fin 4 → Word64) → Fin 4 → Word64}
    (hkept : P.subjectCpu id ≠ c → vectors (s.pendingInterrupts id) ⊆ vectors (f (s.pendingInterrupts id)))
    (hsent : vectors (f (s.pendingInterrupts id)) ⊆
      vectors (s.pendingInterrupts id) ∪ {v | P.Routes id v ∨ P.subjectCpu id = c ∧ P.Injects id v}) :
    Changes c s.shared (State.setInterrupts id f s).shared := by
  have hself : (State.setInterrupts id f s).shared.pendingInterrupts id = f (s.pendingInterrupts id) :=
    Function.update_self ..
  have hother : ∀ id', id' ≠ id →
      (State.setInterrupts id f s).shared.pendingInterrupts id' = s.pendingInterrupts id' :=
    fun id' hne => Function.update_of_ne hne ..
  refine { Changes.refl c s.shared with interruptsKept := ?_, interruptsSent := ?_ }
  · intro id' hid'
    by_cases hne : id' = id
    · subst hne
      rw [hself]
      exact hkept hid'
    · rw [hother id' hne]
      exact Set.Subset.rfl
  · intro id'
    by_cases hne : id' = id
    · subst hne
      rw [hself]
      exact hsent
    · rw [hother id' hne]
      exact Set.subset_union_left

lemma insertInterrupt_changes {v : Byte} (hv : P.Routes id v ∨ P.subjectCpu id = c ∧ P.Injects id v) :
    Changes c s.shared (insertInterrupt id v s).shared := by
  apply setInterrupts_changes
  · intro _
    rw [vectors_bitSet]
    exact Set.subset_insert _ _
  · rw [vectors_bitSet, Set.insert_eq, Set.union_comm]
    exact Set.union_subset_union_right _ (Set.singleton_subset_iff.mpr hv)

lemma setActivity_changes (p : P.Partition) (i : GroupIndex) :
    Changes c s.shared (State.setActivity p i s).shared := by
  refine { Changes.refl c s.shared with groupActivity := ?_ }
  intro id' _ j hj
  change bitTest (Function.update s.groupActivity p _ _) j = true
  by_cases hp : P.subjectToPartition id' = p
  · subst hp
    have hj' : bitTest (s.groupActivity (P.subjectToPartition id')) j = true := hj
    rw [Function.update_self, bitTest_bitSet, hj', Bool.true_or]
  · rw [Function.update_of_ne hp]
    exact hj

lemma clearActivity_changes {p : P.Partition} (hp : OwnPartition c p) (i : GroupIndex) :
    Changes c s.shared (State.clearActivity p i s).shared := by
  refine { Changes.refl c s.shared with groupActivity := ?_ }
  intro id' hid' j hj
  have hne : P.subjectToPartition id' ≠ p := fun h => hid' (hp id' h)
  change bitTest (Function.update s.groupActivity p _ _) j = true
  rw [Function.update_of_ne hne]
  exact hj

lemma setSchedulingInfo_changes {p : P.Partition} (hp : OwnPartition c p) (first last : Word64) :
    Changes c s.shared (setSchedulingInfo p first last s).shared := by
  refine { Changes.refl c s.shared with schedulingInfo := ?_ }
  intro id' hid'
  apply Function.update_of_ne
  exact fun h => hid' (hp id' h)

lemma vmcsWriteAll_own (fields : List (VmcsField × Word64)) : (vmcsWriteAll fields s).own = s.own := by
  unfold vmcsWriteAll
  cases s.vmx.current with
  | none => rfl
  | some address => rfl

lemma vmcs_changes (hP : P.Assigned) (hid : P.subjectCpu id = c) (vmcs : VmcsField → Word64)
    {memory : Word64 → VmcsField → Word64} (hmemory : s.vmx.memory = memory) :
    ∀ id', P.subjectCpu id' ≠ c →
      Function.update memory (vmcsAddress id) vmcs (vmcsAddress id') = s.vmx.memory (vmcsAddress id') := by
  intro id' hid'
  rw [hmemory]
  apply Function.update_of_ne
  intro h
  exact hid' (hP.vmcs id' id h ▸ hid)

lemma vmcsWriteAll_changes (hP : P.Assigned) (hs : OnCpu c s.own) (fields : List (VmcsField × Word64)) :
    Changes c s.shared (vmcsWriteAll fields s).shared := by
  unfold vmcsWriteAll
  cases hcurrent : s.vmx.current with
  | none => exact Changes.refl c s.shared
  | some address =>
    obtain ⟨id, hid, rfl⟩ := hs.vmcs address hcurrent
    exact { Changes.refl c s.shared with vmcs := vmcs_changes hP hid _ rfl }

lemma vmxReset_changes (hP : P.Assigned) (hid : P.subjectCpu id = c) :
    Changes c s.shared (vmxReset (vmcsAddress id) s).shared :=
  { Changes.refl c s.shared with vmcs := vmcs_changes hP hid _ rfl }

/-- An update of the shared state. -/
lemma confined_modify {l : Label P} {u : State P → State P} {Q : Unit → Prop}
    (hown : ∀ s : State P, OnCpu c s.own → OnCpu c (u s).own)
    (hchanges : ∀ s : State P, Found c s → Changes c s.shared (u s).shared) (h : Q ()) :
    Confined c (Prog.modify l u) Q :=
  Prog.upholds_modify found_between
    (fun s hs => ⟨⟨hown s hs.toOnCpu, (hchanges s hs).authorised hs.authorised⟩, hchanges s hs⟩) h

/-- An update of other variables of the scheduler. -/
lemma confined_scheduler {l : Label P} {f : Scheduler P → Scheduler P} {Q : Unit → Prop}
    (hf : ∀ s, (f s).place = s.place) (h : Q ()) : Confined c (Prog.modify l (State.onScheduler f)) Q := by
  refine confined_modify ?_ (fun s _ => Changes.refl c s.shared) h
  exact fun s hs => hs.of_place (hf s.scheduler) rfl

lemma confined_read {α : Type} {l : Label P} {f : State P → α} {Q : α → Prop}
    (h : ∀ s : State P, Found c s → Q (f s)) : Confined c (Prog.read l f) Q :=
  Prog.upholds_read found_between (fun s => Changes.refl c s.shared) h

lemma confined_pure {α : Type} {a : α} {Q : α → Prop} (h : Q a) : Confined c (pure a) Q := Prog.upholds_pure h

lemma confined_require {α : Type} {o : Option α} {Q : α → Prop} (h : ∀ a, o = some a → Q a) :
    Confined c (Prog.require failed o) Q :=
  Prog.upholds_require (fun s => Changes.refl c s.shared) h

end Updates

/-! ### The scheduler -/

/-- The subjects of a group are on the CPU. -/
def OwnGroup (c : P.Cpu) (g : P.Group) : Prop := P.subjectCpu (P.initialSubject g) = c

section Scheduling

variable {c : P.Cpu} {id : P.Subject} {p : P.Partition}

lemma ownPartition_of_subject (hP : P.Assigned) (hid : P.subjectCpu id = c) :
    OwnPartition c (P.subjectToPartition id) :=
  fun id' h => (hP.partition id' id h).trans hid

lemma ownPartition_current (hP : P.Assigned) {own : CpuState P} (h : OnCpu c own) :
    OwnPartition c (currentSchedulingPartitionID own.scheduler) := by
  intro id hid
  obtain rfl := h.cpuID
  exact hP.plan _ _ _ h.frame id hid

lemma ownGroup_of_partition (hp : OwnPartition c p) {i : GroupIndex} {g : P.Group}
    (h : P.partitionGroups p i = some g) : OwnGroup c g :=
  hp _ (P.partitionGroups_unique p i g h).2

lemma getCurrentSubject_confined (hP : P.Assigned) :
    Confined c (getCurrentSubject : Proc P P.Subject) (fun id => P.subjectCpu id = c) := by
  apply Prog.Upholds.bind (Q := fun o => ∀ id, o = some id → P.subjectCpu id = c)
  · apply confined_read
    intro s hs id hid
    obtain ⟨g, hg, rfl⟩ := Option.map_eq_some_iff.mp hid
    exact hs.groups g (ownGroup_of_partition (ownPartition_current hP hs.toOnCpu) hg)
  · intro o ho
    exact confined_require ho

lemma setCurrentSubjectID_confined (hid : P.subjectCpu id = c) :
    Confined c (setCurrentSubjectID id) (fun _ => True) := by
  apply Prog.Upholds.bind (Q := fun _ => True)
  · exact confined_read fun _ _ => trivial
  intro o _
  apply Prog.Upholds.bind (Q := fun _ => True)
  · exact confined_require fun _ _ => trivial
  intro g _
  refine confined_modify ?_ (fun s _ => Changes.refl c s.shared) trivial
  intro s hs
  refine ⟨hs.cpuID, hs.frame, ?_, hs.vmcs⟩
  intro g' hg'
  change P.subjectCpu ((s.scheduler.setGroup g fun x => { x with activeSubject := id }).groups g').activeSubject = c
  by_cases hg : g' = g
  · rw [hg, Scheduler.setGroup_self]
    exact hid
  · rw [Scheduler.setGroup_of_ne _ _ hg]
    exact hs.groups g' hg'

lemma isActive_confined (deactivating : Option P.Group) :
    Confined c (isActive deactivating id) (fun _ => True) := by
  have hread : ∀ f : State P → Bool, Confined c (Prog.read { deactivating := deactivating } f) (fun _ => True) :=
    fun f => confined_read fun _ _ => trivial
  apply Prog.Upholds.bind (hread _)
  intro running _
  cases running with
  | true => exact confined_pure trivial
  | false =>
    apply Prog.Upholds.bind (hread _)
    intro event _
    cases event with
    | true => exact confined_pure trivial
    | false =>
      apply Prog.Upholds.bind (hread _)
      intro interrupt _
      cases interrupt with
      | true => exact confined_pure trivial
      | false =>
        apply Prog.Upholds.bind (Q := fun _ => True)
        · exact confined_read fun _ _ => trivial
        · exact fun now _ => hread _

lemma activateGroup_confined (deactivating : Option P.Group) (g : P.Group) :
    Confined c (activateGroup deactivating p g) (fun _ => True) := by
  apply Prog.Upholds.bind (Q := fun _ => True)
  · apply confined_scheduler _ trivial
    exact fun s => Scheduler.place_of_core (removeGroupFromTimerList_core s _ _)
  · intro _ _
    exact confined_modify (fun _ h => h) (fun s _ => setActivity_changes _ _) trivial

lemma insertLoop_core (g : P.Group) (deadline : Word64) {s s' : Scheduler P} (fuel : ℕ) (prev next : Option P.Group)
    (h : insertLoop p g deadline fuel prev next s = some s') : s'.core = s.core := by
  induction fuel generalizing prev next with
  | zero => cases h
  | succ fuel ih =>
    cases next with
    | none =>
      obtain rfl := Option.some.inj h
      exact insertGroup_core s p g deadline prev none
    | some nextGroup =>
      rw [insertLoop] at h
      by_cases hbefore : deadline < (s.groups nextGroup).timeout
      · rw [if_pos hbefore] at h
        obtain rfl := Option.some.inj h
        exact insertGroup_core s p g deadline prev (some nextGroup)
      · rw [if_neg hbefore] at h
        exact ih _ _ h

lemma insertTimer_core {g : P.Group} {deadline : Word64} {s s' : Scheduler P}
    (h : insertTimer p g deadline s = some s') : s'.core = s.core := by
  unfold insertTimer at h
  by_cases hin : isGroupInTimerList p g s = true
  · rw [if_pos hin] at h
    rw [Option.some.inj h]
  · rw [if_neg hin] at h
    exact insertLoop_core g deadline _ _ _ h

lemma deactivateGroup_confined (hp : OwnPartition c p) (i : GroupIndex) :
    Confined c (deactivateGroup p i id) (fun _ => True) := by
  apply Prog.Upholds.bind (Q := fun _ => True)
  · exact confined_read fun _ _ => trivial
  intro deadline _
  apply Prog.Upholds.bind (Q := fun _ => True)
  · refine Prog.upholds_attempt found_between (fun s => Changes.refl c s.shared) ?_ trivial
    intro s s' hs h
    obtain ⟨scheduler, hscheduler, rfl⟩ := Option.map_eq_some_iff.mp h
    have hplace := Scheduler.place_of_core (insertTimer_core hscheduler)
    exact ⟨⟨hs.toOnCpu.of_place hplace rfl, hs.authorised⟩, Changes.refl c s.shared⟩
  · intro _ _
    exact confined_modify (fun _ h => h) (fun s _ => clearActivity_changes hp i) trivial

lemma deactivateAndTest_confined (hp : OwnPartition c p) (i : GroupIndex) (g : P.Group) :
    Confined c (deactivateAndTest p i g id) (fun _ => True) := by
  apply Prog.Upholds.bind (deactivateGroup_confined hp i)
  intro _ _
  apply Prog.Upholds.bind (isActive_confined (some g))
  intro active _
  cases active with
  | true =>
    apply Prog.Upholds.bind (activateGroup_confined (some g) g)
    exact fun _ _ => confined_pure trivial
  | false => exact confined_pure trivial

lemma examineGroup_confined (hp : OwnPartition c p) (i : GroupIndex) :
    Confined c (examineGroup p i) (fun next => ∀ g, next = some g → OwnGroup c g) := by
  apply Prog.Upholds.bind (Q := fun _ => True)
  · exact confined_read fun _ _ => trivial
  intro indicated _
  cases indicated with
  | false => exact confined_pure fun _ h => absurd h (Option.some_ne_none _).symm
  | true =>
    apply Prog.Upholds.bind (Q := fun g => OwnGroup c g)
    · exact confined_require fun g hg => ownGroup_of_partition hp hg
    intro g hg
    have hresult : ∀ g', some g = some g' → OwnGroup c g' := fun g' h => Option.some.inj h ▸ hg
    apply Prog.Upholds.bind (Q := fun _ => True)
    · exact confined_read fun _ _ => trivial
    intro subject _
    apply Prog.Upholds.bind (isActive_confined none)
    intro active _
    cases active with
    | true =>
      apply Prog.Upholds.bind (Q := fun _ => True)
      · apply confined_scheduler _ trivial
        intro s
        split
        · exact Scheduler.place_of_core (removeGroupFromTimerList_core s _ _)
        · rfl
      · exact fun _ _ => confined_pure hresult
    | false =>
      apply Prog.Upholds.bind (deactivateAndTest_confined hp i g)
      intro reactivated _
      cases reactivated with
      | true => exact confined_pure hresult
      | false => exact confined_pure fun _ h => absurd h (Option.some_ne_none _).symm

lemma findLoop_confined (hp : OwnPartition c p) (current : GroupIndex) (fuel : ℕ) :
    ∀ i, Confined c (findLoop p current fuel i) (fun r => ∀ g, r.1 = some g → OwnGroup c g) := by
  induction fuel with
  | zero => exact fun _ => Prog.upholds_fail fun s => Changes.refl c s.shared
  | succ fuel ih =>
    intro i
    apply Prog.Upholds.bind (examineGroup_confined hp (successorGroup p i))
    intro next hnext
    split
    · exact confined_pure hnext
    · exact ih _

lemma findNextActiveSchedulingGroup_confined (hp : OwnPartition c p) :
    Confined c (findNextActiveSchedulingGroup p) (fun r => ∀ g, r.1 = some g → OwnGroup c g) := by
  apply Prog.Upholds.bind (Q := fun _ => True)
  · exact confined_read fun _ _ => trivial
  · exact fun current _ => findLoop_confined hp current 64 current

lemma indicateActivity_confined (sameCPU : Bool) : Confined c (indicateActivity id sameCPU) (fun _ => True) := by
  have hset : Confined c (Prog.modify {} (State.setActivity (P.subjectToPartition id)
      (P.groupIndex (P.subjectToGroup id)))) (fun _ => True) :=
    confined_modify (fun _ h => h) (fun s _ => setActivity_changes _ _) trivial
  cases sameCPU with
  | false => exact hset
  | true =>
    apply Prog.Upholds.bind (Q := fun _ => True)
    · exact confined_read fun _ _ => trivial
    intro active _
    split
    · exact hset
    · exact confined_pure trivial

lemma timerLoop_confined (now : Word64) (fuel : ℕ) :
    ∀ group : Option P.Group, Confined c (timerLoop p now fuel group) (fun _ => True) := by
  induction fuel with
  | zero =>
    intro group
    cases group with
    | none => exact confined_pure trivial
    | some g => exact Prog.upholds_fail fun s => Changes.refl c s.shared
  | succ fuel ih =>
    intro group
    cases group with
    | none => exact confined_pure trivial
    | some g =>
      apply Prog.Upholds.bind (Q := fun _ => True)
      · exact confined_read fun _ _ => trivial
      intro timer _
      split
      · apply Prog.Upholds.bind (activateGroup_confined none g)
        exact fun _ _ => ih _
      · exact confined_pure trivial

lemma updateTimerList_confined : Confined c (updateTimerList p) (fun _ => True) := by
  apply Prog.Upholds.bind (Q := fun _ => True)
  · exact confined_read fun _ _ => trivial
  intro earliest _
  apply Prog.Upholds.bind (Q := fun _ => True)
  · exact confined_read fun _ _ => trivial
  intro now _
  apply Prog.Upholds.bind (timerLoop_confined now P.groups earliest)
  intro cur _
  apply confined_scheduler _ trivial
  intro s
  apply Scheduler.place_of_core
  rw [setPrevTimer_core, setEarliestTimer_core]

lemma switchGroup_confined {g : P.Group} (hg : OwnGroup c g) (i : GroupIndex) :
    Confined c (switchGroup p g i) (fun _ => True) := by
  apply Prog.Upholds.bind (Q := fun subject => P.subjectCpu subject = c)
  · exact confined_read fun s hs => hs.groups g hg
  intro subject hsubject
  apply Prog.Upholds.bind (Q := fun _ => True)
  · exact confined_modify (fun _ h => h) (fun s _ => setDescriptor_changes hsubject _) trivial
  · intro _ _
    exact confined_scheduler (fun _ => rfl) trivial

lemma updateSchedulingPartition_confined (hP : P.Assigned) :
    Confined c (updateSchedulingPartition : Proc P Unit) (fun _ => True) := by
  apply Prog.Upholds.bind (getCurrentSubject_confined hP)
  intro currentSubject hcurrent
  apply Prog.Upholds.bind updateTimerList_confined
  intro _ _
  apply Prog.Upholds.bind (findNextActiveSchedulingGroup_confined (ownPartition_of_subject hP hcurrent))
  rintro ⟨next, i⟩ hnext
  cases next with
  | none => exact confined_pure trivial
  | some g =>
    apply Prog.Upholds.bind (Q := fun _ => True)
    · exact confined_read fun _ _ => trivial
    intro sleeping _
    cases sleeping with
    | false => exact switchGroup_confined (hnext g rfl) i
    | true =>
      apply Prog.Upholds.bind (Q := fun _ => True)
      · exact confined_modify (fun _ h => h) (fun s _ => setDescriptor_changes hcurrent _) trivial
      intro _ _
      apply Prog.Upholds.bind (Q := fun _ => True)
      · exact confined_scheduler (fun _ => rfl) trivial
      · exact fun _ _ => switchGroup_confined (hnext g rfl) i

lemma reschedulePartition_confined (hP : P.Assigned) (hid : P.subjectCpu id = c) (incrRIP sleep : Bool) :
    Confined c (reschedulePartition id incrRIP sleep) (fun next => P.subjectCpu next = c) := by
  apply Prog.Upholds.bind (Q := fun p => OwnPartition c p)
  · exact confined_read fun s hs => ownPartition_current hP hs.toOnCpu
  intro p hp
  apply Prog.Upholds.bind (Q := fun _ => True)
  · cases sleep with
    | false => exact confined_modify (fun _ h => h) (fun s _ => Changes.refl c s.shared) trivial
    | true =>
      rw [if_pos rfl]
      exact confined_modify (fun _ h => h) (fun s _ => setDescriptor_changes hid _) trivial
  intro _ _
  apply Prog.Upholds.bind (Q := fun _ => True)
  · apply Prog.Upholds.bind (isActive_confined none)
    intro active _
    cases active with
    | true => exact confined_pure trivial
    | false =>
      apply Prog.Upholds.bind (Q := fun _ => True)
      · exact confined_read fun _ _ => trivial
      intro i _
      apply Prog.Upholds.bind (deactivateAndTest_confined hp i _)
      exact fun _ _ => confined_pure trivial
  intro _ _
  apply Prog.Upholds.bind (Q := fun _ => True)
  · cases incrRIP with
    | false => exact confined_modify (fun _ h => h) (fun s _ => Changes.refl c s.shared) trivial
    | true =>
      rw [if_pos rfl]
      exact confined_modify (fun _ h => h) (fun s _ => setDescriptor_changes hid _) trivial
  intro _ _
  apply Prog.Upholds.bind (findNextActiveSchedulingGroup_confined hp)
  rintro ⟨next, i⟩ hnext
  apply Prog.Upholds.bind (Q := fun _ => True)
  · cases next with
    | some g => exact switchGroup_confined (hnext g rfl) i
    | none =>
      apply Prog.Upholds.bind (Q := fun _ => True)
      · exact confined_modify (fun _ h => h) (fun s _ => setDescriptor_changes hid _) trivial
      · intro _ _
        exact confined_scheduler (fun _ => rfl) trivial
  · exact fun _ _ => getCurrentSubject_confined hP

/-- After the switch the current minor frame is again one of the current major frame. -/
lemma switchMinorFrame_guarantees {s : State P} (hs : Found c s) :
    (switchMinorFrame s.scheduler).Guarantees Between (fun s s' => Changes c s.shared s'.shared)
      (fun _ s' => Found c s' ∧ True) s := by
  unfold switchMinorFrame
  dsimp only
  split
  · rename_i hlt
    intro s₁ h₁
    have hfound := found_between s s₁ h₁ hs
    have hsame : s₁.scheduler = s.scheduler := congrArg CpuState.scheduler h₁.1
    refine ⟨Changes.refl c s₁.shared, ⟨⟨hfound.cpuID, ?_, hfound.groups, hfound.vmcs⟩, hfound.authorised⟩, trivial⟩
    rw [show s.scheduler.cpuID = c from hs.cpuID] at hlt
    change _ ≤ (P.schedulingPlans c s₁.scheduler.currentMajorFrameID).length
    rw [hsame]
    exact Nat.succ_le_of_lt hlt
  · intro s₁ h₁
    have hfound := found_between s s₁ h₁ hs
    refine ⟨Changes.refl c s₁.shared, ?_⟩
    intro s₂ h₂
    have hown : s₂.own = (updateMajorFrame s₁).own := h₂.1
    have hscheduler : s₂.scheduler = (updateMajorFrame s₁).scheduler := congrArg CpuState.scheduler hown
    refine ⟨Changes.refl c s₂.shared, ⟨⟨?_, Fin.zero_le _, ?_, ?_⟩, h₂.2 hfound.authorised⟩, trivial⟩
    · change s₂.scheduler.cpuID = c
      rw [hscheduler]
      exact hfound.cpuID
    · intro g hg
      change P.subjectCpu (s₂.scheduler.groups g).activeSubject = c
      rw [hscheduler]
      exact hfound.groups g hg
    · intro address haddress
      apply hfound.vmcs address
      rw [← haddress]
      exact (congrArg CpuState.currentVmcs hown).symm

lemma updateSchedulingInfo_confined (hP : P.Assigned) :
    Confined c (updateSchedulingInfo : Proc P P.Subject) (fun next => P.subjectCpu next = c) := by
  intro s hs s₁ h₁
  refine ⟨Changes.refl c s₁.shared, ?_⟩
  refine (switchMinorFrame_guarantees (found_between s s₁ h₁ hs)).bind fun _ s₂ h₂ => ?_
  suffices hrest : Confined c _ (fun next => P.subjectCpu next = c) from hrest s₂ h₂.1
  apply Prog.Upholds.bind (updateSchedulingPartition_confined hP)
  intro _ _
  apply Prog.Upholds.bind (getCurrentSubject_confined hP)
  intro next hnext
  apply Prog.Upholds.bind (Q := fun _ => True)
  · exact confined_modify (fun _ h => h)
      (fun s _ => setSchedulingInfo_changes (ownPartition_of_subject hP hnext) _ _) trivial
  · exact fun _ _ => confined_pure hnext

end Scheduling

/-! ### The handlers -/

section Handling

variable {c : P.Cpu} {id : P.Subject} {hw : Hardware} (hP : P.Assigned)

include hP

omit hP in
lemma vmcsRead_confined (field : VmcsField) : Confined c (vmcsRead field : Proc P Word64) (fun _ => True) := by
  apply Prog.Upholds.bind (Q := fun _ => True)
  · exact confined_read fun _ _ => trivial
  intro current _
  cases current with
  | none => exact Prog.upholds_halt
  | some address => exact confined_read fun _ _ => trivial

lemma vmcsWriteAll_confined (fields : List (VmcsField × Word64)) :
    Confined c (Prog.modify {} (vmcsWriteAll fields) : Proc P Unit) (fun _ => True) := by
  refine confined_modify ?_ (fun s hs => vmcsWriteAll_changes hP hs.toOnCpu fields) trivial
  intro s hs
  rw [vmcsWriteAll_own]
  exact hs

lemma vmcsWrite_confined (fields : List (VmcsField × Word64)) :
    Confined c (vmcsWrite fields : Proc P Unit) (fun _ => True) := by
  apply Prog.Upholds.bind (Q := fun _ => True)
  · exact confined_read fun _ _ => trivial
  intro current _
  cases current with
  | none => exact Prog.upholds_halt
  | some address => exact vmcsWriteAll_confined hP fields

lemma vmcsSetInterruptWindow_confined (value : Bool) :
    Confined c (vmcsSetInterruptWindow value : Proc P Unit) (fun _ => True) := by
  apply Prog.Upholds.bind (vmcsRead_confined _)
  exact fun _ _ => vmcsWrite_confined hP _

lemma initSubject_confined (hid : P.subjectCpu id = c) : Confined c (initSubject hw id) (fun _ => True) := by
  apply Prog.Upholds.bind (Q := fun _ => True)
  · refine confined_modify (fun _ h => h.of_place rfl rfl) ?_ trivial
    intro s _
    exact onFpu_changes (update_foreign _ hid _)
  intro _ _
  apply Prog.Upholds.bind (Q := fun _ => True)
  · refine confined_modify (fun _ h => h) ?_ trivial
    intro s _
    apply setEvents_changes (fun hne => absurd hid hne)
    rw [events_zero]
    exact Set.empty_subset _
  intro _ _
  apply Prog.Upholds.bind (Q := fun _ => True)
  · refine confined_modify (fun _ h => h) ?_ trivial
    intro s _
    apply setInterrupts_changes (fun hne => absurd hid hne)
    rw [vectors_zero]
    exact Set.empty_subset _
  intro _ _
  apply Prog.Upholds.bind (Q := fun _ => True)
  · exact confined_modify (fun _ h => h) (fun s _ => setTimedEvent_changes hid _) trivial
  intro _ _
  apply Prog.Upholds.bind (Q := fun _ => True)
  · refine confined_modify ?_ (fun s _ => vmxReset_changes hP hid) trivial
    intro s hs
    refine ⟨hs.cpuID, hs.frame, hs.groups, ?_⟩
    intro address haddress
    exact ⟨id, hid, (Option.some.inj haddress).symm⟩
  intro _ _
  apply Prog.Upholds.bind (vmcsWriteAll_confined hP _)
  intro _ _
  exact confined_modify (fun _ h => h) (fun s _ => setDescriptor_changes hid _) trivial

lemma handleTargetEvent_confined (hid : P.subjectCpu id = c) {event : TargetEvent}
    (hevent : ∀ v, event = .injectInterrupt v → P.Injects id v) :
    Confined c (handleTargetEvent hw id event) (fun _ => True) := by
  cases event with
  | noAction => exact confined_pure trivial
  | injectInterrupt vector =>
    exact confined_modify (fun _ h => h)
      (fun s _ => insertInterrupt_changes (Or.inr ⟨hid, hevent vector rfl⟩)) trivial
  | reset => exact initSubject_confined hP hid

lemma targetEventLoop_confined (hid : P.subjectCpu id = c) (n : ℕ) :
    ∀ handled, Confined c (targetEventLoop hw id n handled) (fun _ => True) := by
  induction n with
  | zero => exact fun _ => confined_pure trivial
  | succ n ih =>
    intro handled
    apply Prog.Upholds.bind (Q := fun found => ∀ e, found = some e → ∃ source, P.Sends source id e)
    · exact confined_read fun s hs e he => hs.authorised id e (findHighestBitSet_some he).1
    intro found hfound
    cases found with
    | none => exact confined_pure trivial
    | some event =>
      apply Prog.Upholds.bind (Q := fun _ => True)
      · refine confined_modify (fun _ h => h) ?_ trivial
        intro s _
        apply setEvents_changes (fun hne => absurd hid hne)
        exact (events_bitClear _ _).trans Set.subset_union_left
      intro _ _
      apply Prog.Upholds.bind (handleTargetEvent_confined hP hid ?_)
      · exact fun _ _ => ih true
      · exact fun v hv => Or.inl ⟨event, hfound event rfl, hv⟩

lemma handlePendingTargetEvent_confined (hid : P.subjectCpu id = c) :
    Confined c (handlePendingTargetEvent hw id) (fun _ => True) := by
  apply Prog.Upholds.bind (targetEventLoop_confined hP hid 64 false)
  intro handled _
  apply Prog.Upholds.bind (Q := fun _ => True)
  · exact confined_read fun _ _ => trivial
  intro running _
  split
  · exact confined_modify (fun _ h => h) (fun s _ => setDescriptor_changes hid _) trivial
  · exact confined_modify (fun _ h => h) (fun s _ => Changes.refl c s.shared) trivial

lemma injectInterrupt_confined (hid : P.subjectCpu id = c) : Confined c (injectInterrupt id) (fun _ => True) := by
  apply Prog.Upholds.bind (Q := fun _ => True)
  · exact confined_read fun _ _ => trivial
  intro d _
  apply Prog.Upholds.bind (Q := fun _ => True)
  · split
    · apply Prog.Upholds.bind (Q := fun _ => True)
      · exact confined_read fun _ _ => trivial
      intro found _
      cases found with
      | none => exact confined_pure trivial
      | some vector =>
        apply Prog.Upholds.bind (Q := fun _ => True)
        · refine confined_modify (fun _ h => h) ?_ trivial
          intro s _
          apply setInterrupts_changes (fun hne => absurd hid hne)
          rw [vectors_bitClear]
          exact Set.sdiff_subset.trans Set.subset_union_left
        intro _ _
        apply Prog.Upholds.bind (vmcsWrite_confined hP _)
        intro _ _
        exact confined_modify (fun _ h => h) (fun s _ => setDescriptor_changes hid _) trivial
    · exact confined_pure trivial
  intro _ _
  apply Prog.Upholds.bind (Q := fun _ => True)
  · exact confined_read fun _ _ => trivial
  intro pending _
  cases pending with
  | false => exact confined_pure trivial
  | true => exact vmcsSetInterruptWindow_confined hP true

/-! ### Source events -/

lemma handleSourceAction_confined (hid : P.subjectCpu id = c) (event : SourceEvent P.subjects) (incrRIP : Bool) :
    Confined c (handleSourceAction id event incrRIP) (fun next => P.subjectCpu next = c) := by
  unfold handleSourceAction
  cases event.sourceAction with
  | noAction => exact confined_pure hid
  | subjectSleep => exact reschedulePartition_confined hP hid incrRIP true
  | subjectYield => exact reschedulePartition_confined hP hid incrRIP false
  | systemReboot => exact Prog.upholds_halt
  | systemPoweroff => exact Prog.upholds_halt
  | systemPanic => exact Prog.upholds_halt
  | unmaskIrq =>
    apply Prog.Upholds.bind (Q := fun _ => True)
    · refine confined_modify (fun _ h => h) ?_ trivial
      intro s _
      exact { Changes.refl c s.shared with }
    · exact fun _ _ => confined_pure hid

omit hP in
lemma sendTargetEvent_confined {target : P.Subject} {e : Option EventNr}
    (hsends : ∀ n, e = some n → ∃ source, P.subjectCpu source = c ∧ P.Sends source target n) :
    Confined c (sendTargetEvent target e) (fun _ => True) := by
  cases e with
  | none => exact confined_pure trivial
  | some n =>
    apply Prog.Upholds.bind (Q := fun _ => True)
    · refine confined_modify (fun _ h => h) ?_ trivial
      intro s _
      apply setEvents_changes
      · intro _
        rw [events_bitSet]
        exact Set.subset_insert _ _
      · rw [events_bitSet, Set.insert_eq, Set.union_comm]
        exact Set.union_subset_union_right _ (Set.singleton_subset_iff.mpr (hsends n rfl))
    intro _ _
    apply Prog.Upholds.bind (Q := fun _ => True)
    · exact confined_read fun _ _ => trivial
    · exact fun _ _ => indicateActivity_confined _

lemma handleSourceEvent_confined (hid : P.subjectCpu id = c) {event : SourceEvent P.subjects}
    (hevent : IsSourceEvent id event) (incrRIP : Bool) :
    Confined c (handleSourceEvent id event incrRIP) (fun next => P.subjectCpu next = c) := by
  apply Prog.Upholds.bind (handleSourceAction_confined hP hid event incrRIP)
  intro next hnext
  cases htarget : event.targetSubject with
  | none => exact confined_pure hnext
  | some target =>
    apply Prog.Upholds.bind (sendTargetEvent_confined ?_)
    · intro _ _
      by_cases hhandover : event.handover = true
      · have hsame := (hP.handover id event hevent hhandover target htarget).trans hid
        rw [if_pos hhandover]
        apply Prog.Upholds.bind (setCurrentSubjectID_confined hsame)
        exact fun _ _ => confined_pure hsame
      · rw [if_neg hhandover]
        exact confined_pure hnext
    · exact fun n hn => ⟨id, hid, event, hevent, htarget, hn⟩

/-! ### Exits -/

omit hP in
lemma loadIfChanged_confined (current : P.Subject) {next : P.Subject} (hnext : P.subjectCpu next = c) :
    Confined c (loadIfChanged current next) (fun _ => True) := by
  unfold loadIfChanged
  by_cases hchanged : current ≠ next
  · rw [if_pos hchanged]
    refine confined_modify ?_ (fun s _ => Changes.refl c s.shared) trivial
    intro s hs
    refine ⟨hs.cpuID, hs.frame, hs.groups, ?_⟩
    intro address haddress
    exact ⟨next, hnext, (Option.some.inj haddress).symm⟩
  · rw [if_neg hchanged]
    exact confined_modify (fun _ h => h) (fun s _ => Changes.refl c s.shared) trivial

lemma handleHypercall_confined (hid : P.subjectCpu id = c) (rax : Word64) :
    Confined c (handleHypercall id rax) (fun _ => True) := by
  apply Prog.Upholds.bind (Q := fun next => P.subjectCpu next = c)
  · unfold hypercallEvent
    dsimp only
    split
    · exact handleSourceEvent_confined hP hid (Or.inl ⟨_, rfl⟩) false
    · exact confined_pure hid
  intro next hnext
  apply Prog.Upholds.bind (Q := fun _ => True)
  · exact confined_modify (fun _ h => h) (fun s _ => setDescriptor_changes hid _) trivial
  · exact fun _ _ => loadIfChanged_confined id hnext

omit hP in
lemma handleIrq_confined (vector : Byte) : Confined c (handleIrq vector : Proc P Unit) (fun _ => True) := by
  unfold handleIrq
  split
  · apply Prog.Upholds.bind (Q := fun _ => True)
    · unfold routeInterrupt
      cases hsubject : (P.vectorRouting vector).subject with
      | none => exact confined_pure trivial
      | some subject =>
        apply Prog.Upholds.bind (Q := fun _ => True)
        · exact confined_modify (fun _ h => h)
            (fun s _ => insertInterrupt_changes (Or.inl ⟨vector, hsubject, rfl⟩)) trivial
        · exact fun _ _ => indicateActivity_confined true
    · intro _ _
      refine confined_modify ?_ ?_ trivial
      · intro s hs
        split
        · exact hs.of_place rfl rfl
        · exact hs
      · intro s _
        split
        · exact { Changes.refl c s.shared with }
        · exact Changes.refl c s.shared
  · exact confined_pure trivial

omit hP in
lemma handleXsetbv_confined (hid : P.subjectCpu id = c) (rax rdx rcx : Word64) :
    Confined c (handleXsetbv id rax rdx rcx) (fun _ => True) := by
  apply Prog.Upholds.bind (Q := fun _ => True)
  · exact confined_read fun _ _ => trivial
  intro invalid _
  cases invalid with
  | true =>
    exact confined_modify (fun _ h => h)
      (fun s _ => insertInterrupt_changes (Or.inr ⟨hid, Or.inr rfl⟩)) trivial
  | false =>
    apply Prog.Upholds.bind (Q := fun _ => True)
    · refine confined_modify (fun _ h => h.of_place rfl rfl) ?_ trivial
      intro s _
      exact onFpu_changes (update_foreign _ hid _)
    · intro _ _
      exact confined_modify (fun _ h => h) (fun s _ => setDescriptor_changes hid _) trivial

lemma handleTimerExpiry_confined (current : P.Subject) :
    Confined c (handleTimerExpiry current) (fun _ => True) := by
  apply Prog.Upholds.bind (updateSchedulingInfo_confined hP)
  intro eventSubject hsubject
  apply Prog.Upholds.bind (Q := fun next => P.subjectCpu next = c)
  · apply Prog.Upholds.bind (Q := fun _ => True)
    · exact confined_read fun _ _ => trivial
    intro now _
    apply Prog.Upholds.bind (Q := fun _ => True)
    · exact confined_read fun _ _ => trivial
    intro timedEvent _
    split
    · apply Prog.Upholds.bind (handleSourceEvent_confined hP hsubject (Or.inl ⟨_, rfl⟩) false)
      intro next hnext
      apply Prog.Upholds.bind (Q := fun _ => True)
      · exact confined_modify (fun _ h => h) (fun s _ => setTimedEvent_changes hsubject _) trivial
      · exact fun _ _ => confined_pure hnext
    · exact confined_pure hsubject
  · exact fun next hnext => loadIfChanged_confined current hnext

lemma handleTrap_confined (hid : P.subjectCpu id = c) (trapNr : BitVec 16) :
    Confined c (handleTrap id trapNr) (fun _ => True) := by
  unfold handleTrap
  split
  · apply Prog.Upholds.bind (handleSourceEvent_confined hP hid (Or.inr ⟨_, rfl⟩) true)
    exact fun next hnext => loadIfChanged_confined id hnext
  · exact Prog.upholds_halt

lemma setVmxExitTimer_confined : Confined c (setVmxExitTimer : Proc P Unit) (fun _ => True) := by
  apply Prog.Upholds.bind (Q := fun _ => True)
  · exact confined_read fun _ _ => trivial
  intro now _
  apply Prog.Upholds.bind (Q := fun _ => True)
  · exact confined_read fun _ _ => trivial
  · exact fun _ _ => vmcsWrite_confined hP _

lemma handleExit_confined (hid : P.subjectCpu id = c) (exitReason info : Word64) (cpl0 : Bool) (regs : CpuRegisters) :
    Confined c (handleExit id exitReason info cpl0 regs) (fun _ => True) := by
  unfold handleExit
  dsimp only
  split_ifs
  · exact handleIrq_confined _
  · exact handleHypercall_confined hP hid _
  · exact handleTimerExpiry_confined hP id
  · exact vmcsSetInterruptWindow_confined hP false
  · exact Prog.upholds_halt
  · exact Prog.upholds_halt
  · exact Prog.upholds_halt
  · exact handleXsetbv_confined hid _ _ _
  · exact handleTrap_confined hP hid _

/-- The handling of an exit, whatever the subject has done. -/
lemma handleVmxExit_confined (regs : CpuRegisters) : Confined c (handleVmxExit hw regs : Proc P _) (fun _ => True) := by
  apply Prog.Upholds.bind (getCurrentSubject_confined hP)
  intro current hcurrent
  apply Prog.Upholds.bind (vmcsRead_confined _)
  intro exitReason _
  apply Prog.Upholds.bind (Q := fun _ => True)
  · exact confined_modify (fun _ h => h) (fun s _ => setDescriptor_changes hcurrent _) trivial
  intro _ _
  apply Prog.Upholds.bind (Q := fun _ => True)
  · refine confined_modify (fun _ h => h.of_place rfl rfl) ?_ trivial
    intro s _
    exact onFpu_changes (update_foreign _ hcurrent _)
  intro _ _
  apply Prog.Upholds.bind (vmcsRead_confined _)
  intro info _
  apply Prog.Upholds.bind (Q := fun _ => True)
  · exact confined_read fun _ _ => trivial
  intro d _
  apply Prog.Upholds.bind (handleExit_confined hP hcurrent _ _ _ _)
  intro _ _
  apply Prog.Upholds.bind (getCurrentSubject_confined hP)
  intro next hnext
  apply Prog.Upholds.bind (handlePendingTargetEvent_confined hP hnext)
  intro _ _
  apply Prog.Upholds.bind (injectInterrupt_confined hP hnext)
  intro _ _
  apply Prog.Upholds.bind (setVmxExitTimer_confined hP)
  intro _ _
  apply Prog.Upholds.bind (Q := fun _ => True)
  · refine confined_modify (fun _ h => h.of_place rfl rfl) ?_ trivial
    intro s _
    exact onFpu_changes fun _ _ => rfl
  intro _ _
  apply Prog.Upholds.bind (Q := fun _ => True)
  · exact confined_modify (fun _ h => h) (fun s _ => setDescriptor_changes hnext _) trivial
  intro _ _
  apply Prog.Upholds.bind (Q := fun _ => True)
  · exact confined_read fun _ _ => trivial
  intro d' _
  apply Prog.Upholds.bind (vmcsWrite_confined hP _)
  exact fun _ _ => confined_pure trivial

/-! ### Initialization -/

lemma initSubjects_confined (ids : List P.Subject) : Confined c (initSubjects hw c ids) (fun _ => True) := by
  induction ids with
  | nil => exact confined_pure trivial
  | cons id ids ih =>
    apply Prog.Upholds.bind (Q := fun _ => True)
    · by_cases hid : P.subjectCpu id = c
      · rw [if_pos hid]
        exact initSubject_confined hP hid
      · rw [if_neg hid]
        exact confined_pure trivial
    · exact fun _ _ => ih

lemma schedulerInit_confined : Confined c (schedulerInit hw : Proc P Unit) (fun _ => True) := by
  apply Prog.Upholds.bind (Q := fun _ => True)
  · refine confined_modify ?_ (fun s _ => Changes.refl c s.shared) trivial
    intro s hs
    exact ⟨hs.cpuID, hs.frame, fun _ hg => hg, hs.vmcs⟩
  intro _ _
  apply Prog.Upholds.bind (Q := fun cpuID => cpuID = c)
  · exact confined_read fun s hs => hs.cpuID
  rintro _ rfl
  apply Prog.Upholds.bind (initSubjects_confined hP _)
  intro _ _
  apply Prog.Upholds.bind (Q := fun _ => True)
  · exact confined_read fun _ _ => trivial
  intro now _
  apply Prog.Upholds.bind (getCurrentSubject_confined hP)
  intro current hcurrent
  apply Prog.Upholds.bind (Q := fun _ => True)
  · refine confined_modify ?_ (fun s _ => Changes.refl _ s.shared) trivial
    intro s hs
    refine ⟨hs.cpuID, hs.frame, hs.groups, ?_⟩
    intro address haddress
    exact ⟨current, hcurrent, (Option.some.inj haddress).symm⟩
  intro _ _
  apply Prog.Upholds.bind (Q := fun _ => True)
  · exact confined_modify (fun _ h => h)
      (fun s _ => setSchedulingInfo_changes (ownPartition_of_subject hP hcurrent) _ _) trivial
  intro _ _
  apply confined_scheduler _ trivial
  intro s
  split
  · rfl
  · rfl

end Handling

end Muen.Kernel
