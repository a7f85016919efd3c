import Muen.Kernel.Handlers
import Muen.Kernel.Interrupts

/-!
# Pending target events

`Handle_Pending_Target_Event` without a concurrent sender: which of the pending events are applied, in
which order, and what they leave.
-/

namespace Muen.Kernel

open Lib

variable {P : Policy}

/-! ### Runs of the loop -/

/-- The loop consumes the events of the list one after the other and applies each of them. -/
inductive Handles (hw : Hardware) (id : P.Subject) : State P → List EventNr → State P → Prop
  | done {s : State P} (h : findHighestBitSet (s.pendingEvents id) = none) : Handles hw id s [] s
  | event {s s₁ s' : State P} {e : EventNr} {es : List EventNr}
      (h : findHighestBitSet (s.pendingEvents id) = some e)
      (happly : (handleTargetEvent hw id (P.getTargetEvent id e)).exec
        (State.setEvents id (fun w => bitClear w e) s) = some ((), s₁))
      (hrest : Handles hw id s₁ es s') : Handles hw id s (e :: es) s'

/-- The event is applied, and no reset is applied after it. -/
def AppliedAfterReset (id : P.Subject) (es : List EventNr) (e : EventNr) : Prop :=
  ∃ pre post, es = pre ++ e :: post ∧ ∀ r ∈ e :: post, P.getTargetEvent id r ≠ .reset

/-- Nothing of any other subject changes, and of the scheduler and the CPU only the VMCS of the subject
is touched. -/
structure OthersKept (id : P.Subject) (s s' : State P) : Prop where
  pendingEvents : ∀ j, j ≠ id → s'.pendingEvents j = s.pendingEvents j
  pendingInterrupts : ∀ j, j ≠ id → s'.pendingInterrupts j = s.pendingInterrupts j
  timedEvents : ∀ j, j ≠ id → s'.timedEvents j = s.timedEvents j
  descriptors : ∀ j, j ≠ id → s'.descriptors j = s.descriptors j
  fpuStates : ∀ j, j ≠ id → s'.fpu.subjectStates j = s.fpu.subjectStates j
  vmcs : ∀ address, address ≠ vmcsAddress id → s'.vmx.memory address = s.vmx.memory address
  scheduler : s'.scheduler = s.scheduler
  groupActivity : s'.groupActivity = s.groupActivity

/-- What `Init_Subject` leaves of a subject. -/
structure Initialized (hw : Hardware) (id : P.Subject) (s : State P) : Prop where
  descriptor : s.descriptors id =
    { nullSubjectState with
      regs := (P.subjectSpec id).gprs
      rip := (P.subjectSpec id).entryPoint
      rsp := (P.subjectSpec id).stackAddress
      cr0 := (P.subjectSpec id).cr0
      shadowCr0 := (P.subjectSpec id).cr0Shadow
      cr4 := (P.subjectSpec id).cr4
      shadowCr4 := (P.subjectSpec id).cr4Shadow
      rflags := 2
      segmentRegs := (P.subjectSpec id).segments
      running := true }
  fpuState : s.fpu.subjectStates id = ⟨s.fpu.activeXcr0Features, ⟨0x037f, 0x1f80, 0xffff, 0, fun _ => 0⟩⟩
  interrupts : s.pendingInterrupts id = fun _ => 0
  timedEvent : s.timedEvents id = ⟨BitVec.allOnes 64, 0⟩
  vmcs : s.vmx.memory (vmcsAddress id) =
    (controlFields hw (P.subjectSpec id) ++ hostFields hw ++ guestFields (P.subjectSpec id)).foldl
      (fun v fv => Function.update v fv.1 fv.2) (fun _ => 0)
  current : s.vmx.current = some (vmcsAddress id)

/-- Without a reset only the pending events and interrupts of a subject change, and that it is running. -/
structure OwnKept (id : P.Subject) (s s' : State P) : Prop where
  descriptor : { s'.descriptors id with running := true } = { s.descriptors id with running := true }
  fpuState : s'.fpu.subjectStates id = s.fpu.subjectStates id
  timedEvent : s'.timedEvents id = s.timedEvents id
  vmx : s'.vmx = s.vmx

/-- What handling the pending events of a subject does; `es` are the events that are applied. -/
structure EventsHandled (hw : Hardware) (id : P.Subject) (s : State P) (es : List EventNr) (s' : State P) :
    Prop where
  descending : es.Pairwise (fun a b => b < a)
  applied : ∀ e, e ∈ es ↔ bitTest (s.pendingEvents id) e = true ∧
    ∀ r, bitTest (s.pendingEvents id) r = true → P.getTargetEvent id r = .reset → r ≤ e
  noneLeft : s'.pendingEvents id = 0
  interrupts : ∀ v, v ∈ pendingVectors s' id ↔
    (∃ e, AppliedAfterReset id es e ∧ P.getTargetEvent id e = .injectInterrupt v) ∨
    ((∀ r ∈ es, P.getTargetEvent id r ≠ .reset) ∧ v ∈ pendingVectors s id)
  reset : (∃ r ∈ es, P.getTargetEvent id r = .reset) → Initialized hw id s'
  kept : (∀ r ∈ es, P.getTargetEvent id r ≠ .reset) → OwnKept id s s'
  others : OthersKept id s s'
  running : es ≠ [] → (s'.descriptors id).running = true
  unchanged : es = [] → s' = s

/-! ### One event -/

/-- The state after an event has been applied. -/
def applyTargetEvent (hw : Hardware) (id : P.Subject) (event : TargetEvent) (s : State P) : State P :=
  match event with
  | .noAction => s
  | .injectInterrupt vector => insertInterrupt id vector s
  | .reset =>
    let spec := P.subjectSpec id
    resetState id (vmcsWriteAll (controlFields hw spec ++ hostFields hw ++ guestFields spec)
      (vmxLoad spec.vmcsAddress (vmxReset spec.vmcsAddress
        (initEvent id (initInterrupts id (clearEvents id (State.onFpu (fpuResetState id) s)))))))

lemma handleTargetEvent_exec (hw : Hardware) (id : P.Subject) (event : TargetEvent) (s : State P) :
    (handleTargetEvent hw id event).exec s = some ((), applyTargetEvent hw id event s) := by
  cases event with
  | noAction => rfl
  | injectInterrupt vector => rfl
  | reset => rfl

lemma OthersKept.refl (id : P.Subject) (s : State P) : OthersKept id s s :=
  ⟨fun _ _ => rfl, fun _ _ => rfl, fun _ _ => rfl, fun _ _ => rfl, fun _ _ => rfl, fun _ _ => rfl, rfl, rfl⟩

lemma OthersKept.trans {id : P.Subject} {s s₁ s' : State P} (h : OthersKept id s s₁)
    (h' : OthersKept id s₁ s') : OthersKept id s s' where
  pendingEvents j hj := (h'.pendingEvents j hj).trans (h.pendingEvents j hj)
  pendingInterrupts j hj := (h'.pendingInterrupts j hj).trans (h.pendingInterrupts j hj)
  timedEvents j hj := (h'.timedEvents j hj).trans (h.timedEvents j hj)
  descriptors j hj := (h'.descriptors j hj).trans (h.descriptors j hj)
  fpuStates j hj := (h'.fpuStates j hj).trans (h.fpuStates j hj)
  vmcs a ha := (h'.vmcs a ha).trans (h.vmcs a ha)
  scheduler := h'.scheduler.trans h.scheduler
  groupActivity := h'.groupActivity.trans h.groupActivity

lemma setEvents_others (id : P.Subject) (f : Word64 → Word64) (s : State P) :
    OthersKept id s (State.setEvents id f s) :=
  { OthersKept.refl id s with pendingEvents := fun _ hj => Function.update_of_ne hj _ _ }

lemma setDescriptor_others (id : P.Subject) (f : SubjectState → SubjectState) (s : State P) :
    OthersKept id s (State.setDescriptor id f s) :=
  { OthersKept.refl id s with descriptors := fun _ hj => Function.update_of_ne hj _ _ }

lemma setInterrupts_others (id : P.Subject) (f : (Fin 4 → Word64) → Fin 4 → Word64) (s : State P) :
    OthersKept id s (State.setInterrupts id f s) :=
  { OthersKept.refl id s with pendingInterrupts := fun _ hj => Function.update_of_ne hj _ _ }

/-- The VMCS of the subject is loaded afresh and written. -/
lemma vmcsSetup_others (id : P.Subject) (fields : List (VmcsField × Word64)) (s : State P) :
    OthersKept id s (vmcsWriteAll fields (vmxLoad (vmcsAddress id) (vmxReset (vmcsAddress id) s))) := by
  refine { OthersKept.refl id s with vmcs := fun a ha => ?_ }
  simp [vmcsWriteAll, vmxLoad, vmxReset, Function.update_of_ne ha]

lemma applyTargetEvent_others (hw : Hardware) (id : P.Subject) (event : TargetEvent) (s : State P) :
    OthersKept id s (applyTargetEvent hw id event s) := by
  cases event with
  | noAction => exact .refl id s
  | injectInterrupt vector =>
    rw [applyTargetEvent, insertInterrupt]
    exact setInterrupts_others id _ s
  | reset =>
    have h₁ : OthersKept id s (State.onFpu (fpuResetState id) s) :=
      { OthersKept.refl id s with fpuStates := fun _ hj => Function.update_of_ne hj _ _ }
    have h₂ := h₁.trans (setEvents_others id (fun _ => 0) _)
    have h₃ := h₂.trans (setInterrupts_others id (fun _ _ => 0) _)
    have h₄ : OthersKept id s (initEvent id (initInterrupts id (clearEvents id
        (State.onFpu (fpuResetState id) s)))) :=
      h₃.trans { OthersKept.refl id _ with timedEvents := fun _ hj => Function.update_of_ne hj _ _ }
    have h₅ := h₄.trans (vmcsSetup_others id
      (controlFields hw (P.subjectSpec id) ++ hostFields hw ++ guestFields (P.subjectSpec id)) _)
    rw [applyTargetEvent, resetState]
    exact h₅.trans (setDescriptor_others id _ _)

/-- A reset clears the pending events of the subject. -/
lemma applyTargetEvent_pendingEvents (hw : Hardware) (id : P.Subject) (event : TargetEvent) (s : State P) :
    (applyTargetEvent hw id event s).pendingEvents id = if event = .reset then 0 else s.pendingEvents id := by
  cases event with
  | noAction => rfl
  | injectInterrupt vector => rfl
  | reset => simp [applyTargetEvent, resetState, vmcsWriteAll, vmxLoad, vmxReset, initEvent, initInterrupts,
      clearEvents, State.setDescriptor, State.setTimedEvent, State.setInterrupts, State.setEvents]

lemma pendingVectors_of_eq {s s' : State P} {id : P.Subject}
    (h : s'.pendingInterrupts id = s.pendingInterrupts id) : pendingVectors s' id = pendingVectors s id := by
  rw [pendingVectors, pendingVectors, h]

lemma applyTargetEvent_vectors (hw : Hardware) (id : P.Subject) (event : TargetEvent) (s : State P) (v : Byte) :
    v ∈ pendingVectors (applyTargetEvent hw id event s) id ↔
      event = .injectInterrupt v ∨ (event ≠ .reset ∧ v ∈ pendingVectors s id) := by
  cases event with
  | noAction => simp [applyTargetEvent]
  | injectInterrupt vector =>
    have hinsert : pendingVectors (insertInterrupt id vector s) id = insert vector (pendingVectors s id) := by
      rw [insertInterrupt, pendingVectors_setInterrupts, vectors_bitSet, Function.update_self]
      rfl
    rw [applyTargetEvent, hinsert]
    simp [eq_comm]
  | reset =>
    have hnone : (applyTargetEvent hw id .reset s).pendingInterrupts id = fun _ => 0 := by
      simp [applyTargetEvent, resetState, vmcsWriteAll, vmxLoad, vmxReset, initEvent, initInterrupts,
        clearEvents, State.setDescriptor, State.setTimedEvent, State.setInterrupts, State.setEvents]
    rw [pendingVectors, hnone, vectors, Set.mem_ofPred_eq, bitTest_zero]
    simp

/-- The state after `Init_Subject`. -/
lemma applyTargetEvent_initialized (hw : Hardware) (id : P.Subject) (s : State P) :
    Initialized hw id (applyTargetEvent hw id .reset s) where
  descriptor := Function.update_self ..
  fpuState := Function.update_self ..
  interrupts := Function.update_self ..
  timedEvent := Function.update_self ..
  vmcs := by
    simp only [applyTargetEvent, resetState, State.setDescriptor, vmcsWriteAll, vmxLoad, vmxReset, vmcsAddress,
      Function.update_self]
  current := rfl

lemma OwnKept.refl (id : P.Subject) (s : State P) : OwnKept id s s := ⟨rfl, rfl, rfl, rfl⟩

lemma OwnKept.trans {id : P.Subject} {s s₁ s' : State P} (h : OwnKept id s s₁) (h' : OwnKept id s₁ s') :
    OwnKept id s s' where
  descriptor := h'.descriptor.trans h.descriptor
  fpuState := h'.fpuState.trans h.fpuState
  timedEvent := h'.timedEvent.trans h.timedEvent
  vmx := h'.vmx.trans h.vmx

lemma setEvents_kept (id : P.Subject) (f : Word64 → Word64) (s : State P) : OwnKept id s (State.setEvents id f s) :=
  ⟨rfl, rfl, rfl, rfl⟩

lemma applyTargetEvent_kept (hw : Hardware) (id : P.Subject) {event : TargetEvent} (h : event ≠ .reset)
    (s : State P) : OwnKept id s (applyTargetEvent hw id event s) := by
  cases event with
  | noAction => exact .refl id s
  | injectInterrupt vector => exact ⟨rfl, rfl, rfl, rfl⟩
  | reset => exact absurd rfl h

/-! ### The events that are applied -/

section Events

variable {hw : Hardware} {id : P.Subject} {s s₁ s' : State P} {e : EventNr} {es : List EventNr}

lemma setEvents_pendingEvents (f : Word64 → Word64) :
    (State.setEvents id f s).pendingEvents id = f (s.pendingEvents id) :=
  Function.update_self ..

/-- The events that are pending after one has been consumed and applied. -/
lemma pending_applied (happly : (handleTargetEvent hw id (P.getTargetEvent id e)).exec
      (State.setEvents id (fun w => bitClear w e) s) = some ((), s₁)) (i : EventNr) :
    bitTest (s₁.pendingEvents id) i = true ↔
      bitTest (s.pendingEvents id) i = true ∧ i ≠ e ∧ P.getTargetEvent id e ≠ .reset := by
  rw [handleTargetEvent_exec] at happly
  obtain ⟨-, rfl⟩ := Prod.mk.inj (Option.some.inj happly)
  rw [applyTargetEvent_pendingEvents]
  by_cases hr : P.getTargetEvent id e = .reset
  · rw [if_pos hr, bitTest_zero]
    simp [hr]
  · rw [if_neg hr, setEvents_pendingEvents, bitTest_bitClear]
    simp only [Bool.and_eq_true, Bool.not_eq_true', decide_eq_false_iff_not]
    have hne : i ≠ e ↔ ¬ e = i := ne_comm
    tauto

lemma Handles.noneLeft (h : Handles hw id s es s') : s'.pendingEvents id = 0 := by
  induction h with
  | done h => exact findHighestBitSet_none.mp h
  | event _ _ _ ih => exact ih

lemma Handles.pending (h : Handles hw id s es s') : ∀ i ∈ es, bitTest (s.pendingEvents id) i = true := by
  induction h with
  | done h => exact fun i hi => absurd hi List.not_mem_nil
  | event hfind happly _ ih =>
    intro i hi
    rcases List.mem_cons.mp hi with rfl | hi
    · exact (findHighestBitSet_some hfind).1
    · exact ((pending_applied happly i).mp (ih i hi)).1

lemma Handles.descending (h : Handles hw id s es s') : es.Pairwise (fun a b => b < a) := by
  induction h with
  | done h => exact List.Pairwise.nil
  | event hfind happly hrest ih =>
    refine List.pairwise_cons.mpr ⟨fun i hi => ?_, ih⟩
    obtain ⟨hpending, hne, -⟩ := (pending_applied happly i).mp (hrest.pending i hi)
    exact lt_of_le_of_ne ((findHighestBitSet_some hfind).2 i hpending) hne

/-- The pending events from the highest reset on are applied, and no others. -/
lemma Handles.applied (h : Handles hw id s es s') (i : EventNr) :
    i ∈ es ↔ bitTest (s.pendingEvents id) i = true ∧
      ∀ r, bitTest (s.pendingEvents id) r = true → P.getTargetEvent id r = .reset → r ≤ i := by
  induction h with
  | done h =>
    rw [findHighestBitSet_none] at h
    simp only [h, bitTest_zero]
    simp
  | @event s s₁ s' e es hfind happly hrest ih =>
    obtain ⟨hset, hmax⟩ := findHighestBitSet_some hfind
    have hpend := pending_applied happly
    rw [List.mem_cons, ih, hpend]
    constructor
    · rintro (rfl | ⟨⟨hi, -, hnot⟩, hall⟩)
      · exact ⟨hset, fun r hr _ => hmax r hr⟩
      · refine ⟨hi, fun r hr hreset => hall r ?_ hreset⟩
        refine (hpend r).mpr ⟨hr, ?_, hnot⟩
        rintro rfl
        exact hnot hreset
    · rintro ⟨hi, hall⟩
      by_cases hie : i = e
      · exact .inl hie
      · have hnot : P.getTargetEvent id e ≠ .reset := fun hreset =>
          hie (le_antisymm (hmax i hi) (hall e hset hreset))
        exact .inr ⟨⟨hi, hie, hnot⟩, fun r hr => hall r ((hpend r).mp hr).1⟩

lemma appliedAfterReset_cons (x i : EventNr) : AppliedAfterReset id (x :: es) i ↔
    AppliedAfterReset id es i ∨ (i = x ∧ ∀ r ∈ x :: es, P.getTargetEvent id r ≠ .reset) := by
  constructor
  · rintro ⟨pre, post, heq, hnone⟩
    cases pre with
    | nil =>
      obtain ⟨rfl, rfl⟩ := List.cons.inj heq
      exact .inr ⟨rfl, hnone⟩
    | cons y pre => exact .inl ⟨pre, post, (List.cons.inj heq).2, hnone⟩
  · rintro (⟨pre, post, rfl, hnone⟩ | ⟨rfl, hnone⟩)
    · exact ⟨x :: pre, post, rfl, hnone⟩
    · exact ⟨[], es, rfl, hnone⟩

lemma Handles.interrupts (h : Handles hw id s es s') (v : Byte) : v ∈ pendingVectors s' id ↔
    (∃ i, AppliedAfterReset id es i ∧ P.getTargetEvent id i = .injectInterrupt v) ∨
    ((∀ r ∈ es, P.getTargetEvent id r ≠ .reset) ∧ v ∈ pendingVectors s id) := by
  induction h with
  | done h =>
    have hnone : ∀ i, ¬ AppliedAfterReset id [] i := by
      rintro i ⟨pre, post, heq, -⟩
      simp at heq
    simp [hnone]
  | @event s s₁ s' e es hfind happly hrest ih =>
    rw [handleTargetEvent_exec] at happly
    obtain ⟨-, rfl⟩ := Prod.mk.inj (Option.some.inj happly)
    have hsame : pendingVectors (State.setEvents id (fun w => bitClear w e) s) id = pendingVectors s id :=
      pendingVectors_of_eq rfl
    rw [ih, applyTargetEvent_vectors, hsame]
    simp only [appliedAfterReset_cons, List.mem_cons, forall_eq_or_imp]
    constructor
    · rintro (⟨i, hi, hv⟩ | ⟨hnone, hv | ⟨hnot, hv⟩⟩)
      · exact .inl ⟨i, .inl hi, hv⟩
      · exact .inl ⟨e, .inr ⟨rfl, by simp [hv], hnone⟩, hv⟩
      · exact .inr ⟨⟨hnot, hnone⟩, hv⟩
    · rintro (⟨i, hi | ⟨rfl, -, hnone⟩, hv⟩ | ⟨⟨hnot, hnone⟩, hv⟩)
      · exact .inl ⟨i, hi, hv⟩
      · exact .inr ⟨hnone, .inl hv⟩
      · exact .inr ⟨hnone, .inr ⟨hnot, hv⟩⟩

/-- Nothing is applied after a reset, which clears the pending events. -/
lemma Handles.initialized (h : Handles hw id s es s') (hreset : ∃ r ∈ es, P.getTargetEvent id r = .reset) :
    Initialized hw id s' := by
  induction h with
  | done h =>
    obtain ⟨r, hr, -⟩ := hreset
    exact absurd hr List.not_mem_nil
  | @event s s₁ s' e es hfind happly hrest ih =>
    by_cases he : P.getTargetEvent id e = .reset
    · have hpend := pending_applied happly
      rw [handleTargetEvent_exec, he] at happly
      obtain ⟨-, rfl⟩ := Prod.mk.inj (Option.some.inj happly)
      cases hrest with
      | done _ => exact applyTargetEvent_initialized hw id _
      | event hfind' _ _ => exact absurd he ((hpend _).mp (findHighestBitSet_some hfind').1).2.2
    · obtain ⟨r, hr, hreset⟩ := hreset
      rcases List.mem_cons.mp hr with rfl | hr
      · exact absurd hreset he
      · exact ih ⟨r, hr, hreset⟩

lemma Handles.kept (h : Handles hw id s es s') (hnot : ∀ r ∈ es, P.getTargetEvent id r ≠ .reset) :
    OwnKept id s s' := by
  induction h with
  | done h => exact .refl id _
  | event _ happly _ ih =>
    rw [handleTargetEvent_exec] at happly
    obtain ⟨-, rfl⟩ := Prod.mk.inj (Option.some.inj happly)
    obtain ⟨he, hes⟩ := List.forall_mem_cons.mp hnot
    exact ((setEvents_kept id _ _).trans (applyTargetEvent_kept hw id he _)).trans (ih hes)

lemma Handles.others (h : Handles hw id s es s') : OthersKept id s s' := by
  induction h with
  | done h => exact .refl id _
  | event _ happly _ ih =>
    rw [handleTargetEvent_exec] at happly
    obtain ⟨-, rfl⟩ := Prod.mk.inj (Option.some.inj happly)
    exact ((setEvents_others id _ _).trans (applyTargetEvent_others hw id _ _)).trans ih

/-! ### The loop -/

/-- As many rounds as there are event numbers are enough. -/
lemma targetEventLoop_exec (n : ℕ) : ∀ (handled : Bool) (s : State P),
    (∀ i, bitTest (s.pendingEvents id) i = true → i.val < n) →
    ∃ es s', (targetEventLoop hw id n handled).exec s = some (handled || !es.isEmpty, s') ∧
      Handles hw id s es s' := by
  induction n with
  | zero =>
    intro handled s hbound
    have hzero : s.pendingEvents id = 0 := by
      rw [eq_zero_iff_bitTest]
      intro i
      by_contra hi
      exact absurd (hbound i (Bool.not_eq_false _ ▸ hi)) (Nat.not_lt_zero _)
    exact ⟨[], s, by simp [targetEventLoop, Prog.exec, pure], .done (findHighestBitSet_none.mpr hzero)⟩
  | succ n ih =>
    intro handled s hbound
    cases hfind : findHighestBitSet (s.pendingEvents id) with
    | none =>
      refine ⟨[], s, ?_, .done hfind⟩
      have hread : (Prog.read {} (fun s => findHighestBitSet (s.pendingEvents id)) : Proc P (Option EventNr)).exec s =
          some (none, s) := by
        rw [← hfind]
        rfl
      rw [targetEventLoop, Prog.exec_bind, hread]
      simp [Prog.exec, pure]
    | some e =>
      have happly := handleTargetEvent_exec hw id (P.getTargetEvent id e)
        (State.setEvents id (fun w => bitClear w e) s)
      obtain ⟨hset, hmax⟩ := findHighestBitSet_some hfind
      obtain ⟨es, s', hexec, hhandles⟩ := ih true
        (applyTargetEvent hw id (P.getTargetEvent id e) (State.setEvents id (fun w => bitClear w e) s)) (by
          intro i hi
          obtain ⟨hpending, hne, -⟩ := (pending_applied happly i).mp hi
          have hlt : i.val < e.val := lt_of_le_of_ne (hmax i hpending) (fun h => hne (Fin.ext h))
          have hle := hbound e hset
          omega)
      refine ⟨e :: es, s', ?_, .event hfind happly hhandles⟩
      have hread : (Prog.read {} (fun s => findHighestBitSet (s.pendingEvents id)) : Proc P (Option EventNr)).exec s =
          some (some e, s) := by
        rw [← hfind]
        rfl
      rw [targetEventLoop, Prog.exec_bind, hread]
      change Prog.exec (handleTargetEvent hw id (P.getTargetEvent id e) >>= fun _ =>
        targetEventLoop hw id n true) (State.setEvents id (fun w => bitClear w e) s) = _
      rw [Prog.exec_bind, happly]
      simpa using hexec

end Events

/-- A subject that has not been running is set running. -/
def wakeUp (id : P.Subject) (es : List EventNr) (s : State P) : State P :=
  if es ≠ [] ∧ (s.descriptors id).running = false then setRunning id true s else s

lemma wakeUp_others (id : P.Subject) (es : List EventNr) (s : State P) : OthersKept id s (wakeUp id es s) := by
  unfold wakeUp
  split
  · rw [setRunning]
    exact setDescriptor_others id _ s
  · exact .refl id s

lemma wakeUp_kept (id : P.Subject) (es : List EventNr) (s : State P) : OwnKept id s (wakeUp id es s) := by
  unfold wakeUp
  split
  · refine ⟨?_, rfl, rfl, rfl⟩
    simp only [setRunning, State.setDescriptor, Function.update_self]
  · exact .refl id s

lemma wakeUp_of_running {id : P.Subject} {s : State P} (h : (s.descriptors id).running = true) (es : List EventNr) :
    wakeUp id es s = s := by
  unfold wakeUp
  rw [if_neg]
  rintro ⟨-, hnot⟩
  rw [h] at hnot
  cases hnot

lemma wakeUp_running {id : P.Subject} {es : List EventNr} (h : es ≠ []) (s : State P) :
    ((wakeUp id es s).descriptors id).running = true := by
  by_cases hrunning : (s.descriptors id).running = true
  · rw [wakeUp_of_running hrunning]
    exact hrunning
  · unfold wakeUp
    rw [if_pos ⟨h, Bool.eq_false_of_not_eq_true hrunning⟩]
    simp only [setRunning, State.setDescriptor, Function.update_self]

lemma wakeUp_pending (id : P.Subject) (es : List EventNr) (s : State P) :
    (wakeUp id es s).pendingEvents = s.pendingEvents ∧ (wakeUp id es s).pendingInterrupts = s.pendingInterrupts := by
  unfold wakeUp
  split
  · exact ⟨rfl, rfl⟩
  · exact ⟨rfl, rfl⟩

lemma Handles.eventsHandled {hw : Hardware} {id : P.Subject} {s s₁ : State P} {es : List EventNr}
    (h : Handles hw id s es s₁) : EventsHandled hw id s es (wakeUp id es s₁) where
  descending := h.descending
  applied := h.applied
  noneLeft := by
    rw [(wakeUp_pending id es s₁).1]
    exact h.noneLeft
  interrupts v := by
    rw [pendingVectors_of_eq (congrFun (wakeUp_pending id es s₁).2 id)]
    exact h.interrupts v
  reset hreset := by
    have hinit := h.initialized hreset
    rw [wakeUp_of_running (by rw [hinit.descriptor])]
    exact hinit
  kept hnot := (h.kept hnot).trans (wakeUp_kept id es s₁)
  others := h.others.trans (wakeUp_others id es s₁)
  running hes := wakeUp_running hes s₁
  unchanged hes := by
    subst hes
    cases h with
    | done _ => exact if_neg fun hset => hset.1 rfl

/-- Without a concurrent sender `Handle_Pending_Target_Event` returns, having applied the pending events
from the highest reset on in descending order, each of them once, and set the subject running if there were any. -/
theorem handlePendingTargetEvent_handles (hw : Hardware) (id : P.Subject) (s : State P) :
    ∃ es s₁, (handlePendingTargetEvent hw id).exec s = some ((), wakeUp id es s₁) ∧ Handles hw id s es s₁ ∧
      EventsHandled hw id s es (wakeUp id es s₁) := by
  obtain ⟨es, s₁, hexec, h⟩ : ∃ es s₁, (targetEventLoop hw id 64 false).exec s =
      some (false || !es.isEmpty, s₁) ∧ Handles hw id s es s₁ :=
    targetEventLoop_exec 64 false s (fun i _ => i.isLt)
  rw [Bool.false_or] at hexec
  refine ⟨es, s₁, ?_, h, h.eventsHandled⟩
  have hrun : (handlePendingTargetEvent hw id).exec s = some ((),
      (if (!es.isEmpty) = true ∧ ¬ (s₁.descriptors id).running = true then setRunning id true
        else fun s => s) s₁) := by
    rw [handlePendingTargetEvent, Prog.exec_bind, hexec]
    rfl
  have hiff : ((!es.isEmpty) = true ∧ ¬ (s₁.descriptors id).running = true) ↔
      (es ≠ [] ∧ (s₁.descriptors id).running = false) := by
    rw [Bool.not_eq_true', List.isEmpty_eq_false_iff, Bool.not_eq_true]
  rw [hrun, wakeUp]
  by_cases hset : (!es.isEmpty) = true ∧ ¬ (s₁.descriptors id).running = true
  · rw [if_pos hset, if_pos (hiff.mp hset)]
  · rw [if_neg hset, if_neg (fun h => hset (hiff.mpr h))]

end Muen.Kernel
