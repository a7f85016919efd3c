import Muen.Kernel.Handlers
import Muen.Kernel.SchedulerSpec

/-!
# What the handlers keep for a subject

Specifications of the procedures that the kernel runs for one subject: target events, interrupt
injection and the initialization of the subject. They change nothing that belongs to another subject.
-/

namespace Muen.Kernel

open Lib Relation

variable {P : Policy} {ε : Type} {X E : Prop} {rely : ε × State P → ε × State P → Prop} {K : State P → Prop}

/-- An assertion that does not look at what belongs to the subject, and that a VMCS write keeps. -/
structure OwnFramed (rely : ε × State P → ε × State P → Prop) (id : P.Subject) (K : State P → Prop) :
    Prop where
  stable : Stable rely (fun c => K c.2)
  setDescriptor : ∀ s f, K s → K (State.setDescriptor id f s)
  setEvents : ∀ s id' f, K s → K (State.setEvents id' f s)
  setInterrupts : ∀ s id' f, K s → K (State.setInterrupts id' f s)
  setTimedEvent : ∀ s id' f, K s → K (State.setTimedEvent id' f s)
  setActivity : ∀ s p i, K s → K (State.setActivity p i s)
  setMaskedIrqs : ∀ (s : State P) m, K s → K { s with maskedIrqs := m }
  vmcsWriteAll : ∀ s fields, K s → K (vmcsWriteAll fields s)
  setFpuState : ∀ s x, K s →
    K (State.onFpu (fun f => { f with subjectStates := Function.update f.subjectStates id x }) s)
  vmxInit : ∀ s, K s → K (vmxLoad (vmcsAddress id) (vmxReset (vmcsAddress id) s))

lemma vmcsWriteAll_scheduler (fields : List (VmcsField × Word64)) (s : State P) :
    (vmcsWriteAll fields s).scheduler = s.scheduler := by
  unfold vmcsWriteAll
  split <;> rfl

lemma vmcsWriteAll_timedEvents (fields : List (VmcsField × Word64)) (s : State P) :
    (vmcsWriteAll fields s).timedEvents = s.timedEvents := by
  unfold vmcsWriteAll
  split <;> rfl

/-- A timed event that is put off for ever does not make a group oversleep. -/
lemma Good.putOff {c : ε × State P} {id : P.Subject} {f : TimedEvent → TimedEvent} (h : Good X K c)
    (hf : ∀ e, (f e).tscTriggerValue = BitVec.allOnes 64) (hK : K (State.setTimedEvent id f c.2)) :
    Good X K (c.1, State.setTimedEvent id f c.2) := by
  obtain ⟨lists, hl, hdue⟩ := h.timers
  refine ⟨⟨lists, hl, fun hX p g hg => ?_⟩, h.core, hK⟩
  show _ ≤ (Function.update c.2.timedEvents id (f (c.2.timedEvents id)) _).tscTriggerValue
  by_cases hid : c.2.scheduler.core.activeSubject g = id
  · have hself : Function.update c.2.timedEvents id (f (c.2.timedEvents id))
        (c.2.scheduler.core.activeSubject g) = f (c.2.timedEvents id) := by
      rw [hid, Function.update_self]
    rw [show (State.setTimedEvent id f c.2).scheduler = c.2.scheduler from rfl, hself, hf]
    exact BitVec.not_lt.mp BitVec.not_allOnes_lt
  · rw [show (State.setTimedEvent id f c.2).scheduler = c.2.scheduler from rfl,
      Function.update_of_ne hid]
    exact hdue hX p g hg

/-! ### The VMCS -/

section Own

variable {id : P.Subject} (hR : Interferes X rely) (hO : OwnFramed rely id K)

include hR hO

lemma vmcsRead_sat {field : VmcsField} {c : ε × State P} (h : Good X K c) :
    (vmcsRead field : Proc P Word64).Sat rely (AtStep X True) (fun _ => Good X K) c := by
  have hg := hR.good hO.stable
  refine Prog.sat_read hg h (fun _ h => h.atStep) (fun c₁ h₁ => ?_)
  cases c₁.2.vmx.current with
  | none => exact fun _ _ => trivial
  | some address =>
    intro c₂ hc₂
    have h₂ := hg.steps hc₂ h₁
    exact ⟨h₂.atStep, fun c₃ hc₃ => hg.steps hc₃ h₂⟩

lemma vmcsWrite_sat {fields : List (VmcsField × Word64)} {c : ε × State P} (h : Good X K c) :
    (vmcsWrite fields : Proc P Unit).Sat rely (AtStep X True) (fun _ => Good X K) c := by
  have hg := hR.good hO.stable
  refine Prog.sat_read hg h (fun _ h => h.atStep) (fun c₁ h₁ => ?_)
  cases c₁.2.vmx.current with
  | none => exact fun _ _ => trivial
  | some address =>
    intro c₂ hc₂
    have h₂ := hg.steps hc₂ h₁
    refine ⟨h₂.atStep, fun c₃ hc₃ => hg.steps hc₃ ?_⟩
    exact h₂.update (vmcsWriteAll_scheduler _ _) (vmcsWriteAll_timedEvents _ _)
      (hO.vmcsWriteAll _ _ h₂.kept)

lemma vmcsSetInterruptWindow_sat {value : Bool} {c : ε × State P} (h : Good X K c) :
    (vmcsSetInterruptWindow value : Proc P Unit).Sat rely (AtStep X True) (fun _ => Good X K) c :=
  Prog.sat_bind ((vmcsRead_sat hR hO h).mono (fun _ _ h₁ => vmcsWrite_sat hR hO h₁))

/-! ### Target events and interrupts -/

/-- One update that keeps the assertion, as the last step of a procedure. -/
lemma modify_sat {u : State P → State P} {c : ε × State P}
    (hu : ∀ c : ε × State P, Good X K c → Good X K (c.1, u c.2)) (h : Good X K c) :
    (Prog.modify {} u : Proc P Unit).Sat rely (AtStep X E) (fun _ => Good X K) c := by
  have hg := hR.good hO.stable
  intro c₁ hc₁
  have h₁ := hg.steps hc₁ h
  exact ⟨h₁.atStep, fun c₂ hc₂ => hg.steps hc₂ (hu c₁ h₁)⟩

lemma initSubject_sat {hw : Hardware} {c : ε × State P} (h : Good X K c) :
    (initSubject hw id).Sat rely (AtStep X E) (fun _ => Good X K) c := by
  have hg := hR.good hO.stable
  refine Prog.sat_modify hg h (fun _ h => h.atStep) (fun c₁ h₁ => ?_)
  have h₁' := h₁.update (u := State.onFpu (fpuResetState id)) rfl rfl (hO.setFpuState _ _ h₁.kept)
  refine Prog.sat_modify hg h₁' (fun _ h => h.atStep) (fun c₂ h₂ => ?_)
  have h₂' := h₂.update (u := clearEvents id) rfl rfl (hO.setEvents _ _ _ h₂.kept)
  refine Prog.sat_modify hg h₂' (fun _ h => h.atStep) (fun c₃ h₃ => ?_)
  have h₃' := h₃.update (u := initInterrupts id) rfl rfl (hO.setInterrupts _ _ _ h₃.kept)
  refine Prog.sat_modify hg h₃' (fun _ h => h.atStep) (fun c₄ h₄ => ?_)
  have h₄' : Good X K (c₄.1, initEvent id c₄.2) := h₄.putOff (fun _ => rfl) (hO.setTimedEvent _ _ _ h₄.kept)
  refine Prog.sat_modify hg h₄' (fun _ h => h.atStep) (fun c₅ h₅ => ?_)
  have h₅' : Good X K (c₅.1, vmxLoad (vmcsAddress id) (vmxReset (vmcsAddress id) c₅.2)) :=
    h₅.update (u := fun s => vmxLoad (vmcsAddress id) (vmxReset (vmcsAddress id) s)) rfl rfl
      (hO.vmxInit _ h₅.kept)
  refine Prog.sat_modify hg h₅' (fun _ h => h.atStep) (fun c₆ h₆ => ?_)
  have hreset : ∀ s, K s → K (resetState id s) := by
    intro s hs
    unfold resetState
    exact hO.setDescriptor _ _ hs
  refine modify_sat hR hO (fun c₇ h₇ => h₇.update rfl rfl (hreset _ h₇.kept)) ?_
  exact h₆.update (vmcsWriteAll_scheduler _ _) (vmcsWriteAll_timedEvents _ _) (hO.vmcsWriteAll _ _ h₆.kept)

lemma handleTargetEvent_sat {hw : Hardware} {event : TargetEvent} {c : ε × State P} (h : Good X K c) :
    (handleTargetEvent hw id event).Sat rely (AtStep X E) (fun _ => Good X K) c := by
  cases event with
  | noAction => exact Prog.sat_pure (hR.good hO.stable) h
  | injectInterrupt vector =>
    exact modify_sat hR hO (fun c₁ h₁ => h₁.update rfl rfl (hO.setInterrupts _ _ _ h₁.kept)) h
  | reset => exact initSubject_sat hR hO h

lemma targetEventLoop_sat {hw : Hardware} (n : ℕ) : ∀ (handled : Bool) (c : ε × State P), Good X K c →
    (targetEventLoop hw id n handled).Sat rely (AtStep X E) (fun _ => Good X K) c := by
  have hg := hR.good hO.stable
  induction n with
  | zero => exact fun handled c h => Prog.sat_pure hg h
  | succ n ih =>
    intro handled c h
    refine Prog.sat_read hg h (fun _ h => h.atStep) (fun c₁ h₁ => ?_)
    cases findHighestBitSet (c₁.2.pendingEvents id) with
    | none => exact Prog.sat_pure hg h₁
    | some event =>
      refine Prog.sat_modify hg h₁ (fun _ h => h.atStep) (fun c₂ h₂ => ?_)
      have h₂' := h₂.update (u := State.setEvents id (fun w => bitClear w event)) rfl rfl
        (hO.setEvents _ _ _ h₂.kept)
      exact Prog.sat_bind ((handleTargetEvent_sat hR hO h₂').mono (fun _ c₃ h₃ => ih true c₃ h₃))

lemma handlePendingTargetEvent_sat {hw : Hardware} {c : ε × State P} (h : Good X K c) :
    (handlePendingTargetEvent hw id).Sat rely (AtStep X E) (fun _ => Good X K) c := by
  have hg := hR.good hO.stable
  refine Prog.sat_bind ((targetEventLoop_sat hR hO 64 false c h).mono (fun handled c₁ h₁ => ?_))
  refine Prog.sat_read hg h₁ (fun _ h => h.atStep) (fun c₂ h₂ => modify_sat hR hO ?_ h₂)
  intro c₃ h₃
  split
  · exact h₃.update rfl rfl (hO.setDescriptor _ _ h₃.kept)
  · exact h₃

lemma injectPending_sat {c : ε × State P} (h : Good X K c) :
    (injectPending id).Sat rely (AtStep X True) (fun _ => Good X K) c := by
  have hg := hR.good hO.stable
  refine Prog.sat_read hg h (fun _ h => h.atStep) (fun c₁ h₁ => ?_)
  cases findInterrupt (c₁.2.pendingInterrupts id) with
  | none => exact Prog.sat_pure hg h₁
  | some vector =>
    refine Prog.sat_modify hg h₁ (fun _ h => h.atStep) (fun c₂ h₂ => ?_)
    have h₂' := h₂.update (u := interruptClear id vector) rfl rfl (hO.setInterrupts _ _ _ h₂.kept)
    refine Prog.sat_bind ((vmcsWrite_sat hR hO h₂').mono (fun _ c₃ h₃ => ?_))
    exact modify_sat hR hO (fun c₄ h₄ => h₄.update rfl rfl (hO.setDescriptor _ _ h₄.kept)) h₃

lemma injectInterrupt_sat {c : ε × State P} (h : Good X K c) :
    (injectInterrupt id).Sat rely (AtStep X True) (fun _ => Good X K) c := by
  have hg := hR.good hO.stable
  refine Prog.sat_read hg h (fun _ h => h.atStep) (fun c₁ h₁ => ?_)
  have hpending : (if acceptsInterrupts (c₁.2.descriptors id) = true then injectPending id
      else pure () : Proc P Unit).Sat rely (AtStep X True) (fun _ => Good X K) c₁ := by
    split
    · exact injectPending_sat hR hO h₁
    · exact Prog.sat_pure hg h₁
  refine Prog.sat_bind (hpending.mono (fun _ c₂ h₂ => ?_))
  refine Prog.sat_read hg h₂ (fun _ h => h.atStep) (fun c₃ h₃ => ?_)
  split
  · exact vmcsSetInterruptWindow_sat hR hO h₃
  · exact Prog.sat_pure hg h₃

/-! ### Activity -/

lemma indicateActivity_sat {id' : P.Subject} {sameCPU : Bool} {c : ε × State P} (h : Good X K c) :
    (indicateActivity id' sameCPU).Sat rely (AtStep X E) (fun _ => Good X K) c := by
  have hg := hR.good hO.stable
  have hset : ∀ {c : ε × State P}, Good X K c → (Prog.modify {} (State.setActivity
      (P.subjectToPartition id') (P.groupIndex (P.subjectToGroup id'))) : Proc P Unit).Sat rely
      (AtStep X E) (fun _ => Good X K) c :=
    fun h => modify_sat hR hO (fun c₁ h₁ => h₁.update rfl rfl (hO.setActivity _ _ _ h₁.kept)) h
  cases sameCPU with
  | true =>
    refine Prog.sat_read hg h (fun _ h => h.atStep) (fun c₁ h₁ => ?_)
    split
    · exact hset h₁
    · exact Prog.sat_pure hg h₁
  | false => exact hset h

lemma routeInterrupt_sat {route : VectorRoute P.subjects} {c : ε × State P} (h : Good X K c) :
    (routeInterrupt route).Sat rely (AtStep X E) (fun _ => Good X K) c := by
  have hg := hR.good hO.stable
  unfold routeInterrupt
  cases route.subject with
  | none => exact Prog.sat_pure hg h
  | some subject =>
    refine Prog.sat_modify hg h (fun _ h => h.atStep) (fun c₁ h₁ => indicateActivity_sat hR hO ?_)
    exact h₁.update rfl rfl (hO.setInterrupts _ _ _ h₁.kept)

lemma handleIrq_sat {vector : Byte} {c : ε × State P} (h : Good X K c) :
    (handleIrq vector : Proc P Unit).Sat rely (AtStep X E) (fun _ => Good X K) c := by
  unfold handleIrq
  split
  · refine Prog.sat_bind ((routeInterrupt_sat hR hO h).mono (fun _ c₁ h₁ => ?_))
    refine modify_sat hR hO (fun c₂ h₂ => ?_) h₁
    by_cases hm : P.maskIrq vector = true
    · simp only [hm, if_true]
      exact h₂.update (u := fun s => { s with maskedIrqs := Function.update s.maskedIrqs (vector - 32) true })
        rfl rfl (hO.setMaskedIrqs _ _ h₂.kept)
    · simp only [hm]
      exact h₂
  · exact Prog.sat_pure (hR.good hO.stable) h

end Own

end Muen.Kernel
