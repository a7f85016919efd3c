import Muen.Kernel.Barriers
import Mathlib.Data.List.Chain

/-!
# Frames on all CPUs

The first level of the scheduler on all CPUs at once: `Update_Scheduling_Info` with its barriers,
`Set_VMX_Exit_Timer` and the part of `SK.Kernel.Initialize` and `SK.Scheduler.Init` that leads to the
first frame. Every access to a variable that the CPUs share is a step of its own.
-/

namespace Muen.Kernel

/-- The part of `Skp.Scheduling.Major_Frames` that configures barriers, and the CPU that boots the
system. -/
structure BarrierPlan (P : Policy) where
  bsp : P.Cpu
  /-- `Barrier_Range'Last`. -/
  lastBarrier : ℕ
  barrierConfig : P.Major → ℕ → ℕ
  /-- `Byte (Skp.CPU_Count)` is in range. -/
  cpus_lt : P.cpus < 256

/-- The constants of `Update_Scheduling_Info`. -/
structure FrameLocals (P : Policy) where
  majorID : P.Major
  minorID : P.Minor
  majorStart : Word64
  deriving DecidableEq

/-- The places of a CPU between its accesses to shared variables. -/
inductive FramePlace (P : Policy)
  -- `SK.Kernel.Initialize` and `SK.Scheduler.Init`
  | bootWait (w : WaitState)
  | schedulerInit
  | initBarriers (now : Word64) (index : ℕ)
  | initStart (now : Word64)
  | bootSync (w : WaitState)
  -- `SK.Scheduler.Set_VMX_Exit_Timer`
  | timerStart
  | timerMajor (start : Word64)
  | guest
  -- `SK.Scheduler.Update_Scheduling_Info`
  | readMajor
  | readStart (major : P.Major)
  | minorWait (l : FrameLocals P) (next : P.Minor) (barrier : ℕ) (w : WaitState)
  | endWait (l : FrameLocals P) (w : WaitState)
  | testBSP (l : FrameLocals P)
  | getMajor (l : FrameLocals P)
  | addPeriod (l : FrameLocals P) (next : P.Major)
  | writeMajor (l : FrameLocals P) (next : P.Major) (start : Word64)
  | writeStart (l : FrameLocals P) (next : P.Major) (start : Word64)
  | setBarriers (l : FrameLocals P) (next : P.Major) (index : ℕ)
  | endSync (l : FrameLocals P) (w : WaitState)
  | setMinor (l : FrameLocals P) (next : P.Minor)
  | publishStart (l : FrameLocals P)
  | publishMajor (l : FrameLocals P) (start : Word64)
  deriving DecidableEq

/-- What `Update_Scheduling_Info` has published, and for which frame. -/
structure PublishedInfo (P : Policy) where
  scheduleStart : Word64
  scheduleEnd : Word64
  major : P.Major
  minor : P.Minor
  deriving DecidableEq

/-- A CPU with its variables. The information published by `Update_Scheduling_Info`, with the latest
first, and the number of major frame switches are a record of what has happened. -/
structure FrameCpu (P : Policy) where
  place : FramePlace P
  currentMinorFrameID : P.Minor
  /-- The deadline in the last call of `Set_VMX_Exit_Timer`. -/
  deadline : Word64
  /-- Start and end of the frame that were shown last to a partition. -/
  schedulingInfo : Word64 × Word64
  published : List (PublishedInfo P)
  switches : ℕ

/-- A pair of values that a CPU has read from the variables of the major frame, behind so many major
frame switches. -/
structure FrameUse (P : Policy) where
  switches : ℕ
  major : P.Major
  start : Word64

/-- All CPUs and the variables that they share; `frames` and `uses` record the major frames and what the
CPUs have read of them. -/
structure Frames (P : Policy) where
  allBarrier : SenseBarrier
  minorFrameBarriers : ℕ → SenseBarrier
  currentMajorFrameID : P.Major
  currentMajorStartCycles : Word64
  /-- `SK.Tau0_Interface.New_Major`. -/
  newMajor : P.Major
  cpus : P.Cpu → FrameCpu P
  frames : ℕ → P.Major × Word64
  uses : List (FrameUse P)

variable {P : Policy}

/-- The deadline of a minor frame in the plan of a CPU. -/
def planDeadline (i : P.Cpu) (major : P.Major) (minor : P.Minor) : Word64 :=
  ((P.schedulingPlans i major).minorFrames minor).deadline

def planLength (i : P.Cpu) (major : P.Major) : P.Minor := (P.schedulingPlans i major).length

namespace Frames

def setCpu (s : Frames P) (i : P.Cpu) (f : FrameCpu P → FrameCpu P) : Frames P :=
  { s with cpus := Function.update s.cpus i (f (s.cpus i)) }

def goto (s : Frames P) (i : P.Cpu) (place : FramePlace P) : Frames P :=
  s.setCpu i (fun c => { c with place := place })

/-- A step inside `MP.Wait_For_All`. -/
def waitForAll (s : Frames P) (i : P.Cpu) (w : WaitState) (stay : WaitState → FramePlace P)
    (leave : FrameCpu P → FrameCpu P) : Frames P :=
  let r := waitStep w s.allBarrier
  { s with allBarrier := r.2 }.setCpu i (fun c => match r.1 with
    | some w => { c with place := stay w }
    | none => leave c)

/-- A step inside `MP.Wait_On_Minor_Frame_Barrier`. -/
def waitOnMinorFrameBarrier (s : Frames P) (i : P.Cpu) (index : ℕ) (w : WaitState)
    (stay : WaitState → FramePlace P) (leave : FramePlace P) : Frames P :=
  let r := waitStep w (s.minorFrameBarriers index)
  { s with minorFrameBarriers := Function.update s.minorFrameBarriers index r.2 }.goto i (match r.1 with
    | some w => stay w
    | none => leave)

/-- `Barriers.Initialize` in the loop of `MP.Set_Minor_Frame_Barrier_Config`. -/
def setBarrier (B : BarrierPlan P) (s : Frames P) (major : P.Major) (index : ℕ) : Frames P :=
  { s with
    minorFrameBarriers := Function.update s.minorFrameBarriers index
      (initBarrier (BitVec.ofNat 8 (B.barrierConfig major index))) }

/-- A CPU has read both variables of the major frame. -/
def use (s : Frames P) (i : P.Cpu) (major : P.Major) (start : Word64) : Frames P :=
  { s with uses := ⟨(s.cpus i).switches, major, start⟩ :: s.uses }

/-- The first decision of `Update_Scheduling_Info`: where a CPU waits at the end of its minor frame. -/
def frameEnd (i : P.Cpu) (l : FrameLocals P) : FramePlace P :=
  let major := P.schedulingPlans i l.majorID
  if h : l.minorID.val < major.length.val then
    let next : P.Minor := ⟨l.minorID.val + 1, by have := major.length.isLt; omega⟩
    match (major.minorFrames l.minorID).barrier with
    | some barrier => .minorWait l next barrier .readSize
    | none => .setMinor l next
  else .endWait l .readSize

/-- What a CPU may do at a step: the value of the TSC, and whether the exit of a subject is the expiry
of the timer. -/
structure FrameInput where
  now : Word64
  expiry : Bool

/-- The next step of a CPU. -/
def move (B : BarrierPlan P) (s : Frames P) (i : P.Cpu) (input : FrameInput) : Frames P :=
  match (s.cpus i).place with
  | .bootWait w => s.waitForAll i w .bootWait (fun c => { c with place := .schedulerInit })
  | .schedulerInit =>
    s.setCpu i (fun c =>
      { c with
        place := if i = B.bsp then .initBarriers input.now 1 else .bootSync .readSize
        schedulingInfo := (input.now, input.now + planDeadline i 0 0) })
  | .initBarriers now index =>
    if index ≤ B.lastBarrier then (s.setBarrier B 0 index).goto i (.initBarriers now (index + 1))
    else s.goto i (.initStart now)
  | .initStart now =>
    { s with
      currentMajorStartCycles := now
      frames := Function.update s.frames 0 (0, now) }.goto i (.bootSync .readSize)
  | .bootSync w => s.waitForAll i w .bootSync (fun c => { c with place := .timerStart })
  | .timerStart => s.goto i (.timerMajor s.currentMajorStartCycles)
  | .timerMajor start =>
    (s.use i s.currentMajorFrameID start).setCpu i (fun c =>
      { c with
        place := .guest
        deadline := start + planDeadline i s.currentMajorFrameID c.currentMinorFrameID })
  | .guest => s.goto i (if input.expiry then .readMajor else .timerStart)
  | .readMajor => s.goto i (.readStart s.currentMajorFrameID)
  | .readStart major =>
    (s.use i major s.currentMajorStartCycles).goto i
      (frameEnd i ⟨major, (s.cpus i).currentMinorFrameID, s.currentMajorStartCycles⟩)
  | .minorWait l next barrier w =>
    s.waitOnMinorFrameBarrier i barrier w (.minorWait l next barrier) (.setMinor l next)
  | .endWait l w => s.waitForAll i w (.endWait l) (fun c => { c with place := .testBSP l })
  | .testBSP l => s.goto i (if i = B.bsp then .getMajor l else .endSync l .readSize)
  | .getMajor l => s.goto i (.addPeriod l s.newMajor)
  | .addPeriod l next =>
    s.goto i (.writeMajor l next (s.currentMajorStartCycles + P.majorFramePeriod l.majorID))
  | .writeMajor l next start => { s with currentMajorFrameID := next }.goto i (.writeStart l next start)
  | .writeStart l next start =>
    { s with
      currentMajorStartCycles := start
      frames := Function.update s.frames ((s.cpus i).switches + 1) (next, start) }.goto i
        (if l.majorID ≠ next then .setBarriers l next 1 else .endSync l .readSize)
  | .setBarriers l next index =>
    if index ≤ B.lastBarrier then (s.setBarrier B next index).goto i (.setBarriers l next (index + 1))
    else s.goto i (.endSync l .readSize)
  | .endSync l w =>
    s.waitForAll i w (.endSync l) (fun c => { c with place := .setMinor l 0, switches := c.switches + 1 })
  | .setMinor l next => s.setCpu i (fun c => { c with place := .publishStart l, currentMinorFrameID := next })
  | .publishStart l => s.goto i (.publishMajor l s.currentMajorStartCycles)
  | .publishMajor l start =>
    (s.use i s.currentMajorFrameID start).setCpu i (fun c =>
      let scheduleStart := l.majorStart + planDeadline i l.majorID l.minorID
      let scheduleEnd := start + planDeadline i s.currentMajorFrameID c.currentMinorFrameID
      { c with
        place := .timerStart
        schedulingInfo := (scheduleStart, scheduleEnd)
        published := ⟨scheduleStart, scheduleEnd, s.currentMajorFrameID, c.currentMinorFrameID⟩ ::
          c.published })

end Frames

/-- A step of a CPU, or the choice of another major frame by Tau0. -/
inductive FrameEvent (P : Policy)
  | cpu (i : P.Cpu) (input : Frames.FrameInput)
  | tau0 (major : P.Major)

def Frames.step (B : BarrierPlan P) (s : Frames P) : FrameEvent P → Frames P
  | .cpu i input => s.move B i input
  | .tau0 major => { s with newMajor := major }

/-- The CPUs are about to wait for each other for the first time, on the barrier that the BSP has set
up. Of the variables only those of the scheduler have a value. -/
structure Frames.Booting (s : Frames P) : Prop where
  allBarrier : s.allBarrier = initBarrier (BitVec.ofNat 8 P.cpus)
  majorID : s.currentMajorFrameID = 0
  uses : s.uses = []
  cpus : ∀ i, (s.cpus i).place = .bootWait .readSize ∧ (s.cpus i).currentMinorFrameID = 0 ∧
    (s.cpus i).published = [] ∧ (s.cpus i).switches = 0

def Frames.Reachable (B : BarrierPlan P) (s : Frames P) : Prop :=
  Lib.Reaches (fun (s : Frames P) e => some (s.step B e)) (fun _ _ => True) Frames.Booting s

/-! ### The barrier of all CPUs -/

/-- The place inside `Wait_For_All`. -/
def FramePlace.allPlace : FramePlace P → Option WaitState
  | .bootWait w | .bootSync w | .endWait _ w | .endSync _ w => some w
  | _ => none

/-- Whether the fetch-and-add has been executed, as a number. -/
def WaitState.arrivals : WaitState → ℕ
  | .clearCount _ | .writeSense _ | .spin _ => 1
  | _ => 0

/-- How often a CPU at the place has arrived at the barrier of all CPUs. -/
def FramePlace.arrivals (switches : ℕ) : FramePlace P → ℕ
  | .bootWait w => w.arrivals
  | .schedulerInit | .initBarriers _ _ | .initStart _ => 1
  | .bootSync w => 1 + w.arrivals
  | .endWait _ w => 2 * switches + 2 + w.arrivals
  | .testBSP _ | .getMajor _ | .addPeriod _ _ | .writeMajor _ _ _ | .writeStart _ _ _ | .setBarriers _ _ _ =>
    2 * switches + 3
  | .endSync _ w => 2 * switches + 3 + w.arrivals
  | _ => 2 * switches + 2

def FrameCpu.arrivals (c : FrameCpu P) : ℕ := c.place.arrivals c.switches

/-- The places of a CPU before it has set up its timer for the first time. -/
def FramePlace.Boot : FramePlace P → Prop
  | .bootWait _ | .schedulerInit | .initBarriers _ _ | .initStart _ | .bootSync _ => True
  | _ => False

/-- The places before the BSP sets the start of the first major frame. -/
def FramePlace.BeforeStart : FramePlace P → Prop
  | .bootWait _ | .schedulerInit | .initBarriers _ _ | .initStart _ => True
  | _ => False

/-- The places inside a major frame. -/
def FramePlace.Regular : FramePlace P → Prop
  | .timerStart | .timerMajor _ | .guest | .readMajor | .readStart _ | .minorWait _ _ _ _ | .setMinor _ _
  | .publishStart _ | .publishMajor _ _ => True
  | _ => False

/-- The places between the two barriers at the end of a major frame. -/
def FramePlace.Switching : FramePlace P → Prop
  | .testBSP _ | .getMajor _ | .addPeriod _ _ | .writeMajor _ _ _ | .writeStart _ _ _ | .setBarriers _ _ _ => True
  | _ => False

lemma WaitState.arrivals_le (w : WaitState) : w.arrivals = 0 ∨ w.arrivals = 1 := by
  cases w <;> simp [WaitState.arrivals]

lemma waitStep_arrivals {w w' : WaitState} {b : SenseBarrier} (h : (waitStep w b).1 = some w') :
    w'.arrivals = w.arrivals + w.arrival := by
  cases w with
  | readSize => obtain rfl := Option.some.inj h; rfl
  | readSense n => obtain rfl := Option.some.inj h; rfl
  | getAndIncrement n c =>
    obtain rfl := Option.some.inj h
    split_ifs <;> rfl
  | clearCount c => obtain rfl := Option.some.inj h; rfl
  | writeSense c => exact absurd h (by simp [waitStep])
  | spin c =>
    simp only [waitStep] at h
    split_ifs at h
    obtain rfl := Option.some.inj h
    rfl

lemma waitStep_leaves {w : WaitState} {b : SenseBarrier} (h : (waitStep w b).1 = none) :
    w.arrivals = 1 ∧ w.arrival = 0 := by
  cases w with
  | readSize => exact absurd h (by simp [waitStep])
  | readSense n => exact absurd h (by simp [waitStep])
  | getAndIncrement n c => exact absurd h (by simp [waitStep])
  | clearCount c => exact absurd h (by simp [waitStep])
  | writeSense c => exact ⟨rfl, rfl⟩
  | spin c => exact ⟨rfl, rfl⟩

namespace Frames

def allPlaces (s : Frames P) (i : P.Cpu) : Option WaitState := (s.cpus i).place.allPlace

def arrivals (s : Frames P) (i : P.Cpu) : ℕ := (s.cpus i).arrivals

/-- The barrier of all CPUs was released `g` times. -/
def AllOk (s : Frames P) (g : ℕ) : Prop := Consistent Finset.univ s.allBarrier s.allPlaces s.arrivals g

/-- What a step does to the barrier of all CPUs: nothing, it is the call of `Wait`, or a step in it. -/
inductive AllStep (i : P.Cpu) (s s' : Frames P) : Prop
  | other : s'.allBarrier = s.allBarrier → s'.allPlaces = s.allPlaces → s'.arrivals = s.arrivals →
      AllStep i s s'
  | enter : s'.allBarrier = s.allBarrier → s.allPlaces i = none →
      s'.allPlaces = Function.update s.allPlaces i (some .readSize) → s'.arrivals = s.arrivals → AllStep i s s'
  | wait (w : WaitState) : s.allPlaces i = some w → s'.allBarrier = (waitStep w s.allBarrier).2 →
      s'.allPlaces = Function.update s.allPlaces i (waitStep w s.allBarrier).1 →
      s'.arrivals = Function.update s.arrivals i (s.arrivals i + w.arrival) → AllStep i s s'

section AllStep

variable {s s' : Frames P} {i : P.Cpu} {c : FrameCpu P}

lemma allPlaces_update (hcpus : s'.cpus = Function.update s.cpus i c) :
    s'.allPlaces = Function.update s.allPlaces i c.place.allPlace := by
  funext j
  unfold allPlaces
  rw [hcpus]
  exact Function.apply_update (fun _ c => FramePlace.allPlace (FrameCpu.place c)) s.cpus i c j

lemma arrivals_update (hcpus : s'.cpus = Function.update s.cpus i c) :
    s'.arrivals = Function.update s.arrivals i c.arrivals := by
  funext j
  unfold arrivals
  rw [hcpus]
  exact Function.apply_update (fun _ c => FrameCpu.arrivals c) s.cpus i c j

variable {p : FramePlace P}

/-- A step outside of the barrier of all CPUs. -/
lemma AllStep.of_other (hp : (s.cpus i).place = p) (hcpus : s'.cpus = Function.update s.cpus i c)
    (hb : s'.allBarrier = s.allBarrier) (hplace : c.place.allPlace = p.allPlace)
    (harr : c.arrivals = p.arrivals (s.cpus i).switches) : AllStep i s s' := by
  subst hp
  refine .other hb ?_ ?_
  · rw [allPlaces_update hcpus, hplace]
    exact Function.update_eq_self i s.allPlaces
  · rw [arrivals_update hcpus, harr]
    exact Function.update_eq_self i s.arrivals

lemma AllStep.of_enter (hp : (s.cpus i).place = p) (hcpus : s'.cpus = Function.update s.cpus i c)
    (hb : s'.allBarrier = s.allBarrier) (hnone : p.allPlace = none)
    (hplace : c.place.allPlace = some .readSize) (harr : c.arrivals = p.arrivals (s.cpus i).switches) :
    AllStep i s s' := by
  subst hp
  refine .enter hb hnone ?_ ?_
  · rw [allPlaces_update hcpus, hplace]
  · rw [arrivals_update hcpus, harr]
    exact Function.update_eq_self i s.arrivals

lemma AllStep.of_waitForAll {w : WaitState} {stay : WaitState → FramePlace P}
    {leave : FrameCpu P → FrameCpu P} {m : ℕ} (hplace : (s.cpus i).place = stay w)
    (hstay : ∀ w, (stay w).allPlace = some w)
    (hbase : ∀ w, FrameCpu.arrivals { s.cpus i with place := stay w } = m + w.arrivals)
    (hleave : (leave (s.cpus i)).place.allPlace = none)
    (hleave' : (leave (s.cpus i)).arrivals = m + 1) : AllStep i s (s.waitForAll i w stay leave) := by
  have hw : s.allPlaces i = some w := by
    unfold allPlaces
    rw [hplace, hstay]
  have hk : s.arrivals i = m + w.arrivals := by
    rw [← hbase w, ← hplace]
    rfl
  have hcpus : (s.waitForAll i w stay leave).cpus = Function.update s.cpus i
      (match (waitStep w s.allBarrier).1 with
        | some w => { s.cpus i with place := stay w }
        | none => leave (s.cpus i)) := rfl
  refine .wait w hw rfl ?_ ?_
  · rw [allPlaces_update hcpus]
    cases hr : (waitStep w s.allBarrier).1 with
    | none => dsimp only; rw [hleave]
    | some w' => dsimp only; rw [hstay]
  · rw [arrivals_update hcpus, hk]
    cases hr : (waitStep w s.allBarrier).1 with
    | none =>
      obtain ⟨h1, h0⟩ := waitStep_leaves hr
      dsimp only
      rw [hleave', h1, h0]
    | some w' =>
      dsimp only
      rw [hbase, waitStep_arrivals hr, Nat.add_assoc]

end AllStep

lemma frameEnd_cases (i : P.Cpu) (l : FrameLocals P) :
    (∃ next barrier, l.minorID.val < (planLength i l.majorID).val ∧ next.val = l.minorID.val + 1 ∧
      ((P.schedulingPlans i l.majorID).minorFrames l.minorID).barrier = some barrier ∧
      frameEnd i l = .minorWait l next barrier .readSize) ∨
    (∃ next, l.minorID.val < (planLength i l.majorID).val ∧ next.val = l.minorID.val + 1 ∧
      ((P.schedulingPlans i l.majorID).minorFrames l.minorID).barrier = none ∧
      frameEnd i l = .setMinor l next) ∨
    (planLength i l.majorID).val ≤ l.minorID.val ∧ frameEnd i l = .endWait l .readSize := by
  unfold frameEnd planLength
  by_cases h : l.minorID.val < (P.schedulingPlans i l.majorID).length.val
  · simp only [h, dif_pos]
    cases hb : ((P.schedulingPlans i l.majorID).minorFrames l.minorID).barrier with
    | none => exact .inr (.inl ⟨_, trivial, rfl, rfl, rfl⟩)
    | some barrier => exact .inl ⟨_, barrier, trivial, rfl, rfl, rfl⟩
  · exact .inr (.inr ⟨not_lt.mp h, dif_neg h⟩)

lemma move_allStep (B : BarrierPlan P) (s : Frames P) (i : P.Cpu) (input : FrameInput)
    (hboot : (s.cpus i).place.Boot → (s.cpus i).switches = 0) : AllStep i s (s.move B i input) := by
  unfold move
  cases hp : (s.cpus i).place with
  | bootWait w =>
    exact .of_waitForAll hp (fun _ => rfl) (m := 0) (fun w => (Nat.zero_add _).symm) rfl rfl
  | schedulerInit =>
    by_cases hi : i = B.bsp
    · simp only [if_pos hi]
      exact .of_other hp rfl rfl rfl rfl
    · simp only [if_neg hi]
      exact .of_enter hp rfl rfl rfl rfl rfl
  | initBarriers now index =>
    by_cases hi : index ≤ B.lastBarrier
    · simp only [if_pos hi]
      exact .of_other hp rfl rfl rfl rfl
    · simp only [if_neg hi]
      exact .of_other hp rfl rfl rfl rfl
  | initStart now => exact .of_enter hp rfl rfl rfl rfl rfl
  | bootSync w =>
    have hsw := hboot (by rw [hp]; trivial)
    refine .of_waitForAll hp (fun _ => rfl) (m := 1) (fun w => rfl) rfl ?_
    simp [FrameCpu.arrivals, FramePlace.arrivals, hsw]
  | timerStart => exact .of_other hp rfl rfl rfl rfl
  | timerMajor start => exact .of_other hp rfl rfl rfl rfl
  | guest =>
    cases input.expiry with
    | true => exact .of_other hp rfl rfl rfl rfl
    | false => exact .of_other hp rfl rfl rfl rfl
  | readMajor => exact .of_other hp rfl rfl rfl rfl
  | readStart major =>
    dsimp only
    rcases frameEnd_cases i ⟨major, (s.cpus i).currentMinorFrameID, s.currentMajorStartCycles⟩ with
      ⟨next, barrier, -, -, -, h⟩ | ⟨next, -, -, -, h⟩ | ⟨-, h⟩
    · rw [h]
      exact .of_other hp rfl rfl rfl rfl
    · rw [h]
      exact .of_other hp rfl rfl rfl rfl
    · rw [h]
      exact .of_enter hp rfl rfl rfl rfl rfl
  | minorWait l next barrier w =>
    simp only [waitOnMinorFrameBarrier]
    cases hr : (waitStep w (s.minorFrameBarriers barrier)).1 with
    | none => exact .of_other hp rfl rfl rfl rfl
    | some w' => exact .of_other hp rfl rfl rfl rfl
  | endWait l w =>
    exact .of_waitForAll hp (fun _ => rfl) (m := 2 * (s.cpus i).switches + 2) (fun w => rfl) rfl rfl
  | testBSP l =>
    by_cases hi : i = B.bsp
    · simp only [if_pos hi]
      exact .of_other hp rfl rfl rfl rfl
    · simp only [if_neg hi]
      exact .of_enter hp rfl rfl rfl rfl rfl
  | getMajor l => exact .of_other hp rfl rfl rfl rfl
  | addPeriod l next => exact .of_other hp rfl rfl rfl rfl
  | writeMajor l next start => exact .of_other hp rfl rfl rfl rfl
  | writeStart l next start =>
    by_cases hn : l.majorID ≠ next
    · simp only [if_pos hn]
      exact .of_other hp rfl rfl rfl rfl
    · simp only [if_neg hn]
      exact .of_enter hp rfl rfl rfl rfl rfl
  | setBarriers l next index =>
    by_cases hi : index ≤ B.lastBarrier
    · simp only [if_pos hi]
      exact .of_other hp rfl rfl rfl rfl
    · simp only [if_neg hi]
      exact .of_enter hp rfl rfl rfl rfl rfl
  | endSync l w =>
    exact .of_waitForAll hp (fun _ => rfl) (m := 2 * (s.cpus i).switches + 3) (fun w => rfl) rfl rfl
  | setMinor l next => exact .of_other hp rfl rfl rfl rfl
  | publishStart l => exact .of_other hp rfl rfl rfl rfl
  | publishMajor l start => exact .of_other hp rfl rfl rfl rfl

lemma arrivals_of_outside {s : Frames P} {g : ℕ} (h : AllOk s g) {i : P.Cpu}
    (hi : (s.cpus i).place.allPlace = none) : (s.cpus i).arrivals = g := by
  have hplace := h.place i (Finset.mem_univ i)
  rw [show s.allPlaces i = none from hi] at hplace
  exact hplace

lemma arrivals_of_wait {s : Frames P} {g : ℕ} (h : AllOk s g) {i : P.Cpu} {w : WaitState}
    (hi : (s.cpus i).place.allPlace = some w) (hw : w.arrivals = 0) : (s.cpus i).arrivals = g := by
  have hplace := h.place i (Finset.mem_univ i)
  rw [show s.allPlaces i = some w from hi] at hplace
  cases w with
  | readSize => exact hplace
  | readSense n => exact hplace.1
  | getAndIncrement n c => exact hplace.1
  | clearCount c => exact absurd hw (by simp [WaitState.arrivals])
  | writeSense c => exact absurd hw (by simp [WaitState.arrivals])
  | spin c => exact absurd hw (by simp [WaitState.arrivals])

/-- How often a CPU has arrived, seen from the number of releases. -/
lemma arrivals_cases {s : Frames P} {g : ℕ} (h : AllOk s g) (i : P.Cpu) :
    (s.cpus i).arrivals = g ∨
      (s.cpus i).arrivals = g + 1 ∧ ∃ w, (s.cpus i).place.allPlace = some w ∧ w.arrivals = 1 := by
  cases hp : (s.cpus i).place.allPlace with
  | none => exact .inl (arrivals_of_outside h hp)
  | some w =>
    by_cases hw : w.arrivals = 0
    · exact .inl (arrivals_of_wait h hp hw)
    · have hw1 : w.arrivals = 1 := by cases w <;> simp_all [WaitState.arrivals]
      rcases h.arrivals_le (Finset.mem_univ i) with hk | hk
      · exact .inl hk
      · exact .inr ⟨hk, w, rfl, hw1⟩

lemma AllStep.allOk (B : BarrierPlan P) {s s' : Frames P} {i : P.Cpu} {g : ℕ} (hstep : AllStep i s s')
    (h : AllOk s g) : ∃ g', AllOk s' g' := by
  cases hstep with
  | other hb hp hk =>
    refine ⟨g, ?_⟩
    rw [AllOk, hb, hp, hk]
    exact h
  | enter hb hi hp hk =>
    refine ⟨g, ?_⟩
    rw [AllOk, hb, hp, hk]
    exact h.enter (Finset.mem_univ i) hi
  | wait w hi hb hp hk =>
    refine ⟨g + w.release, ?_⟩
    rw [AllOk, hb, hp, hk]
    exact h.step (by simpa using B.cpus_lt) (Finset.mem_univ i) hi

end Frames

/-! ### The invariant of frames -/

/-- The deadline of the minor frame before, or the start of the major frame. -/
def frameOffset (i : P.Cpu) (major : P.Major) (minor : P.Minor) : Word64 :=
  if minor.val = 0 then 0 else planDeadline i major ⟨minor.val - 1, by omega⟩

/-- The length of a minor frame. -/
def frameCycles (i : P.Cpu) (major : P.Major) (minor : P.Minor) : Word64 :=
  planDeadline i major minor - frameOffset i major minor

/-- The variables of a CPU that boots. -/
structure AtBoot (switches : ℕ) (minor : P.Minor) (published : List (PublishedInfo P)) : Prop where
  switches_eq : switches = 0
  minor_eq : minor = 0
  published_eq : published = []

/-- The CPU is in a minor frame of the major frame `f`, and has shown its end. -/
structure InFrame (i : P.Cpu) (f : P.Major × Word64) (minor : P.Minor) (info : Word64 × Word64)
    (published : List (PublishedInfo P)) : Prop where
  minor_le : minor ≤ planLength i f.1
  shown : published ≠ [] → info.2 = f.2 + planDeadline i f.1 minor

/-- The locals are those of the current minor frame. -/
structure Loaded (i : P.Cpu) (f : P.Major × Word64) (minor : P.Minor) (info : Word64 × Word64)
    (published : List (PublishedInfo P)) (l : FrameLocals P) : Prop extends InFrame i f minor info published where
  majorID : l.majorID = f.1
  minorID : l.minorID = minor
  majorStart : l.majorStart = f.2

/-- The CPU goes from the minor frame of the locals to the minor frame `next` of `f`. -/
structure Entering (i : P.Cpu) (f : P.Major × Word64) (info : Word64 × Word64)
    (published : List (PublishedInfo P)) (l : FrameLocals P) (next : P.Minor) : Prop where
  minor_le : next ≤ planLength i f.1
  shown : published ≠ [] → info.2 = l.majorStart + planDeadline i l.majorID l.minorID
  start_eq : l.majorStart + planDeadline i l.majorID l.minorID = f.2 + frameOffset i f.1 next

/-- The CPU goes on to the next minor frame of the same major frame. -/
lemma Loaded.entering {i : P.Cpu} {f : P.Major × Word64} {minor next : P.Minor} {info : Word64 × Word64}
    {published : List (PublishedInfo P)} {l : FrameLocals P} (h : Loaded i f minor info published l)
    (hlt : minor < planLength i f.1) (hnext : next.val = minor.val + 1) :
    Entering i f info published l next ∧ (next.val = 0 ∨ minor < next) := by
  have hlater : minor < next := Fin.lt_def.mpr (hnext ▸ Nat.lt_succ_self _)
  refine ⟨⟨Fin.le_def.mpr (hnext ▸ hlt), fun hne => ?_, ?_⟩, .inr hlater⟩
  · rw [h.majorID, h.minorID, h.majorStart]
    exact h.shown hne
  · have hbefore : minor = ⟨next.val - 1, by omega⟩ := Fin.ext (by simp [hnext])
    rw [h.majorID, h.minorID, h.majorStart, frameOffset, if_neg (by rw [hnext]; exact Nat.succ_ne_zero _),
      ← hbefore]

/-- The published information tiles time: every frame starts where the one before ends, and lasts as
long as its plan says. -/
structure Tiles (i : P.Cpu) (info : Word64 × Word64) (published : List (PublishedInfo P)) : Prop where
  chain : published.IsChain (fun new old => new.scheduleStart = old.scheduleEnd)
  frame : ∀ x ∈ published, x.minor ≤ planLength i x.major ∧
    x.scheduleEnd = x.scheduleStart + frameCycles i x.major x.minor
  latest : ∀ x, published.head? = some x → info = (x.scheduleStart, x.scheduleEnd)

lemma end_eq_start_add (start : Word64) (i : P.Cpu) (major : P.Major) (minor : P.Minor) :
    start + frameOffset i major minor + frameCycles i major minor = start + planDeadline i major minor := by
  unfold frameCycles
  rw [BitVec.add_assoc, BitVec.add_comm (frameOffset i major minor), BitVec.sub_add_cancel]

lemma Tiles.publish {i : P.Cpu} {info : Word64 × Word64} {published : List (PublishedInfo P)}
    (h : Tiles i info published) {x : PublishedInfo P} (hstart : published ≠ [] → x.scheduleStart = info.2)
    (hminor : x.minor ≤ planLength i x.major)
    (hend : x.scheduleEnd = x.scheduleStart + frameCycles i x.major x.minor) :
    Tiles i (x.scheduleStart, x.scheduleEnd) (x :: published) := by
  refine ⟨?_, ?_, ?_⟩
  · cases hpub : published with
    | nil => exact List.IsChain.singleton x
    | cons y ys =>
      refine List.IsChain.cons_cons ?_ (hpub ▸ h.chain)
      rw [hstart (by simp [hpub]), h.latest y (by simp [hpub])]
  · intro y hy
    rcases List.mem_cons.mp hy with rfl | hy
    · exact ⟨hminor, hend⟩
    · exact h.frame y hy
  · intro y hy
    obtain rfl := Option.some.inj hy
    rfl

namespace FrameCpu

variable (i : P.Cpu) (f : P.Major × Word64) (c : FrameCpu P)

abbrev AtBoot : Prop := Kernel.AtBoot c.switches c.currentMinorFrameID c.published

abbrev InFrame : Prop := Kernel.InFrame i f c.currentMinorFrameID c.schedulingInfo c.published

abbrev Loaded (l : FrameLocals P) : Prop :=
  Kernel.Loaded i f c.currentMinorFrameID c.schedulingInfo c.published l

abbrev Entering (l : FrameLocals P) (next : P.Minor) : Prop :=
  Kernel.Entering i f c.schedulingInfo c.published l next

abbrev Tiles : Prop := Kernel.Tiles i c.schedulingInfo c.published

/-- The assertion of every place. -/
def Ok (B : BarrierPlan P) : Prop :=
  match c.place with
  | .bootWait _ | .schedulerInit | .bootSync _ => AtBoot c
  | .initBarriers _ _ | .initStart _ => AtBoot c ∧ i = B.bsp
  | .timerStart | .readMajor => InFrame i f c
  | .timerMajor start => InFrame i f c ∧ start = f.2
  | .guest => InFrame i f c ∧ c.deadline = f.2 + planDeadline i f.1 c.currentMinorFrameID
  | .readStart major => InFrame i f c ∧ major = f.1
  | .minorWait l next barrier _ => Loaded i f c l ∧ c.currentMinorFrameID < planLength i f.1 ∧
      next.val = c.currentMinorFrameID.val + 1 ∧
      ((P.schedulingPlans i f.1).minorFrames c.currentMinorFrameID).barrier = some barrier
  | .endWait l _ | .testBSP l | .endSync l _ => Loaded i f c l ∧ c.currentMinorFrameID = planLength i f.1
  | .getMajor l | .addPeriod l _ | .setBarriers l _ _ =>
    (Loaded i f c l ∧ c.currentMinorFrameID = planLength i f.1) ∧ i = B.bsp
  | .writeMajor l _ start | .writeStart l _ start =>
    (Loaded i f c l ∧ c.currentMinorFrameID = planLength i f.1) ∧ i = B.bsp ∧
      start = f.2 + P.majorFramePeriod f.1
  | .setMinor l next => Entering i f c l next ∧ (next.val = 0 ∨ c.currentMinorFrameID < next)
  | .publishStart l => Entering i f c l c.currentMinorFrameID
  | .publishMajor l start => Entering i f c l c.currentMinorFrameID ∧ start = f.2

end FrameCpu

namespace Frames

/-- The number of the last major frame that the BSP has started. -/
def lastFrame (c : FrameCpu P) : ℕ :=
  match c.place with
  | .setBarriers _ _ _ | .endSync _ _ => c.switches + 1
  | _ => c.switches

/-- The variables of the major frame when the BSP is at a place. -/
def GlobalsAt (s : Frames P) (c : FrameCpu P) : Prop :=
  match c.place with
  | .bootWait _ | .schedulerInit | .initBarriers _ _ | .initStart _ => s.currentMajorFrameID = 0 ∧ s.uses = []
  | .writeStart _ next _ =>
    s.currentMajorFrameID = next ∧ s.currentMajorStartCycles = (s.frames c.switches).2
  | .setBarriers _ next _ => s.currentMajorFrameID = next ∧
    (s.currentMajorFrameID, s.currentMajorStartCycles) = s.frames (c.switches + 1)
  | .endSync _ _ => (s.currentMajorFrameID, s.currentMajorStartCycles) = s.frames (c.switches + 1)
  | _ => (s.currentMajorFrameID, s.currentMajorStartCycles) = s.frames c.switches

structure Ok (B : BarrierPlan P) (s : Frames P) : Prop where
  all : ∃ g, AllOk s g
  cpu : ∀ i, (s.cpus i).Ok i (s.frames (s.cpus i).switches) B
  globals : GlobalsAt s (s.cpus B.bsp)
  periods : ∀ r < lastFrame (s.cpus B.bsp), (s.frames (r + 1)).2 = (s.frames r).2 +
    P.majorFramePeriod (s.frames r).1
  uses : ∀ u ∈ s.uses, u.switches ≤ lastFrame (s.cpus B.bsp) ∧ s.frames u.switches = (u.major, u.start)
  tiles : ∀ i, (s.cpus i).Tiles i

section Invariant

variable {B : BarrierPlan P} {s s' : Frames P} {i : P.Cpu} {c : FrameCpu P} {g : ℕ}

/-- The number of releases of the barrier of all CPUs, seen from the place of a CPU. -/
inductive Stage (g : ℕ) (c : FrameCpu P) : Prop
  | before : c.place.BeforeStart → g ≤ 1 → Stage g c
  | sync (w : WaitState) : c.place = .bootSync w → g = 1 ∨ g = 2 → Stage g c
  | regular : c.place.Regular → g = 2 * c.switches + 2 → Stage g c
  | ending (l : FrameLocals P) (w : WaitState) : c.place = .endWait l w →
      g = 2 * c.switches + 2 ∨ g = 2 * c.switches + 3 → Stage g c
  | switching : c.place.Switching → g = 2 * c.switches + 3 → Stage g c
  | ended (l : FrameLocals P) (w : WaitState) : c.place = .endSync l w →
      g = 2 * c.switches + 3 ∨ g = 2 * c.switches + 4 → Stage g c

lemma AllOk.stage (h : AllOk s g) (i : P.Cpu) : Stage g (s.cpus i) := by
  have houtside := fun hp : (s.cpus i).place.allPlace = none => arrivals_of_outside h hp
  have hwait := fun w (hp : (s.cpus i).place.allPlace = some w) => arrivals_of_wait h hp
  have hk : (s.cpus i).arrivals = g ∨ (s.cpus i).arrivals = g + 1 := h.arrivals_le (Finset.mem_univ i)
  unfold FrameCpu.arrivals at houtside hwait hk
  cases hp : (s.cpus i).place with
  | bootWait w =>
    rw [hp] at hwait hk
    refine .before (by rw [hp]; trivial) ?_
    have := hwait w rfl
    have := w.arrivals_le
    simp only [FramePlace.arrivals] at *
    omega
  | bootSync w =>
    rw [hp] at hwait hk
    refine .sync w hp ?_
    have := hwait w rfl
    have := w.arrivals_le
    simp only [FramePlace.arrivals] at *
    omega
  | endWait l w =>
    rw [hp] at hwait hk
    refine .ending l w hp ?_
    have := hwait w rfl
    have := w.arrivals_le
    simp only [FramePlace.arrivals] at *
    omega
  | endSync l w =>
    rw [hp] at hwait hk
    refine .ended l w hp ?_
    have := hwait w rfl
    have := w.arrivals_le
    simp only [FramePlace.arrivals] at *
    omega
  | schedulerInit | initBarriers _ _ | initStart _ =>
    rw [hp] at houtside
    exact .before (by rw [hp]; trivial) (houtside rfl).ge
  | testBSP _ | getMajor _ | addPeriod _ _ | writeMajor _ _ _ | writeStart _ _ _ | setBarriers _ _ _ =>
    rw [hp] at houtside
    exact .switching (by rw [hp]; trivial) (houtside rfl).symm
  | timerStart | timerMajor _ | guest | readMajor | readStart _ | minorWait _ _ _ _ | setMinor _ _
  | publishStart _ | publishMajor _ _ =>
    rw [hp] at houtside
    exact .regular (by rw [hp]; trivial) (houtside rfl).symm

lemma Ok.switches_of_boot (h : Ok B s) (hboot : (s.cpus i).place.Boot) : (s.cpus i).switches = 0 := by
  have hc := h.cpu i
  unfold FrameCpu.Ok at hc
  cases hp : (s.cpus i).place <;> rw [hp] at hboot hc
  case bootWait => exact hc.switches_eq
  case schedulerInit => exact hc.switches_eq
  case bootSync => exact hc.switches_eq
  case initBarriers => exact hc.1.switches_eq
  case initStart => exact hc.1.switches_eq
  all_goals exact hboot.elim

lemma GlobalsAt.of_regular (h : GlobalsAt s c) (hc : c.place.Regular) :
    (s.currentMajorFrameID, s.currentMajorStartCycles) = s.frames c.switches ∧ lastFrame c = c.switches := by
  unfold GlobalsAt at h
  unfold lastFrame
  cases hp : c.place <;> rw [hp] at hc h
  all_goals first
    | exact hc.elim
    | exact ⟨h, rfl⟩

lemma not_beforeStart_of_regular {p : FramePlace P} (hp : p.Regular) : ¬ p.BeforeStart := by
  cases p <;> first | exact hp.elim | exact id

/-- While the barrier of all CPUs was released an even number of times, the variables of the major frame
are those of the frame that the CPUs are in. -/
lemma Ok.bsp_frame (h : Ok B s) {r : ℕ} (hall : AllOk s (2 * r + 2)) :
    (s.currentMajorFrameID, s.currentMajorStartCycles) = s.frames r ∧ r ≤ lastFrame (s.cpus B.bsp) ∧
      ¬ (s.cpus B.bsp).place.BeforeStart := by
  have hglob := h.globals
  cases hall.stage B.bsp with
  | before _ hg => omega
  | sync w hp hg =>
    have hsw := h.switches_of_boot (i := B.bsp) (by rw [hp]; trivial)
    obtain rfl : r = 0 := by omega
    rw [GlobalsAt, hp, hsw] at hglob
    rw [hp]
    exact ⟨hglob, Nat.zero_le _, id⟩
  | regular hp hg =>
    obtain rfl : r = (s.cpus B.bsp).switches := by omega
    exact ⟨(hglob.of_regular hp).1, (hglob.of_regular hp).2.ge, not_beforeStart_of_regular hp⟩
  | ending l w hp hg =>
    obtain rfl : r = (s.cpus B.bsp).switches := by omega
    rw [GlobalsAt, hp] at hglob
    rw [lastFrame, hp]
    exact ⟨hglob, le_refl _, id⟩
  | switching _ hg => omega
  | ended l w hp hg =>
    obtain rfl : r = (s.cpus B.bsp).switches + 1 := by omega
    rw [GlobalsAt, hp] at hglob
    rw [lastFrame, hp]
    exact ⟨hglob, le_refl _, id⟩

/-- What a CPU reads in a regular place is the major frame that it is in. -/
lemma Ok.current (h : Ok B s) (hp : (s.cpus i).place.Regular) :
    s.currentMajorFrameID = (s.frames (s.cpus i).switches).1 ∧
      s.currentMajorStartCycles = (s.frames (s.cpus i).switches).2 ∧
      (s.cpus i).switches ≤ lastFrame (s.cpus B.bsp) ∧ ¬ (s.cpus B.bsp).place.BeforeStart := by
  obtain ⟨g, hall⟩ := h.all
  have hg : g = 2 * (s.cpus i).switches + 2 := by
    have houtside : (s.cpus i).place.allPlace = none := by
      cases hq : (s.cpus i).place <;> rw [hq] at hp <;> first | exact hp.elim | rfl
    rw [← arrivals_of_outside hall houtside]
    unfold FrameCpu.arrivals
    cases hq : (s.cpus i).place <;> rw [hq] at hp <;> first | exact hp.elim | rfl
  obtain ⟨hcur, hle, hstart⟩ := h.bsp_frame (hg ▸ hall)
  exact ⟨congrArg Prod.fst hcur, congrArg Prod.snd hcur, hle, hstart⟩

lemma GlobalsAt.congr (h : GlobalsAt s c) (hmajor : s'.currentMajorFrameID = s.currentMajorFrameID)
    (hstart : s'.currentMajorStartCycles = s.currentMajorStartCycles) (hframes : s'.frames = s.frames)
    (huses : c.place.BeforeStart → s'.uses = s.uses) : GlobalsAt s' c := by
  unfold GlobalsAt at h ⊢
  rw [hmajor, hstart, hframes]
  cases hp : c.place <;> rw [hp] at h huses
  case bootWait => exact ⟨h.1, (huses trivial).trans h.2⟩
  case schedulerInit => exact ⟨h.1, (huses trivial).trans h.2⟩
  case initBarriers => exact ⟨h.1, (huses trivial).trans h.2⟩
  case initStart => exact ⟨h.1, (huses trivial).trans h.2⟩
  all_goals exact h

/-- A step that leaves the variables of the major frame alone. -/
lemma Ok.update (h : Ok B s) (hall : ∃ g, AllOk s' g) (hcpus : s'.cpus = Function.update s.cpus i c)
    (hmajor : s'.currentMajorFrameID = s.currentMajorFrameID)
    (hstart : s'.currentMajorStartCycles = s.currentMajorStartCycles) (hframes : s'.frames = s.frames)
    (huses : s'.uses = s.uses ∨ ¬ (s.cpus B.bsp).place.BeforeStart ∧ ∃ u, s'.uses = u :: s.uses ∧
      u.switches ≤ lastFrame (s.cpus B.bsp) ∧ s.frames u.switches = (u.major, u.start))
    (hc : c.Ok i (s.frames c.switches) B) (htiles : c.Tiles i)
    (hlast : i = B.bsp → lastFrame c = lastFrame (s.cpus i)) (hglob : i = B.bsp → GlobalsAt s' c) :
    Ok B s' := by
  have hbsp : lastFrame (s'.cpus B.bsp) = lastFrame (s.cpus B.bsp) := by
    rw [hcpus]
    by_cases hi : B.bsp = i
    · rw [hi, Function.update_self]
      exact hlast hi.symm
    · rw [Function.update_of_ne hi]
  refine ⟨hall, ?_, ?_, ?_, ?_, ?_⟩
  · intro j
    rw [hcpus, hframes]
    by_cases hji : j = i
    · subst hji
      rwa [Function.update_self]
    · rw [Function.update_of_ne hji]
      exact h.cpu j
  · rw [hcpus]
    by_cases hi : B.bsp = i
    · rw [hi, Function.update_self]
      exact hglob hi.symm
    · rw [Function.update_of_ne hi]
      refine h.globals.congr hmajor hstart hframes (fun hboot => ?_)
      exact huses.resolve_right (fun hu => hu.1 hboot)
  · rw [hbsp, hframes]
    exact h.periods
  · rw [hbsp, hframes]
    rcases huses with huses | ⟨-, u, huses, hu⟩
    · rw [huses]
      exact h.uses
    · rw [huses]
      intro v hv
      rcases List.mem_cons.mp hv with rfl | hv
      · exact hu
      · exact h.uses v hv
  · intro j
    rw [hcpus]
    by_cases hji : j = i
    · subst hji
      rwa [Function.update_self]
    · rw [Function.update_of_ne hji]
      exact h.tiles j

lemma FrameCpu_ok_of_boot {f f' : P.Major × Word64} (h : c.Ok i f B) (hc : c.place.Boot) : c.Ok i f' B := by
  unfold FrameCpu.Ok at h ⊢
  cases hp : c.place <;> rw [hp] at hc h
  all_goals first
    | exact h
    | exact hc.elim

/-- The BSP sets the start of the first major frame when all CPUs are still booting. -/
lemma Ok.initStart (h : Ok B s) {now : Word64} (hp : (s.cpus i).place = .initStart now)
    (hcpus : s'.cpus = Function.update s.cpus i { s.cpus i with place := .bootSync .readSize })
    (hmajor : s'.currentMajorFrameID = s.currentMajorFrameID) (hstart : s'.currentMajorStartCycles = now)
    (hframes : s'.frames = Function.update s.frames 0 (0, now)) (huses : s'.uses = s.uses)
    (hall : ∃ g, AllOk s' g) : Ok B s' := by
  have hc := h.cpu i
  rw [FrameCpu.Ok, hp] at hc
  obtain ⟨hboot, rfl⟩ := hc
  have hglob := h.globals
  rw [GlobalsAt, hp] at hglob
  have hbsp : s'.cpus B.bsp = { s.cpus B.bsp with place := .bootSync .readSize } := by
    rw [hcpus, Function.update_self]
  obtain ⟨g, hg⟩ := h.all
  have hg1 : g = 1 := by
    rw [← arrivals_of_outside hg (i := B.bsp) (by rw [hp]; rfl), FrameCpu.arrivals, hp]
    rfl
  have hothers : ∀ j, (s.cpus j).place.Boot := by
    intro j
    cases hg.stage j with
    | before hq _ => cases hr : (s.cpus j).place <;> rw [hr] at hq <;> first | exact hq.elim | trivial
    | sync w hq _ => rw [hq]; trivial
    | regular _ hg' => omega
    | ending l w _ hg' => omega
    | switching _ hg' => omega
    | ended l w _ hg' => omega
  refine ⟨hall, ?_, ?_, ?_, ?_, ?_⟩
  · intro j
    rw [hcpus]
    by_cases hji : j = B.bsp
    · subst hji
      rw [Function.update_self]
      exact hboot
    · rw [Function.update_of_ne hji]
      exact FrameCpu_ok_of_boot (h.cpu j) (hothers j)
  · rw [hbsp]
    simp only [GlobalsAt]
    rw [hmajor, hstart, hframes, hboot.switches_eq, Function.update_self, hglob.1]
  · rw [hbsp]
    simp only [lastFrame]
    rw [hboot.switches_eq]
    exact fun r hr => absurd hr (Nat.not_lt_zero r)
  · rw [huses, hglob.2]
    exact fun u hu => absurd hu (by simp)
  · intro j
    rw [hcpus]
    by_cases hji : j = B.bsp
    · subst hji
      rw [Function.update_self]
      exact h.tiles _
    · rw [Function.update_of_ne hji]
      exact h.tiles j

/-- The BSP sets the start of the next major frame when all other CPUs are at the end of the same. -/
lemma Ok.writeStart (h : Ok B s) {l : FrameLocals P} {next : P.Major} {start : Word64}
    (hp : (s.cpus i).place = .writeStart l next start)
    (hcpus : s'.cpus = Function.update s.cpus i { s.cpus i with
      place := if l.majorID ≠ next then .setBarriers l next 1 else .endSync l .readSize })
    (hmajor : s'.currentMajorFrameID = s.currentMajorFrameID) (hstart : s'.currentMajorStartCycles = start)
    (hframes : s'.frames = Function.update s.frames ((s.cpus i).switches + 1) (next, start))
    (huses : s'.uses = s.uses) (hall : ∃ g, AllOk s' g) : Ok B s' := by
  have hc := h.cpu i
  rw [FrameCpu.Ok, hp] at hc
  obtain ⟨⟨hl, hend⟩, rfl, hperiod⟩ := hc
  have hglob := h.globals
  rw [GlobalsAt, hp] at hglob
  have hlast : lastFrame (s.cpus B.bsp) = (s.cpus B.bsp).switches := by rw [lastFrame, hp]
  have hlast' : lastFrame (s'.cpus B.bsp) = (s.cpus B.bsp).switches + 1 := by
    rw [hcpus, Function.update_self, lastFrame]
    by_cases hn : l.majorID ≠ next
    · simp only [if_pos hn]
    · simp only [if_neg hn]
  obtain ⟨g, hg⟩ := h.all
  have hg3 : g = 2 * (s.cpus B.bsp).switches + 3 := by
    rw [← arrivals_of_outside hg (i := B.bsp) (by rw [hp]; rfl), FrameCpu.arrivals, hp]
    rfl
  have hothers : ∀ j, (s.cpus j).switches = (s.cpus B.bsp).switches := by
    intro j
    cases hg.stage j with
    | before _ hg' => omega
    | sync w _ hg' => omega
    | regular _ hg' => omega
    | ending l w _ hg' => omega
    | switching _ hg' => omega
    | ended l w _ hg' => omega
  have hsame : ∀ r ≤ (s.cpus B.bsp).switches, s'.frames r = s.frames r := by
    intro r hr
    rw [hframes, Function.update_of_ne (by omega)]
  refine ⟨hall, ?_, ?_, ?_, ?_, ?_⟩
  · intro j
    rw [hcpus]
    by_cases hji : j = B.bsp
    · subst hji
      rw [Function.update_self, hsame _ (le_refl _)]
      by_cases hn : l.majorID ≠ next
      · simp only [if_pos hn]
        exact ⟨⟨hl, hend⟩, rfl⟩
      · simp only [if_neg hn]
        exact ⟨hl, hend⟩
    · rw [Function.update_of_ne hji, hsame _ (hothers j).le]
      exact h.cpu j
  · have hnew : (s'.currentMajorFrameID, s'.currentMajorStartCycles) =
        s'.frames ((s.cpus B.bsp).switches + 1) := by
      rw [hmajor, hstart, hframes, Function.update_self, hglob.1]
    rw [hcpus, Function.update_self]
    by_cases hn : l.majorID ≠ next
    · simp only [if_pos hn]
      exact ⟨hmajor.trans hglob.1, hnew⟩
    · simp only [if_neg hn]
      exact hnew
  · rw [hlast']
    intro r hr
    by_cases hrs : r = (s.cpus B.bsp).switches
    · rw [hrs, hsame _ (le_refl _), hframes, Function.update_self]
      exact hperiod
    · rw [hsame (r + 1) (by omega), hsame r (by omega)]
      exact h.periods r (by omega)
  · rw [hlast', huses]
    intro u hu
    obtain ⟨hle, hframe⟩ := h.uses u hu
    rw [hlast] at hle
    exact ⟨by omega, (hsame _ hle).trans hframe⟩
  · intro j
    rw [hcpus]
    by_cases hji : j = B.bsp
    · subst hji
      rw [Function.update_self]
      exact h.tiles _
    · rw [Function.update_of_ne hji]
      exact h.tiles j

/-- A CPU that only changes its place. -/
lemma Ok.goto (h : Ok B s) {p p' : FramePlace P} (hp : (s.cpus i).place = p) (hall : ∃ g, AllOk s' g)
    (hcpus : s'.cpus = Function.update s.cpus i { s.cpus i with place := p' })
    (hmajor : s'.currentMajorFrameID = s.currentMajorFrameID)
    (hstart : s'.currentMajorStartCycles = s.currentMajorStartCycles) (hframes : s'.frames = s.frames)
    (huses : s'.uses = s.uses)
    (hc : FrameCpu.Ok i (s.frames (s.cpus i).switches) { s.cpus i with place := p' } B)
    (hlast : lastFrame { s.cpus i with place := p' } = lastFrame { s.cpus i with place := p })
    (hglob : GlobalsAt s { s.cpus i with place := p } → GlobalsAt s { s.cpus i with place := p' }) : Ok B s' := by
  have hsame : { s.cpus i with place := p } = s.cpus i := by rw [← hp]
  rw [hsame] at hlast hglob
  refine h.update hall hcpus hmajor hstart hframes (.inl huses) hc (h.tiles i) (fun _ => hlast) (fun hi => ?_)
  have hold : GlobalsAt s (s.cpus i) := by
    rw [hi]
    exact h.globals
  exact (hglob hold).congr hmajor hstart hframes (fun _ => huses)

/-- A CPU in a regular place that goes to another one. -/
lemma Ok.regular (h : Ok B s) (hall : ∃ g, AllOk s' g) (hcpus : s'.cpus = Function.update s.cpus i c)
    (hmajor : s'.currentMajorFrameID = s.currentMajorFrameID)
    (hstart : s'.currentMajorStartCycles = s.currentMajorStartCycles) (hframes : s'.frames = s.frames)
    (huses : s'.uses = s.uses ∨ ∃ u, s'.uses = u :: s.uses ∧ u.switches = (s.cpus i).switches ∧
      (u.major, u.start) = s.frames (s.cpus i).switches)
    (hp : (s.cpus i).place.Regular) (hp' : c.place.Regular ∨ ∃ l w, c.place = .endWait l w)
    (hsw : c.switches = (s.cpus i).switches)
    (hc : c.Ok i (s.frames (s.cpus i).switches) B) (htiles : c.Tiles i) : Ok B s' := by
  obtain ⟨hcur, hcur', hle, hlate⟩ := h.current hp
  have hlast : lastFrame c = c.switches := by
    unfold lastFrame
    rcases hp' with hp' | ⟨l, w, hp'⟩
    · cases hq : c.place <;> rw [hq] at hp' <;> exact hp'.elim
    · rw [hp']
  have hold : i = B.bsp → lastFrame (s.cpus i) = (s.cpus i).switches := by
    rintro rfl
    exact (h.globals.of_regular hp).2
  refine h.update hall hcpus hmajor hstart hframes ?_ (hsw ▸ hc) htiles
    (fun hi => (hlast.trans hsw).trans (hold hi).symm) (fun _ => ?_)
  · rcases huses with huses | ⟨u, huses, hu, hframe⟩
    · exact .inl huses
    · exact .inr ⟨hlate, u, huses, hu ▸ hle, hu ▸ hframe.symm⟩
  · have hnew : (s'.currentMajorFrameID, s'.currentMajorStartCycles) = s'.frames c.switches := by
      rw [hmajor, hstart, hframes, hsw, hcur, hcur']
    unfold GlobalsAt
    rcases hp' with hp' | ⟨l, w, hp'⟩
    · cases hq : c.place <;> rw [hq] at hp' <;> first | exact hp'.elim | exact hnew
    · rw [hp']
      exact hnew

/-- The number of major frames that the BSP has started, seen from the number of releases. -/
lemma Stage.le_lastFrame {r : ℕ} (h : Stage (2 * r + 2) c) : r ≤ lastFrame c := by
  cases h with
  | before _ hg => omega
  | sync w hp hg => omega
  | regular hp hg =>
    have : c.switches ≤ lastFrame c := by
      unfold lastFrame
      split <;> omega
    omega
  | ending l w hp hg =>
    rw [lastFrame, hp]
    dsimp only
    omega
  | switching hp hg => omega
  | ended l w hp hg =>
    rw [lastFrame, hp]
    dsimp only
    omega

/-- The CPU leaves the second barrier at the end of a major frame. -/
lemma Ok.leaveEnd (h : Ok B s) (hplan : ∀ i M, planDeadline i M (planLength i M) = P.majorFramePeriod M)
    {l : FrameLocals P} {w : WaitState} (hp : (s.cpus i).place = .endSync l w)
    (hcpus : s'.cpus = Function.update s.cpus i { s.cpus i with
      place := .setMinor l 0, switches := (s.cpus i).switches + 1 })
    (hmajor : s'.currentMajorFrameID = s.currentMajorFrameID)
    (hstart : s'.currentMajorStartCycles = s.currentMajorStartCycles) (hframes : s'.frames = s.frames)
    (huses : s'.uses = s.uses) (hall : ∃ g, AllOk s' g) : Ok B s' := by
  have hc := h.cpu i
  rw [FrameCpu.Ok, hp] at hc
  obtain ⟨hl, hend⟩ := hc
  have hself : s'.cpus i = { s.cpus i with place := .setMinor l 0, switches := (s.cpus i).switches + 1 } := by
    rw [hcpus, Function.update_self]
  have hlast : (s.cpus i).switches + 1 ≤ lastFrame (s.cpus B.bsp) := by
    by_cases hi : B.bsp = i
    · rw [hi, lastFrame, hp]
    · obtain ⟨g, hg⟩ := hall
      have hg' : g = 2 * ((s.cpus i).switches + 1) + 2 := by
        rw [← arrivals_of_outside hg (i := i) (by rw [hself]; rfl), hself]
        rfl
      have hstage := hg.stage B.bsp
      rw [hg', hcpus, Function.update_of_ne hi] at hstage
      exact hstage.le_lastFrame
  have hperiod := h.periods (s.cpus i).switches (by omega)
  refine h.update hall hcpus hmajor hstart hframes (.inl huses) ?_
    (h.tiles i) (fun _ => ?_) (fun hi => ?_)
  · refine ⟨⟨Nat.zero_le _, fun hne => ?_, ?_⟩, .inl rfl⟩
    · rw [hl.majorID, hl.minorID, hl.majorStart]
      exact hl.shown hne
    · rw [hl.majorID, hl.minorID, hl.majorStart, hend, hplan, ← hperiod]
      simp [frameOffset]
  · rw [lastFrame, lastFrame, hp]
  · have hglob := h.globals
    rw [← hi, GlobalsAt, hp] at hglob
    simp only [GlobalsAt]
    rw [hmajor, hstart, hframes]
    exact hglob

/-- A CPU in a regular place that goes on with the same variables. -/
lemma Ok.proceed (h : Ok B s) {p' : FramePlace P} (hall : ∃ g, AllOk s' g)
    (hcpus : s'.cpus = Function.update s.cpus i { s.cpus i with place := p' })
    (hmajor : s'.currentMajorFrameID = s.currentMajorFrameID)
    (hstart : s'.currentMajorStartCycles = s.currentMajorStartCycles) (hframes : s'.frames = s.frames)
    (huses : s'.uses = s.uses) (hp : (s.cpus i).place.Regular) (hp' : p'.Regular)
    (hc : FrameCpu.Ok i (s.frames (s.cpus i).switches) { s.cpus i with place := p' } B) : Ok B s' :=
  h.regular hall hcpus hmajor hstart hframes (.inl huses) hp (.inl hp') rfl hc (h.tiles i)

/-- The CPU starts its scheduler, and the BSP its barriers. -/
lemma Ok.schedulerInit (h : Ok B s) {now : Word64} (hp : (s.cpus i).place = .schedulerInit)
    (hcpus : s'.cpus = Function.update s.cpus i { s.cpus i with
      place := if i = B.bsp then .initBarriers now 1 else .bootSync .readSize
      schedulingInfo := (now, now + planDeadline i 0 0) })
    (hmajor : s'.currentMajorFrameID = s.currentMajorFrameID)
    (hstart : s'.currentMajorStartCycles = s.currentMajorStartCycles) (hframes : s'.frames = s.frames)
    (huses : s'.uses = s.uses) (hall : ∃ g, AllOk s' g) : Ok B s' := by
  have hc := h.cpu i
  have hglob := h.globals
  rw [FrameCpu.Ok, hp] at hc
  have htiles : ∀ p info, FrameCpu.Tiles i { s.cpus i with place := p, schedulingInfo := info } := by
    intro p info
    refine ⟨(h.tiles i).chain, (h.tiles i).frame, fun x hx => ?_⟩
    have hnil : (s.cpus i).published = [] := hc.published_eq
    dsimp only at hx
    rw [hnil] at hx
    exact absurd hx (by simp)
  by_cases hi : i = B.bsp
  · rw [if_pos hi] at hcpus
    refine h.update hall hcpus hmajor hstart hframes (.inl huses) ⟨hc, hi⟩ (htiles _ _)
      (fun _ => by rw [lastFrame, lastFrame, hp]) (fun _ => ?_)
    rw [← hi, GlobalsAt, hp] at hglob
    exact ⟨hmajor.trans hglob.1, huses.trans hglob.2⟩
  · rw [if_neg hi] at hcpus
    exact h.update hall hcpus hmajor hstart hframes (.inl huses) hc (htiles _ _)
      (fun hi' => absurd hi' hi) (fun hi' => absurd hi' hi)

/-- The CPU reads the start of its major frame, and goes to the end of its minor frame. -/
lemma Ok.readStart (h : Ok B s) {major : P.Major} (hp : (s.cpus i).place = .readStart major)
    (hcpus : s'.cpus = Function.update s.cpus i { s.cpus i with
      place := frameEnd i ⟨major, (s.cpus i).currentMinorFrameID, s.currentMajorStartCycles⟩ })
    (hmajor : s'.currentMajorFrameID = s.currentMajorFrameID)
    (hstart : s'.currentMajorStartCycles = s.currentMajorStartCycles) (hframes : s'.frames = s.frames)
    (huses : s'.uses = ⟨(s.cpus i).switches, major, s.currentMajorStartCycles⟩ :: s.uses)
    (hall : ∃ g, AllOk s' g) : Ok B s' := by
  have hreg : (s.cpus i).place.Regular := by rw [hp]; trivial
  have hc := h.cpu i
  rw [FrameCpu.Ok, hp] at hc
  obtain ⟨-, hcur, -⟩ := h.current hreg
  obtain ⟨hin, rfl⟩ := hc
  have hl : FrameCpu.Loaded i (s.frames (s.cpus i).switches) (s.cpus i)
      ⟨(s.frames (s.cpus i).switches).1, (s.cpus i).currentMinorFrameID, s.currentMajorStartCycles⟩ :=
    ⟨hin, rfl, rfl, hcur⟩
  have hused : ((s.frames (s.cpus i).switches).1, s.currentMajorStartCycles) =
      s.frames (s.cpus i).switches := by rw [hcur]
  rcases frameEnd_cases i ⟨(s.frames (s.cpus i).switches).1, (s.cpus i).currentMinorFrameID,
    s.currentMajorStartCycles⟩ with ⟨next, barrier, hlt, hnext, hb, heq⟩ | ⟨next, hlt, hnext, -, heq⟩ | ⟨hle, heq⟩
  · rw [heq] at hcpus
    exact h.regular hall hcpus hmajor hstart hframes (.inr ⟨_, huses, rfl, hused⟩) hreg (.inl trivial) rfl
      ⟨hl, hlt, hnext, hb⟩ (h.tiles i)
  · rw [heq] at hcpus
    exact h.regular hall hcpus hmajor hstart hframes (.inr ⟨_, huses, rfl, hused⟩) hreg (.inl trivial) rfl
      (hl.entering hlt hnext) (h.tiles i)
  · rw [heq] at hcpus
    exact h.regular hall hcpus hmajor hstart hframes (.inr ⟨_, huses, rfl, hused⟩) hreg (.inr ⟨_, _, rfl⟩) rfl
      ⟨hl, le_antisymm hin.minor_le hle⟩ (h.tiles i)

/-- The BSP selects the next major frame. -/
lemma Ok.writeMajor (h : Ok B s) {l : FrameLocals P} {next : P.Major} {start : Word64}
    (hp : (s.cpus i).place = .writeMajor l next start)
    (hall : ∃ g, AllOk ({ s with currentMajorFrameID := next }.goto i (.writeStart l next start)) g) :
    Ok B ({ s with currentMajorFrameID := next }.goto i (.writeStart l next start)) := by
  have hc := h.cpu i
  rw [FrameCpu.Ok, hp] at hc
  obtain ⟨hl, rfl, hperiod⟩ := hc
  have hglob := h.globals
  rw [GlobalsAt, hp] at hglob
  have hlast : lastFrame { s.cpus B.bsp with place := .writeStart l next start } = lastFrame (s.cpus B.bsp) := by
    rw [lastFrame, lastFrame, hp]
  refine ⟨hall, fun j => ?_, ?_, ?_, ?_, fun j => ?_⟩
  · by_cases hj : j = B.bsp
    · subst hj
      simp only [Frames.goto, setCpu, Function.update_self]
      exact ⟨hl, rfl, hperiod⟩
    · simp only [Frames.goto, setCpu, Function.update_of_ne hj]
      exact h.cpu j
  · simp only [Frames.goto, setCpu, Function.update_self]
    exact ⟨rfl, congrArg Prod.snd hglob⟩
  · simp only [Frames.goto, setCpu, Function.update_self, hlast]
    exact h.periods
  · simp only [Frames.goto, setCpu, Function.update_self, hlast]
    exact h.uses
  · by_cases hj : j = B.bsp
    · subst hj
      simp only [Frames.goto, setCpu, Function.update_self]
      exact h.tiles B.bsp
    · simp only [Frames.goto, setCpu, Function.update_of_ne hj]
      exact h.tiles j

/-- The CPU publishes its next window. -/
lemma Ok.publishMajor (h : Ok B s) {l : FrameLocals P} {start : Word64}
    (hp : (s.cpus i).place = .publishMajor l start) {x : PublishedInfo P}
    (hx : x = ⟨l.majorStart + planDeadline i l.majorID l.minorID,
      start + planDeadline i s.currentMajorFrameID (s.cpus i).currentMinorFrameID, s.currentMajorFrameID,
      (s.cpus i).currentMinorFrameID⟩)
    (hcpus : s'.cpus = Function.update s.cpus i { s.cpus i with
      place := .timerStart
      schedulingInfo := (x.scheduleStart, x.scheduleEnd)
      published := x :: (s.cpus i).published })
    (hmajor : s'.currentMajorFrameID = s.currentMajorFrameID)
    (hstart : s'.currentMajorStartCycles = s.currentMajorStartCycles) (hframes : s'.frames = s.frames)
    (huses : s'.uses = ⟨(s.cpus i).switches, s.currentMajorFrameID, start⟩ :: s.uses) (hall : ∃ g, AllOk s' g) :
    Ok B s' := by
  have hreg : (s.cpus i).place.Regular := by rw [hp]; trivial
  have hc := h.cpu i
  rw [FrameCpu.Ok, hp] at hc
  obtain ⟨hcur, -⟩ := h.current hreg
  obtain ⟨hin, rfl⟩ := hc
  have hend : x.scheduleEnd = x.scheduleStart + frameCycles i x.major x.minor := by
    rw [hx]
    dsimp only
    rw [hcur, hin.start_eq, end_eq_start_add]
  have htiles := (h.tiles i).publish (x := x) (fun hne => by rw [hx]; exact (hin.shown hne).symm)
    (by rw [hx, hcur]; exact hin.minor_le) hend
  refine h.regular hall hcpus hmajor hstart hframes (.inr ⟨_, huses, rfl, ?_⟩) hreg (.inl trivial) rfl
    ⟨hin.minor_le, fun _ => ?_⟩ htiles
  · rw [hcur]
  · rw [hx]
    dsimp only
    rw [hcur]

/-- Every step of a CPU keeps the invariant. -/
lemma Ok.move (h : Ok B s) (hplan : ∀ i M, planDeadline i M (planLength i M) = P.majorFramePeriod M)
    (i : P.Cpu) (input : FrameInput) : Ok B (s.move B i input) := by
  obtain ⟨g, hg⟩ := h.all
  have hall := (move_allStep B s i input h.switches_of_boot).allOk B hg
  have hc := h.cpu i
  have hcurrent := fun hreg : (s.cpus i).place.Regular => h.current hreg
  unfold FrameCpu.Ok at hc
  unfold Frames.move at hall ⊢
  cases hp : (s.cpus i).place with
  | bootWait w =>
    rw [hp] at hc hall
    dsimp only [waitForAll] at hall ⊢
    cases hr : (waitStep w s.allBarrier).1 with
    | none => exact h.goto hp (hr ▸ hall) rfl rfl rfl rfl rfl hc rfl id
    | some w' => exact h.goto hp (hr ▸ hall) rfl rfl rfl rfl rfl hc rfl id
  | schedulerInit => exact h.schedulerInit hp rfl rfl rfl rfl rfl (hp ▸ hall)
  | initBarriers now index =>
    rw [hp] at hc hall
    by_cases hi : index ≤ B.lastBarrier
    · simp only [if_pos hi] at hall ⊢
      exact h.goto hp hall rfl rfl rfl rfl rfl hc rfl id
    · simp only [if_neg hi] at hall ⊢
      exact h.goto hp hall rfl rfl rfl rfl rfl hc rfl id
  | initStart now => exact h.initStart hp rfl rfl rfl rfl rfl (hp ▸ hall)
  | bootSync w =>
    rw [hp] at hc hall
    dsimp only [waitForAll] at hall ⊢
    cases hr : (waitStep w s.allBarrier).1 with
    | none =>
      have hframe : FrameCpu.InFrame i (s.frames (s.cpus i).switches) (s.cpus i) :=
        ⟨hc.minor_eq ▸ Fin.zero_le _, fun hne => absurd hc.published_eq hne⟩
      exact h.goto hp (hr ▸ hall) rfl rfl rfl rfl rfl hframe rfl id
    | some w' => exact h.goto hp (hr ▸ hall) rfl rfl rfl rfl rfl hc rfl id
  | timerStart =>
    rw [hp] at hc hall hcurrent
    exact h.proceed hall rfl rfl rfl rfl rfl (hp ▸ trivial) trivial ⟨hc, (hcurrent trivial).2.1⟩
  | timerMajor start =>
    rw [hp] at hc hall hcurrent
    obtain ⟨hcur, -⟩ := hcurrent trivial
    obtain ⟨hin, rfl⟩ := hc
    refine h.regular hall rfl rfl rfl rfl (.inr ⟨_, rfl, rfl, ?_⟩) (hp ▸ trivial) (.inl trivial) rfl ⟨hin, ?_⟩
      (h.tiles i)
    · rw [hcur]
    · dsimp only
      rw [hcur]
  | guest =>
    rw [hp] at hc hall
    cases hx : input.expiry with
    | true => exact h.proceed (hx ▸ hall) rfl rfl rfl rfl rfl (hp ▸ trivial) trivial hc.1
    | false => exact h.proceed (hx ▸ hall) rfl rfl rfl rfl rfl (hp ▸ trivial) trivial hc.1
  | readMajor =>
    rw [hp] at hc hall hcurrent
    exact h.proceed hall rfl rfl rfl rfl rfl (hp ▸ trivial) trivial ⟨hc, (hcurrent trivial).1⟩
  | readStart major => exact h.readStart hp rfl rfl rfl rfl rfl (hp ▸ hall)
  | minorWait l next barrier w =>
    rw [hp] at hc hall
    obtain ⟨hl, hlt, hnext, hb⟩ := hc
    dsimp only [waitOnMinorFrameBarrier] at hall ⊢
    cases hr : (waitStep w (s.minorFrameBarriers barrier)).1 with
    | none => exact h.proceed (hr ▸ hall) rfl rfl rfl rfl rfl (hp ▸ trivial) trivial (hl.entering hlt hnext)
    | some w' => exact h.proceed (hr ▸ hall) rfl rfl rfl rfl rfl (hp ▸ trivial) trivial ⟨hl, hlt, hnext, hb⟩
  | endWait l w =>
    rw [hp] at hc hall
    dsimp only [waitForAll] at hall ⊢
    cases hr : (waitStep w s.allBarrier).1 with
    | none => exact h.goto hp (hr ▸ hall) rfl rfl rfl rfl rfl hc rfl id
    | some w' => exact h.goto hp (hr ▸ hall) rfl rfl rfl rfl rfl hc rfl id
  | testBSP l =>
    rw [hp] at hc hall
    by_cases hi : i = B.bsp
    · simp only [if_pos hi] at hall ⊢
      exact h.goto hp hall rfl rfl rfl rfl rfl ⟨hc, hi⟩ rfl id
    · simp only [if_neg hi] at hall ⊢
      exact h.update hall rfl rfl rfl rfl (.inl rfl) hc (h.tiles i) (fun hi' => absurd hi' hi)
        (fun hi' => absurd hi' hi)
  | getMajor l =>
    rw [hp] at hc hall
    exact h.goto hp hall rfl rfl rfl rfl rfl hc rfl id
  | addPeriod l next =>
    rw [hp] at hc hall
    obtain ⟨⟨hl, hend⟩, hi⟩ := hc
    have hglob := h.globals
    rw [← hi, GlobalsAt, hp] at hglob
    have hperiod : s.currentMajorStartCycles + P.majorFramePeriod l.majorID =
        (s.frames (s.cpus i).switches).2 + P.majorFramePeriod (s.frames (s.cpus i).switches).1 := by
      rw [← congrArg Prod.snd hglob, hl.majorID]
    exact h.goto hp hall rfl rfl rfl rfl rfl ⟨⟨hl, hend⟩, hi, hperiod⟩ rfl id
  | writeMajor l next start =>
    rw [hp] at hall
    exact h.writeMajor hp hall
  | writeStart l next start => exact h.writeStart hp rfl rfl rfl rfl rfl (hp ▸ hall)
  | setBarriers l next index =>
    rw [hp] at hc hall
    by_cases hi : index ≤ B.lastBarrier
    · simp only [if_pos hi] at hall ⊢
      exact h.goto hp hall rfl rfl rfl rfl rfl hc rfl id
    · simp only [if_neg hi] at hall ⊢
      exact h.goto hp hall rfl rfl rfl rfl rfl hc.1 rfl And.right
  | endSync l w =>
    rw [hp] at hc hall
    dsimp only [waitForAll] at hall ⊢
    cases hr : (waitStep w s.allBarrier).1 with
    | none => exact h.leaveEnd hplan hp rfl rfl rfl rfl rfl (hr ▸ hall)
    | some w' => exact h.goto hp (hr ▸ hall) rfl rfl rfl rfl rfl hc rfl id
  | setMinor l next =>
    rw [hp] at hc hall
    exact h.regular hall rfl rfl rfl rfl (.inl rfl) (hp ▸ trivial) (.inl trivial) rfl hc.1 (h.tiles i)
  | publishStart l =>
    rw [hp] at hc hall hcurrent
    exact h.proceed hall rfl rfl rfl rfl rfl (hp ▸ trivial) trivial ⟨hc, (hcurrent trivial).2.1⟩
  | publishMajor l start => exact h.publishMajor hp rfl rfl rfl rfl rfl rfl (hp ▸ hall)

lemma Booting.ok (h : s.Booting) : Ok B s := by
  have hplaces : s.allPlaces = fun _ => some .readSize := by
    funext j
    rw [allPlaces, (h.cpus j).1]
    rfl
  have harrivals : s.arrivals = fun _ => 0 := by
    funext j
    rw [arrivals, FrameCpu.arrivals, (h.cpus j).1]
    rfl
  have hcard : (Finset.univ : Finset P.Cpu).card = P.cpus := Finset.card_fin P.cpus
  have hpos : 0 < P.cpus := Fin.pos_iff_nonempty.mpr ⟨B.bsp⟩
  have hlast : lastFrame (s.cpus B.bsp) = 0 := by
    rw [lastFrame, (h.cpus B.bsp).1]
    exact (h.cpus B.bsp).2.2.2
  refine ⟨⟨0, ?_⟩, fun j => ?_, ?_, ?_, ?_, fun j => ?_⟩
  · have hinit := consistent_initBarrier (S := (Finset.univ : Finset P.Cpu)) (by omega)
      (by have := B.cpus_lt; omega) (.inr rfl)
    rw [hcard] at hinit
    rw [AllOk, h.allBarrier, hplaces, harrivals]
    exact hinit
  · rw [FrameCpu.Ok, (h.cpus j).1]
    exact ⟨(h.cpus j).2.2.2, (h.cpus j).2.1, (h.cpus j).2.2.1⟩
  · rw [GlobalsAt, (h.cpus B.bsp).1]
    exact ⟨h.majorID, h.uses⟩
  · rw [hlast]
    exact fun r hr => absurd hr (Nat.not_lt_zero r)
  · rw [h.uses]
    exact fun u hu => absurd hu (by simp)
  · rw [FrameCpu.Tiles, (h.cpus j).2.2.1]
    exact ⟨List.IsChain.nil, fun x hx => absurd hx (by simp), fun x hx => absurd hx (by simp)⟩

lemma Reachable.ok (h : s.Reachable B)
    (hplan : ∀ i M, planDeadline i M (planLength i M) = P.majorFramePeriod M) : Ok B s := by
  refine Lib.Reaches.invariant h (Ok B) (fun s hs => hs.ok) (fun s e s' hs _ hstep => ?_)
  obtain rfl := Option.some.inj hstep
  cases e with
  | cpu i input => exact hs.move hplan i input
  | tau0 major => exact ⟨hs.all, hs.cpu, hs.globals, hs.periods, hs.uses, hs.tiles⟩

end Invariant

end Frames

/-! ### Schedule windows -/

/-- The deadlines of the minor frames of every plan are positive and increase, and the last one is the
period of its major frame. -/
structure Policy.Deadlines (P : Policy) : Prop where
  first : ∀ i M, 0 < planDeadline (P := P) i M 0
  increasing : ∀ i M (m m' : P.Minor), m < m' → m' ≤ planLength i M → planDeadline i M m < planDeadline i M m'
  last : ∀ i M, planDeadline i M (planLength (P := P) i M) = P.majorFramePeriod M

/-- A minor frame has a positive length. -/
lemma Policy.Deadlines.frameCycles_pos (h : P.Deadlines) {i : P.Cpu} {M : P.Major} {m : P.Minor}
    (hm : m ≤ planLength i M) : 0 < frameCycles i M m := by
  have hlt : frameOffset i M m < planDeadline i M m := by
    unfold frameOffset
    by_cases hz : m.val = 0
    · rw [if_pos hz, show m = 0 from Fin.ext hz]
      exact h.first i M
    · rw [if_neg hz]
      have hlt : m.val - 1 < m.val := Nat.sub_lt (Nat.pos_of_ne_zero hz) Nat.one_pos
      exact h.increasing i M _ m (Fin.lt_def.mpr hlt) hm
  unfold frameCycles
  rw [BitVec.lt_def] at hlt ⊢
  rw [BitVec.toNat_sub_of_le hlt.le]
  exact Nat.sub_pos_of_lt hlt

lemma lt_add_iff_no_wrap {start cycles : Word64} (hpos : 0 < cycles) :
    start < start + cycles ↔ start.toNat + cycles.toNat < 2 ^ 64 := by
  have hpos' : 0 < cycles.toNat := hpos
  have hlt := start.isLt
  have hlt' := cycles.isLt
  rw [BitVec.lt_def, BitVec.toNat_add]
  by_cases hwrap : start.toNat + cycles.toNat < 2 ^ 64
  · rw [Nat.mod_eq_of_lt hwrap]
    omega
  · rw [Nat.mod_eq_sub_mod (by omega), Nat.mod_eq_of_lt (by omega)]
    omega

/-- The places between the first barrier of a major frame switch and the assignment of the minor frame
that follows are not among these. -/
def FramePlace.InPlan : FramePlace P → Prop
  | .bootWait _ | .schedulerInit | .initBarriers _ _ | .initStart _ | .bootSync _ | .timerStart | .timerMajor _
  | .guest | .readMajor | .readStart _ | .minorWait _ _ _ _ | .publishStart _ | .publishMajor _ _ => True
  | .setMinor _ next => next.val ≠ 0
  | _ => False

lemma Frames.Ok.minor_le {B : BarrierPlan P} {s : Frames P} (h : s.Ok B) {i : P.Cpu}
    (hp : (s.cpus i).place.InPlan) :
    (s.cpus i).currentMinorFrameID ≤ planLength i s.currentMajorFrameID := by
  have hboot : Kernel.AtBoot (s.cpus i).switches (s.cpus i).currentMinorFrameID (s.cpus i).published →
      (s.cpus i).currentMinorFrameID ≤ planLength i s.currentMajorFrameID := by
    intro hc
    rw [hc.minor_eq]
    exact Fin.zero_le _
  have hreg : ∀ p, (s.cpus i).place = p → p.Regular →
      s.currentMajorFrameID = (s.frames (s.cpus i).switches).1 := fun p hq hr => (h.current (hq ▸ hr)).1
  have hc := h.cpu i
  unfold FrameCpu.Ok at hc
  cases hq : (s.cpus i).place <;> rw [hq] at hp hc
  case bootWait => exact hboot hc
  case schedulerInit => exact hboot hc
  case bootSync => exact hboot hc
  case initBarriers => exact hboot hc.1
  case initStart => exact hboot hc.1
  case timerStart => exact hreg _ hq trivial ▸ hc.minor_le
  case timerMajor => exact hreg _ hq trivial ▸ hc.1.minor_le
  case guest => exact hreg _ hq trivial ▸ hc.1.minor_le
  case readMajor => exact hreg _ hq trivial ▸ hc.minor_le
  case readStart => exact hreg _ hq trivial ▸ hc.1.minor_le
  case minorWait => exact hreg _ hq trivial ▸ hc.1.minor_le
  case setMinor => exact hreg _ hq trivial ▸ (hc.2.resolve_left hp).le.trans hc.1.minor_le
  case publishStart => exact hreg _ hq trivial ▸ hc.minor_le
  case publishMajor => exact hreg _ hq trivial ▸ hc.1.minor_le
  all_goals exact hp.elim

/-- In every run the windows that a CPU publishes tile time and last as long as their minor frames, the
current minor frame is one of the plan, the timer is set to the end of the window, and the CPUs agree on
the major frame and its start. -/
theorem windows_tile (hP : P.Deadlines) (B : BarrierPlan P) {s : Frames P} (h : s.Reachable B) :
    (∀ i, (s.cpus i).published.IsChain (fun new old => new.scheduleStart = old.scheduleEnd)) ∧
    (∀ i, ∀ x ∈ (s.cpus i).published,
      x.scheduleEnd = x.scheduleStart + frameCycles i x.major x.minor ∧ 0 < frameCycles i x.major x.minor ∧
      (x.scheduleStart < x.scheduleEnd ↔
        x.scheduleStart.toNat + (frameCycles i x.major x.minor).toNat < 2 ^ 64)) ∧
    (∀ i, (s.cpus i).place.InPlan →
      (s.cpus i).currentMinorFrameID ≤ planLength i s.currentMajorFrameID) ∧
    (∀ i x, (s.cpus i).place = .guest → (s.cpus i).published.head? = some x →
      (s.cpus i).deadline = x.scheduleEnd) ∧
    (∀ u ∈ s.uses, ∀ v ∈ s.uses, u.switches = v.switches → u.major = v.major ∧ u.start = v.start) := by
  have hok := h.ok hP.last
  refine ⟨fun i => (hok.tiles i).chain, ?_, fun i hp => hok.minor_le hp, ?_, ?_⟩
  · intro i x hx
    obtain ⟨hminor, hend⟩ := (hok.tiles i).frame x hx
    have hpos := hP.frameCycles_pos hminor
    refine ⟨hend, hpos, ?_⟩
    rw [hend]
    exact lt_add_iff_no_wrap hpos
  · intro i x hp hx
    have hc := hok.cpu i
    rw [FrameCpu.Ok, hp] at hc
    have hne : (s.cpus i).published ≠ [] := by
      intro hnil
      rw [hnil] at hx
      exact absurd hx (by simp)
    have hinfo := (hok.tiles i).latest x hx
    rw [hc.2, ← hc.1.shown hne, hinfo]
  · intro u hu v hv huv
    have hframe := (hok.uses u hu).2.symm.trans (huv ▸ (hok.uses v hv).2)
    exact ⟨congrArg Prod.fst hframe, congrArg Prod.snd hframe⟩

/-! ### A run into the end of the TSC -/

lemma Frames.Reachable.steps {B : BarrierPlan P} {s : Frames P} (h : s.Reachable B) (es : List (FrameEvent P)) :
    (es.foldl (Frames.step B) s).Reachable B := by
  induction es generalizing s with
  | nil => exact h
  | cons e es ih => exact ih (Lib.Reaches.next h trivial rfl)

/-- A state in which the CPUs start. -/
def bootFrames (P : Policy) : Frames P where
  allBarrier := initBarrier (BitVec.ofNat 8 P.cpus)
  minorFrameBarriers _ := initBarrier 0
  currentMajorFrameID := 0
  currentMajorStartCycles := 0
  newMajor := 0
  cpus _ := ⟨.bootWait .readSize, 0, 0, (0, 0), [], 0⟩
  frames _ := (0, 0)
  uses := []

lemma bootFrames_reachable (B : BarrierPlan P) : (bootFrames P).Reachable B :=
  .start ⟨rfl, rfl, rfl, fun _ => ⟨rfl, rfl, rfl, rfl⟩⟩

/-- One CPU and two major frames, of which the first one has two minor frames. -/
def twoPlans : Policy :=
  { smallPolicy with
    lastMajor := 1
    lastMinor := 1
    schedulingPlans := fun _ major =>
      if major = 0 then ⟨1, fun minor => ⟨0, none, if minor = 0 then 50 else 100⟩⟩
      else ⟨0, fun _ => ⟨0, none, 100⟩⟩
    majorFramePeriod := fun _ => 100 }

instance : NeZero twoPlans.cpus := ⟨by decide⟩

def twoPlansBarriers : BarrierPlan twoPlans := ⟨0, 0, fun _ _ => 1, by decide⟩

lemma twoPlans_deadlines : twoPlans.Deadlines :=
  ⟨by decide, by decide, by decide⟩

/-- Tau0 selects the second major frame, and the CPU makes `n` steps from 150 cycles before the end of the
TSC on. -/
def twoPlansRun (n : ℕ) : Frames twoPlans :=
  (.tau0 1 :: List.replicate n (.cpu 0 ⟨BitVec.ofInt 64 (-150), true⟩)).foldl (Frames.step twoPlansBarriers)
    (bootFrames twoPlans)

lemma twoPlansRun_reachable (n : ℕ) : (twoPlansRun n).Reachable twoPlansBarriers :=
  (bootFrames_reachable twoPlansBarriers).steps _

/-- The end of a window wraps around at the end of the TSC, and the current minor frame is not one of the
next major frame while the switch is made. -/
theorem windows_not_ordered : twoPlans.Deadlines ∧
    (∃ s : Frames twoPlans, s.Reachable twoPlansBarriers ∧ ∃ x ∈ (s.cpus 0).published,
      ¬ x.scheduleStart < x.scheduleEnd) ∧
    ∃ s : Frames twoPlans, s.Reachable twoPlansBarriers ∧
      ¬ (s.cpus 0).currentMinorFrameID ≤ planLength 0 s.currentMajorFrameID := by
  refine ⟨twoPlans_deadlines, ⟨twoPlansRun 45, twoPlansRun_reachable 45, ?_⟩,
    ⟨twoPlansRun 36, twoPlansRun_reachable 36, by decide⟩⟩
  exact ⟨⟨BitVec.ofInt 64 (-50), 50, 1, 0⟩, List.mem_of_mem_head? (by decide), by decide⟩

/-- Two CPUs and two major frames: the first CPU has two minor frames in the first one, the second CPU in the
second one. -/
def twoFrameCpus : Policy :=
  { smallPolicy with
    cpus := 2
    lastMajor := 1
    lastMinor := 1
    subjectCpu := fun _ => 0
    schedulingPlans := fun i major =>
      if major.val = i.val then ⟨1, fun minor => ⟨0, none, if minor = 0 then 50 else 100⟩⟩
      else ⟨0, fun _ => ⟨0, none, 100⟩⟩
    majorFramePeriod := fun _ => 100 }

instance : NeZero twoFrameCpus.cpus := ⟨by decide⟩

def twoFrameBarriers : BarrierPlan twoFrameCpus := ⟨0, 0, fun _ _ => 1, by decide⟩

lemma twoFrameCpus_deadlines : twoFrameCpus.Deadlines :=
  ⟨by decide, by decide, by decide⟩

/-- The CPUs take turns, until the second one is in its second minor frame of the second major frame and the first
one waits for the end of that major frame. -/
def twoFrameRun : Frames twoFrameCpus :=
  (.tau0 1 :: (List.replicate 56 [.cpu 0 ⟨1000, true⟩, .cpu 1 ⟨1000, true⟩]).flatten).foldl
    (Frames.step twoFrameBarriers) (bootFrames twoFrameCpus)

lemma twoFrameRun_reachable : twoFrameRun.Reachable twoFrameBarriers :=
  (bootFrames_reachable twoFrameBarriers).steps _

set_option maxRecDepth 4000 in
/-- The windows of the two CPUs, which meet at the start of the second major frame. -/
theorem windows_tile_twoPlans : twoFrameRun.Reachable twoFrameBarriers ∧
    (twoFrameRun.cpus 0).published = [⟨1100, 1200, 1, 0⟩, ⟨1050, 1100, 0, 1⟩] ∧
    (twoFrameRun.cpus 1).published = [⟨1150, 1200, 1, 1⟩, ⟨1100, 1150, 1, 0⟩] ∧
    (∀ i, (twoFrameRun.cpus i).published.IsChain (fun new old => new.scheduleStart = old.scheduleEnd)) ∧
    (twoFrameRun.cpus 1).deadline = 1200 ∧ twoFrameRun.uses.length = 15 ∧
    ∀ u ∈ twoFrameRun.uses, ∀ v ∈ twoFrameRun.uses, u.switches = v.switches →
      u.major = v.major ∧ u.start = v.start := by
  obtain ⟨hchain, -, -, hdeadline, huses⟩ :=
    windows_tile twoFrameCpus_deadlines twoFrameBarriers twoFrameRun_reachable
  exact ⟨twoFrameRun_reachable, by decide, by decide, hchain,
    hdeadline 1 ⟨1150, 1200, 1, 1⟩ (by decide) (by decide), by decide, huses⟩

end Muen.Kernel
