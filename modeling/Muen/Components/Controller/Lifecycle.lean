import Muen.Components.Controller.Init
import Muen.Lib.Machine
import Mathlib.Logic.Function.Basic

/-!
# Subject lifecycle

`Ctrlr.Lifecycle` of the controller: the state machine of every managed subject and the commands that are
written on its transitions. The first result is about the run dependencies of all subjects.
-/

namespace Muen.Components.Controller

abbrev Unsigned64 := BitVec 64

def wdDisabled : Unsigned64 := 0xFFFFFFFFFFFFFFFF

/-- `Ctrlr.Run_State_Type`. -/
inductive RunState
  | start
  | initial
  | syncing
  | erasing
  | preparing
  | validating
  | running
  | finished
  | resetting
  | error
  | selfControl
  deriving DecidableEq

/-- `Ctrlr.Config.Subject_Config_Type` for `n` managed subjects; there is no `No_Dep` and no
`Null_Reset_Event` in the lists. -/
structure SubjectConfig (n : ℕ) where
  selfGoverned : Bool
  initialErase : Bool
  wdInterval : Unsigned64
  runDeps : List (Fin n × RunState)
  slotID : ℕ
  resetEvents : List ℕ

/-- `Subject_Lifecycle_State_Type`. -/
structure LifecycleState where
  currentState : RunState
  currentEpoch : Unsigned64
  currentEra : Unsigned64
  deriving DecidableEq

/-- The fields of `Command_Interface_Type`. -/
structure CommandPage where
  command : Command
  epoch : Unsigned64
  watchdogInterval : Unsigned64
  deriving DecidableEq

def hasError (state : SubjectState) : Bool := decide (state &&& SubjectState.error > 0)

/-- `Get_Next_State`, with the result of `Run_Dependencies_Satisfied`. -/
def getNextState {n : ℕ} (cfg : SubjectConfig n) (l : LifecycleState) (dependencies : Bool) (state : SubjectState)
    (controlEra : Unsigned64) : RunState :=
  match l.currentState with
  | .start | .resetting => .initial
  | .initial =>
    if cfg.selfGoverned then (if dependencies then .selfControl else .initial)
    else if state = SubjectState.initial then .syncing else .initial
  | .syncing =>
    if state = SubjectState.synced then (if cfg.initialErase then .erasing else .preparing) else .syncing
  | .erasing =>
    if state = SubjectState.erased then .preparing else if hasError state then .error else .erasing
  | .preparing =>
    if state = SubjectState.prepared then .validating else if hasError state then .error else .preparing
  | .validating =>
    if state = SubjectState.validated ∧ dependencies then .running
    else if hasError state then .error else .validating
  | .running =>
    if l.currentEra ≠ controlEra then .resetting
    else if state = SubjectState.finished then .finished
    else if hasError state then .error else .running
  | .selfControl =>
    if l.currentEra ≠ controlEra then .resetting
    else if state = SubjectState.finished then .finished
    else if hasError state then .error else .selfControl
  | .finished => if l.currentEra ≠ controlEra then .resetting else .finished
  | .error => if l.currentEra ≠ controlEra then .resetting else .error

/-- `Perform_Transition` with the update of the current state: the lifecycle, the command page and the
reset events that are triggered. -/
def performTransition {n : ℕ} (cfg : SubjectConfig n) (l : LifecycleState) (page : CommandPage) (newState : RunState)
    (era : Unsigned64) : LifecycleState × CommandPage × List ℕ :=
  let l' := { l with currentState := newState }
  match newState with
  | .initial =>
    let epoch := l.currentEpoch + 1
    ({ l' with currentEpoch := epoch },
      ⟨if cfg.selfGoverned then Command.selfCtrl else Command.nop, epoch, cfg.wdInterval⟩, [])
  | .syncing => (l', { page with command := Command.sync }, [])
  | .erasing => (l', { page with command := Command.erase }, [])
  | .preparing => (l', { page with command := Command.prepare }, [])
  | .validating => (l', { page with command := Command.validate }, [])
  | .running => (l', { page with command := Command.run }, [])
  | .selfControl => (l', { page with command := Command.selfCtrl }, [])
  | .resetting => ({ l' with currentEra := era }, { page with command := Command.nop }, cfg.resetEvents)
  | .error | .start | .finished => (l', page, [])

/-- `Process` behind the reads of the status and of the era. -/
def process {n : ℕ} (cfg : SubjectConfig n) (l : LifecycleState) (page : CommandPage) (dependencies : Bool)
    (state : SubjectState) (era : Unsigned64) : LifecycleState × CommandPage × List ℕ :=
  let newState := getNextState cfg l dependencies state era
  if newState ≠ l.currentState then performTransition cfg l page newState era else (l, page, [])

/-! ### All subjects -/

/-- The controller and the subjects that it manages, with the subjects whose run dependencies were found to be
satisfied at a step of the controller in their current epoch. -/
structure Subjects (n : ℕ) where
  states : Fin n → LifecycleState
  commandPages : Fin n → CommandPage
  statusPages : Fin n → SubjectState
  /-- `Slot_Control_1.Era`. -/
  era : Unsigned64
  places : Fin n → Place
  satisfied : Fin n → Bool

/-- A step of the controller, of a subject, or of the kernel. -/
inductive SubjectEvent (n : ℕ)
  /-- `Requests.Process` with the bit of pending reset requests. -/
  | requests (pending : Bool)
  | process (id : Fin n)
  | subject (id : Fin n) (outcome : Bool)
  | writeStatus (id : Fin n) (state : SubjectState)
  | kernelReset (id : Fin n)
  deriving DecidableEq

variable {n : ℕ}

namespace Subjects

def runDependenciesSatisfied (cfg : Fin n → SubjectConfig n) (s : Subjects n) (id : Fin n) : Bool :=
  (cfg id).runDeps.all (fun dep => (s.states dep.1).currentState = dep.2)

/-- `Slot_Control.Get_Current_Era`. -/
def getCurrentEra (cfg : Fin n → SubjectConfig n) (s : Subjects n) (id : Fin n) : Unsigned64 :=
  if (cfg id).slotID = 1 then s.era else 0

/-- The record behind a step of the controller: an epoch ends when the next one begins. -/
def observe (cfg : Fin n → SubjectConfig n) (before after : Subjects n) : Subjects n :=
  { after with
    satisfied := fun id =>
      (decide ((after.states id).currentEpoch = (before.states id).currentEpoch) && before.satisfied id) ||
        before.runDependenciesSatisfied cfg id }

def step (cfg : Fin n → SubjectConfig n) (s : Subjects n) : SubjectEvent n → Option (Subjects n)
  | .requests pending => some (s.observe cfg { s with era := if pending then s.era + 1 else s.era })
  | .process id =>
    let r := process (cfg id) (s.states id) (s.commandPages id) (s.runDependenciesSatisfied cfg id)
      (s.statusPages id) (s.getCurrentEra cfg id)
    some (s.observe cfg
      { s with
        states := Function.update s.states id r.1
        commandPages := Function.update s.commandPages id r.2.1 })
  | .subject id outcome =>
    some { s with
      places := Function.update s.places id ((s.places id).next (s.commandPages id).command outcome)
      statusPages := Function.update s.statusPages id ((s.places id).writeStatus (s.statusPages id)) }
  | .writeStatus id state => some { s with statusPages := Function.update s.statusPages id state }
  | .kernelReset id => some { s with places := Function.update s.places id .statusInitialize }

/-- The start of the controller. -/
def Init (s : Subjects n) : Prop := ∀ id, s.states id = ⟨.start, 0, 0⟩ ∧ s.places id = .statusInitialize

/-- The page holds a permission to run. -/
def Permitted (s : Subjects n) (id : Fin n) : Prop :=
  (s.commandPages id).command = Command.run ∨ (s.commandPages id).command = Command.selfCtrl

/-- An epoch of a self-governed subject begins with its run dependencies satisfied. -/
def Allowed (cfg : Fin n → SubjectConfig n) (s : Subjects n) : SubjectEvent n → Prop
  | .process id => (cfg id).selfGoverned →
      (s.states id).currentState = .start ∨ (s.states id).currentState = .resetting →
      s.runDependenciesSatisfied cfg id
  | _ => True

instance (cfg : Fin n → SubjectConfig n) (s : Subjects n) (e : SubjectEvent n) : Decidable (s.Allowed cfg e) :=
  match e with
  | .process _ => inferInstanceAs (Decidable (_ → _ → _))
  | .requests _ | .subject _ _ | .writeStatus _ _ | .kernelReset _ => inferInstanceAs (Decidable True)

/-- Whoever has a permission to run in an epoch was allowed to get it in that epoch. -/
def Gated (s : Subjects n) : Prop :=
  ∀ id, (s.states id).currentState ≠ .start → s.Permitted id → s.satisfied id

end Subjects

section Transition

variable (cfg : SubjectConfig n) (l : LifecycleState) (page : CommandPage) (dependencies : Bool) (state : SubjectState)
  (era : Unsigned64)

lemma getNextState_ne_start : getNextState cfg l dependencies state era ≠ .start := by
  cases hcurrent : l.currentState <;> grind [getNextState]

lemma getNextState_of_start (h : l.currentState = .start ∨ l.currentState = .resetting) :
    getNextState cfg l dependencies state era = .initial := by
  unfold getNextState
  rcases h with h | h <;> rw [h]

/-- The state before an epoch. -/
lemma of_getNextState_initial (hne : getNextState cfg l dependencies state era ≠ l.currentState)
    (h : getNextState cfg l dependencies state era = .initial) :
    l.currentState = .start ∨ l.currentState = .resetting := by
  cases hcurrent : l.currentState <;> grind [getNextState]

/-- The gate on the two states with a permission. -/
lemma dependencies_of_getNextState (hne : getNextState cfg l dependencies state era ≠ l.currentState)
    (h : getNextState cfg l dependencies state era = .running ∨
      getNextState cfg l dependencies state era = .selfControl) : dependencies := by
  cases hcurrent : l.currentState <;> grind [getNextState]

lemma performTransition_currentState (newState : RunState) :
    (performTransition cfg l page newState era).1.currentState = newState := by
  cases newState <;> rfl

lemma performTransition_currentEpoch (newState : RunState) (h : newState ≠ .initial) :
    (performTransition cfg l page newState era).1.currentEpoch = l.currentEpoch := by
  cases newState <;> first | rfl | exact absurd rfl h

/-- The transitions that write no permission. -/
lemma performTransition_command (newState : RunState) (hinitial : newState ≠ .initial) (hrunning : newState ≠ .running)
    (hself : newState ≠ .selfControl) :
    (performTransition cfg l page newState era).2.1 = page ∨
      (performTransition cfg l page newState era).2.1.command ≠ Command.run ∧
      (performTransition cfg l page newState era).2.1.command ≠ Command.selfCtrl := by
  cases newState with
  | initial => exact absurd rfl hinitial
  | running => exact absurd rfl hrunning
  | selfControl => exact absurd rfl hself
  | start | finished | error => exact Or.inl rfl
  | syncing | erasing | preparing | validating | resetting =>
    refine Or.inr ⟨?_, ?_⟩ <;> simp only [performTransition] <;> decide

/-- What a step of the lifecycle of a subject does about the permission to run. -/
lemma process_cases :
    (l.currentState = .start ∨ l.currentState = .resetting) ∧
      (process cfg l page dependencies state era).1.currentState = .initial ∧
      (process cfg l page dependencies state era).2.1.command = (if cfg.selfGoverned then Command.selfCtrl else Command.nop) ∨
    l.currentState ≠ .start ∧ (process cfg l page dependencies state era).1.currentState ≠ .start ∧
      (process cfg l page dependencies state era).1.currentEpoch = l.currentEpoch ∧
      ((process cfg l page dependencies state era).2.1 = page ∨ dependencies ∨
        (process cfg l page dependencies state era).2.1.command ≠ Command.run ∧
        (process cfg l page dependencies state era).2.1.command ≠ Command.selfCtrl) := by
  by_cases hepoch : l.currentState = .start ∨ l.currentState = .resetting
  · have hnext := getNextState_of_start cfg l dependencies state era hepoch
    have hne : RunState.initial ≠ l.currentState := by
      rcases hepoch with h | h <;> rw [h] <;> decide
    refine Or.inl ⟨hepoch, ?_⟩
    simp only [process, hnext, if_pos hne]
    exact ⟨rfl, rfl⟩
  · have hstart : l.currentState ≠ .start := fun h => hepoch (Or.inl h)
    refine Or.inr ⟨hstart, ?_⟩
    by_cases hne : getNextState cfg l dependencies state era ≠ l.currentState
    · have hinitial : getNextState cfg l dependencies state era ≠ .initial :=
        fun h => hepoch (of_getNextState_initial cfg l dependencies state era hne h)
      simp only [process, if_pos hne]
      refine ⟨?_, performTransition_currentEpoch cfg l page era _ hinitial, ?_⟩
      · rw [performTransition_currentState]
        exact getNextState_ne_start cfg l dependencies state era
      · by_cases hgate : getNextState cfg l dependencies state era = .running ∨
            getNextState cfg l dependencies state era = .selfControl
        · exact Or.inr (Or.inl (dependencies_of_getNextState cfg l dependencies state era hne hgate))
        · push Not at hgate
          rcases performTransition_command cfg l page era _ hinitial hgate.1 hgate.2 with h | h
          · exact Or.inl h
          · exact Or.inr (Or.inr h)
    · simp only [process, if_neg hne]
      exact ⟨hstart, trivial, Or.inl trivial⟩

end Transition

namespace Subjects

variable {cfg : Fin n → SubjectConfig n} {before after s : Subjects n}

lemma satisfied_observe {id : Fin n} (hepoch : (after.states id).currentEpoch = (before.states id).currentEpoch)
    (h : before.satisfied id) : (before.observe cfg after).satisfied id := by
  simp [observe, hepoch, h]

lemma satisfied_observe_of_dependencies {id : Fin n} (h : before.runDependenciesSatisfied cfg id) :
    (before.observe cfg after).satisfied id := by
  simp [observe, h]

lemma permitted_iff_of_command_eq {id : Fin n}
    (h : (after.commandPages id).command = (before.commandPages id).command) :
    after.Permitted id ↔ before.Permitted id := by
  simp only [Permitted, h]

/-- The subjects that a step of the controller is not about. -/
lemma gated_of_same {id : Fin n} (hstates : after.states id = before.states id)
    (hpages : after.commandPages id = before.commandPages id)
    (h : (before.states id).currentState ≠ .start → before.Permitted id → before.satisfied id) :
    (after.states id).currentState ≠ .start → after.Permitted id → (before.observe cfg after).satisfied id := by
  intro hstart hpermitted
  rw [hstates] at hstart
  have hbefore : before.Permitted id := (permitted_iff_of_command_eq (by rw [hpages])).mp hpermitted
  exact satisfied_observe (by rw [hstates]) (h hstart hbefore)

/-- `Process` keeps the gate where it begins an epoch with the dependencies satisfied. -/
lemma Gated.process (hgated : s.Gated) (id : Fin n) (hallowed : s.Allowed cfg (.process id)) {s' : Subjects n}
    (hstep : s.step cfg (.process id) = some s') : s'.Gated := by
  simp only [step, Option.some.injEq] at hstep
  subst hstep
  set r := Controller.process (cfg id) (s.states id) (s.commandPages id) (s.runDependenciesSatisfied cfg id)
    (s.statusPages id) (s.getCurrentEra cfg id) with hr
  intro id' hstart hpermitted
  by_cases hid : id' = id
  · subst hid
    have hcases := process_cases (cfg id') (s.states id') (s.commandPages id') (s.runDependenciesSatisfied cfg id')
      (s.statusPages id') (s.getCurrentEra cfg id')
    rw [← hr] at hcases
    have hpage : r.2.1.command = Command.run ∨ r.2.1.command = Command.selfCtrl := by
      simpa [Permitted, observe] using hpermitted
    rcases hcases with ⟨hepoch, -, hcommand⟩ | ⟨hbefore, -, hepoch, hpages | hdependencies | hcommand⟩
    · by_cases hself : (cfg id').selfGoverned
      · exact satisfied_observe_of_dependencies (hallowed hself hepoch)
      · rw [if_neg hself] at hcommand
        rw [hcommand] at hpage
        exact absurd hpage (by decide)
    · have hpermitted' : s.Permitted id' := by
        rw [hpages] at hpage
        exact hpage
      exact satisfied_observe (by simpa using hepoch) (hgated id' hbefore hpermitted')
    · exact satisfied_observe_of_dependencies hdependencies
    · exact absurd hpage (not_or.mpr hcommand)
  · refine gated_of_same (Function.update_of_ne hid _ _) (Function.update_of_ne hid _ _) (hgated id') ?_ ?_
    · exact hstart
    · exact hpermitted

lemma Gated.step (hgated : s.Gated) (e : SubjectEvent n) (hallowed : s.Allowed cfg e) {s' : Subjects n}
    (hstep : s.step cfg e = some s') : s'.Gated := by
  cases e with
  | requests pending =>
    simp only [Subjects.step, Option.some.injEq] at hstep
    subst hstep
    exact fun id hstart hpermitted => satisfied_observe rfl (hgated id hstart hpermitted)
  | process id => exact hgated.process id hallowed hstep
  | subject id outcome | writeStatus id state | kernelReset id =>
    simp only [Subjects.step, Option.some.injEq] at hstep
    subst hstep
    exact hgated

/-- The only way into `Set_Initializing`. -/
lemma permitted_of_setInitializing {id : Fin n} {outcome : Bool} (hne : s.places id ≠ .setInitializing)
    (h : (s.places id).next (s.commandPages id).command outcome = .setInitializing) : s.Permitted id := by
  cases hplace : s.places id <;> grind [Place.next, waitForNext, Permitted]

end Subjects

/-- In a run in which every epoch of a self-governed subject begins with its run dependencies satisfied, each
permission to run is one of an epoch in which they were satisfied, and so is the permission that an incarnation
reads before `Initialize` returns with success. -/
theorem permission_gated {n : ℕ} (cfg : Fin n → SubjectConfig n) (s : Subjects n)
    (hs : Lib.Reaches (Subjects.step cfg) (Subjects.Allowed cfg) Subjects.Init s) :
    s.Gated ∧
      ∀ id outcome, (s.states id).currentState ≠ .start → s.places id ≠ .setInitializing →
        (s.places id).next (s.commandPages id).command outcome = .setInitializing → s.satisfied id := by
  have hgated : s.Gated := by
    refine hs.invariant Subjects.Gated ?_ ?_
    · intro s₀ hinit id hstart
      exact absurd (congrArg LifecycleState.currentState (hinit id).1) hstart
    · intro s₁ e s₂ hgated hallowed hstep
      exact hgated.step e hallowed hstep
  exact ⟨hgated, fun id outcome hstart hne h => hgated id hstart (Subjects.permitted_of_setInitializing hne h)⟩

/-! ### The configured subjects -/

/-- `Ctrlr.Config.Instance`; the managed subjects are numbered from zero. -/
def instanceConfig : Fin 5 → SubjectConfig 5
  | 0 => ⟨true, false, wdDisabled, [], 0, []⟩
  | 1 => ⟨false, true, wdDisabled, [(0, .finished)], 1, [10, 11]⟩
  | 2 => ⟨true, false, wdDisabled, [(0, .finished)], 0, []⟩
  | 3 => ⟨false, true, wdDisabled, [(0, .finished)], 0, []⟩
  | 4 => ⟨false, true, wdDisabled, [], 1, []⟩

def initialSubjects : Subjects 5 :=
  ⟨fun _ => ⟨.start, 0, 0⟩, fun _ => ⟨Command.nop, 0, 0⟩, fun _ => SubjectState.initial, 0,
    fun _ => .statusInitialize, fun _ => false⟩

/-- The third subject is started when the first one has finished. -/
theorem permission_gated_third :
    ∃ s, Lib.Reaches (Subjects.step instanceConfig) (Subjects.Allowed instanceConfig) Subjects.Init s ∧ s.Gated ∧
      (s.states 2).currentState = .initial ∧ s.Permitted 2 ∧ s.places 2 = .waitForSync ∧ s.satisfied 2 := by
  have hrun : ∃ s, Lib.run (Subjects.step instanceConfig) initialSubjects
      [.process 0, .process 0, .writeStatus 0 SubjectState.finished, .process 0, .process 2, .subject 2 true,
        .subject 2 true] = some s ∧
      (s.states 2).currentState = .initial ∧ s.Permitted 2 ∧ s.places 2 = .waitForSync :=
    ⟨_, rfl, by decide, Or.inr (by decide), by decide⟩
  obtain ⟨s, hs, hinitial, hpermitted, hplace⟩ := hrun
  have hreach : Lib.Reaches (Subjects.step instanceConfig) (Subjects.Allowed instanceConfig) Subjects.Init s :=
    (Lib.Reaches.start (fun _ => ⟨rfl, rfl⟩)).run (by decide) hs
  have hgated := permission_gated instanceConfig s hreach
  exact ⟨s, hreach, hgated.1, hinitial, hpermitted, hplace, hgated.1 2 (by rw [hinitial]; decide) hpermitted⟩

/-- The first run of the controller lets the third subject run, while the first one has not finished. -/
theorem permission_not_gated :
    ∃ s, Lib.Reaches (Subjects.step instanceConfig) (fun _ _ => True) Subjects.Init s ∧
      (s.states 2).currentState ≠ .start ∧ s.Permitted 2 ∧ ¬s.satisfied 2 := by
  have hrun : ∃ s, Lib.run (Subjects.step instanceConfig) initialSubjects
      [.requests false, .process 0, .process 1, .process 2] = some s ∧
      (s.states 2).currentState ≠ .start ∧ s.Permitted 2 ∧ ¬s.satisfied 2 :=
    ⟨_, rfl, by decide, Or.inr (by decide), by decide⟩
  obtain ⟨s, hs, h⟩ := hrun
  exact ⟨s, (Lib.Reaches.start (fun _ => ⟨rfl, rfl⟩)).run (by decide) hs, h⟩

end Muen.Components.Controller
