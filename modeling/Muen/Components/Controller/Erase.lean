import Muen.Components.Controller.Lifecycle

/-!
# Erase before restart

A managed subject with an initial erase, its controller and the kernel that resets it. The controller reads the
status at one step and writes the command at a later one, so a reset can fall between them.
-/

namespace Muen.Components.Controller

/-- An incarnation of the subject with what it has done; a fresh one is the result of a reset. -/
structure Incarnation where
  place : Place
  log : List Action
  fresh : Bool
  deriving DecidableEq

structure ManagedSubject where
  lifecycle : LifecycleState
  commandPage : CommandPage
  status : SubjectState
  /-- The status that `Process` has read. -/
  curState : Option SubjectState
  incarnation : Incarnation
  deriving DecidableEq

inductive ManagedEvent
  /-- `Status.Get_State` in `Process`. -/
  | getState
  /-- The rest of `Process`, where the run dependencies and the era are those of the other subjects. -/
  | process (dependencies : Bool) (era : Unsigned64)
  | subject (outcome : Bool)
  | writeStatus (state : SubjectState)
  | kernelReset
  deriving DecidableEq

namespace ManagedSubject

variable {n : ℕ}

/-- An incarnation from before the first reset, and one behind `Initialize`, runs code that is not known. -/
def Untrusted (s : ManagedSubject) : Prop :=
  s.incarnation.fresh = false ∨ s.incarnation.place = .returned true ∨ s.incarnation.place = .returned false

instance (s : ManagedSubject) : Decidable s.Untrusted := inferInstanceAs (Decidable (_ ∨ _ ∨ _))

def step (cfg : SubjectConfig n) (s : ManagedSubject) : ManagedEvent → Option ManagedSubject
  | .getState => if s.curState = none then some { s with curState := some s.status } else none
  | .process dependencies era =>
    s.curState.map (fun state =>
      let r := Controller.process cfg s.lifecycle s.commandPage dependencies state era
      { s with lifecycle := r.1, commandPage := r.2.1, curState := none })
  | .subject outcome =>
    let cmd := s.commandPage.command
    let place := s.incarnation.place
    some { s with
      status := place.writeStatus s.status
      incarnation := ⟨place.next cmd outcome, s.incarnation.log ++ place.actions cmd outcome, s.incarnation.fresh⟩ }
  | .writeStatus state => if s.Untrusted then some { s with status := state } else none
  | .kernelReset =>
    if s.lifecycle.currentState ≠ .start then some { s with incarnation := ⟨.statusInitialize, [], true⟩ } else none

/-- The start of the controller, over whatever ran before. -/
def Init (s : ManagedSubject) : Prop :=
  s.lifecycle = ⟨.start, 0, 0⟩ ∧ s.curState = none ∧ s.incarnation.fresh = false

end ManagedSubject

/-! ### The command of a state -/

/-- The commands on the page of a managed subject in a state of its lifecycle. -/
def CommandOf : RunState → Command → Prop
  | .start, _ => True
  | .initial, cmd | .resetting, cmd => cmd = Command.nop
  | .syncing, cmd => cmd = Command.sync
  | .erasing, cmd => cmd = Command.erase
  | .preparing, cmd => cmd = Command.prepare
  | .validating, cmd => cmd = Command.validate
  | .running, cmd | .finished, cmd => cmd = Command.run
  | .error, cmd => cmd = Command.erase ∨ cmd = Command.prepare ∨ cmd = Command.validate ∨ cmd = Command.run
  | .selfControl, _ => False

instance (state : RunState) (cmd : Command) : Decidable (CommandOf state cmd) :=
  match state with
  | .start => inferInstanceAs (Decidable True)
  | .initial | .resetting | .syncing | .erasing | .preparing | .validating | .running | .finished =>
    inferInstanceAs (Decidable (_ = _))
  | .error => inferInstanceAs (Decidable (_ ∨ _))
  | .selfControl => inferInstanceAs (Decidable False)

section Command

variable {n : ℕ} {cfg : SubjectConfig n} {l : LifecycleState} {page : CommandPage}

/-- `Process` keeps the command in step with the state. -/
lemma CommandOf.process (hmanaged : cfg.selfGoverned = false) (h : CommandOf l.currentState page.command)
    (dependencies : Bool) (state : SubjectState) (era : Unsigned64) :
    CommandOf (process cfg l page dependencies state era).1.currentState
      (process cfg l page dependencies state era).2.1.command := by
  cases hcurrent : l.currentState <;> rw [hcurrent] at h <;>
    grind [Controller.process, getNextState, performTransition, CommandOf]

lemma CommandOf.ne_selfCtrl {state : RunState} {cmd : Command} (h : CommandOf state cmd) (hstart : state ≠ .start) :
    cmd ≠ Command.selfCtrl := by
  rintro rfl
  cases state <;> first | exact hstart rfl | exact h | exact absurd h (by decide)

lemma CommandOf.eq_syncing {state : RunState} (h : CommandOf state Command.sync) (hstart : state ≠ .start) :
    state = .syncing := by
  cases state <;> first | exact absurd rfl hstart | rfl | exact h.elim | exact absurd h (by decide)

end Command

/-! ### The states of an incarnation -/

/-- What an incarnation has done at a place of `Initialize`. -/
def Place.History : Place → List Action → Prop
  | .statusInitialize, log | .checkInfo, log | .waitForSync, log => log = []
  | .setSynced, log | .waitForEraseOrPrepare, log => log = [.received Command.sync]
  | .setErasing, log | .clearWritable, log => log = [.received Command.sync, .received Command.erase]
  | .setErased, log | .waitForPrepare, log =>
    log = [.received Command.sync, .received Command.erase, .clearWritable]
  | .setPreparing, log | .setupWritable, log =>
    log = [.received Command.sync, .received Command.erase, .clearWritable, .received Command.prepare]
  | .setPrepared, log | .waitForValidate, log =>
    log = [.received Command.sync, .received Command.erase, .clearWritable, .received Command.prepare,
      .setupWritable true]
  | .setValidating, log | .checkHashes, log =>
    log = [.received Command.sync, .received Command.erase, .clearWritable, .received Command.prepare,
      .setupWritable true, .received Command.validate]
  | .setValidated, log | .waitForRun, log =>
    log = [.received Command.sync, .received Command.erase, .clearWritable, .received Command.prepare,
      .setupWritable true, .received Command.validate, .checkHashes true]
  | .setInitializing, log | .returned true, log =>
    log = [.received Command.sync, .received Command.erase, .clearWritable, .received Command.prepare,
      .setupWritable true, .received Command.validate, .checkHashes true, .received Command.run]
  | .error, _ | .returned false, _ => True

/-- A step of `Initialize` extends what the incarnation has done, unless it skips the erase. -/
lemma Place.History.next {place : Place} {log : List Action} (h : place.History log) {cmd : Command}
    (hself : cmd ≠ Command.selfCtrl)
    (herase : place = .waitForEraseOrPrepare → cmd = Command.sync ∨ cmd = Command.erase) (outcome : Bool) :
    (place.next cmd outcome).History (log ++ place.actions cmd outcome) := by
  cases place <;> simp only [History] at h <;>
    grind [Place.next, waitForNext, Place.actions, Place.Waits, Place.History]

/-- A status that does not take the controller out of the erase. -/
def SubjectState.Quiet (state : SubjectState) : Prop := state ≠ SubjectState.erased ∧ hasError state = false

instance (state : SubjectState) : Decidable state.Quiet := inferInstanceAs (Decidable (_ ∧ _))

lemma SubjectState.Quiet.of_eq {state state' : SubjectState} (h : state = state') (hquiet : state'.Quiet) :
    state.Quiet := by
  rw [h]
  exact hquiet

namespace ManagedSubject

/-- The controller waits for the erase, and has read nothing that ends its wait. -/
def Erasing (s : ManagedSubject) : Prop :=
  s.lifecycle.currentState = .erasing ∧ ∀ state ∈ s.curState, state.Quiet

/-- Where the controller is while the incarnation is at a place up to the erase. -/
def Waiting (s : ManagedSubject) : Place → Prop
  | .checkInfo | .waitForSync => s.status.Quiet
  | .setSynced | .waitForEraseOrPrepare => s.status.Quiet ∧ (s.lifecycle.currentState = .syncing ∨ s.Erasing)
  | .setErasing | .clearWritable | .setErased => s.status.Quiet ∧ s.Erasing
  | _ => True

structure Invariant (s : ManagedSubject) : Prop where
  command : CommandOf s.lifecycle.currentState s.commandPage.command
  started : s.incarnation.fresh → s.lifecycle.currentState ≠ .start
  history : s.incarnation.fresh → s.incarnation.place.History s.incarnation.log
  waiting : s.incarnation.fresh → s.Waiting s.incarnation.place

section Steps

variable {cfg : SubjectConfig n} {s s' : ManagedSubject}

/-- A place only rests on the status, on the state of the lifecycle, and on what the controller has read. -/
lemma Waiting.mono {place : Place} (h : s.Waiting place) (hquiet : s.status.Quiet → s'.status.Quiet)
    (hsyncing : s.status.Quiet → s.lifecycle.currentState = .syncing →
      s'.lifecycle.currentState = .syncing ∨ s'.Erasing)
    (herasing : s.status.Quiet → s.Erasing → s'.Erasing) : s'.Waiting place := by
  have hboth : s.status.Quiet → (s.lifecycle.currentState = .syncing ∨ s.Erasing) →
      s'.lifecycle.currentState = .syncing ∨ s'.Erasing := by
    intro hq hor
    rcases hor with hs | he
    · exact hsyncing hq hs
    · exact Or.inr (herasing hq he)
  cases place with
  | checkInfo | waitForSync => exact hquiet h
  | setSynced | waitForEraseOrPrepare => exact ⟨hquiet h.1, hboth h.1 h.2⟩
  | setErasing | clearWritable | setErased => exact ⟨hquiet h.1, herasing h.1 h.2⟩
  | _ => trivial

lemma Invariant.getState (h : s.Invariant) (hstep : s.step cfg .getState = some s') : s'.Invariant := by
  simp only [step] at hstep
  split_ifs at hstep
  obtain rfl := Option.some.inj hstep
  refine ⟨h.command, h.started, h.history, fun hfresh => (h.waiting hfresh).mono id (fun _ hs => Or.inl hs) ?_⟩
  intro hquiet herasing
  refine ⟨herasing.1, ?_⟩
  rintro state ⟨⟩
  exact hquiet

/-- The controller does not end the wait for the erase. -/
lemma process_erasing {l : LifecycleState} (page : CommandPage) {state : SubjectState}
    (hcurrent : l.currentState = .erasing) (hquiet : state.Quiet) (dependencies : Bool) (era : Unsigned64) :
    (Controller.process cfg l page dependencies state era).1.currentState = .erasing := by
  have hnext : getNextState cfg l dependencies state era = .erasing := by
    simp only [getNextState, hcurrent]
    rw [if_neg hquiet.1, if_neg (by rw [hquiet.2]; decide)]
  simp only [Controller.process, hnext, hcurrent, ne_eq, not_true_eq_false, if_false]

/-- Behind the synchronization comes the erase. -/
lemma process_syncing (herase : cfg.initialErase) {l : LifecycleState} (page : CommandPage)
    (hcurrent : l.currentState = .syncing) (dependencies : Bool) (state : SubjectState) (era : Unsigned64) :
    (Controller.process cfg l page dependencies state era).1.currentState = .syncing ∨
      (Controller.process cfg l page dependencies state era).1.currentState = .erasing := by
  by_cases hsynced : state = SubjectState.synced
  · have hnext : getNextState cfg l dependencies state era = .erasing := by
      simp only [getNextState, hcurrent]
      rw [if_pos hsynced, if_pos herase]
    right
    simp [Controller.process, hnext, hcurrent, performTransition_currentState]
  · have hnext : getNextState cfg l dependencies state era = .syncing := by
      simp only [getNextState, hcurrent]
      rw [if_neg hsynced]
    left
    simp [Controller.process, hnext, hcurrent]

lemma Invariant.process (hmanaged : cfg.selfGoverned = false) (herase : cfg.initialErase) (h : s.Invariant)
    {dependencies : Bool} {era : Unsigned64} (hstep : s.step cfg (.process dependencies era) = some s') :
    s'.Invariant := by
  simp only [step, Option.map_eq_some_iff] at hstep
  obtain ⟨state, hread, rfl⟩ := hstep
  refine ⟨h.command.process hmanaged dependencies state era, ?_, h.history, ?_⟩
  · intro hfresh
    rcases process_cases cfg s.lifecycle s.commandPage dependencies state era with ⟨-, hnext, -⟩ | ⟨-, hnext, -⟩
    · show (Controller.process _ _ _ _ _ _).1.currentState ≠ .start
      rw [hnext]
      decide
    · exact hnext
  · intro hfresh
    refine (h.waiting hfresh).mono id ?_ ?_
    · intro _ hsyncing
      rcases process_syncing herase s.commandPage hsyncing dependencies state era with hs | he
      · exact Or.inl hs
      · exact Or.inr ⟨he, by simp⟩
    · intro _ herasing
      exact ⟨process_erasing s.commandPage herasing.1 (herasing.2 state hread) dependencies era, by simp⟩

/-- The command that the incarnation reads while the controller waits for it. -/
lemma Invariant.command_waiting (h : s.Invariant)
    (hwaiting : s.lifecycle.currentState = .syncing ∨ s.Erasing) :
    s.lifecycle.currentState = .syncing ∧ s.commandPage.command = Command.sync ∨
      s.Erasing ∧ s.commandPage.command = Command.erase := by
  have hcommand := h.command
  rcases hwaiting with hs | he
  · rw [hs] at hcommand
    exact Or.inl ⟨hs, hcommand⟩
  · rw [he.1] at hcommand
    exact Or.inr ⟨he, hcommand⟩

lemma Invariant.waiting_next (h : s.Invariant) (hfresh : s.incarnation.fresh) {outcome : Bool}
    (hstatus : s'.status = s.incarnation.place.writeStatus s.status) (hlifecycle : s'.lifecycle = s.lifecycle)
    (hread : s'.curState = s.curState) :
    s'.Waiting (s.incarnation.place.next s.commandPage.command outcome) := by
  have hwaiting := h.waiting hfresh
  have herasing : s.Erasing → s'.Erasing := by
    intro he
    rw [Erasing, hlifecycle, hread]
    exact he
  have hboth : (s.lifecycle.currentState = .syncing ∨ s.Erasing) →
      s'.lifecycle.currentState = .syncing ∨ s'.Erasing := by
    rintro (hs | he)
    · exact Or.inl (by rw [hlifecycle]; exact hs)
    · exact Or.inr (herasing he)
  cases hplace : s.incarnation.place <;> rw [hplace] at hwaiting hstatus <;>
    simp only [Place.next, waitForNext, Place.writeStatus] at hstatus ⊢
  case statusInitialize => exact SubjectState.Quiet.of_eq hstatus (by decide)
  case checkInfo =>
    split_ifs
    · exact SubjectState.Quiet.of_eq hstatus hwaiting
    · trivial
  case waitForSync =>
    split_ifs with hnop hsync
    · exact SubjectState.Quiet.of_eq hstatus hwaiting
    · rcases hsync with hsync | hself
      · refine ⟨SubjectState.Quiet.of_eq hstatus hwaiting, Or.inl ?_⟩
        rw [hlifecycle]
        exact (hsync ▸ h.command).eq_syncing (h.started hfresh)
      · exact absurd hself (h.command.ne_selfCtrl (h.started hfresh))
    · trivial
  case setSynced => exact ⟨SubjectState.Quiet.of_eq hstatus (by decide), hboth hwaiting.2⟩
  case waitForEraseOrPrepare =>
    rcases h.command_waiting hwaiting.2 with ⟨hs, hsync⟩ | ⟨he, herase⟩
    · rw [hsync, if_neg (by decide), if_pos rfl]
      exact ⟨SubjectState.Quiet.of_eq hstatus hwaiting.1, hboth hwaiting.2⟩
    · rw [if_pos herase]
      exact ⟨SubjectState.Quiet.of_eq hstatus hwaiting.1, herasing he⟩
  case setErasing => exact ⟨SubjectState.Quiet.of_eq hstatus (by decide), herasing hwaiting.2⟩
  case clearWritable => exact ⟨SubjectState.Quiet.of_eq hstatus hwaiting.1, herasing hwaiting.2⟩
  all_goals first | trivial | (split_ifs <;> trivial)

lemma Invariant.subject (h : s.Invariant) {outcome : Bool} (hstep : s.step cfg (.subject outcome) = some s') :
    s'.Invariant := by
  obtain rfl := Option.some.inj hstep
  refine ⟨h.command, h.started, fun hfresh => ?_, fun hfresh => h.waiting_next hfresh rfl rfl rfl⟩
  refine (h.history hfresh).next (h.command.ne_selfCtrl (h.started hfresh)) ?_ outcome
  intro hplace
  have hwaiting := h.waiting hfresh
  rw [hplace] at hwaiting
  rcases h.command_waiting hwaiting.2 with ⟨-, hsync⟩ | ⟨-, herase⟩
  · exact Or.inl hsync
  · exact Or.inr herase

/-- What is not known runs only where no place rests on the status. -/
lemma Invariant.writeStatus (h : s.Invariant) {state : SubjectState}
    (hstep : s.step cfg (.writeStatus state) = some s') : s'.Invariant := by
  simp only [step] at hstep
  split_ifs at hstep with huntrusted
  obtain rfl := Option.some.inj hstep
  refine ⟨h.command, h.started, h.history, fun hfresh => ?_⟩
  rcases huntrusted with hold | hreturned | hreturned
  · exact absurd hfresh (by simp [hold])
  · exact hreturned ▸ trivial
  · exact hreturned ▸ trivial

lemma Invariant.kernelReset (h : s.Invariant) (hstep : s.step cfg .kernelReset = some s') : s'.Invariant := by
  simp only [step] at hstep
  split_ifs at hstep with hstart
  obtain rfl := Option.some.inj hstep
  exact ⟨h.command, fun _ => hstart, fun _ => rfl, fun _ => trivial⟩

lemma Invariant.step (hmanaged : cfg.selfGoverned = false) (herase : cfg.initialErase) (h : s.Invariant)
    (e : ManagedEvent) (hstep : s.step cfg e = some s') : s'.Invariant := by
  cases e with
  | getState => exact h.getState hstep
  | process dependencies era => exact h.process hmanaged herase hstep
  | subject outcome => exact h.subject hstep
  | writeStatus state => exact h.writeStatus hstep
  | kernelReset => exact h.kernelReset hstep

end Steps

lemma Init.invariant {s : ManagedSubject} (h : s.Init) : s.Invariant := by
  obtain ⟨hlifecycle, -, hold⟩ := h
  refine ⟨?_, ?_, ?_, ?_⟩
  · rw [hlifecycle]
    trivial
  all_goals exact fun hfresh => absurd hfresh (by simp [hold])

end ManagedSubject

/-- In every run, an incarnation from which `Initialize` returns with success has erased its memory on the command
to do so, has set it up on the next one and checked the hashes on the one behind that. -/
theorem erased_of_returned {n : ℕ} (cfg : SubjectConfig n) (hmanaged : cfg.selfGoverned = false)
    (herase : cfg.initialErase = true) (s : ManagedSubject)
    (hs : Lib.Reaches (ManagedSubject.step cfg) (fun _ _ => True) ManagedSubject.Init s)
    (hfresh : s.incarnation.fresh) (hreturned : s.incarnation.place = .returned true) :
    s.incarnation.log = [.received Command.sync, .received Command.erase, .clearWritable, .received Command.prepare,
      .setupWritable true, .received Command.validate, .checkHashes true, .received Command.run] := by
  have hinv : s.Invariant := by
    refine hs.invariant ManagedSubject.Invariant (fun _ hinit => hinit.invariant) ?_
    intro s₁ e s₂ hinv _ hstep
    exact hinv.step hmanaged herase e hstep
  have hhistory := hinv.history hfresh
  rw [hreturned] at hhistory
  exact hhistory

/-- The second configured subject is reset while the controller acts on a status that its old incarnation wrote. -/
theorem erased_of_returned_second :
    ∃ s, Lib.Reaches (ManagedSubject.step (instanceConfig 1)) (fun _ _ => True) ManagedSubject.Init s ∧
      s.incarnation.fresh ∧ s.incarnation.place = .returned true ∧
      s.incarnation.log = [.received Command.sync, .received Command.erase, .clearWritable,
        .received Command.prepare, .setupWritable true, .received Command.validate, .checkHashes true,
        .received Command.run] := by
  have hrun : ∃ s, Lib.run (ManagedSubject.step (instanceConfig 1))
      ⟨⟨.start, 0, 0⟩, ⟨Command.nop, 0, 0⟩, SubjectState.erased, none, ⟨.returned true, [], false⟩⟩
      [.getState, .process false 0, .writeStatus SubjectState.initial, .getState, .kernelReset, .process false 0,
        .subject true, .subject true, .subject true, .subject true, .getState, .process false 0, .subject true,
        .subject true, .subject true, .subject true, .getState, .process false 0, .subject true, .subject true,
        .subject true, .subject true, .getState, .process false 0, .subject true, .subject true, .subject true,
        .subject true, .getState, .process true 0, .subject true, .subject true] = some s ∧
      s.incarnation.fresh ∧ s.incarnation.place = .returned true := ⟨_, rfl, by decide, by decide⟩
  obtain ⟨s, hs, hfresh, hreturned⟩ := hrun
  have hreach : Lib.Reaches (ManagedSubject.step (instanceConfig 1)) (fun _ _ => True) ManagedSubject.Init s :=
    (Lib.Reaches.start ⟨rfl, rfl, rfl⟩).run (by decide) hs
  exact ⟨s, hreach, hfresh, hreturned, erased_of_returned (instanceConfig 1) rfl rfl s hreach hfresh hreturned⟩

end Muen.Components.Controller
