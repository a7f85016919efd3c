import Muen.Components.Init.Content
import Muen.Lib.Machine

/-!
# Init.Run

`Initialize` with the memory of the subject. Each of its steps may read a command. When it returns with success, the
regions hold their declared content and the hashes are right; when it returns without, the status says so.
-/

namespace Muen.Components.Init
open Muen.Lib Controller

/-- `Initialize` at one of its places, with what it has done. -/
structure InitRun where
  place : Place
  memory : Memory
  log : List Action

namespace Subject

variable (subject : Subject)

/-- What is done to the memory at a place, and the outcome. -/
def operate (m : Memory) : Place → Memory × Bool
  | .statusInitialize => (subject.initializeStatus m, true)
  | .checkInfo => (m, subject.sinfo.isValid)
  | .clearWritable => (subject.clearWritable m, true)
  | .setupWritable => subject.setupWritable m
  | .checkHashes => subject.checkHashes m
  | .waitForSync | .waitForEraseOrPrepare | .waitForPrepare | .waitForValidate | .waitForRun => (m, true)
  | .returned _ => (m, true)
  | place => (subject.setState (place.writeStatus (subject.getState m)) m, true)

/-- A step in which a wait reads the command. One that is not expected is an error with its own diagnostics. -/
def step (s : InitRun) (cmd : Command) : Option InitRun :=
  let (m, outcome) := subject.operate s.memory s.place
  let next := s.place.next cmd outcome
  let m := if s.place.Waits ∧ next = .error then subject.setDiagnostics diagUnexpectedCmd m else m
  some ⟨next, m, s.log ++ s.place.actions cmd outcome⟩

/-- What a region holds in the end. -/
def Restored (erased : Prop) (r : Memregion) (m : Memory) : Prop :=
  match r.content with
  | .fill => r.Holds (BitVec.ofNat 8 r.pattern.val) m
  | .file => erased → r.Holds 0 m
  | .uninitialized => if r.hash = noHash then erased → r.Holds 0 m else subject.CopyOfFile r m

/-- The memory before the regions are set up. -/
structure Cleared (m₀ : Memory) (erased : Prop) (m : Memory) : Prop where
  unchanged : subject.Unchanged subject.processed m₀ m
  zero : erased → ∀ r ∈ subject.processed, r.isSetUp → r.Holds 0 m

structure SetUp (m₀ : Memory) (erased : Prop) (m : Memory) : Prop where
  unchanged : subject.Unchanged subject.processed m₀ m
  restored : ∀ r ∈ subject.processed, r.isSetUp → subject.Restored erased r m

/-- The regions were all validated, and the command behind that was not expected. -/
def Refused (m : Memory) (log : List Action) : Prop :=
  (∀ r ∈ subject.processed, subject.Validated r m) ∧
    ∃ cmd, log.getLast? = some (.received cmd) ∧ cmd ≠ Command.validate ∧ cmd ≠ Command.run ∧ cmd ≠ Command.selfCtrl

variable {subject} {m₀ m m' : Memory} {erased erased' : Prop}

lemma Cleared.same (h : subject.Cleared m₀ erased m) (hsep : subject.Separate) (hsame : subject.SameOff m m') :
    subject.Cleared m₀ erased m' := by
  refine ⟨h.unchanged.same hsame, ?_⟩
  intro he r hr hsetUp a ha
  rw [hsep.kept_processed hr hsame a ha]
  exact h.zero he r hr hsetUp a ha

lemma Restored.same {r : Memregion} (h : subject.Restored erased r m) (hsep : subject.Separate)
    (hr : r ∈ subject.processed) (hsame : subject.SameOff m m') : subject.Restored erased r m' := by
  have hkept := hsep.kept_processed hr hsame
  have hholds : ∀ value, r.Holds value m → r.Holds value m' := by
    intro value hvalue a ha
    rw [hkept a ha]
    exact hvalue a ha
  unfold Restored at h ⊢
  cases hcontent : r.content with
  | fill =>
    simp only [hcontent] at h
    exact hholds _ h
  | file =>
    simp only [hcontent] at h
    exact fun he => hholds 0 (h he)
  | uninitialized =>
    simp only [hcontent] at h
    by_cases hhash : r.hash = noHash
    · rw [if_pos hhash] at h
      simp only [if_pos hhash]
      exact fun he => hholds 0 (h he)
    · rw [if_neg hhash] at h
      simp only [if_neg hhash]
      obtain ⟨src, hfirst, hsize, hbytes⟩ := h
      exact ⟨src, hfirst, hsize, fun hprocess =>
        (hbytes hprocess).kept hsize hkept (hsep.kept_same hfirst.mem hprocess hsame)⟩

lemma SetUp.same (h : subject.SetUp m₀ erased m) (hsep : subject.Separate) (hsame : subject.SameOff m m') :
    subject.SetUp m₀ erased m' :=
  ⟨h.unchanged.same hsame, fun r hr hsetUp => (h.restored r hr hsetUp).same hsep hr hsame⟩

/-- Setting up the regions that were cleared, or that were left as they were. -/
lemma Cleared.setUp (h : subject.Cleared m₀ erased m) (hsep : subject.Separate)
    (hrun : subject.setupWritable m = (m', true)) : subject.SetUp m₀ erased m' := by
  obtain ⟨hunchanged, hprepared⟩ := setupWritable_spec hsep hrun
  refine ⟨?_, ?_⟩
  · intro a ha hout
    rw [hunchanged a ha hout, h.unchanged a ha hout]
  · intro r hr hsetUp
    have hp := hprepared r hr hsetUp
    have hzero : r.Kept m m' → erased → r.Holds 0 m' := by
      intro hkept he a ha
      rw [hkept a ha]
      exact h.zero he r hr hsetUp a ha
    unfold Prepared at hp
    unfold Restored
    cases hcontent : r.content with
    | fill =>
      simp only [hcontent] at hp
      exact hp
    | file =>
      simp only [hcontent] at hp
      exact hzero hp
    | uninitialized =>
      simp only [hcontent] at hp
      by_cases hhash : r.hash = noHash
      · rw [if_pos hhash] at hp
        simp only [if_pos hhash]
        exact hzero hp
      · rw [if_neg hhash] at hp
        simp only [if_neg hhash]
        exact hp

lemma clearWritable_cleared (hsep : subject.Separate) (h : subject.SameOff m₀ m) :
    subject.Cleared m₀ True (subject.clearWritable m) := by
  obtain ⟨hunchanged, hzero⟩ := clearWritable_spec hsep m
  refine ⟨?_, fun _ => hzero⟩
  intro a ha hout
  rw [hunchanged a ha hout, h a ha]

lemma cleared_of_same (h : subject.SameOff m₀ m) (he : ¬erased) : subject.Cleared m₀ erased m :=
  ⟨fun a ha _ => h a ha, fun h => absurd h he⟩

lemma Cleared.mono (h : subject.Cleared m₀ erased m) (he : erased' → erased) : subject.Cleared m₀ erased' m :=
  ⟨h.unchanged, fun h' => h.zero (he h')⟩

lemma Restored.mono {r : Memregion} (h : subject.Restored erased r m) (he : erased' → erased) :
    subject.Restored erased' r m := by
  unfold Restored at h ⊢
  cases hcontent : r.content with
  | fill =>
    simp only [hcontent] at h
    exact h
  | file =>
    simp only [hcontent] at h
    exact fun h' => h (he h')
  | uninitialized =>
    simp only [hcontent] at h
    by_cases hhash : r.hash = noHash
    · rw [if_pos hhash] at h
      simp only [if_pos hhash]
      exact fun h' => h (he h')
    · rw [if_neg hhash] at h
      simp only [if_neg hhash]
      exact h

lemma SetUp.mono (h : subject.SetUp m₀ erased m) (he : erased' → erased) : subject.SetUp m₀ erased' m :=
  ⟨h.unchanged, fun r hr hsetUp => (h.restored r hr hsetUp).mono he⟩

lemma getState_setState (state : SubjectState) (m : Memory) : subject.getState (subject.setState state m) = state := by
  unfold getState setState
  rw [AddressSpace.readLe_writeLe (by decide) state.isLt, BitVec.ofNat_toNat, BitVec.setWidth_eq]

lemma hasError_or (state : SubjectState) : hasError (state ||| SubjectState.error) = true := by
  have hand : (state ||| SubjectState.error) &&& SubjectState.error = SubjectState.error := by
    apply BitVec.eq_of_getLsbD_eq
    intro i _
    rw [BitVec.getLsbD_and, BitVec.getLsbD_or]
    cases state.getLsbD i <;> cases SubjectState.error.getLsbD i <;> rfl
  unfold hasError
  rw [hand]
  decide

/-! ### The places -/

variable (subject m₀) in
/-- The memory and what has been done at a place of `Initialize`. -/
def At (m : Memory) (log : List Action) : Place → Prop
  | .statusInitialize | .checkInfo | .waitForSync | .setSynced | .waitForEraseOrPrepare =>
    subject.SameOff m₀ m ∧ .received Command.erase ∉ log ∧ .checkHashes true ∉ log
  | .setErasing | .clearWritable => subject.SameOff m₀ m ∧ .checkHashes true ∉ log
  | .setErased | .waitForPrepare => subject.Cleared m₀ True m ∧ .checkHashes true ∉ log
  | .setPreparing | .setupWritable =>
    subject.Cleared m₀ (.received Command.erase ∈ log) m ∧ .checkHashes true ∉ log
  | .setPrepared | .waitForValidate | .setValidating | .checkHashes =>
    subject.SetUp m₀ (.received Command.erase ∈ log) m ∧ .checkHashes true ∉ log
  | .setValidated | .waitForRun | .setInitializing | .returned true =>
    subject.SetUp m₀ (.received Command.erase ∈ log) m ∧ ∀ r ∈ subject.processed, subject.Validated r m
  | .error => .checkHashes true ∈ log → subject.Refused m log
  | .returned false =>
    hasError (subject.getState m) = true ∧ (.checkHashes true ∈ log → subject.Refused m log)

lemma Refused.same {log : List Action} (h : subject.Refused m log) (hsep : subject.Separate)
    (hsame : subject.SameOff m m') : subject.Refused m' log :=
  ⟨fun r hr => (h.1 r hr).kept (hsep.kept_processed hr hsame), h.2⟩

lemma step_eq (s : InitRun) (cmd : Command) :
    subject.step s cmd = some ⟨s.place.next cmd (subject.operate s.memory s.place).2,
      if s.place.Waits ∧ s.place.next cmd (subject.operate s.memory s.place).2 = .error then
        subject.setDiagnostics diagUnexpectedCmd (subject.operate s.memory s.place).1
      else (subject.operate s.memory s.place).1,
      s.log ++ s.place.actions cmd (subject.operate s.memory s.place).2⟩ := rfl

/-- A wait goes on, or it ends with the command. -/
lemma step_waits {s s' : InitRun} {cmd : Command} (hwaits : s.place.Waits) (h : subject.step s cmd = some s') :
    s' = s ∨ s.place.next cmd true ≠ s.place ∧ s'.place = s.place.next cmd true ∧
      s'.log = s.log ++ [.received cmd] ∧ subject.SameOff s.memory s'.memory := by
  have hoperate : subject.operate s.memory s.place = (s.memory, true) := by
    rcases hwaits with h | h | h | h | h <;> rw [h] <;> rfl
  rw [step_eq, hoperate] at h
  have hs' := (Option.some.inj h).symm
  simp only [Place.actions, if_pos hwaits] at hs'
  by_cases hstay : s.place.next cmd true = s.place
  · have herror : s.place ≠ .error := by
      rcases hwaits with h | h | h | h | h <;> rw [h] <;> decide
    left
    rw [hs', if_pos hstay, hstay, if_neg (fun h => herror h.2), List.append_nil]
  · right
    rw [if_neg hstay] at hs'
    refine ⟨hstay, by rw [hs'], by rw [hs'], ?_⟩
    rw [hs']
    by_cases herror : s.place.Waits ∧ s.place.next cmd true = .error
    · rw [if_pos herror]
      exact setDiagnostics_same subject _ _
    · rw [if_neg herror]
      exact SameOff.refl _

lemma step_operates {s s' : InitRun} {cmd : Command} (hwaits : ¬s.place.Waits) (h : subject.step s cmd = some s') :
    s' = ⟨s.place.next cmd (subject.operate s.memory s.place).2, (subject.operate s.memory s.place).1,
      s.log ++ s.place.actions cmd (subject.operate s.memory s.place).2⟩ := by
  rw [step_eq, if_neg (fun h => hwaits h.1)] at h
  exact (Option.some.inj h).symm

lemma waitForNext_left {here next : Place} {last expected cmd : Command}
    (h : waitForNext here last expected next cmd ≠ here) :
    waitForNext here last expected next cmd = next ∧ (cmd = expected ∨ cmd = Command.selfCtrl) ∨
      waitForNext here last expected next cmd = .error ∧ cmd ≠ last ∧ cmd ≠ expected ∧ cmd ≠ Command.selfCtrl := by
  unfold waitForNext at h ⊢
  by_cases hlast : cmd = last
  · rw [if_pos hlast] at h
    exact absurd rfl h
  · rw [if_neg hlast]
    by_cases hexpected : cmd = expected ∨ cmd = Command.selfCtrl
    · left
      rw [if_pos hexpected]
      exact ⟨rfl, hexpected⟩
    · right
      rw [if_neg hexpected]
      push Not at hexpected
      exact ⟨rfl, hlast, hexpected⟩

lemma erase_mem_received {log : List Action} {cmd : Command} (h : cmd ≠ Command.erase) :
    Action.received Command.erase ∈ log ++ [.received cmd] ↔ Action.received Command.erase ∈ log := by
  simp [h.symm]

lemma validated_mem_received {log : List Action} {cmd : Command} :
    Action.checkHashes true ∈ log ++ [.received cmd] ↔ Action.checkHashes true ∈ log := by
  simp

/-- A wait that ends keeps what there is to know of the memory. -/
lemma at_wait (hsep : subject.Separate) {place : Place} {log : List Action} {cmd : Command} (hwaits : place.Waits)
    (h : subject.At m₀ m log place) (hleft : place.next cmd true ≠ place) (hsame : subject.SameOff m m') :
    subject.At m₀ m' (log ++ [.received cmd]) (place.next cmd true) := by
  rcases hwaits with rfl | rfl | rfl | rfl | rfl
  · obtain ⟨hoff, herase, hcheck⟩ := h
    rcases waitForNext_left hleft with ⟨hnext, hcmd⟩ | ⟨hnext, -⟩
    · have hne : cmd ≠ Command.erase := by rcases hcmd with rfl | rfl <;> decide
      rw [Place.next, hnext]
      exact ⟨hoff.trans hsame, by rwa [erase_mem_received hne], by rwa [validated_mem_received]⟩
    · rw [Place.next, hnext]
      intro hmem
      exact absurd (validated_mem_received.mp hmem) hcheck
  · obtain ⟨hoff, herase, hcheck⟩ := h
    by_cases hcmd : cmd = Command.erase
    · have hnext : Place.waitForEraseOrPrepare.next cmd true = .setErasing := if_pos hcmd
      rw [hnext]
      exact ⟨hoff.trans hsame, by rwa [validated_mem_received]⟩
    · have hnext : Place.waitForEraseOrPrepare.next cmd true =
          waitForNext .waitForEraseOrPrepare Command.sync Command.prepare .setPreparing cmd := if_neg hcmd
      rw [hnext] at hleft ⊢
      rcases waitForNext_left hleft with ⟨hnext, -⟩ | ⟨hnext, -⟩
      · rw [hnext]
        exact ⟨cleared_of_same (hoff.trans hsame) (by rwa [erase_mem_received hcmd]), by rwa [validated_mem_received]⟩
      · rw [hnext]
        intro hmem
        exact absurd (validated_mem_received.mp hmem) hcheck
  · obtain ⟨hcleared, hcheck⟩ := h
    rcases waitForNext_left hleft with ⟨hnext, -⟩ | ⟨hnext, -⟩
    · rw [Place.next, hnext]
      exact ⟨(hcleared.same hsep hsame).mono (fun _ => trivial), by rwa [validated_mem_received]⟩
    · rw [Place.next, hnext]
      intro hmem
      exact absurd (validated_mem_received.mp hmem) hcheck
  · obtain ⟨hsetUp, hcheck⟩ := h
    rcases waitForNext_left hleft with ⟨hnext, hcmd⟩ | ⟨hnext, -⟩
    · have hne : cmd ≠ Command.erase := by rcases hcmd with rfl | rfl <;> decide
      rw [Place.next, hnext]
      exact ⟨(hsetUp.same hsep hsame).mono (erase_mem_received hne).mp, by rwa [validated_mem_received]⟩
    · rw [Place.next, hnext]
      intro hmem
      exact absurd (validated_mem_received.mp hmem) hcheck
  · obtain ⟨hsetUp, hvalidated⟩ := h
    have hvalidated' : ∀ r ∈ subject.processed, subject.Validated r m' :=
      fun r hr => (hvalidated r hr).kept (hsep.kept_processed hr hsame)
    rcases waitForNext_left hleft with ⟨hnext, hcmd⟩ | ⟨hnext, hcmd⟩
    · have hne : cmd ≠ Command.erase := by rcases hcmd with rfl | rfl <;> decide
      rw [Place.next, hnext]
      exact ⟨(hsetUp.same hsep hsame).mono (erase_mem_received hne).mp, hvalidated'⟩
    · rw [Place.next, hnext]
      intro _
      exact ⟨hvalidated', cmd, by simp, hcmd⟩

variable (subject) in
lemma operate_setState_same {place : Place}
    (h : (subject.operate m place).1 = subject.setState (place.writeStatus (subject.getState m)) m) :
    subject.SameOff m (subject.operate m place).1 := by
  rw [h]
  exact setState_same subject _ _

/-- What is done at any other place leads to what there is to know at the next. -/
lemma at_operate (hsep : subject.Separate) {place : Place} {log : List Action} {cmd : Command} (hwaits : ¬place.Waits)
    (h : subject.At m₀ m log place) :
    subject.At m₀ (subject.operate m place).1 (log ++ place.actions cmd (subject.operate m place).2)
      (place.next cmd (subject.operate m place).2) := by
  unfold Place.actions
  rw [if_neg hwaits]
  cases place with
  | statusInitialize =>
    simp only [List.append_nil]
    exact ⟨h.1.trans (initializeStatus_same subject m), h.2⟩
  | checkInfo =>
    simp only [List.append_nil]
    cases hvalid : (subject.operate m .checkInfo).2 with
    | true => exact h
    | false => exact fun hmem => absurd hmem h.2.2
  | setSynced =>
    simp only [List.append_nil]
    exact ⟨h.1.trans (operate_setState_same subject rfl), h.2⟩
  | setErasing =>
    simp only [List.append_nil]
    exact ⟨h.1.trans (operate_setState_same subject rfl), h.2⟩
  | clearWritable => exact ⟨clearWritable_cleared hsep h.1, by simpa using h.2⟩
  | setErased =>
    simp only [List.append_nil]
    exact ⟨h.1.same hsep (operate_setState_same subject rfl), h.2⟩
  | setPreparing =>
    simp only [List.append_nil]
    exact ⟨h.1.same hsep (operate_setState_same subject rfl), h.2⟩
  | setupWritable =>
    obtain ⟨hcleared, hcheck⟩ := h
    cases hrun : subject.setupWritable m with
    | mk m' success =>
      have hoperate : subject.operate m .setupWritable = (m', success) := hrun
      rw [hoperate]
      cases success with
      | true =>
        exact ⟨(hcleared.setUp hsep hrun).mono (by simp), by simpa using hcheck⟩
      | false =>
        intro hmem
        simp [hcheck] at hmem
  | setPrepared =>
    simp only [List.append_nil]
    exact ⟨h.1.same hsep (operate_setState_same subject rfl), h.2⟩
  | setValidating =>
    simp only [List.append_nil]
    exact ⟨h.1.same hsep (operate_setState_same subject rfl), h.2⟩
  | checkHashes =>
    obtain ⟨hsetUp, hcheck⟩ := h
    cases hrun : subject.checkHashes m with
    | mk m' success =>
      have hoperate : subject.operate m .checkHashes = (m', success) := hrun
      rw [hoperate]
      cases success with
      | true =>
        obtain ⟨hsame, hvalid⟩ := checkHashes_spec hsep hrun
        exact ⟨(hsetUp.same hsep hsame).mono (by simp), hvalid⟩
      | false =>
        intro hmem
        simp [hcheck] at hmem
  | setValidated =>
    have hsame : subject.SameOff m (subject.operate m .setValidated).1 := operate_setState_same subject rfl
    simp only [List.append_nil]
    exact ⟨h.1.same hsep hsame, fun r hr => (h.2 r hr).kept (hsep.kept_processed hr hsame)⟩
  | setInitializing =>
    have hsame : subject.SameOff m (subject.operate m .setInitializing).1 := operate_setState_same subject rfl
    simp only [List.append_nil]
    exact ⟨h.1.same hsep hsame, fun r hr => (h.2 r hr).kept (hsep.kept_processed hr hsame)⟩
  | error =>
    simp only [List.append_nil]
    refine ⟨?_, fun hmem => (h hmem).same hsep (operate_setState_same subject rfl)⟩
    have hstate : subject.getState (subject.operate m .error).1 = subject.getState m ||| SubjectState.error :=
      getState_setState _ m
    rw [hstate]
    exact hasError_or _
  | returned success =>
    simp only [List.append_nil]
    exact h
  | waitForSync | waitForEraseOrPrepare | waitForPrepare | waitForValidate | waitForRun =>
    exact absurd (by decide) hwaits

/-- A step keeps what there is to know of the memory and of what has been done. -/
lemma at_step (hsep : subject.Separate) {s s' : InitRun} {cmd : Command} (h : subject.At m₀ s.memory s.log s.place)
    (hstep : subject.step s cmd = some s') : subject.At m₀ s'.memory s'.log s'.place := by
  by_cases hwaits : s.place.Waits
  · rcases step_waits hwaits hstep with hs' | ⟨hleft, hplace, hlog, hsame⟩
    · rw [hs']
      exact h
    · rw [hplace, hlog]
      exact at_wait hsep hwaits h hleft hsame
  · rw [step_operates hwaits hstep]
    exact at_operate hsep hwaits h

variable (subject m₀) in
/-- `Initialize` from its start. -/
def Initializes : InitRun → Prop :=
  Reaches subject.step (fun _ _ => True) (fun s => s = ⟨.statusInitialize, m₀, []⟩)

theorem initializes_at (hsep : subject.Separate) {s : InitRun} (h : subject.Initializes m₀ s) :
    subject.At m₀ s.memory s.log s.place := by
  apply h.invariant (fun s => subject.At m₀ s.memory s.log s.place)
  · intro s hs
    rw [hs]
    exact ⟨SameOff.refl m₀, by simp, by simp⟩
  · intro s cmd s' hinv _ hstep
    exact at_step hsep hinv hstep

/-- When `Initialize` succeeds, the regions hold what they are declared to hold, and nothing else has changed. When
it fails, the status says so, and the regions are valid only if the last command was not the expected one. -/
theorem initialize_content (hsep : subject.Separate) {s : InitRun} (h : subject.Initializes m₀ s) :
    (s.place = .returned true →
      (∀ r ∈ subject.processed, r.isSetUp → subject.Restored (.received Command.erase ∈ s.log) r s.memory) ∧
      (∀ r ∈ subject.processed, subject.Validated r s.memory) ∧
      subject.Unchanged subject.processed m₀ s.memory) ∧
    (s.place = .returned false →
      hasError (subject.getState s.memory) = true ∧
      (.checkHashes true ∈ s.log → subject.Refused s.memory s.log)) := by
  have hat := initializes_at hsep h
  refine ⟨?_, ?_⟩
  · intro hplace
    rw [hplace] at hat
    exact ⟨hat.1.restored, hat.2, hat.1.unchanged⟩
  · intro hplace
    rw [hplace] at hat
    exact hat

end Subject

/-! ### A subject with a file -/

/-- The hash of 64 zero bytes. -/
def zeroHash : Hash := 0xf5a5fd42d16a20302798ef6ed309979b43003d2320d9f0e8ea9831a92759fb4b

def file : Memregion := ⟨.subjectBinary, .file, false, noPattern, 0x1000, 64, zeroHash, rfl, by decide⟩

/-- A channel with the content of the file. -/
def copy : Memregion :=
  ⟨.subjectChannel, .uninitialized, true, noPattern, 0x2000, 64, zeroHash, rfl, noPattern_uninitialized⟩

def filled : Memregion := ⟨.subject, .fill, true, 0xab, 0x3000, 64, noHash, rfl, by decide⟩

def status : Memregion :=
  ⟨.subject, .uninitialized, true, noPattern, 0x4000, 4096, noHash, rfl, noPattern_uninitialized⟩

def stack : Memregion :=
  ⟨.subject, .uninitialized, true, noPattern, 0x5000, 4096, noHash, rfl, noPattern_uninitialized⟩

/-- A subject with the given resources, whose hash function is right on the file. -/
def fileSubject (resources : List Resource) (h : resources.length = 255) : Subject where
  sinfo := ⟨muenSubjectInfoMagic, "subject", resources, h⟩
  statusAddress := 0x4000
  stackPointer := 0x5ff8
  sha256 := fun bytes => if bytes = List.replicate 64 0 then zeroHash else 0

/-- The regions without and with an empty resource before the one with a pattern. -/
def contiguous : Subject :=
  fileSubject ([.memory file, .memory copy, .memory filled, .memory status, .memory stack] ++ List.replicate 250 .none)
    (by rw [List.length_append, List.length_replicate]; rfl)

def interrupted : Subject :=
  fileSubject ([.memory file, .none, .memory filled, .memory status, .memory stack] ++ List.replicate 250 .none)
    (by rw [List.length_append, List.length_replicate]; rfl)

def fileMemory : Memory := fun a => if a.toNat < 0x2000 then 0 else 0x55

/-- The commands up to the last wait, with one for each step between the waits. -/
def validCommands : List Command :=
  [0, Command.sync, 0, Command.erase, 0, 0, 0, Command.prepare, 0, 0, 0, Command.validate, 0, 0, 0]

namespace Subject

lemma separate_of_ascending {subject : Subject} (h : subject.sinfo.regions.Pairwise (fun r r' =>
      r.address.toNat + r.size.toNat ≤ r'.address.toNat ∧ r'.address.toNat + r'.size.toNat ≤ 2 ^ 64))
    (hstatus : ∀ r ∈ subject.sinfo.regions, subject.isStatus r = false →
      r.address.toNat + r.size.toNat ≤ subject.statusAddress.toNat ∧ subject.statusAddress.toNat + 4096 ≤ 2 ^ 64 ∨
        subject.statusAddress.toNat + 4096 ≤ r.address.toNat ∧ r.address.toNat + r.size.toNat ≤ 2 ^ 64) :
    subject.Separate := by
  refine ⟨h.imp (fun hr => AddressSpace.range_disjoint hr.1 hr.2), ?_⟩
  intro r hr hnot
  rcases hstatus r hr hnot with hbefore | hbehind
  · exact AddressSpace.range_disjoint hbefore.1 hbefore.2
  · exact (AddressSpace.range_disjoint hbehind.1 hbehind.2).symm

end Subject

lemma contiguous_separate : contiguous.Separate := Subject.separate_of_ascending (by decide) (by decide)

lemma interrupted_separate : interrupted.Separate := Subject.separate_of_ascending (by decide) (by decide)

/-- What a run of `Initialize` ends in, from the state behind its first step. -/
lemma initializes_run {β : Type} (subject : Subject) (m₀ : Memory) (commands : List Command) (f : InitRun → β) (b : β)
    (h : (run subject.step ⟨.checkInfo, fun a => if a ∈ AddressSpace.range subject.statusAddress 4096 then 0 else m₀ a,
      []⟩ commands).map f = some b) :
    ∃ s, subject.Initializes m₀ s ∧ f s = b := by
  obtain ⟨s, hrun, hs⟩ := Option.map_eq_some_iff.mp h
  refine ⟨s, ?_, hs⟩
  have hall : ∀ (commands : List Command) s, allowedRun subject.step (fun _ _ => True) s commands = true := by
    intro commands
    induction commands with
    | nil => exact fun _ => rfl
    | cons cmd commands ih =>
      intro s
      simp only [allowedRun, decide_true, Bool.true_and]
      rw [Subject.step_eq]
      exact ih _
  have hstart : subject.Initializes m₀ ⟨.statusInitialize, m₀, []⟩ := Reaches.start rfl
  rw [← Subject.initializeStatus_eq] at hrun
  exact Reaches.run (hstart.next (a := Command.nop) trivial rfl) (hall commands _) hrun

theorem initialize_content_file :
    ∃ s, contiguous.Initializes fileMemory s ∧ (.received Command.erase ∈ s.log) ∧
      contiguous.Restored True copy s.memory ∧ contiguous.Restored True filled s.memory ∧
      contiguous.Validated file s.memory ∧
      contiguous.Unchanged contiguous.processed fileMemory s.memory := by
  obtain ⟨s, hs, hplace⟩ := initializes_run contiguous fileMemory
    (validCommands ++ [Command.run, 0]) (fun s => (s.place, decide (.received Command.erase ∈ s.log)))
    (.returned true, true) (by decide +kernel)
  have herase : Action.received Command.erase ∈ s.log := by simpa using congrArg Prod.snd hplace
  obtain ⟨hrestored, hvalid, hunchanged⟩ :=
    (Subject.initialize_content contiguous_separate hs).1 (congrArg Prod.fst hplace)
  have hcopy := hrestored copy (by decide) (by decide)
  have hfilled := hrestored filled (by decide) (by decide)
  exact ⟨s, hs, herase, hcopy.mono (fun _ => herase), hfilled.mono (fun _ => herase),
    hvalid file (by decide), hunchanged⟩

/-- The regions are validated but for the last command, and a region behind an empty resource is not set up. -/
theorem initialize_not_content :
    (∃ s, contiguous.Separate ∧ contiguous.Initializes fileMemory s ∧ s.place = .returned false ∧
      .checkHashes true ∈ s.log ∧ file ∈ contiguous.sinfo.regions ∧
      contiguous.sha256 (s.memory.read file.address 64) = file.hash) ∧
    ∃ s, interrupted.Separate ∧ interrupted.Initializes fileMemory s ∧ s.place = .returned true ∧
      filled ∈ interrupted.sinfo.regions ∧ s.memory filled.address ≠ BitVec.ofNat 8 filled.pattern.val := by
  refine ⟨?_, ?_⟩
  · obtain ⟨s, hs, hend⟩ := initializes_run contiguous fileMemory
      (validCommands ++ [Command.prepare, 0])
      (fun s => (s.place, decide (.checkHashes true ∈ s.log),
        decide (contiguous.sha256 (s.memory.read file.address 64) = file.hash)))
      (.returned false, true, true) (by decide +kernel)
    simp only [Prod.mk.injEq, decide_eq_true_eq] at hend
    exact ⟨s, contiguous_separate, hs, hend.1, hend.2.1, by decide, hend.2.2⟩
  · obtain ⟨s, hs, hend⟩ := initializes_run interrupted fileMemory
      (validCommands ++ [Command.run, 0])
      (fun s => (s.place, decide (s.memory filled.address ≠ BitVec.ofNat 8 filled.pattern.val)))
      (.returned true, true) (by decide)
    simp only [Prod.mk.injEq, decide_eq_true_eq] at hend
    exact ⟨s, interrupted_separate, hs, hend.1, by decide, hend.2⟩

end Muen.Components.Init
