import Muen.Kernel.Frames

/-!
# No deadlock at the barriers of frames

The barriers of minor frames in a running system. `Alignment` is what the configuration of barriers has to
provide: minor frames that share a barrier end at the same tick, and the size of a barrier is the number
of CPUs that meet there. Under it some CPU can always make a step.
-/

namespace Muen.Kernel

variable {P : Policy}

def planBarrier (i : P.Cpu) (M : P.Major) (m : P.Minor) : Option ℕ :=
  ((P.schedulingPlans i M).minorFrames m).barrier

/-- The CPU waits at the barrier when the minor frame ends. -/
def Meets (i : P.Cpu) (M : P.Major) (b : ℕ) (m : P.Minor) : Prop :=
  m < planLength i M ∧ planBarrier i M m = some b

instance (i : P.Cpu) (M : P.Major) (b : ℕ) (m : P.Minor) : Decidable (Meets i M b m) :=
  inferInstanceAs (Decidable (_ ∧ _))

/-- The CPUs that meet at a barrier. -/
def members (M : P.Major) (b : ℕ) : Finset P.Cpu := Finset.univ.filter (fun i => ∃ m, Meets i M b m)

/-- A configuration of barriers that agrees with the plans: `tick` is the end of a minor frame. -/
structure Alignment (B : BarrierPlan P) where
  tick : P.Major → P.Cpu → P.Minor → ℕ
  increasing : ∀ M i m m', m < m' → m' ≤ planLength i M → tick M i m < tick M i m'
  shared : ∀ M b i m j m', Meets i M b m → Meets j M b m' → tick M i m = tick M j m'
  range : ∀ (M : P.Major) b, (members M b).Nonempty → 1 ≤ b ∧ b ≤ B.lastBarrier
  size : ∀ (M : P.Major) b, (members M b).Nonempty → B.barrierConfig M b = (members M b).card

lemma mem_members {M : P.Major} {b : ℕ} {i : P.Cpu} : i ∈ members M b ↔ ∃ m, Meets i M b m := by
  simp [members]

lemma members_card_lt (B : BarrierPlan P) (M : P.Major) (b : ℕ) : (members M b).card < 256 := by
  have hle := Finset.card_le_univ (members M b)
  have hcard : Fintype.card P.Cpu = P.cpus := Fintype.card_fin P.cpus
  have := B.cpus_lt
  omega

/-- A CPU meets the others at a barrier once in a major frame. -/
lemma Alignment.unique {B : BarrierPlan P} (A : Alignment B) {M : P.Major} {b : ℕ} {i : P.Cpu} {m m' : P.Minor}
    (h : Meets i M b m) (h' : Meets i M b m') : m = m' := by
  have htick := A.shared M b i m i m' h h'
  rcases lt_trichotomy m m' with hlt | heq | hgt
  · exact absurd htick (A.increasing M i m m' hlt h'.1.le).ne
  · exact heq
  · exact absurd htick (A.increasing M i m' m hgt h.1.le).ne'

/-- Whether a CPU has arrived at the barrier when it is done with the minor frames before `p`. -/
def passed (M : P.Major) (b : ℕ) (i : P.Cpu) (p : ℕ) : ℕ :=
  if ∃ m : P.Minor, Meets i M b m ∧ m.val < p then 1 else 0

lemma passed_zero (M : P.Major) (b : ℕ) (i : P.Cpu) : passed M b i 0 = 0 := by
  simp [passed]

lemma passed_le (M : P.Major) (b : ℕ) (i : P.Cpu) (p : ℕ) : passed M b i p = 0 ∨ passed M b i p = 1 := by
  unfold passed
  split <;> simp

/-- The end of a minor frame without this barrier. -/
lemma passed_succ {M : P.Major} {b : ℕ} {i : P.Cpu} {m : P.Minor} (hm : ¬ Meets i M b m) :
    passed M b i (m.val + 1) = passed M b i m.val := by
  unfold passed
  refine if_congr ⟨?_, ?_⟩ rfl rfl
  · rintro ⟨n, hn, hlt⟩
    have hne : n ≠ m := fun h => hm (h ▸ hn)
    have : n.val ≠ m.val := fun h => hne (Fin.ext h)
    exact ⟨n, hn, by omega⟩
  · rintro ⟨n, hn, hlt⟩
    exact ⟨n, hn, by omega⟩

/-- The end of the minor frame with this barrier. -/
lemma Alignment.passed_add {B : BarrierPlan P} (A : Alignment B) {M : P.Major} {b : ℕ} {i : P.Cpu} {m : P.Minor}
    (hm : Meets i M b m) {a : ℕ} (ha : a = 0 ∨ a = 1) : passed M b i (m.val + a) = a := by
  unfold passed
  rcases ha with rfl | rfl
  · refine if_neg ?_
    rintro ⟨n, hn, hlt⟩
    rw [A.unique hn hm] at hlt
    omega
  · exact if_pos ⟨m, hm, by omega⟩

/-! ### The barriers of a major frame -/

/-- The place inside `Wait_On_Minor_Frame_Barrier` for a barrier. -/
def FramePlace.minorPlace (b : ℕ) : FramePlace P → Option WaitState
  | .minorWait _ _ barrier w => if barrier = b then some w else none
  | _ => none

/-- The number of minor frames of the major frame `r` whose barrier the CPU has arrived at. -/
def FrameCpu.progress (r : ℕ) (c : FrameCpu P) : ℕ :=
  if c.switches < r then 0
  else match c.place with
    | .minorWait _ _ _ w => c.currentMinorFrameID.val + w.arrivals
    | .setMinor _ next => next.val
    | _ => c.currentMinorFrameID.val

/-- Nobody is at the barrier. -/
def Idle {ι : Type} (S : Finset ι) (b : SenseBarrier) : Prop :=
  S.Nonempty → ∃ G, Consistent S b (fun _ => none) (fun _ => G) G

lemma Alignment.idle_zero {B : BarrierPlan P} (A : Alignment B) (M : P.Major) (bar : SenseBarrier) {b : ℕ} (hb : b < 1) :
    Idle (members M b) bar := by
  intro hne
  have := (A.range M b hne).1
  omega

/-- A barrier that has been initialised for a major frame. -/
lemma Alignment.idle_init {B : BarrierPlan P} (A : Alignment B) (M : P.Major) (b : ℕ) :
    Idle (members M b) (initBarrier (BitVec.ofNat 8 (B.barrierConfig M b))) := by
  intro hne
  rw [A.size M b hne]
  exact ⟨0, consistent_initBarrier (Finset.card_pos.mpr hne) (members_card_lt B M b) (.inl rfl)⟩

namespace Frames

/-- The barriers of the major frame are ready for use. -/
def Ready (s : Frames P) (M : P.Major) : Prop := ∀ b, Idle (members M b) (s.minorFrameBarriers b)

/-- The barriers while the CPUs are in the major frame `r`. -/
def InUse (s : Frames P) (r : ℕ) : Prop :=
  ∀ b, (members (s.frames r).1 b).Nonempty → ∃ G g,
    Consistent (members (s.frames r).1 b) (s.minorFrameBarriers b)
      (fun i => (s.cpus i).place.minorPlace b)
      (fun i => G + passed (s.frames r).1 b i ((s.cpus i).progress r)) g

/-- The barriers between major frames when the BSP is at a place. -/
def BetweenAt (s : Frames P) (c : FrameCpu P) : Prop :=
  match c.place with
  | .bootWait _ | .schedulerInit => True
  | .initBarriers _ index => ∀ b < index, Idle (members (P := P) 0 b) (s.minorFrameBarriers b)
  | .initStart _ => s.Ready 0
  | .setBarriers _ next index => ∀ b < index, Idle (members next b) (s.minorFrameBarriers b)
  | .endSync _ _ => s.Ready (s.frames (c.switches + 1)).1
  | _ => s.Ready (s.frames c.switches).1

/-- The barriers of minor frames, seen from the number of releases of the barrier of all CPUs. -/
structure MinorOk (B : BarrierPlan P) (s : Frames P) (g : ℕ) : Prop where
  inUse : ∀ r, g = 2 * r + 2 → s.InUse r
  between : (∀ r, g ≠ 2 * r + 2) → s.BetweenAt (s.cpus B.bsp)

section Steps

variable {B : BarrierPlan P} {s s' : Frames P} {i : P.Cpu} {c : FrameCpu P} {g r : ℕ}

lemma use_cpus (s : Frames P) (i : P.Cpu) (major : P.Major) (start : Word64) :
    (s.use i major start).cpus = s.cpus := rfl

/-- A step of the barrier of all CPUs releases nobody, or all of them. -/
lemma AllStep.allOk_cases (B : BarrierPlan P) (hstep : AllStep i s s') (h : AllOk s g) :
    AllOk s' g ∨ AllOk s' (g + 1) ∧ ∀ j, (s.cpus j).arrivals = g + 1 := by
  cases hstep with
  | other hb hp hk =>
    refine .inl ?_
    rw [AllOk, hb, hp, hk]
    exact h
  | enter hb hi hp hk =>
    refine .inl ?_
    rw [AllOk, hb, hp, hk]
    exact h.enter (Finset.mem_univ i) hi
  | wait w hi hb hp hk =>
    have hnew : AllOk s' (g + w.release) := by
      rw [AllOk, hb, hp, hk]
      exact h.step (by simpa using B.cpus_lt) (Finset.mem_univ i) hi
    cases w with
    | writeSense v =>
      exact .inr ⟨hnew, fun j => (h.releaser i (Finset.mem_univ i) _ hi trivial).1 j (Finset.mem_univ j)⟩
    | readSize => exact .inl hnew
    | readSense n => exact .inl hnew
    | getAndIncrement n v => exact .inl hnew
    | clearCount v => exact .inl hnew
    | spin v => exact .inl hnew

/-- A step of a CPU that neither comes from nor goes to a barrier of a minor frame. -/
lemma InUse.quiet (h : s.InUse r) (hcpus : s'.cpus = Function.update s.cpus i c)
    (hbars : s'.minorFrameBarriers = s.minorFrameBarriers) (hframe : s'.frames r = s.frames r)
    (hold : ∀ b, (s.cpus i).place.minorPlace b = none) (hnew : ∀ b, c.place.minorPlace b = none)
    (hpassed : ∀ b, passed (s.frames r).1 b i (c.progress r) =
      passed (s.frames r).1 b i ((s.cpus i).progress r)) : s'.InUse r := by
  intro b hb
  rw [hframe] at hb ⊢
  obtain ⟨G, g, hcons⟩ := h b hb
  refine ⟨G, g, ?_⟩
  rw [hbars]
  refine hcons.congr (fun j _ => ?_) (fun j _ => ?_)
  · rw [hcpus]
    by_cases hji : j = i
    · subst hji
      rw [Function.update_self, hold, hnew]
    · rw [Function.update_of_ne hji]
  · rw [hcpus]
    by_cases hji : j = i
    · subst hji
      rw [Function.update_self, hpassed]
    · rw [Function.update_of_ne hji]

/-- The call of `Wait` at the end of a minor frame. -/
lemma InUse.enter (h : s.InUse r) (hcpus : s'.cpus = Function.update s.cpus i c)
    (hbars : s'.minorFrameBarriers = s.minorFrameBarriers) (hframe : s'.frames r = s.frames r)
    (hold : ∀ b, (s.cpus i).place.minorPlace b = none) {l : FrameLocals P} {next : P.Minor} {barrier : ℕ}
    (hnew : c.place = .minorWait l next barrier .readSize) (hmem : i ∈ members (s.frames r).1 barrier)
    (hprogress : c.progress r = (s.cpus i).progress r) : s'.InUse r := by
  intro b hb
  rw [hframe] at hb ⊢
  obtain ⟨G, g, hcons⟩ := h b hb
  refine ⟨G, g, ?_⟩
  rw [hbars]
  have hk : ∀ j, (s'.cpus j).progress r = (s.cpus j).progress r := by
    intro j
    rw [hcpus]
    by_cases hji : j = i
    · subst hji
      rw [Function.update_self, hprogress]
    · rw [Function.update_of_ne hji]
  by_cases hbb : barrier = b
  · subst hbb
    refine (hcons.enter hmem (hold _)).congr (fun j _ => ?_) (fun j _ => by rw [hk])
    rw [hcpus]
    by_cases hji : j = i
    · subst hji
      rw [Function.update_self, Function.update_self, hnew]
      simp [FramePlace.minorPlace]
    · rw [Function.update_of_ne hji, Function.update_of_ne hji]
  · refine hcons.congr (fun j _ => ?_) (fun j _ => by rw [hk])
    rw [hcpus]
    by_cases hji : j = i
    · subst hji
      rw [Function.update_self, hnew, hold]
      simp [FramePlace.minorPlace, hbb]
    · rw [Function.update_of_ne hji]

/-- A step inside `Wait` at the end of the minor frame. -/
lemma InUse.wait (h : s.InUse r) (A : Alignment B) {l : FrameLocals P} {next : P.Minor} {barrier : ℕ}
    {w : WaitState} (hp : (s.cpus i).place = .minorWait l next barrier w) (hsw : (s.cpus i).switches = r)
    (hmeets : Meets i (s.frames r).1 barrier (s.cpus i).currentMinorFrameID)
    (hnext : next.val = (s.cpus i).currentMinorFrameID.val + 1) :
    (s.waitOnMinorFrameBarrier i barrier w (.minorWait l next barrier) (.setMinor l next)).InUse r := by
  have hold : ∀ b, (s.cpus i).place.minorPlace b = if barrier = b then some w else none := by
    intro b
    rw [hp]
    rfl
  have holdProgress : (s.cpus i).progress r = (s.cpus i).currentMinorFrameID.val + w.arrivals := by
    rw [FrameCpu.progress, if_neg (by omega), hp]
  obtain ⟨c, hcpus, hplace, a, ha, hprogress, harr⟩ : ∃ c : FrameCpu P,
      (s.waitOnMinorFrameBarrier i barrier w (.minorWait l next barrier) (.setMinor l next)).cpus =
        Function.update s.cpus i c ∧
      (∀ b, c.place.minorPlace b = if barrier = b then (waitStep w (s.minorFrameBarriers barrier)).1 else none) ∧
      ∃ a, (a = 0 ∨ a = 1) ∧ c.progress r = (s.cpus i).currentMinorFrameID.val + a ∧
        a = w.arrivals + w.arrival := by
    refine ⟨_, rfl, ?_⟩
    cases hr : (waitStep w (s.minorFrameBarriers barrier)).1 with
    | none =>
      obtain ⟨h1, h0⟩ := waitStep_leaves hr
      refine ⟨fun b => by simp [FramePlace.minorPlace], 1, .inr rfl, ?_, by rw [h1, h0]⟩
      rw [FrameCpu.progress, if_neg (by simp only; omega)]
      exact hnext
    | some w' =>
      refine ⟨fun b => rfl, w'.arrivals, w'.arrivals_le, ?_, waitStep_arrivals hr⟩
      rw [FrameCpu.progress, if_neg (by simp only; omega)]
  intro b hb
  obtain ⟨G, g, hcons⟩ := h b hb
  by_cases hbb : barrier = b
  · subst hbb
    have hmem : i ∈ members (s.frames r).1 barrier := mem_members.mpr ⟨_, hmeets⟩
    refine ⟨G, g + w.release, ?_⟩
    have hstep := hcons.step (members_card_lt B _ _) hmem (x := w) (by rw [hold, if_pos rfl])
    have hbar : (s.waitOnMinorFrameBarrier i barrier w (.minorWait l next barrier)
        (.setMinor l next)).minorFrameBarriers barrier = (waitStep w (s.minorFrameBarriers barrier)).2 :=
      Function.update_self ..
    rw [hbar]
    refine hstep.congr (fun j _ => ?_) (fun j _ => ?_)
    · rw [hcpus]
      by_cases hji : j = i
      · subst hji
        rw [Function.update_self, Function.update_self, hplace, if_pos rfl]
      · rw [Function.update_of_ne hji, Function.update_of_ne hji]
    · rw [hcpus]
      by_cases hji : j = i
      · subst hji
        rw [Function.update_self, Function.update_self, hprogress, holdProgress]
        show G + passed (s.frames r).1 barrier j _ = _
        rw [A.passed_add hmeets ha, A.passed_add hmeets w.arrivals_le, harr, Nat.add_assoc]
      · rw [Function.update_of_ne hji, Function.update_of_ne hji]
        rfl
  · have hbar : (s.waitOnMinorFrameBarrier i barrier w (.minorWait l next barrier)
        (.setMinor l next)).minorFrameBarriers b = s.minorFrameBarriers b :=
      Function.update_of_ne (Ne.symm hbb) ..
    have hother : ¬ Meets i (s.frames r).1 b (s.cpus i).currentMinorFrameID :=
      fun hm => hbb (Option.some.inj (hmeets.2.symm.trans hm.2))
    have hpassed : ∀ a, (a = 0 ∨ a = 1) → passed (s.frames r).1 b i ((s.cpus i).currentMinorFrameID.val + a) =
        passed (s.frames r).1 b i (s.cpus i).currentMinorFrameID.val := by
      rintro a (rfl | rfl)
      · rfl
      · exact passed_succ hother
    refine ⟨G, g, ?_⟩
    rw [hbar]
    refine hcons.congr (fun j _ => ?_) (fun j _ => ?_)
    · rw [hcpus]
      by_cases hji : j = i
      · subst hji
        rw [Function.update_self, hplace, if_neg hbb, hold, if_neg hbb]
      · rw [Function.update_of_ne hji]
    · rw [hcpus]
      by_cases hji : j = i
      · subst hji
        rw [Function.update_self, hprogress, holdProgress]
        show G + passed (s.frames r).1 b j _ = _
        rw [hpassed a ha, hpassed _ w.arrivals_le]
      · rw [Function.update_of_ne hji]
        rfl

/-- While the CPUs are in a major frame, every step keeps the barriers of its minor frames. -/
lemma InUse.move (h : s.InUse r) (A : Alignment B) (hok : s.Ok B) (hall : AllOk s (2 * r + 2)) (i : P.Cpu)
    (input : FrameInput) : (s.move B i input).InUse r := by
  have hc := hok.cpu i
  unfold FrameCpu.Ok at hc
  unfold Frames.move
  cases hall.stage i with
  | before _ hg => omega
  | switching _ hg => omega
  | sync w hp hg =>
    obtain rfl : r = 0 := by omega
    have hquiet : ∀ b, (s.cpus i).place.minorPlace b = none := fun b => by rw [hp]; rfl
    rw [hp]
    dsimp only [waitForAll]
    cases hr : (waitStep w s.allBarrier).1 with
    | none =>
      refine h.quiet rfl rfl rfl hquiet (fun _ => rfl) (fun b => ?_)
      simp only [FrameCpu.progress, hp]
    | some w' =>
      refine h.quiet rfl rfl rfl hquiet (fun _ => rfl) (fun b => ?_)
      simp only [FrameCpu.progress, hp]
  | ending l w hp hg =>
    have hquiet : ∀ b, (s.cpus i).place.minorPlace b = none := fun b => by rw [hp]; rfl
    rw [hp]
    dsimp only [waitForAll]
    cases hr : (waitStep w s.allBarrier).1 with
    | none =>
      refine h.quiet rfl rfl rfl hquiet (fun _ => rfl) (fun b => ?_)
      simp only [FrameCpu.progress, hp]
    | some w' =>
      refine h.quiet rfl rfl rfl hquiet (fun _ => rfl) (fun b => ?_)
      simp only [FrameCpu.progress, hp]
  | ended l w hp hg =>
    have hquiet : ∀ b, (s.cpus i).place.minorPlace b = none := fun b => by rw [hp]; rfl
    have hsw : (s.cpus i).switches + 1 = r := by omega
    have hzero : (s.cpus i).progress r = 0 := if_pos (by omega)
    rw [hp]
    dsimp only [waitForAll]
    cases hr : (waitStep w s.allBarrier).1 with
    | none =>
      refine h.quiet rfl rfl rfl hquiet (fun _ => rfl) (fun b => ?_)
      rw [hzero]
      simp [FrameCpu.progress]
    | some w' =>
      refine h.quiet rfl rfl rfl hquiet (fun _ => rfl) (fun b => ?_)
      rw [hzero, FrameCpu.progress, if_pos (by simp only; omega)]
  | regular hreg hg =>
    have hsw : (s.cpus i).switches = r := by omega
    subst hsw
    cases hp : (s.cpus i).place <;> rw [hp] at hc hreg
    case timerStart =>
      exact h.quiet rfl rfl rfl (fun b => by rw [hp]; rfl) (fun _ => rfl)
        (fun b => by simp only [FrameCpu.progress, hp])
    case timerMajor start =>
      exact h.quiet rfl rfl rfl (fun b => by rw [hp]; rfl) (fun _ => rfl)
        (fun b => by simp only [FrameCpu.progress, hp, use_cpus, lt_irrefl, if_false])
    case guest =>
      cases input.expiry with
      | true =>
        exact h.quiet rfl rfl rfl (fun b => by rw [hp]; rfl) (fun _ => rfl)
          (fun b => by simp only [FrameCpu.progress, hp, if_true])
      | false =>
        exact h.quiet rfl rfl rfl (fun b => by rw [hp]; rfl) (fun _ => rfl)
          (fun b => by simp only [FrameCpu.progress, hp, Bool.false_eq_true, if_false])
    case readMajor =>
      exact h.quiet rfl rfl rfl (fun b => by rw [hp]; rfl) (fun _ => rfl)
        (fun b => by simp only [FrameCpu.progress, hp])
    case readStart major =>
      obtain ⟨hin, rfl⟩ := hc
      have hprogress : (s.cpus i).progress (s.cpus i).switches = (s.cpus i).currentMinorFrameID.val := by
        simp only [FrameCpu.progress, hp, lt_irrefl, if_false]
      dsimp only
      rcases frameEnd_cases i ⟨(s.frames (s.cpus i).switches).1, (s.cpus i).currentMinorFrameID,
        s.currentMajorStartCycles⟩ with ⟨next, barrier, hlt, hnext, hb, heq⟩ | ⟨next, hlt, hnext, hb, heq⟩ | ⟨-, heq⟩
      · rw [heq]
        refine h.enter rfl rfl rfl (fun b => by rw [hp]; rfl) rfl (mem_members.mpr ⟨_, hlt, hb⟩) ?_
        rw [hprogress]
        simp only [FrameCpu.progress, use_cpus, lt_irrefl, if_false, WaitState.arrivals, Nat.add_zero]
      · rw [heq]
        refine h.quiet rfl rfl rfl (fun b => by rw [hp]; rfl) (fun _ => rfl) (fun b => ?_)
        rw [hprogress]
        simp only [FrameCpu.progress, use_cpus, lt_irrefl, if_false]
        rw [hnext]
        refine passed_succ (fun hm => ?_)
        exact absurd (hm.2.symm.trans hb) (by simp)
      · rw [heq]
        refine h.quiet rfl rfl rfl (fun b => by rw [hp]; rfl) (fun _ => rfl) (fun b => ?_)
        rw [hprogress]
        simp only [FrameCpu.progress, use_cpus, lt_irrefl, if_false]
    case minorWait l next barrier w => exact h.wait A hp rfl ⟨hc.2.1, hc.2.2.2⟩ hc.2.2.1
    case setMinor l next =>
      exact h.quiet rfl rfl rfl (fun b => by rw [hp]; rfl) (fun _ => rfl)
        (fun b => by simp only [FrameCpu.progress, hp])
    case publishStart l =>
      exact h.quiet rfl rfl rfl (fun b => by rw [hp]; rfl) (fun _ => rfl)
        (fun b => by simp only [FrameCpu.progress, hp])
    case publishMajor l start =>
      exact h.quiet rfl rfl rfl (fun b => by rw [hp]; rfl) (fun _ => rfl)
        (fun b => by simp only [FrameCpu.progress, hp, use_cpus, lt_irrefl, if_false])
    all_goals exact hreg.elim

/-- All barriers of the major frame have been initialised. -/
lemma ready_of_idle (A : Alignment B) {M : P.Major} {index : ℕ}
    (h : ∀ b < index, Idle (members M b) (s.minorFrameBarriers b)) (hindex : ¬ index ≤ B.lastBarrier) :
    s.Ready M := by
  intro b hne
  refine h b ?_ hne
  have := (A.range M b hne).2
  omega

lemma idle_setBarrier (A : Alignment B) {M : P.Major} {index : ℕ}
    (h : ∀ b < index, Idle (members M b) (s.minorFrameBarriers b)) :
    ∀ b < index + 1, Idle (members M b) ((s.setBarrier B M index).minorFrameBarriers b) := by
  intro b hb
  by_cases hbi : b = index
  · subst hbi
    simp only [setBarrier, Function.update_self]
    exact A.idle_init M b
  · simp only [setBarrier, Function.update_of_ne hbi]
    exact h b (by omega)

/-- The step of a CPU between major frames. -/
lemma BetweenAt.update (h : s.BetweenAt (s.cpus B.bsp)) (hcpus : s'.cpus = Function.update s.cpus i c)
    (hbsp : i = B.bsp → s.BetweenAt (s.cpus i) → s'.BetweenAt c)
    (hother : i ≠ B.bsp → s'.minorFrameBarriers = s.minorFrameBarriers ∧ s'.frames = s.frames) :
    s'.BetweenAt (s'.cpus B.bsp) := by
  rw [hcpus]
  by_cases hi : i = B.bsp
  · rw [← hi] at h ⊢
    rw [Function.update_self]
    exact hbsp hi h
  · rw [Function.update_of_ne (Ne.symm hi)]
    obtain ⟨hbars, hframes⟩ := hother hi
    unfold BetweenAt Ready at h ⊢
    rw [hbars, hframes]
    exact h

/-- Between major frames every step keeps the barriers of minor frames ready, or initialises one. -/
lemma BetweenAt.move (h : s.BetweenAt (s.cpus B.bsp)) (A : Alignment B) (hok : s.Ok B) (hall : AllOk s g)
    (hg : ∀ r, g ≠ 2 * r + 2) (i : P.Cpu) (input : FrameInput) :
    (s.move B i input).BetweenAt ((s.move B i input).cpus B.bsp) := by
  have hc := hok.cpu i
  unfold FrameCpu.Ok at hc
  unfold Frames.move
  have hregular : ¬ (s.cpus i).place.Regular := by
    intro hreg
    cases hall.stage i with
    | before hp _ => exact not_beforeStart_of_regular hreg hp
    | sync w hp _ => rw [hp] at hreg; exact hreg
    | regular _ hg' => exact hg _ hg'
    | ending l w hp _ => rw [hp] at hreg; exact hreg
    | switching hp _ => cases hq : (s.cpus i).place <;> rw [hq] at hp hreg <;> first | exact hp | exact hreg
    | ended l w hp _ => rw [hp] at hreg; exact hreg
  cases hp : (s.cpus i).place with
  | bootWait w =>
    dsimp only [waitForAll]
    cases hr : (waitStep w s.allBarrier).1 with
    | none => exact h.update rfl (fun _ _ => trivial) (fun _ => ⟨rfl, rfl⟩)
    | some w' => exact h.update rfl (fun _ _ => trivial) (fun _ => ⟨rfl, rfl⟩)
  | schedulerInit =>
    by_cases hi : i = B.bsp
    · simp only [if_pos hi]
      exact h.update rfl (fun _ _ b hb => A.idle_zero 0 _ hb) (fun _ => ⟨rfl, rfl⟩)
    · simp only [if_neg hi]
      exact h.update rfl (fun hi' => absurd hi' hi) (fun _ => ⟨rfl, rfl⟩)
  | initBarriers now index =>
    rw [hp] at hc
    by_cases hi : index ≤ B.lastBarrier
    · simp only [if_pos hi]
      refine h.update rfl (fun _ hold => ?_) (fun hi' => absurd hc.2 hi')
      rw [BetweenAt, hp] at hold
      exact idle_setBarrier A hold
    · simp only [if_neg hi]
      refine h.update rfl (fun _ hold => ?_) (fun hi' => absurd hc.2 hi')
      rw [BetweenAt, hp] at hold
      exact ready_of_idle A hold hi
  | initStart now =>
    rw [hp] at hc
    refine h.update rfl (fun _ hold => ?_) (fun hi' => absurd hc.2 hi')
    rw [BetweenAt, hp] at hold
    have hframe : Function.update s.frames 0 ((0 : P.Major), now) (s.cpus i).switches = (0, now) := by
      rw [show (s.cpus i).switches = 0 from hc.1.switches_eq, Function.update_self]
    simp only [BetweenAt, Ready, Frames.goto, setCpu, hframe]
    exact hold
  | bootSync w =>
    dsimp only [waitForAll]
    cases hr : (waitStep w s.allBarrier).1 with
    | none => exact h.update rfl (fun _ hold => by rw [BetweenAt, hp] at hold; exact hold) (fun _ => ⟨rfl, rfl⟩)
    | some w' => exact h.update rfl (fun _ hold => by rw [BetweenAt, hp] at hold; exact hold) (fun _ => ⟨rfl, rfl⟩)
  | endWait l w =>
    dsimp only [waitForAll]
    cases hr : (waitStep w s.allBarrier).1 with
    | none => exact h.update rfl (fun _ hold => by rw [BetweenAt, hp] at hold; exact hold) (fun _ => ⟨rfl, rfl⟩)
    | some w' => exact h.update rfl (fun _ hold => by rw [BetweenAt, hp] at hold; exact hold) (fun _ => ⟨rfl, rfl⟩)
  | testBSP l =>
    by_cases hi : i = B.bsp
    · simp only [if_pos hi]
      exact h.update rfl (fun _ hold => by rw [BetweenAt, hp] at hold; exact hold) (fun _ => ⟨rfl, rfl⟩)
    · simp only [if_neg hi]
      exact h.update rfl (fun hi' => absurd hi' hi) (fun _ => ⟨rfl, rfl⟩)
  | getMajor l =>
    exact h.update rfl (fun _ hold => by rw [BetweenAt, hp] at hold; exact hold) (fun _ => ⟨rfl, rfl⟩)
  | addPeriod l next =>
    exact h.update rfl (fun _ hold => by rw [BetweenAt, hp] at hold; exact hold) (fun _ => ⟨rfl, rfl⟩)
  | writeMajor l next start =>
    exact h.update rfl (fun _ hold => by rw [BetweenAt, hp] at hold; exact hold) (fun _ => ⟨rfl, rfl⟩)
  | writeStart l next start =>
    rw [hp] at hc
    by_cases hn : l.majorID ≠ next
    · simp only [if_pos hn]
      exact h.update rfl (fun _ _ b hb => A.idle_zero next _ hb) (fun hi' => absurd hc.2.1 hi')
    · simp only [if_neg hn]
      refine h.update rfl (fun _ hold => ?_) (fun hi' => absurd hc.2.1 hi')
      rw [BetweenAt, hp] at hold
      have hnext : next = (s.frames (s.cpus i).switches).1 := (not_not.mp hn).symm.trans hc.1.1.majorID
      simp only [BetweenAt, Ready, Frames.goto, setCpu, Function.update_self, hnext]
      exact hold
  | setBarriers l next index =>
    rw [hp] at hc
    by_cases hi : index ≤ B.lastBarrier
    · simp only [if_pos hi]
      refine h.update rfl (fun _ hold => ?_) (fun hi' => absurd hc.2 hi')
      rw [BetweenAt, hp] at hold
      exact idle_setBarrier A hold
    · simp only [if_neg hi]
      refine h.update rfl (fun hbsp hold => ?_) (fun hi' => absurd hc.2 hi')
      rw [BetweenAt, hp] at hold
      have hglob := hok.globals
      rw [← hbsp, GlobalsAt, hp] at hglob
      have hnext : next = (s.frames ((s.cpus i).switches + 1)).1 :=
        hglob.1.symm.trans (congrArg Prod.fst hglob.2)
      rw [hnext] at hold
      exact ready_of_idle A hold hi
  | endSync l w =>
    dsimp only [waitForAll]
    cases hr : (waitStep w s.allBarrier).1 with
    | none => exact h.update rfl (fun _ hold => by rw [BetweenAt, hp] at hold; exact hold) (fun _ => ⟨rfl, rfl⟩)
    | some w' => exact h.update rfl (fun _ hold => by rw [BetweenAt, hp] at hold; exact hold) (fun _ => ⟨rfl, rfl⟩)
  | timerStart | timerMajor _ | guest | readMajor | readStart _ | minorWait _ _ _ _ | setMinor _ _
  | publishStart _ | publishMajor _ _ =>
    rw [hp] at hregular
    exact absurd trivial hregular

/-- All CPUs are released from the first barrier at the end of the major frame `r`. -/
lemma InUse.released (h : s.InUse r) (hok : s.Ok B)
    (hplace : ∀ j, ∃ l w, (s.cpus j).place = .endWait l w ∧ (s.cpus j).switches = r) :
    s.Ready (s.frames r).1 := by
  intro b hb
  obtain ⟨G, g, hcons⟩ := h b hb
  have hall : ∀ j ∈ members (s.frames r).1 b, (s.cpus j).place.minorPlace b = none ∧
      passed (s.frames r).1 b j ((s.cpus j).progress r) = 1 := by
    intro j hj
    obtain ⟨l, w, hp, hsw⟩ := hplace j
    obtain ⟨m, hm⟩ := mem_members.mp hj
    have hc := hok.cpu j
    rw [FrameCpu.Ok, hp, hsw] at hc
    refine ⟨by rw [hp]; rfl, ?_⟩
    rw [FrameCpu.progress, if_neg (by omega), hp]
    refine if_pos ⟨m, hm, ?_⟩
    rw [show (s.cpus j).currentMinorFrameID = planLength j (s.frames r).1 from hc.2]
    exact hm.1
  have hg : G + 1 = g := by
    obtain ⟨j, hj⟩ := hb
    have hpl := hcons.place j hj
    simp only [(hall j hj).1, (hall j hj).2] at hpl
    exact hpl
  subst hg
  exact ⟨G + 1, hcons.congr (fun j hj => (hall j hj).1.symm) (fun j hj => by rw [(hall j hj).2])⟩

/-- All CPUs are released into the major frame `r`. -/
lemma Ready.released (h : s.Ready (s.frames r).1) (hbars : s'.minorFrameBarriers = s.minorFrameBarriers)
    (hframes : s'.frames = s.frames) (hplace : ∀ j b, (s'.cpus j).place.minorPlace b = none)
    (hprogress : ∀ j, (s'.cpus j).progress r = 0) : s'.InUse r := by
  intro b hb
  rw [hframes] at hb ⊢
  obtain ⟨G, hcons⟩ := h b hb
  refine ⟨G, G, ?_⟩
  rw [hbars]
  refine hcons.congr (fun j _ => hplace j b) (fun j _ => ?_)
  rw [hprogress, passed_zero]
  rfl

/-- A CPU that has arrived at the barrier of all CPUs. -/
lemma arrived_cases (hall : AllOk s g) {j : P.Cpu} (hj : (s.cpus j).arrivals = g + 1) :
    (∃ w, (s.cpus j).place = .bootWait w ∧ g = 0) ∨ (∃ w, (s.cpus j).place = .bootSync w ∧ g = 1) ∨
    (∃ l w, (s.cpus j).place = .endWait l w ∧ g = 2 * (s.cpus j).switches + 2) ∨
    (∃ l w, (s.cpus j).place = .endSync l w ∧ g = 2 * (s.cpus j).switches + 3) := by
  obtain hk | ⟨-, w, hw, hw1⟩ := arrivals_cases hall j
  · omega
  · unfold FrameCpu.arrivals at hj
    cases hp : (s.cpus j).place <;> rw [hp] at hw hj
    case bootWait v =>
      obtain rfl := Option.some.inj hw
      simp only [FramePlace.arrivals] at hj
      exact .inl ⟨_, rfl, by omega⟩
    case bootSync v =>
      obtain rfl := Option.some.inj hw
      simp only [FramePlace.arrivals] at hj
      exact .inr (.inl ⟨_, rfl, by omega⟩)
    case endWait l v =>
      obtain rfl := Option.some.inj hw
      simp only [FramePlace.arrivals] at hj
      exact .inr (.inr (.inl ⟨_, _, rfl, by omega⟩))
    case endSync l v =>
      obtain rfl := Option.some.inj hw
      simp only [FramePlace.arrivals] at hj
      exact .inr (.inr (.inr ⟨_, _, rfl, by omega⟩))
    all_goals exact absurd hw (by simp [FramePlace.allPlace])

/-- The step by which the last CPU that arrives at the barrier of all CPUs releases it. -/
lemma MinorOk.release (h : MinorOk B s g) (hok : s.Ok B) (hall : AllOk s g)
    (harrived : ∀ j, (s.cpus j).arrivals = g + 1) (i : P.Cpu) (input : FrameInput) :
    MinorOk B (s.move B i input) (g + 1) := by
  have hcases := fun j => arrived_cases hall (harrived j)
  unfold Frames.move
  rcases hcases i with ⟨w, hp, hg⟩ | ⟨w, hp, hg⟩ | ⟨l, w, hp, hg⟩ | ⟨l, w, hp, hg⟩
  · refine ⟨fun r hr => by omega, fun _ => ?_⟩
    have hbsp : ∃ v, (s.cpus B.bsp).place = .bootWait v := by
      rcases hcases B.bsp with ⟨v, hv, -⟩ | ⟨v, -, hg'⟩ | ⟨l, v, -, hg'⟩ | ⟨l, v, -, hg'⟩
      · exact ⟨v, hv⟩
      · omega
      · omega
      · omega
    obtain ⟨v, hv⟩ := hbsp
    have hold : s.BetweenAt (s.cpus B.bsp) := by
      rw [BetweenAt, hv]
      trivial
    rw [hp]
    dsimp only [waitForAll]
    cases hr : (waitStep w s.allBarrier).1 with
    | none => exact hold.update rfl (fun _ _ => trivial) (fun _ => ⟨rfl, rfl⟩)
    | some w' => exact hold.update rfl (fun _ _ => trivial) (fun _ => ⟨rfl, rfl⟩)
  · refine ⟨fun r hr => ?_, fun hne => absurd (by omega) (hne 0)⟩
    obtain rfl : r = 0 := by omega
    have hsync : ∀ j, ∃ v, (s.cpus j).place = .bootSync v := by
      intro j
      rcases hcases j with ⟨v, -, hg'⟩ | ⟨v, hv, -⟩ | ⟨l, v, -, hg'⟩ | ⟨l, v, -, hg'⟩
      · omega
      · exact ⟨v, hv⟩
      · omega
      · omega
    have hready : s.Ready (s.frames 0).1 := by
      have hold := h.between (fun r => by omega)
      obtain ⟨v, hv⟩ := hsync B.bsp
      have hsw := hok.switches_of_boot (i := B.bsp) (by rw [hv]; trivial)
      rw [BetweenAt, hv, hsw] at hold
      exact hold
    have hminor : ∀ j, (s.cpus j).currentMinorFrameID = 0 ∧ (s.cpus j).progress 0 = 0 := by
      intro j
      obtain ⟨v, hv⟩ := hsync j
      have hc := hok.cpu j
      rw [FrameCpu.Ok, hv] at hc
      refine ⟨hc.minor_eq, ?_⟩
      rw [FrameCpu.progress, if_neg (by omega), hv]
      exact congrArg Fin.val hc.minor_eq
    rw [hp]
    dsimp only [waitForAll]
    cases hr : (waitStep w s.allBarrier).1 with
    | none =>
      refine hready.released rfl rfl (fun j b => ?_) (fun j => ?_)
      · by_cases hji : j = i
        · subst hji
          simp only [setCpu, Function.update_self]
          rfl
        · simp only [setCpu, Function.update_of_ne hji]
          obtain ⟨v, hv⟩ := hsync j
          rw [hv]
          rfl
      · by_cases hji : j = i
        · subst hji
          simp only [setCpu, Function.update_self, FrameCpu.progress, (hminor j).1]
          simp
        · simp only [setCpu, Function.update_of_ne hji]
          exact (hminor j).2
    | some w' =>
      refine hready.released rfl rfl (fun j b => ?_) (fun j => ?_)
      · by_cases hji : j = i
        · subst hji
          simp only [setCpu, Function.update_self]
          rfl
        · simp only [setCpu, Function.update_of_ne hji]
          obtain ⟨v, hv⟩ := hsync j
          rw [hv]
          rfl
      · by_cases hji : j = i
        · subst hji
          simp only [setCpu, Function.update_self, FrameCpu.progress, (hminor j).1]
          simp
        · simp only [setCpu, Function.update_of_ne hji]
          exact (hminor j).2
  · refine ⟨fun r hr => by omega, fun _ => ?_⟩
    have hending : ∀ j, ∃ l v, (s.cpus j).place = .endWait l v ∧ (s.cpus j).switches = (s.cpus i).switches := by
      intro j
      rcases hcases j with ⟨v, -, hg'⟩ | ⟨v, -, hg'⟩ | ⟨l, v, hv, hg'⟩ | ⟨l, v, -, hg'⟩
      · omega
      · omega
      · exact ⟨l, v, hv, by omega⟩
      · omega
    have hready := (h.inUse _ hg).released hok hending
    have hold : s.BetweenAt (s.cpus B.bsp) := by
      obtain ⟨l', v, hv, hsw⟩ := hending B.bsp
      rw [BetweenAt, hv, hsw]
      exact hready
    rw [hp]
    dsimp only [waitForAll]
    cases hr : (waitStep w s.allBarrier).1 with
    | none => exact hold.update rfl (fun _ _ => hready) (fun _ => ⟨rfl, rfl⟩)
    | some w' => exact hold.update rfl (fun _ _ => hready) (fun _ => ⟨rfl, rfl⟩)
  · refine ⟨fun r hr => ?_, fun hne => absurd (by omega) (hne ((s.cpus i).switches + 1))⟩
    obtain rfl : r = (s.cpus i).switches + 1 := by omega
    have hended : ∀ j, ∃ l v, (s.cpus j).place = .endSync l v ∧ (s.cpus j).switches = (s.cpus i).switches := by
      intro j
      rcases hcases j with ⟨v, -, hg'⟩ | ⟨v, -, hg'⟩ | ⟨l, v, -, hg'⟩ | ⟨l, v, hv, hg'⟩
      · omega
      · omega
      · omega
      · exact ⟨l, v, hv, by omega⟩
    have hready : s.Ready (s.frames ((s.cpus i).switches + 1)).1 := by
      have hold := h.between (fun r => by omega)
      obtain ⟨l', v, hv, hsw⟩ := hended B.bsp
      rw [BetweenAt, hv, hsw] at hold
      exact hold
    have hquiet : ∀ j b, (s.cpus j).place.minorPlace b = none := by
      intro j b
      obtain ⟨l', v, hv, -⟩ := hended j
      rw [hv]
      rfl
    have hprogress : ∀ j, (s.cpus j).progress ((s.cpus i).switches + 1) = 0 := by
      intro j
      obtain ⟨l', v, -, hsw⟩ := hended j
      exact if_pos (by omega)
    rw [hp]
    dsimp only [waitForAll]
    cases hr : (waitStep w s.allBarrier).1 with
    | none =>
      refine hready.released rfl rfl (fun j b => ?_) (fun j => ?_)
      · by_cases hji : j = i
        · subst hji
          simp only [setCpu, Function.update_self]
          rfl
        · simp only [setCpu, Function.update_of_ne hji]
          exact hquiet j b
      · by_cases hji : j = i
        · subst hji
          simp [setCpu, FrameCpu.progress]
        · simp only [setCpu, Function.update_of_ne hji]
          exact hprogress j
    | some w' =>
      refine hready.released rfl rfl (fun j b => ?_) (fun j => ?_)
      · by_cases hji : j = i
        · subst hji
          simp only [setCpu, Function.update_self]
          rfl
        · simp only [setCpu, Function.update_of_ne hji]
          exact hquiet j b
      · by_cases hji : j = i
        · subst hji
          simp [setCpu, FrameCpu.progress]
        · simp only [setCpu, Function.update_of_ne hji]
          exact hprogress j

lemma MinorOk.move (h : MinorOk B s g) (A : Alignment B) (hok : s.Ok B) (hall : AllOk s g) (i : P.Cpu)
    (input : FrameInput) : ∃ g', AllOk (s.move B i input) g' ∧ MinorOk B (s.move B i input) g' := by
  rcases (move_allStep B s i input hok.switches_of_boot).allOk_cases B hall with hsame | ⟨hnew, harrived⟩
  · refine ⟨g, hsame, fun r hr => ?_, fun hg => (h.between hg).move A hok hall hg i input⟩
    exact (h.inUse r hr).move A hok (hr ▸ hall) i input
  · exact ⟨g + 1, hnew, h.release hok hall harrived i input⟩

lemma Reachable.minorOk (h : s.Reachable B) (A : Alignment B)
    (hplan : ∀ i M, planDeadline i M (planLength i M) = P.majorFramePeriod M) :
    s.Ok B ∧ ∃ g, AllOk s g ∧ MinorOk B s g := by
  refine Lib.Reaches.invariant h (fun s => s.Ok B ∧ ∃ g, AllOk s g ∧ MinorOk B s g) ?_ ?_
  · intro s hs
    obtain ⟨g, hg⟩ := (hs.ok (B := B)).all
    have hboot := (hs.cpus B.bsp).1
    have hg0 : g = 0 := by
      rw [← arrivals_of_wait hg (i := B.bsp) (w := .readSize) (by rw [hboot]; rfl) rfl, FrameCpu.arrivals, hboot]
      rfl
    refine ⟨hs.ok, g, hg, fun r hr => by omega, fun _ => ?_⟩
    rw [BetweenAt, hboot]
    trivial
  · rintro s e s' ⟨hok, g, hall, hminor⟩ - hstep
    obtain rfl := Option.some.inj hstep
    cases e with
    | cpu i input => exact ⟨hok.move hplan i input, hminor.move A hok hall i input⟩
    | tau0 major =>
      exact ⟨⟨hok.all, hok.cpu, hok.globals, hok.periods, hok.uses, hok.tiles⟩, g, hall, hminor.inUse, hminor.between⟩

/-- A CPU that waits at a barrier that has not been released. -/
def Stuck (s : Frames P) (i : P.Cpu) : Prop :=
  (∃ w, (s.cpus i).place.allPlace = some w ∧ Blocked s.allBarrier w) ∨
  ∃ l next b w, (s.cpus i).place = .minorWait l next b w ∧ Blocked (s.minorFrameBarriers b) w

/-- A CPU that is stuck has arrived once more than the barrier was released. -/
lemma arrivals_of_blocked {ι : Type} {S : Finset ι} {b : SenseBarrier} {w : ι → Option WaitState} {k : ι → ℕ}
    {i : ι} {x : WaitState} (h : Consistent S b w k g) (hi : i ∈ S) (hx : w i = some x) (hb : Blocked b x) :
    k i = g + 1 ∧ x.arrivals = 1 := by
  obtain ⟨c, rfl, hc⟩ := hb
  have hplace := h.place i hi
  rw [hx] at hplace
  rcases hplace with ⟨hk, -⟩ | ⟨-, rfl⟩
  · exact ⟨hk, rfl⟩
  · exact absurd rfl hc

/-- The minor frame at the end of which a CPU waits. -/
lemma Ok.minorWait (hok : s.Ok B) (hall : AllOk s g) {l : FrameLocals P} {next : P.Minor} {b : ℕ}
    {w : WaitState} (hp : (s.cpus i).place = .minorWait l next b w) :
    g = 2 * (s.cpus i).switches + 2 ∧
      Meets i (s.frames (s.cpus i).switches).1 b (s.cpus i).currentMinorFrameID ∧
      (s.cpus i).progress (s.cpus i).switches = (s.cpus i).currentMinorFrameID.val + w.arrivals := by
  have hc := hok.cpu i
  rw [FrameCpu.Ok, hp] at hc
  refine ⟨?_, ⟨hc.2.1, hc.2.2.2⟩, ?_⟩
  · rw [← arrivals_of_outside hall (i := i) (by rw [hp]; rfl), FrameCpu.arrivals, hp]
    rfl
  · rw [FrameCpu.progress, if_neg (lt_irrefl _), hp]

/-- The members of a barrier that a stuck CPU waits for are stuck before it. -/
lemma MinorOk.exists_before (hminor : MinorOk B s g) (A : Alignment B) (hok : s.Ok B) (hall : AllOk s g)
    (hstuck : ∀ j, s.Stuck j) {l : FrameLocals P} {next : P.Minor} {b : ℕ} {w : WaitState}
    (hp : (s.cpus i).place = .minorWait l next b w) :
    ∃ j l' next' b' w', (s.cpus j).place = .minorWait l' next' b' w' ∧
      A.tick (s.frames (s.cpus i).switches).1 j (s.cpus j).currentMinorFrameID <
        A.tick (s.frames (s.cpus i).switches).1 i (s.cpus i).currentMinorFrameID := by
  obtain ⟨hg, hmeets, hprogress⟩ := hok.minorWait hall hp
  have hmem : i ∈ members (s.frames (s.cpus i).switches).1 b := mem_members.mpr ⟨_, hmeets⟩
  obtain ⟨G, g', hcons⟩ := hminor.inUse _ hg b ⟨i, hmem⟩
  have hplace : ∀ j x, (s.cpus j).place.minorPlace b = some x → Blocked (s.minorFrameBarriers b) x := by
    intro j x hx
    rcases hstuck j with ⟨v, hv, -⟩ | ⟨l', next', b', v, hv, hblocked⟩
    · cases hq : (s.cpus j).place <;> rw [hq] at hv hx <;>
        simp [FramePlace.allPlace, FramePlace.minorPlace] at hv hx
    · rw [hv, FramePlace.minorPlace] at hx
      by_cases hb : b' = b
      · rw [if_pos hb] at hx
        obtain rfl := Option.some.inj hx
        exact hb ▸ hblocked
      · rw [if_neg hb] at hx
        exact absurd hx (by simp)
  have hself : (s.cpus i).place.minorPlace b = some w := by rw [hp, FramePlace.minorPlace, if_pos rfl]
  obtain ⟨hki, hw1⟩ := arrivals_of_blocked hcons hmem hself (hplace i w hself)
  -- Some member has not arrived, or one of them could go on.
  obtain ⟨j, hj, hnone⟩ : ∃ j ∈ members (s.frames (s.cpus i).switches).1 b,
      (s.cpus j).place.minorPlace b = none := by
    by_contra hinside
    push Not at hinside
    obtain ⟨j, hj, x, hx, hready⟩ := hcons.exists_ready (fun j hj => Option.ne_none_iff_exists'.mp (hinside j hj))
    exact hready (hplace j x hx)
  have hkj := hcons.place j hj
  simp only [hnone] at hkj
  have hpj : passed (s.frames (s.cpus i).switches).1 b j ((s.cpus j).progress (s.cpus i).switches) = 0 := by
    have h1 := passed_le (s.frames (s.cpus i).switches).1 b i ((s.cpus i).progress (s.cpus i).switches)
    have hkj' : G + passed (s.frames (s.cpus i).switches).1 b j ((s.cpus j).progress (s.cpus i).switches) = g' := hkj
    have hki' : G + passed (s.frames (s.cpus i).switches).1 b i ((s.cpus i).progress (s.cpus i).switches) = g' + 1 :=
      hki
    omega
  obtain ⟨m, hm⟩ := mem_members.mp hj
  have hnot : ¬ m.val < (s.cpus j).progress (s.cpus i).switches := by
    intro hlt
    rw [passed, if_pos ⟨m, hm, hlt⟩] at hpj
    exact absurd hpj (by omega)
  rcases hstuck j with ⟨v, hv, hblocked⟩ | ⟨l', next', b', v, hv, hblocked⟩
  · exfalso
    have harr := (arrivals_of_blocked hall (Finset.mem_univ j) hv hblocked).1
    rcases arrived_cases hall harr with ⟨u, -, hg'⟩ | ⟨u, -, hg'⟩ | ⟨l', u, hu, hg'⟩ | ⟨l', u, -, hg'⟩
    · omega
    · omega
    · have hsw : (s.cpus j).switches = (s.cpus i).switches := by omega
      have hc := hok.cpu j
      rw [FrameCpu.Ok, hu, hsw] at hc
      refine hnot ?_
      rw [FrameCpu.progress, if_neg (by omega), hu]
      rw [show (s.cpus j).currentMinorFrameID = planLength j _ from hc.2]
      exact hm.1
    · omega
  · obtain ⟨hgj, hmeetsj, hprogressj⟩ := hok.minorWait hall hv
    have hsw : (s.cpus j).switches = (s.cpus i).switches := by omega
    rw [hsw] at hmeetsj hprogressj
    obtain ⟨c, rfl, -⟩ := hblocked
    rw [hprogressj] at hnot
    have hlt : (s.cpus j).currentMinorFrameID < m := Fin.lt_def.mpr (by simp [WaitState.arrivals] at hnot; omega)
    refine ⟨j, l', next', b', _, hv, ?_⟩
    rw [← A.shared _ b j m i _ hm hmeets]
    exact A.increasing _ j _ m hlt hm.1.le

/-- In every reachable state some CPU can make a step. -/
lemma Reachable.not_stuck (h : s.Reachable B) (A : Alignment B)
    (hplan : ∀ i M, planDeadline i M (planLength i M) = P.majorFramePeriod M) : ∃ i, ¬ s.Stuck i := by
  by_contra hstuck
  push Not at hstuck
  obtain ⟨hok, g, hall, hminor⟩ := h.minorOk A hplan
  by_cases hwait : ∃ i l next b w, (s.cpus i).place = .minorWait l next b w
  · obtain ⟨i, hi⟩ := hwait
    -- Of the CPUs at barriers of minor frames, one waits at the earliest tick.
    have hearlier : ∀ n j, (∃ l next b w, (s.cpus j).place = .minorWait l next b w) →
        A.tick (s.frames (s.cpus i).switches).1 j (s.cpus j).currentMinorFrameID ≠ n := by
      intro n
      induction n using Nat.strong_induction_on with
      | _ n ih =>
        rintro j ⟨l, next, b, w, hp⟩ hn
        obtain ⟨l₀, next₀, b₀, w₀, hp₀⟩ := hi
        have hsw : (s.cpus j).switches = (s.cpus i).switches := by
          have hj := (hok.minorWait hall hp).1
          have hi := (hok.minorWait hall hp₀).1
          omega
        obtain ⟨j', l', next', b', w', hp', hlt⟩ := hminor.exists_before A hok hall hstuck hp
        rw [hsw, hn] at hlt
        exact ih _ hlt j' ⟨l', next', b', w', hp'⟩ rfl
    exact hearlier _ i hi rfl
  · have hinside : ∀ j ∈ (Finset.univ : Finset P.Cpu), ∃ w, s.allPlaces j = some w := by
      intro j _
      rcases hstuck j with ⟨w, hw, -⟩ | ⟨l, next, b, w, hp, -⟩
      · exact ⟨w, hw⟩
      · exact absurd ⟨j, l, next, b, w, hp⟩ hwait
    obtain ⟨j, -, x, hx, hready⟩ := hall.exists_ready hinside
    rcases hstuck j with ⟨w, hw, hblocked⟩ | ⟨l, next, b, w, hp, -⟩
    · obtain rfl := Option.some.inj (hw.symm.trans hx)
      exact hready hblocked
    · exact hwait ⟨j, l, next, b, w, hp⟩

end Steps

end Frames

end Muen.Kernel
