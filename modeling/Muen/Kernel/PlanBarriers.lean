import Muen.Kernel.FrameBarriers
import Muen.Tools.Expanders.Scheduling

/-!
# Barriers of generated plans

The scheduling plans of the kernel are generated from major frames to which `Add_Barrier_Configs` has
added barriers. Such plans never lead to a deadlock.
-/

namespace Muen.Kernel

open Tools.Expanders.Scheduling

variable {P : Policy}

/-- `Skp.Scheduling` as it is written for the major frames of a policy: `Write_Major_Frame`,
`Write_Minor_Frame` and `Write_Major_Frame_Info`. -/
structure Generated (P : Policy) (B : BarrierPlan P) (timerFactor : Word64) (majors : P.Major → List (List Word64))
    (configs : P.Major → BarrierLoop) : Prop where
  cpus : ∀ M, (majors M).length = P.cpus
  expanded : ∀ M, addBarrierConfig (majors M) = some (configs M)
  length : ∀ (i : P.Cpu) M, (planLength i M).val + 1 = ((majors M).getD i.val []).length
  barrier : ∀ (i : P.Cpu) M m, m ≤ planLength i M →
    (configs M).attributes (i.val, m.val) = some (planBarrier i M m)
  deadline : ∀ (i : P.Cpu) M m, m ≤ planLength i M → planDeadline i M m =
    ((((majors M).getD i.val []).take (m.val + 1)).map (fun ticks => timerFactor * ticks)).sum
  period : ∀ M, P.majorFramePeriod M = ((majors M).getD 0 []).sum * timerFactor
  lastBarrier : ∀ M, (configs M).barriers.length ≤ B.lastBarrier
  barrierConfig : ∀ M, ∀ b ∈ (configs M).barriers, B.barrierConfig M b.1 = b.2

/-- The sum of cycles is that of ticks. -/
lemma sum_cycles (timerFactor : Word64) (ticks : List Word64) :
    (ticks.map (fun t => timerFactor * t)).sum = BitVec.ofNat 64 (ticks.map BitVec.toNat).sum * timerFactor := by
  induction ticks with
  | nil => simp
  | cons t ticks ih =>
    rw [List.map_cons, List.sum_cons, ih, List.map_cons, List.sum_cons, BitVec.ofNat_add, BitVec.ofNat_toNat,
      BitVec.setWidth_eq, BitVec.add_mul, BitVec.mul_comm timerFactor t]

lemma sum_ticks (ticks : List Word64) : ticks.sum = BitVec.ofNat 64 (ticks.map BitVec.toNat).sum := by
  have h := sum_cycles 1 ticks
  simpa using h

namespace Generated

variable {B : BarrierPlan P} {timerFactor : Word64} {majors : P.Major → List (List Word64)}
  {configs : P.Major → BarrierLoop} {T : P.Major → ℕ}

lemma mem_minorFrames (h : Generated P B timerFactor majors configs) {i : P.Cpu} {M : P.Major} {m : P.Minor}
    (hm : m ≤ planLength i M) : (i.val, m.val) ∈ minorFrames (majors M) := by
  have hlt : i.val < (majors M).length := (h.cpus M).symm ▸ i.isLt
  have hlen := h.length i M
  rw [List.getD_eq_getElem?_getD, List.getElem?_eq_getElem hlt, Option.getD_some] at hlen
  refine Tools.Expanders.Scheduling.mem_minorFrames.mpr ⟨_, List.getElem?_eq_getElem hlt, ?_⟩
  have := Fin.le_def.mp hm
  omega

/-- The last minor frame of a CPU ends with the major frame. -/
lemma endTick_last (h : Generated P B timerFactor majors configs) (hvalid : ∀ M, ValidMajor (majors M) (T M))
    (i : P.Cpu) (M : P.Major) : endTick (majors M) (i.val, (planLength i M).val) = T M := by
  have hlt : i.val < (majors M).length := (h.cpus M).symm ▸ i.isLt
  have hlen := h.length i M
  unfold endTick
  rw [hlen, List.take_length, List.getD_eq_getElem?_getD, List.getElem?_eq_getElem hlt, Option.getD_some]
  exact (hvalid M).sum _ (List.getElem_mem hlt)

lemma plan_period (h : Generated P B timerFactor majors configs) (hvalid : ∀ M, ValidMajor (majors M) (T M))
    (i : P.Cpu) (M : P.Major) : planDeadline i M (planLength i M) = P.majorFramePeriod M := by
  have hcpus : 0 < (majors M).length := List.length_pos_iff.mpr (hvalid M).cpus
  have hlast := h.endTick_last hvalid i M
  unfold endTick at hlast
  rw [h.deadline i M _ le_rfl, h.period M, sum_cycles, hlast, sum_ticks, List.getD_eq_getElem?_getD,
    List.getElem?_eq_getElem hcpus, Option.getD_some, (hvalid M).sum _ (List.getElem_mem hcpus)]

lemma meets_iff (h : Generated P B timerFactor majors configs) (hvalid : ∀ M, ValidMajor (majors M) (T M))
    (hok : ∀ M, BarriersOk (majors M) (T M) (configs M)) {i : P.Cpu} {M : P.Major} {b : ℕ} {m : P.Minor} :
    Meets i M b m ↔ m ≤ planLength i M ∧ (configs M).attributes (i.val, m.val) = some (some b) := by
  constructor
  · rintro ⟨hm, hb⟩
    exact ⟨hm.le, by rw [h.barrier i M m hm.le, hb]⟩
  · rintro ⟨hm, hb⟩
    refine ⟨?_, Option.some.inj ((h.barrier i M m hm).symm.trans hb)⟩
    -- the last minor frame does not have a barrier
    refine lt_of_le_of_ne hm ?_
    rintro rfl
    have hlt := (((hok M).barrier_iff _ (h.mem_minorFrames hm)).mp ⟨b, hb⟩).1
    rw [h.endTick_last hvalid i M] at hlt
    exact lt_irrefl _ hlt

/-- A minor frame with a barrier is one of the plan of a CPU. -/
lemma exists_meets (h : Generated P B timerFactor majors configs) (hvalid : ∀ M, ValidMajor (majors M) (T M))
    (hok : ∀ M, BarriersOk (majors M) (T M) (configs M)) {M : P.Major} {b : ℕ} {f : Tools.Expanders.Scheduling.MinorFrame}
    (hf : f ∈ minorFrames (majors M)) (hb : (configs M).attributes f = some (some b)) :
    ∃ (i : P.Cpu) (m : P.Minor), f = (i.val, m.val) ∧ Meets i M b m := by
  obtain ⟨ticks, hget, hlt⟩ := Tools.Expanders.Scheduling.mem_minorFrames.mp hf
  obtain ⟨hcpu, rfl⟩ := List.getElem?_eq_some_iff.mp hget
  rw [h.cpus M] at hcpu
  have hlen := h.length ⟨f.1, hcpu⟩ M
  rw [List.getD_eq_getElem?_getD, hget, Option.getD_some] at hlen
  have hminor : f.2 < P.lastMinor + 1 := by
    have := (planLength ⟨f.1, hcpu⟩ M).isLt
    omega
  refine ⟨⟨f.1, hcpu⟩, ⟨f.2, hminor⟩, rfl, (h.meets_iff hvalid hok).mpr ⟨?_, hb⟩⟩
  rw [Fin.le_def]
  simp only
  omega

/-- As many CPUs meet at a barrier as minor frames have it. -/
lemma members_card (h : Generated P B timerFactor majors configs) (hvalid : ∀ M, ValidMajor (majors M) (T M))
    (hok : ∀ M, BarriersOk (majors M) (T M) (configs M)) (M : P.Major) (b : ℕ) :
    (members M b).card = idCount (majors M) (configs M) b := by
  let carriers := (minorFrames (majors M)).filter (fun f => (configs M).attributes f = some (some b))
  have hmem : ∀ f, f ∈ carriers ↔ ∃ (i : P.Cpu) (m : P.Minor), f = (i.val, m.val) ∧ Meets i M b m := by
    intro f
    rw [List.mem_filter, decide_eq_true_eq]
    constructor
    · exact fun hf => h.exists_meets hvalid hok hf.1 hf.2
    · rintro ⟨i, m, rfl, hmeets⟩
      obtain ⟨hm, hb⟩ := (h.meets_iff hvalid hok).mp hmeets
      exact ⟨h.mem_minorFrames hm, hb⟩
  have hinj : ∀ f ∈ carriers, ∀ g ∈ carriers, f.1 = g.1 → f = g := by
    rintro ⟨c, j⟩ hf ⟨c', j'⟩ hg rfl
    obtain ⟨hf, hfb⟩ := List.mem_filter.mp hf
    obtain ⟨hg, hgb⟩ := List.mem_filter.mp hg
    have htick := ((hok M).common _ hf _ hg b (of_decide_eq_true hfb)).mp (of_decide_eq_true hgb)
    rcases lt_trichotomy j j' with hlt | rfl | hgt
    · exact absurd htick ((hvalid M).endTick_lt hlt hg).ne
    · rfl
    · exact absurd htick ((hvalid M).endTick_lt hgt hf).ne'
  have hnodup : (carriers.map Prod.fst).Nodup :=
    ((minorFrames_nodup _).filter _).map_on hinj
  have hset : (members M b).image Fin.val = (carriers.map Prod.fst).toFinset := by
    ext c
    simp only [Finset.mem_image, mem_members, List.mem_toFinset, List.mem_map, hmem]
    constructor
    · rintro ⟨i, ⟨m, hm⟩, rfl⟩
      exact ⟨_, ⟨i, m, rfl, hm⟩, rfl⟩
    · rintro ⟨f, ⟨i, m, rfl, hm⟩, rfl⟩
      exact ⟨i, ⟨m, hm⟩, rfl⟩
  rw [← Finset.card_image_of_injective _ Fin.val_injective, hset, List.toFinset_card_of_nodup hnodup,
    List.length_map, idCount, List.countP_eq_length_filter]

/-- Barriers of generated plans agree with the plans. -/
def alignment (h : Generated P B timerFactor majors configs) (hvalid : ∀ M, ValidMajor (majors M) (T M))
    (hok : ∀ M, BarriersOk (majors M) (T M) (configs M)) : Alignment B where
  tick M i m := endTick (majors M) (i.val, m.val)
  increasing M i m m' hlt hle := (hvalid M).endTick_lt hlt (h.mem_minorFrames hle)
  shared M b i m j m' hi hj := by
    obtain ⟨hm, hb⟩ := (h.meets_iff hvalid hok).mp hi
    obtain ⟨hm', hb'⟩ := (h.meets_iff hvalid hok).mp hj
    exact ((hok M).common _ (h.mem_minorFrames hm) _ (h.mem_minorFrames hm') b hb).mp hb'
  range M b hne := by
    obtain ⟨i, hi⟩ := hne
    obtain ⟨m, hmeets⟩ := mem_members.mp hi
    obtain ⟨hm, hb⟩ := (h.meets_iff hvalid hok).mp hmeets
    have hid := (hok M).emitted _ (h.mem_minorFrames hm) b hb
    rw [(hok M).ids, List.mem_range'_1] at hid
    have := h.lastBarrier M
    omega
  size M b hne := by
    obtain ⟨i, hi⟩ := hne
    obtain ⟨m, hmeets⟩ := mem_members.mp hi
    obtain ⟨hm, hb⟩ := (h.meets_iff hvalid hok).mp hmeets
    obtain ⟨x, hx, rfl⟩ := List.mem_map.mp ((hok M).emitted _ (h.mem_minorFrames hm) b hb)
    rw [h.members_card hvalid hok, h.barrierConfig M x hx, (hok M).size x hx]

end Generated

/-- The place of a CPU changes at its next step, when its timer has expired. -/
def Frames.CanMove (B : BarrierPlan P) (s : Frames P) (i : P.Cpu) : Prop :=
  ∀ now, ((s.step B (.cpu i ⟨now, true⟩)).cpus i).place ≠ (s.cpus i).place

lemma waitStep_ne {b : SenseBarrier} {w : WaitState} (h : ¬ Blocked b w) : (waitStep w b).1 ≠ some w := by
  cases w with
  | readSize => simp [waitStep]
  | readSense n => simp [waitStep]
  | getAndIncrement n c =>
    simp only [waitStep]
    split_ifs <;> simp
  | clearCount c => simp [waitStep]
  | writeSense c => simp [waitStep]
  | spin c =>
    have hsense : b.sense = c := by
      by_contra hne
      exact h ⟨c, rfl, hne⟩
    simp [waitStep, hsense]

namespace Frames

lemma waitForAll_place {s : Frames P} {i : P.Cpu} {w : WaitState} {stay : WaitState → FramePlace P}
    {leave : FrameCpu P → FrameCpu P} (hstay : Function.Injective stay) (hleave : ∀ c, (leave c).place ≠ stay w)
    (h : ¬ Blocked s.allBarrier w) : ((s.waitForAll i w stay leave).cpus i).place ≠ stay w := by
  have hne := waitStep_ne h
  simp only [waitForAll, setCpu, Function.update_self]
  cases hr : (waitStep w s.allBarrier).1 with
  | none => exact hleave _
  | some w' =>
    rw [hr] at hne
    exact fun heq => hne (congrArg some (hstay heq))

/-- A CPU that is not stuck can make a step. -/
lemma canMove_of_not_stuck (B : BarrierPlan P) {s : Frames P} {i : P.Cpu} (h : ¬ s.Stuck i) : s.CanMove B i := by
  intro now
  have hall : ∀ w, (s.cpus i).place.allPlace = some w → ¬ Blocked s.allBarrier w :=
    fun w hw hb => h (.inl ⟨w, hw, hb⟩)
  show ((s.move B i ⟨now, true⟩).cpus i).place ≠ _
  unfold move
  cases hp : (s.cpus i).place with
  | bootWait w =>
    exact waitForAll_place (fun _ _ heq => by injection heq) (by simp) (hall w (by rw [hp]; rfl))
  | bootSync w =>
    exact waitForAll_place (fun _ _ heq => by injection heq) (by simp) (hall w (by rw [hp]; rfl))
  | endWait l w =>
    exact waitForAll_place (fun _ _ heq => by injection heq) (by simp) (hall w (by rw [hp]; rfl))
  | endSync l w =>
    exact waitForAll_place (fun _ _ heq => by injection heq) (by simp) (hall w (by rw [hp]; rfl))
  | minorWait l next b w =>
    have hne := waitStep_ne (fun hb => h (.inr ⟨l, next, b, w, hp, hb⟩))
    simp only [waitOnMinorFrameBarrier, goto, setCpu, Function.update_self]
    cases hr : (waitStep w (s.minorFrameBarriers b)).1 with
    | none => simp
    | some w' =>
      rw [hr] at hne
      simpa using hne
  | schedulerInit =>
    simp only [setCpu, Function.update_self]
    split_ifs <;> simp
  | initBarriers start index =>
    simp only
    split_ifs <;> simp [goto, setCpu]
  | setBarriers l next index =>
    simp only
    split_ifs <;> simp [goto, setCpu]
  | readStart major =>
    simp only [goto, setCpu, Function.update_self, frameEnd]
    split_ifs
    · split <;> simp
    · simp
  | testBSP l =>
    simp only [goto, setCpu, Function.update_self]
    split_ifs <;> simp
  | writeStart l next start =>
    simp only [goto, setCpu, Function.update_self]
    split_ifs <;> simp
  | initStart start => simp [goto, setCpu]
  | timerStart => simp [goto, setCpu]
  | timerMajor start => simp [setCpu]
  | guest => simp [goto, setCpu]
  | readMajor => simp [goto, setCpu]
  | getMajor l => simp [goto, setCpu]
  | addPeriod l next => simp [goto, setCpu]
  | writeMajor l next start => simp [goto, setCpu]
  | setMinor l next => simp [setCpu]
  | publishStart l => simp [goto, setCpu]
  | publishMajor l start => simp [setCpu]

end Frames

/-- Barriers are shared by exactly the minor frames that end at the same tick inside a major frame, and the
CPUs never wait for each other without end. -/
theorem barriers_deadlock_free :
    (∀ (major : List (List Word64)) (T : ℕ), ValidMajor major T → T < 2 ^ 64 →
      ∃ r, addBarrierConfig major = some r ∧ BarriersOk major T r) ∧
    ∀ (P : Policy) (B : BarrierPlan P) (timerFactor : Word64) (majors : P.Major → List (List Word64))
      (configs : P.Major → BarrierLoop) (T : P.Major → ℕ), (∀ M, ValidMajor (majors M) (T M)) →
      (∀ M, T M < 2 ^ 64) → Generated P B timerFactor majors configs → ∀ s : Frames P, s.Reachable B →
      ∃ i, s.CanMove B i := by
  refine ⟨fun major T h hT => h.addBarrierConfig_ok hT, ?_⟩
  intro P B timerFactor majors configs T hvalid hT h s hs
  have hok : ∀ M, BarriersOk (majors M) (T M) (configs M) := by
    intro M
    obtain ⟨r, hr, hok⟩ := (hvalid M).addBarrierConfig_ok (hT M)
    rw [Option.some.inj ((h.expanded M).symm.trans hr)]
    exact hok
  obtain ⟨i, hi⟩ := hs.not_stuck (h.alignment hvalid hok) (h.plan_period hvalid)
  exact ⟨i, Frames.canMove_of_not_stuck B hi⟩

/-- A major frame of two CPUs, with a barrier after half of it. -/
def halfTicks : List (List Word64) := [[50, 50], [50, 20, 30]]

lemma halfTicks_valid : ValidMajor halfTicks 100 :=
  ⟨by simp [halfTicks], by simp [halfTicks], by simp [halfTicks], by simp [halfTicks]⟩

def halfConfig : BarrierLoop := (addBarrierConfig halfTicks).get (by decide)

/-- The plans for that major frame. -/
def twoCpus : Policy :=
  { smallPolicy with
    cpus := 2
    lastMinor := 2
    subjectCpu := fun _ => 0
    schedulingPlans := fun i _ =>
      if i = 0 then ⟨1, fun m => if m = 0 then ⟨0, some 1, 50⟩ else ⟨0, none, 100⟩⟩
      else ⟨2, fun m => if m = 0 then ⟨0, some 1, 50⟩ else if m = 1 then ⟨0, none, 70⟩ else ⟨0, none, 100⟩⟩
    majorFramePeriod := fun _ => 100 }

instance : NeZero twoCpus.cpus := ⟨by decide⟩

def twoCpusBarriers : BarrierPlan twoCpus := ⟨0, 1, fun _ _ => 2, by decide⟩

lemma twoCpus_generated :
    Generated twoCpus twoCpusBarriers 1 (fun _ => halfTicks) (fun _ => halfConfig) where
  cpus := by decide
  expanded := fun _ => (Option.some_get _).symm
  length := by decide
  barrier := by decide
  deadline := by decide
  period := by decide
  lastBarrier := by decide
  barrierConfig := by decide

/-- Both CPUs start and enter a subject, and then the timer of the first one expires. -/
def spinningCpus : Frames twoCpus :=
  ((List.replicate 17 [FrameEvent.cpu 0 ⟨1000, false⟩, .cpu 1 ⟨1000, false⟩]).flatten ++
    List.replicate 6 (FrameEvent.cpu 0 ⟨1050, true⟩)).foldl (Frames.step twoCpusBarriers) (bootFrames twoCpus)

lemma spinningCpus_reachable : spinningCpus.Reachable twoCpusBarriers :=
  (bootFrames_reachable twoCpusBarriers).steps _

lemma spinningCpus_place : (spinningCpus.cpus 0).place =
    .minorWait ⟨0, 0, 1000⟩ 1 1 (.spin true) ∧ (spinningCpus.minorFrameBarriers 1).sense = false := by
  decide

/-- The first CPU waits at the barrier after half of the major frame, and the second one can go on. -/
theorem barriers_deadlock_free_twoCpus :
    (∃ r, addBarrierConfig halfTicks = some r ∧ BarriersOk halfTicks 100 r) ∧
      spinningCpus.Reachable twoCpusBarriers ∧ ¬spinningCpus.CanMove twoCpusBarriers 0 ∧
      spinningCpus.CanMove twoCpusBarriers 1 := by
  obtain ⟨hplace, hsense⟩ := spinningCpus_place
  have hwaits : ¬spinningCpus.CanMove twoCpusBarriers 0 := by
    intro h
    apply h 1050
    rw [Frames.step, Frames.move, hplace]
    simp [Frames.waitOnMinorFrameBarrier, Frames.goto, Frames.setCpu, waitStep, hsense]
  obtain ⟨i, hi⟩ := barriers_deadlock_free.2 twoCpus twoCpusBarriers 1 _ _ _ (fun _ => halfTicks_valid)
    (fun _ => by decide) twoCpus_generated _ spinningCpus_reachable
  refine ⟨barriers_deadlock_free.1 halfTicks 100 halfTicks_valid (by decide), spinningCpus_reachable, hwaits, ?_⟩
  have hsecond : ∀ i : twoCpus.Cpu, i ≠ 0 → i = 1 := by decide
  have hne : i ≠ 0 := by
    rintro rfl
    exact hwaits hi
  rwa [hsecond i hne] at hi

/-- A major frame that is longer than `Unsigned_64`. -/
def longTicks : List (List Word64) := [[0x8000000000000000, 0x8000000000000000, 5]]

/-- The exit time of the second minor frame wraps around to that before the first one, and there is no
minor frame to set the barrier for. -/
theorem barriers_not_added : ValidMajor longTicks 0x10000000000000005 ∧ addBarrierConfig longTicks = none := by
  refine ⟨⟨by simp [longTicks], by simp [longTicks], by simp [longTicks], by simp [longTicks]⟩, ?_⟩
  have h : (addBarrierConfig longTicks).isNone := by decide
  exact Option.isNone_iff_eq_none.mp h

end Muen.Kernel
