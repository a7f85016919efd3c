import Mathlib.Algebra.BigOperators.Fin
import Muen.Kernel.MinorFrameRuns
import Muen.Tools.Mucfgcheck.Scheduling

/-!
# Validated scheduling plans

What the checks of scheduling plans mean for CPUs that run them. The checks count the references to a barrier,
but do not ask at which ticks the minor frames with the barrier end; when these are the same for each barrier,
the CPUs never wait for each other without end.
-/

namespace Muen.Tools.Mucfgcheck.Scheduling

open Kernel (FramePlan FrameRun Aligned waiting startRun)

variable {major : MajorFrame} {b : ℕ}

/-- The barriers of the minor frames of a major frame. -/
def plan (major : MajorFrame) : FramePlan major.cpus.length := fun i => major.cpus[i].minorFrames.map (·.barrier)

/-- The size of the barrier with an ID. -/
def declaredSize (major : MajorFrame) (b : ℕ) : ℕ := (major.barriers.find? (·.id = b)).elim 0 Barrier.size

/-- The tick at which a minor frame ends. -/
def endOf (major : MajorFrame) (i : Fin major.cpus.length) (f : ℕ) : ℕ := (major.cpus[i].ticks.take (f + 1)).sum

/-- Minor frames with the same barrier end at the same tick. -/
def SameEnds (major : MajorFrame) : Prop := ∀ b i (f : ℕ) j (g : ℕ),
  (plan major i)[f]? = some (some b) → (plan major j)[g]? = some (some b) → endOf major i f = endOf major j g

lemma sum_take_lt {ticks : List ℕ} (hpos : ∀ t ∈ ticks, 1 ≤ t) {f g : ℕ} (hfg : f < g) (hg : g < ticks.length) :
    (ticks.take (f + 1)).sum < (ticks.take (g + 1)).sum := by
  induction ticks generalizing f g with
  | nil => exact absurd hg (Nat.not_lt_zero g)
  | cons t ticks ih =>
    rw [List.forall_mem_cons] at hpos
    obtain ⟨g, rfl⟩ := Nat.exists_eq_succ_of_ne_zero (Nat.ne_zero_of_lt hfg)
    rw [List.length_cons] at hg
    cases f with
    | zero =>
      obtain ⟨u, us, hus⟩ : ∃ u us, ticks = u :: us := List.exists_cons_of_length_pos (by omega)
      have hu := hpos.2 u (hus ▸ List.mem_cons_self)
      rw [hus, List.take_succ_cons, List.take_succ_cons, List.take_succ_cons]
      simp only [List.take_zero, List.sum_cons, List.sum_nil]
      omega
    | succ f =>
      have := ih hpos.2 (Nat.lt_of_succ_lt_succ hfg) (Nat.lt_of_succ_lt_succ hg)
      rw [List.take_succ_cons, List.take_succ_cons, List.sum_cons, List.sum_cons]
      omega

/-- A CPU has a barrier at most once when its minor frames take time. -/
lemma SameEnds.unique (h : SameEnds major) (hpos : ∀ cpu ∈ major.cpus, ∀ t ∈ cpu.ticks, 1 ≤ t)
    {i : Fin major.cpus.length} {f g : ℕ} (hf : (plan major i)[f]? = some (some b))
    (hg : (plan major i)[g]? = some (some b)) : f = g := by
  have hlength : (plan major i).length = major.cpus[i].ticks.length := by
    rw [plan, List.length_map, Cpu.ticks, List.length_map]
  have hticks := hpos major.cpus[i] (List.getElem_mem i.isLt)
  have hends := h b i f i g hf hg
  have hf' := hlength ▸ (List.getElem?_eq_some_iff.mp hf).1
  have hg' := hlength ▸ (List.getElem?_eq_some_iff.mp hg).1
  rcases lt_trichotomy f g with hlt | heq | hgt
  · exact absurd hends (sum_take_lt hticks hlt hg').ne
  · exact heq
  · exact absurd hends (sum_take_lt hticks hgt hf').ne'

lemma count_eq_of_unique {α : Type} [BEq α] [LawfulBEq α] {a : α} {l : List α}
    (h : ∀ f g : ℕ, l[f]? = some a → l[g]? = some a → f = g) : l.count a = if a ∈ l then 1 else 0 := by
  induction l with
  | nil => rfl
  | cons x l ih =>
    have hrest : ∀ f g : ℕ, l[f]? = some a → l[g]? = some a → f = g := by
      intro f g hf hg
      exact Nat.succ.inj (h (f + 1) (g + 1) hf hg)
    by_cases hx : x = a
    · subst hx
      have hnot : x ∉ l := by
        intro hmem
        obtain ⟨f, hf⟩ := List.mem_iff_getElem?.mp hmem
        exact absurd (h 0 (f + 1) rfl hf) (by omega)
      rw [List.count_cons_self, ih hrest, if_neg hnot, if_pos List.mem_cons_self]
    · rw [List.count_cons_of_ne hx, ih hrest]
      apply if_congr _ rfl rfl
      rw [List.mem_cons]
      exact ⟨Or.inr, fun hmem => hmem.resolve_left (Ne.symm hx)⟩

/-- As many CPUs wait on a barrier as minor frames have it. -/
lemma SameEnds.waiting_card (h : SameEnds major) (hpos : ∀ cpu ∈ major.cpus, ∀ t ∈ cpu.ticks, 1 ≤ t) (b : ℕ) :
    (waiting (plan major) b).card = major.refCount b := by
  have hcount : ∀ i : Fin major.cpus.length, (if some b ∈ plan major i then 1 else 0) =
      (major.cpus[i].minorFrames.countP fun m => m.barrier = some b) := by
    intro i
    rw [← count_eq_of_unique fun f g hf hg => h.unique hpos hf hg, plan, List.count, List.countP_map]
    apply List.countP_congr
    intro m _
    simp
  have hsum := Fin.sum_univ_fun_getElem major.cpus fun cpu => cpu.minorFrames.countP fun m => m.barrier = some b
  rw [waiting, Finset.card_filter, Finset.sum_congr rfl fun i _ => hcount i, MajorFrame.refCount,
    MajorFrame.minorFrames, List.countP_flatMap]
  refine hsum.trans (congrArg List.sum (List.map_congr_left fun cpu _ => ?_))
  rw [Function.comp_apply, List.countP_map]
  rfl

lemma declaredSize_eq (h : major.Numbered) {x : Barrier} (hx : x ∈ major.barriers) :
    declaredSize major x.id = x.size := by
  unfold declaredSize
  cases hfind : major.barriers.find? (·.id = x.id) with
  | none => exact absurd (List.find?_eq_none.mp hfind x hx) (by simp)
  | some y =>
    have hid : y.id = x.id := by simpa using List.find?_some hfind
    rw [List.inj_on_of_nodup_map h.nodup (List.mem_of_find?_eq_some hfind) hx hid]
    rfl

lemma mem_minorFrames_of_plan {i : Fin major.cpus.length} {f : ℕ} (hf : (plan major i)[f]? = some (some b)) :
    ∃ x ∈ major.minorFrames, x.2.barrier = some b := by
  rw [plan, List.getElem?_map, Option.map_eq_some_iff] at hf
  obtain ⟨m, hm, hb⟩ := hf
  refine ⟨(major.cpus[i], m), ?_, hb⟩
  rw [MajorFrame.minorFrames, List.mem_flatMap]
  exact ⟨major.cpus[i], List.getElem_mem i.isLt, List.mem_map_of_mem (List.mem_of_getElem? hm)⟩

/-- Validated barriers agree with the ends of minor frames when these do with the barriers. -/
lemma SameEnds.aligned (h : SameEnds major) (hnum : major.Numbered) (href : major.Referenced)
    (hpos : ∀ cpu ∈ major.cpus, ∀ t ∈ cpu.ticks, 1 ≤ t) (hcpus : major.cpus.length < 256) :
    Aligned (plan major) (declaredSize major) (endOf major) where
  increasing i f g hfg hg := by
    apply sum_take_lt (hpos _ (List.getElem_mem i.isLt)) hfg
    rwa [plan, List.length_map, ← List.length_map MinorFrame.ticks] at hg
  shared := h
  size b hne := by
    obtain ⟨i, hi⟩ := hne
    obtain ⟨f, hf⟩ := Kernel.mem_waiting.mp hi
    obtain ⟨x, hx, hb⟩ := mem_minorFrames_of_plan hf
    obtain ⟨hone, hle⟩ := href.range x hx b hb
    obtain ⟨y, hy, rfl⟩ := hnum.exists_barrier hone hle
    rw [h.waiting_card hpos, declaredSize_eq hnum hy, href.size y hy]
  cpus_lt := hcpus

/-- What the checks establish for every major frame, and what follows from it when minor frames with the same
barrier end at the same tick. -/
theorem accepted_plan {majors : List MajorFrame} (h : Accepted majors)
    (hne : ∀ major ∈ majors, ∀ cpu ∈ major.cpus, cpu.minorFrames ≠ []) : ∀ major ∈ majors,
    (∀ cpu ∈ major.cpus, ∀ cpu' ∈ major.cpus, cpu.ticks.sum = cpu'.ticks.sum) ∧
    (∀ x ∈ major.minorFrames, ∀ b, x.2.barrier = some b →
      ∃ barrier ∈ major.barriers, (barrier.id = b ∧ barrier.size = major.refCount b) ∧
        ∀ other ∈ major.barriers, other.id = b → other = barrier) ∧
    (SameEnds major →
      (∀ b i (f g : ℕ), (plan major i)[f]? = some (some b) → (plan major i)[g]? = some (some b) → f = g) ∧
      (major.cpus.length < 256 → ∀ s : FrameRun major.cpus.length,
        s.Reachable (plan major) (declaredSize major) → ¬s.Deadlocked (plan major))) := by
  intro major hmajor
  have hnum := barrierID_numbered h.barrierID major hmajor
  have href := minorFrameBarrierRefs_referenced h.minorFrameBarrierRefs major hmajor
  obtain ⟨hpos, hsum⟩ := majorFrameTicks_eq h.majorFrameTicks hne major hmajor
  refine ⟨hsum, ?_, fun hends => ⟨fun b i f g => hends.unique hpos, fun hcpus s hs => ?_⟩⟩
  · intro x hx b hb
    obtain ⟨hone, hle⟩ := href.range x hx b hb
    obtain ⟨y, hy, rfl⟩ := hnum.exists_barrier hone hle
    exact ⟨y, hy, ⟨rfl, href.size y hy⟩, fun other hother hid => List.inj_on_of_nodup_map hnum.nodup hother hy hid⟩
  · exact hs.not_deadlocked (hends.aligned hnum href hpos hcpus)

/-- A major frame of two CPUs with three minor frames each and two barriers. -/
def twoBarriers (first second : List (Option ℕ)) : MajorFrame where
  cpus := [⟨"0", first.map fun b => ⟨10, b⟩⟩, ⟨"1", second.map fun b => ⟨10, b⟩⟩]
  barriers := [⟨1, 2⟩, ⟨2, 2⟩]

def orderedBarriers : MajorFrame := twoBarriers [some 1, some 2, none] [some 1, some 2, none]

/-- The CPUs have the barriers in a different order. -/
def crossedBarriers : MajorFrame := twoBarriers [some 1, some 2, none] [some 2, some 1, none]

lemma orderedBarriers_accepted : Accepted [orderedBarriers] where
  barrierID := by decide
  barrierSize := by decide
  cpuElementCount := by decide
  majorFrameTicks := by decide
  minorFrameBarrierRefs := by decide
  minorFrameSyncPoints := by decide

lemma orderedBarriers_sameEnds : SameEnds orderedBarriers := by
  have hall : ∀ (i : Fin 2) (f : Fin 3) (j : Fin 2) (g : Fin 3),
      (plan orderedBarriers i)[f.val]? = (plan orderedBarriers j)[g.val]? →
      (plan orderedBarriers i)[f.val]? ≠ some none → endOf orderedBarriers i f = endOf orderedBarriers j g := by
    decide
  have hlength : ∀ i : Fin 2, (plan orderedBarriers i).length = 3 := by decide
  intro b i f j g hf hg
  have hf' : f < 3 := hlength i ▸ (List.getElem?_eq_some_iff.mp hf).1
  have hg' : g < 3 := hlength j ▸ (List.getElem?_eq_some_iff.mp hg).1
  apply hall i ⟨f, hf'⟩ j ⟨g, hg'⟩ (hf.trans hg.symm)
  rw [hf]
  simp

theorem accepted_plan_ordered :
    SameEnds orderedBarriers ∧ ∀ s : FrameRun 2,
      s.Reachable (plan orderedBarriers) (declaredSize orderedBarriers) → ¬s.Deadlocked (plan orderedBarriers) :=
  ⟨orderedBarriers_sameEnds, ((accepted_plan orderedBarriers_accepted (by decide) orderedBarriers
    (List.mem_singleton_self _)).2.2 orderedBarriers_sameEnds).2 (by decide)⟩

lemma crossedBarriers_accepted : Accepted [crossedBarriers] where
  barrierID := by decide
  barrierSize := by decide
  cpuElementCount := by decide
  majorFrameTicks := by decide
  minorFrameBarrierRefs := by decide
  minorFrameSyncPoints := by decide

lemma crossedBarriers_not_sameEnds : ¬SameEnds crossedBarriers := by
  intro h
  have hends := h 1 (0 : Fin 2) 0 (1 : Fin 2) 1 rfl rfl
  revert hends
  decide

/-- Both CPUs have arrived at the barriers of their first minor frames. -/
def crossedRun : FrameRun 2 :=
  (Lib.run (FrameRun.step (n := 2) (plan crossedBarriers)) (startRun (declaredSize crossedBarriers))
    [0, 0, 0, 0, 1, 1, 1, 1]).getD (startRun (declaredSize crossedBarriers))

lemma crossedRun_reachable : crossedRun.Reachable (plan crossedBarriers) (declaredSize crossedBarriers) := by
  have hrun : Lib.run (FrameRun.step (n := 2) (plan crossedBarriers)) (startRun (declaredSize crossedBarriers))
      [0, 0, 0, 0, 1, 1, 1, 1] = some crossedRun := rfl
  exact Lib.Reaches.run (.start rfl) rfl hrun

lemma crossedRun_deadlocked : crossedRun.Deadlocked (plan crossedBarriers) := by
  have hzero : (crossedRun.cpus 0).place = some (1, .spin true) := by decide
  have hone : (crossedRun.cpus 1).place = some (2, .spin true) := by decide
  have hstuck : ∀ i : Fin 2, FrameRun.Stuck (n := 2) (plan crossedBarriers) crossedRun i := by
    intro i
    right
    match i with
    | 0 => exact ⟨1, .spin true, hzero, true, rfl, by decide⟩
    | 1 => exact ⟨2, .spin true, hone, true, rfl, by decide⟩
  exact ⟨⟨(0 : Fin 2), Option.isSome_of_eq_some hzero⟩, hstuck⟩

/-- The checks accept a plan whose minor frames with the same barrier end at different ticks and whose CPUs wait
for each other without end. -/
theorem accepted_plan_fails : Accepted [crossedBarriers] ∧
    (∀ cpu ∈ crossedBarriers.cpus, cpu.minorFrames ≠ []) ∧
    ¬SameEnds crossedBarriers ∧
    ∃ s : FrameRun 2, s.Reachable (plan crossedBarriers) (declaredSize crossedBarriers) ∧
      s.Deadlocked (plan crossedBarriers) :=
  ⟨crossedBarriers_accepted, by decide, crossedBarriers_not_sameEnds, crossedRun, crossedRun_reachable,
    crossedRun_deadlocked⟩

end Muen.Tools.Mucfgcheck.Scheduling
