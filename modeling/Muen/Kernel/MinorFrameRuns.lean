import Mathlib.Data.Finset.Max
import Muen.Kernel.Frames

/-!
# Minor frames and their barriers

The CPUs of a system run the minor frames of one major frame in order. At the end of a minor frame with a
barrier a CPU calls `Wait`, whose accesses are taken in any order with those of the other CPUs. `Aligned` is
what the barriers have to satisfy for the CPUs never to wait for each other without end.
-/

namespace Muen.Kernel

variable {n : ℕ}

/-- The barriers of the minor frames of every CPU. -/
abbrev FramePlan (n : ℕ) := Fin n → List (Option ℕ)

/-- A CPU in its minor frames, and in `Wait` on a barrier. -/
structure RunCpu where
  frame : ℕ := 0
  place : Option (ℕ × WaitState) := none

/-- The CPU behind its step in `Wait`: the minor frame has ended when the procedure returns. -/
def RunCpu.behind (c : RunCpu) (b : ℕ) : Option WaitState → RunCpu
  | some w => { c with place := some (b, w) }
  | none => ⟨c.frame + 1, none⟩

structure FrameRun (n : ℕ) where
  cpus : Fin n → RunCpu
  barriers : ℕ → SenseBarrier

/-- `Barriers.Initialize` with the sizes of the barriers. -/
def startRun (size : ℕ → ℕ) : FrameRun n := ⟨fun _ => {}, fun b => initBarrier (BitVec.ofNat 8 (size b))⟩

namespace FrameRun

def setCpu (s : FrameRun n) (i : Fin n) (c : RunCpu) : FrameRun n := { s with cpus := Function.update s.cpus i c }

/-- A step of a CPU, if it has not run all of its minor frames. -/
def step (plan : FramePlan n) (s : FrameRun n) (i : Fin n) : Option (FrameRun n) :=
  match (s.cpus i).place with
  | some (b, w) =>
    let r := waitStep w (s.barriers b)
    some { s.setCpu i ((s.cpus i).behind b r.1) with barriers := Function.update s.barriers b r.2 }
  | none =>
    match (plan i)[(s.cpus i).frame]? with
    | none => none
    | some none => some (s.setCpu i ⟨(s.cpus i).frame + 1, none⟩)
    | some (some b) => some (s.setCpu i { s.cpus i with place := some (b, .readSize) })

def Reachable (plan : FramePlan n) (size : ℕ → ℕ) (s : FrameRun n) : Prop :=
  Lib.Reaches (step plan) (fun _ _ => True) (· = startRun size) s

/-- The CPU has run its minor frames, or it would read the old sense of a barrier again. -/
def Stuck (plan : FramePlan n) (s : FrameRun n) (i : Fin n) : Prop :=
  s.step plan i = none ∨ ∃ b w, (s.cpus i).place = some (b, w) ∧ Blocked (s.barriers b) w

/-- Some CPU waits, and no CPU can go on. -/
def Deadlocked (plan : FramePlan n) (s : FrameRun n) : Prop :=
  (∃ i, (s.cpus i).place.isSome) ∧ ∀ i, s.Stuck plan i

end FrameRun

/-- The CPUs that wait on a barrier. -/
def waiting (plan : FramePlan n) (b : ℕ) : Finset (Fin n) := Finset.univ.filter fun i => some b ∈ plan i

/-- Barriers that agree with the ends of minor frames. -/
structure Aligned (plan : FramePlan n) (size : ℕ → ℕ) (tick : Fin n → ℕ → ℕ) : Prop where
  increasing : ∀ i (f g : ℕ), f < g → g < (plan i).length → tick i f < tick i g
  shared : ∀ b i (f : ℕ) j (g : ℕ), (plan i)[f]? = some (some b) → (plan j)[g]? = some (some b) → tick i f = tick j g
  size : ∀ b, (waiting plan b).Nonempty → size b = (waiting plan b).card
  cpus_lt : n < 256

section Passed

variable {plan : FramePlan n} {size : ℕ → ℕ} {tick : Fin n → ℕ → ℕ} {b f : ℕ} {i : Fin n}

lemma mem_waiting : i ∈ waiting plan b ↔ ∃ f : ℕ, (plan i)[f]? = some (some b) := by
  rw [waiting, Finset.mem_filter, List.mem_iff_getElem?]
  exact and_iff_right (Finset.mem_univ i)

lemma Aligned.waiting_lt (h : Aligned plan size tick) (b : ℕ) : (waiting plan b).card < 256 := by
  have hle := Finset.card_le_univ (waiting plan b)
  rw [Fintype.card_fin] at hle
  exact hle.trans_lt h.cpus_lt

/-- A CPU waits on a barrier once. -/
lemma Aligned.unique (h : Aligned plan size tick) {g : ℕ} (hf : (plan i)[f]? = some (some b))
    (hg : (plan i)[g]? = some (some b)) : f = g := by
  have htick := h.shared b i f i g hf hg
  rcases lt_trichotomy f g with hlt | heq | hgt
  · exact absurd htick (h.increasing i f g hlt (List.getElem?_eq_some_iff.mp hg).1).ne
  · exact heq
  · exact absurd htick (h.increasing i g f hgt (List.getElem?_eq_some_iff.mp hf).1).ne'

/-- Whether a CPU has waited on the barrier in its first minor frames, as a number. -/
def waited (plan : FramePlan n) (b : ℕ) (i : Fin n) (f : ℕ) : ℕ := if some b ∈ (plan i).take f then 1 else 0

lemma waited_zero : waited plan b i 0 = 0 := by
  simp [waited]

lemma waited_succ (hf : (plan i)[f]? ≠ some (some b)) : waited plan b i (f + 1) = waited plan b i f := by
  unfold waited
  apply if_congr _ rfl rfl
  rw [List.take_add_one, List.mem_append]
  constructor
  · rintro (hmem | hmem)
    · exact hmem
    · exact absurd (Option.mem_toList.mp hmem) hf
  · exact Or.inl

lemma waited_le (plan : FramePlan n) (b : ℕ) (i : Fin n) (f : ℕ) : waited plan b i f ≤ 1 := by
  unfold waited
  split_ifs
  · exact le_rfl
  · exact Nat.zero_le 1

lemma waited_of_lt {g : ℕ} (hf : (plan i)[f]? = some (some b)) (hlt : f < g) : waited plan b i g = 1 := by
  apply if_pos
  apply List.mem_iff_getElem?.mpr
  exact ⟨f, by rw [List.getElem?_take, if_pos hlt, hf]⟩

lemma Aligned.waited_at (h : Aligned plan size tick) (hf : (plan i)[f]? = some (some b)) {a : ℕ}
    (ha : a = 0 ∨ a = 1) : waited plan b i (f + a) = a := by
  rcases ha with rfl | rfl
  · apply if_neg
    intro hmem
    obtain ⟨g, hg⟩ := List.mem_iff_getElem?.mp hmem
    rw [List.getElem?_take, Nat.add_zero] at hg
    by_cases hlt : g < f
    · rw [if_pos hlt] at hg
      exact absurd (h.unique hg hf) hlt.ne
    · rw [if_neg hlt] at hg
      cases hg
  · exact waited_of_lt hf (Nat.lt_succ_self f)

end Passed

/-! ### The invariant -/

/-- The place at a barrier. -/
def RunCpu.placeAt (b : ℕ) (c : RunCpu) : Option WaitState :=
  c.place.bind fun x => if x.1 = b then some x.2 else none

/-- The minor frames that a CPU has run, with the current one from the fetch-and-add of its barrier on. -/
def RunCpu.progress (c : RunCpu) : ℕ := c.frame + (c.place.elim 0 fun x => x.2.arrivals)

namespace FrameRun

structure Ok (plan : FramePlan n) (s : FrameRun n) : Prop where
  frame : ∀ i, (s.cpus i).frame ≤ (plan i).length
  place : ∀ i b w, (s.cpus i).place = some (b, w) → (plan i)[(s.cpus i).frame]? = some (some b)
  barriers : ∀ b, (waiting plan b).Nonempty → ∃ g, Consistent (waiting plan b) (s.barriers b)
    (fun i => (s.cpus i).placeAt b) (fun i => waited plan b i (s.cpus i).progress) g

variable {plan : FramePlan n} {size : ℕ → ℕ} {tick : Fin n → ℕ → ℕ} {s s' : FrameRun n} {i : Fin n}

lemma startRun_ok (h : Aligned plan size tick) : (startRun size).Ok plan where
  frame i := Nat.zero_le _
  place i b w hp := by cases hp
  barriers b hne := by
    refine ⟨0, ?_⟩
    have hinit := consistent_initBarrier (Finset.card_pos.mpr hne) (h.waiting_lt b) (.inl rfl)
    rw [← h.size b hne] at hinit
    exact hinit.congr (fun _ _ => rfl) (fun _ _ => waited_zero)

lemma placeAt_setCpu (s : FrameRun n) (i : Fin n) (c : RunCpu) (b : ℕ) :
    (fun j => ((s.setCpu i c).cpus j).placeAt b) =
      Function.update (fun j => (s.cpus j).placeAt b) i (c.placeAt b) := by
  funext j
  exact Function.apply_update (fun _ => RunCpu.placeAt b) s.cpus i c j

lemma waited_setCpu (s : FrameRun n) (i : Fin n) (c : RunCpu) (b : ℕ) :
    (fun j => waited plan b j ((s.setCpu i c).cpus j).progress) =
      Function.update (fun j => waited plan b j (s.cpus j).progress) i (waited plan b i c.progress) := by
  funext j
  exact Function.apply_update (fun j c => waited plan b j c.progress) s.cpus i c j

/-- The invariant after a step of one CPU. -/
lemma Ok.update {c : RunCpu} {barriers : ℕ → SenseBarrier} (h : s.Ok plan) (hframe : c.frame ≤ (plan i).length)
    (hplace : ∀ b w, c.place = some (b, w) → (plan i)[c.frame]? = some (some b))
    (hbarriers : ∀ b, (waiting plan b).Nonempty → ∃ g, Consistent (waiting plan b) (barriers b)
      (Function.update (fun j => (s.cpus j).placeAt b) i (c.placeAt b))
      (Function.update (fun j => waited plan b j (s.cpus j).progress) i (waited plan b i c.progress)) g) :
    Ok plan { s.setCpu i c with barriers := barriers } where
  frame j := by
    simp only [setCpu]
    by_cases hji : j = i
    · subst hji
      rwa [Function.update_self]
    · rw [Function.update_of_ne hji]
      exact h.frame j
  place j b w hp := by
    simp only [setCpu] at hp ⊢
    by_cases hji : j = i
    · subst hji
      rw [Function.update_self] at hp ⊢
      exact hplace b w hp
    · rw [Function.update_of_ne hji] at hp ⊢
      exact h.place j b w hp
  barriers b hne := by
    obtain ⟨g, hg⟩ := hbarriers b hne
    refine ⟨g, ?_⟩
    rwa [← placeAt_setCpu, ← waited_setCpu] at hg

lemma placeAt_none {c : RunCpu} (h : c.place = none) (b : ℕ) : c.placeAt b = none := by
  rw [RunCpu.placeAt, h, Option.bind_none]

lemma placeAt_some {c : RunCpu} {b : ℕ} {w : WaitState} (h : c.place = some (b, w)) (b' : ℕ) :
    c.placeAt b' = if b = b' then some w else none := by
  rw [RunCpu.placeAt, h, Option.bind_some]

lemma progress_none {c : RunCpu} (h : c.place = none) : c.progress = c.frame := by
  rw [RunCpu.progress, h, Option.elim_none, Nat.add_zero]

lemma progress_some {c : RunCpu} {b : ℕ} {w : WaitState} (h : c.place = some (b, w)) :
    c.progress = c.frame + w.arrivals := by
  rw [RunCpu.progress, h, Option.elim_some]

/-- The CPU runs its next minor frame. -/
lemma Ok.run (h : s.Ok plan) (hp : (s.cpus i).place = none) (hf : (plan i)[(s.cpus i).frame]? = some none) :
    (s.setCpu i ⟨(s.cpus i).frame + 1, none⟩).Ok plan := by
  apply h.update
  · exact (List.getElem?_eq_some_iff.mp hf).1
  · rintro b w ⟨⟩
  · intro b hne
    obtain ⟨g, hg⟩ := h.barriers b hne
    refine ⟨g, ?_⟩
    have hsame : waited plan b i ((s.cpus i).frame + 1) = waited plan b i (s.cpus i).progress := by
      rw [progress_none hp, waited_succ (by simp [hf])]
    rw [placeAt_none rfl, ← placeAt_none hp b, Function.update_eq_self, progress_none rfl, hsame,
      Function.update_eq_self]
    exact hg

/-- The CPU calls `Wait`. -/
lemma Ok.enter {b : ℕ} (h : s.Ok plan) (hp : (s.cpus i).place = none)
    (hf : (plan i)[(s.cpus i).frame]? = some (some b)) :
    (s.setCpu i { s.cpus i with place := some (b, .readSize) }).Ok plan := by
  refine h.update (c := { s.cpus i with place := some (b, .readSize) }) (h.frame i) ?_ ?_
  · rintro b' w heq
    obtain ⟨rfl, -⟩ := Prod.mk.inj (Option.some.inj heq)
    exact hf
  · intro b' hne
    obtain ⟨g, hg⟩ := h.barriers b' hne
    refine ⟨g, ?_⟩
    have hprogress : RunCpu.progress { s.cpus i with place := some (b, .readSize) } = (s.cpus i).progress := by
      rw [progress_none hp]
      rfl
    rw [hprogress, Function.update_eq_self, placeAt_some rfl b']
    by_cases hb : b = b'
    · subst hb
      rw [if_pos rfl]
      exact hg.enter (mem_waiting.mpr ⟨_, hf⟩) (placeAt_none hp b)
    · rw [if_neg hb, ← placeAt_none hp b', Function.update_eq_self]
      exact hg

lemma behind_placeAt (c : RunCpu) (b b' : ℕ) (x : Option WaitState) :
    (c.behind b x).placeAt b' = if b = b' then x else none := by
  cases x with
  | none =>
    rw [ite_self]
    rfl
  | some w => rfl

/-- The CPU makes a step in `Wait`. -/
lemma Ok.wait {b : ℕ} {w : WaitState} (h : s.Ok plan) (ha : Aligned plan size tick)
    (hp : (s.cpus i).place = some (b, w)) :
    Ok plan { s.setCpu i ((s.cpus i).behind b (waitStep w (s.barriers b)).1) with
      barriers := Function.update s.barriers b (waitStep w (s.barriers b)).2 } := by
  have hf := h.place i b w hp
  have hlt := (List.getElem?_eq_some_iff.mp hf).1
  obtain ⟨a, hle, hprogress, harrivals⟩ : ∃ a, (a = 0 ∨ a = 1) ∧
      ((s.cpus i).behind b (waitStep w (s.barriers b)).1).progress = (s.cpus i).frame + a ∧
      a = w.arrivals + w.arrival := by
    cases hr : (waitStep w (s.barriers b)).1 with
    | none =>
      obtain ⟨h1, h0⟩ := waitStep_leaves hr
      exact ⟨1, Or.inr rfl, rfl, by rw [h1, h0]⟩
    | some w' => exact ⟨w'.arrivals, w'.arrivals_le, rfl, waitStep_arrivals hr⟩
  apply h.update
  · cases (waitStep w (s.barriers b)).1 with
    | none => exact hlt
    | some w' => exact hlt.le
  · intro b' w' heq
    cases hr : (waitStep w (s.barriers b)).1 with
    | none =>
      rw [hr] at heq
      cases heq
    | some w'' =>
      rw [hr] at heq
      obtain ⟨rfl, -⟩ := Prod.mk.inj (Option.some.inj heq)
      exact hf
  · intro b' hne
    obtain ⟨g, hg⟩ := h.barriers b' hne
    rw [behind_placeAt, hprogress]
    by_cases hb : b = b'
    · subst hb
      have hmem : i ∈ waiting plan b := mem_waiting.mpr ⟨_, hf⟩
      have hplace : (s.cpus i).placeAt b = some w := by rw [placeAt_some hp, if_pos rfl]
      have hstep := hg.step (ha.waiting_lt b) hmem hplace
      have hcount : waited plan b i (s.cpus i).progress + w.arrival = waited plan b i ((s.cpus i).frame + a) := by
        rw [progress_some hp, ha.waited_at hf w.arrivals_le, ha.waited_at hf hle, harrivals]
      rw [hcount] at hstep
      refine ⟨g + w.release, ?_⟩
      rw [if_pos rfl, Function.update_self]
      exact hstep
    · have hother : ∀ a, (a = 0 ∨ a = 1) →
          waited plan b' i ((s.cpus i).frame + a) = waited plan b' i (s.cpus i).frame := by
        rintro a (rfl | rfl)
        · rfl
        · apply waited_succ
          rw [hf]
          exact fun heq => hb (Option.some.inj (Option.some.inj heq))
      have hsame : waited plan b' i ((s.cpus i).frame + a) = waited plan b' i (s.cpus i).progress := by
        rw [progress_some hp, hother a hle, hother _ w.arrivals_le]
      have hplace : (s.cpus i).placeAt b' = none := by rw [placeAt_some hp, if_neg hb]
      refine ⟨g, ?_⟩
      rw [if_neg hb, ← hplace, Function.update_eq_self, hsame, Function.update_eq_self,
        Function.update_of_ne (Ne.symm hb)]
      exact hg

lemma Ok.step (h : s.Ok plan) (ha : Aligned plan size tick) (hs : s.step plan i = some s') : s'.Ok plan := by
  unfold FrameRun.step at hs
  cases hp : (s.cpus i).place with
  | some x =>
    rw [hp] at hs
    obtain rfl := Option.some.inj hs
    exact h.wait ha hp
  | none =>
    rw [hp] at hs
    cases hf : (plan i)[(s.cpus i).frame]? with
    | none =>
      rw [hf] at hs
      cases hs
    | some barrier =>
      rw [hf] at hs
      cases barrier with
      | none =>
        obtain rfl := Option.some.inj hs
        exact h.run hp hf
      | some b =>
        obtain rfl := Option.some.inj hs
        exact h.enter hp hf

lemma Reachable.ok (ha : Aligned plan size tick) (h : s.Reachable plan size) : s.Ok plan := by
  apply Lib.Reaches.invariant h (Ok plan)
  · rintro s rfl
    exact startRun_ok ha
  · intro s i s' hs _ hstep
    exact hs.step ha hstep

/-- A CPU that is not stuck before the end of its minor frames waits on a barrier. -/
lemma stuck_cases (h : s.Stuck plan i) (hok : s.Ok plan) :
    ((s.cpus i).place = none ∧ (s.cpus i).frame = (plan i).length) ∨
      ∃ b w, (s.cpus i).place = some (b, w) ∧ Blocked (s.barriers b) w := by
  rcases h with h | h
  · left
    unfold FrameRun.step at h
    cases hp : (s.cpus i).place with
    | some x =>
      rw [hp] at h
      cases h
    | none =>
      rw [hp] at h
      cases hf : (plan i)[(s.cpus i).frame]? with
      | none => exact ⟨rfl, (hok.frame i).antisymm (List.getElem?_eq_none_iff.mp hf)⟩
      | some barrier =>
        rw [hf] at h
        cases barrier with
        | none => cases h
        | some b => cases h
  · exact Or.inr h

/-- Among the CPUs that wait there is one whose minor frame ends first. -/
theorem Ok.not_deadlocked (h : s.Ok plan) (ha : Aligned plan size tick) : ¬s.Deadlocked plan := by
  rintro ⟨⟨i₀, hi₀⟩, hstuck⟩
  let W : Finset (Fin n) := Finset.univ.filter fun i => (s.cpus i).place.isSome
  have hne : W.Nonempty := ⟨i₀, Finset.mem_filter.mpr ⟨Finset.mem_univ i₀, hi₀⟩⟩
  obtain ⟨i, hi, hmin⟩ := W.exists_min_image (fun i => tick i (s.cpus i).frame) hne
  obtain ⟨⟨b, w⟩, hp⟩ := Option.isSome_iff_exists.mp (Finset.mem_filter.mp hi).2
  have hf := h.place i b w hp
  have hmem : i ∈ waiting plan b := mem_waiting.mpr ⟨_, hf⟩
  obtain ⟨g, hg⟩ := h.barriers b ⟨i, hmem⟩
  have hblocked : ∀ j b' w', (s.cpus j).place = some (b', w') → Blocked (s.barriers b') w' := by
    intro j b' w' hj
    rcases stuck_cases (hstuck j) h with ⟨hnone, -⟩ | ⟨b'', w'', hj', hb⟩
    · rw [hnone] at hj
      cases hj
    · rw [hj'] at hj
      cases hj
      exact hb
  -- the CPU has arrived and was not released
  have hk : waited plan b i (s.cpus i).progress = g + 1 := by
    obtain ⟨c, rfl, hsense⟩ := hblocked i b w hp
    have hplace := hg.place i hmem
    rw [placeAt_some hp, if_pos rfl] at hplace
    rcases hplace with ⟨hk, -⟩ | ⟨-, hc⟩
    · exact hk
    · exact absurd hc.symm hsense
  have hall : ∀ j ∈ waiting plan b, ∃ x, (s.cpus j).placeAt b = some x := by
    intro j hj
    obtain ⟨f, hfj⟩ := mem_waiting.mp hj
    have htick := ha.shared b j f i _ hfj hf
    have hlt := (List.getElem?_eq_some_iff.mp hfj).1
    by_cases hpassed : f < (s.cpus j).frame
    · cases hx : (s.cpus j).placeAt b with
      | some x => exact ⟨x, rfl⟩
      | none =>
        have hplace := hg.place j hj
        have hone : waited plan b j (s.cpus j).progress = 1 := waited_of_lt hfj (hpassed.trans_le (Nat.le_add_right _ _))
        have hle := waited_le plan b i (s.cpus i).progress
        rw [hx] at hplace
        have hg' : waited plan b j (s.cpus j).progress = g := hplace
        omega
    · rcases stuck_cases (hstuck j) h with ⟨-, hend⟩ | ⟨b', w', hj', -⟩
      · omega
      · have hfj' := h.place j b' w' hj'
        have hjW : j ∈ W := Finset.mem_filter.mpr ⟨Finset.mem_univ j, by rw [hj']; rfl⟩
        have hle := hmin j hjW
        have heq : (s.cpus j).frame = f := by
          by_contra hne
          have := ha.increasing j (s.cpus j).frame f (by omega) hlt
          omega
        rw [heq, hfj] at hfj'
        obtain rfl := Option.some.inj (Option.some.inj hfj')
        exact ⟨w', by rw [placeAt_some hj', if_pos rfl]⟩
  obtain ⟨j, -, x, hx, hfree⟩ := hg.exists_ready hall
  cases hj : (s.cpus j).place with
  | none =>
    rw [placeAt_none hj] at hx
    cases hx
  | some y =>
    obtain ⟨b', w'⟩ := y
    rw [placeAt_some hj] at hx
    by_cases hb : b' = b
    · subst hb
      rw [if_pos rfl] at hx
      exact hfree (Option.some.inj hx ▸ hblocked j b' w' hj)
    · rw [if_neg hb] at hx
      cases hx

theorem Reachable.not_deadlocked (ha : Aligned plan size tick) (h : s.Reachable plan size) : ¬s.Deadlocked plan :=
  (h.ok ha).not_deadlocked ha

end FrameRun

end Muen.Kernel
