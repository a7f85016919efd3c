import Mathlib.Data.Fintype.Card
import Muen.Kernel.Policy
import Muen.Lib.Machine

/-!
# SK.Barriers

The sense-reversing barrier. `Wait` is taken apart into its accesses to the shared record: every read
and write of a component, and the locked addition, is one step. `Consistent` is the invariant of a
barrier that is used by a set of CPUs whose number is the size of the barrier.
-/

namespace Muen.Kernel

/-- `SK.Barriers.Sense_Barrier_Type`. -/
structure SenseBarrier where
  size : Byte
  sense : Bool
  waitCount : Byte
  deriving DecidableEq

/-- `SK.Barriers.Initialize`. -/
def initBarrier (size : Byte) : SenseBarrier := ⟨size, false, 0⟩

/-- The places inside `Wait`, with the values of the local variables that are used behind them. -/
inductive WaitState
  | readSize
  | readSense (barrierSize : Byte)
  | getAndIncrement (barrierSize : Byte) (cpuSense : Bool)
  | clearCount (cpuSense : Bool)
  | writeSense (cpuSense : Bool)
  | spin (cpuSense : Bool)
  deriving DecidableEq

/-- One step of `Wait`: the place behind it, if the procedure does not return, and the barrier. -/
def waitStep : WaitState → SenseBarrier → Option WaitState × SenseBarrier
  | .readSize, b => (some (.readSense b.size), b)
  | .readSense n, b => (some (.getAndIncrement n (!b.sense)), b)
  | .getAndIncrement n c, b =>
    (some (if b.waitCount + 1 = n then .clearCount c else .spin c), { b with waitCount := b.waitCount + 1 })
  | .clearCount c, b => (some (.writeSense c), { b with waitCount := 0 })
  | .writeSense c, b => (none, { b with sense := c })
  | .spin c, b => (if b.sense = c then none else some (.spin c), b)

/-- A CPU in the loop of `Wait` that would read the old sense again. -/
def Blocked (b : SenseBarrier) (w : WaitState) : Prop := ∃ c, w = .spin c ∧ b.sense ≠ c

/-- The number of fetch-and-adds in a step. -/
def WaitState.arrival : WaitState → ℕ
  | .getAndIncrement _ _ => 1
  | _ => 0

/-- The number of releases in a step, which are the writes of `Sense`. -/
def WaitState.release : WaitState → ℕ
  | .writeSense _ => 1
  | _ => 0

/-- Behind the fetch-and-add. -/
def WaitState.Arrived : WaitState → Prop
  | .clearCount _ | .writeSense _ | .spin _ => True
  | _ => False

/-- The CPU that found the others waiting and has not yet released them. -/
def WaitState.Releasing : WaitState → Prop
  | .clearCount _ | .writeSense _ => True
  | _ => False

/-! ### The invariant of a barrier -/

/-- Where a CPU can be that has arrived `k` times at a barrier that was released `g` times. -/
def PlaceOk (b : SenseBarrier) (g : ℕ) : Option WaitState → ℕ → Prop
  | none, k | some .readSize, k => k = g
  | some (.readSense n), k => k = g ∧ n = b.size
  | some (.getAndIncrement n c), k => k = g ∧ n = b.size ∧ c = !b.sense
  | some (.clearCount c), k | some (.writeSense c), k => k = g + 1 ∧ c = !b.sense
  | some (.spin c), k => k = g + 1 ∧ (c = !b.sense) ∨ k = g ∧ c = b.sense

variable {ι : Type}

/-- The members that have arrived and wait for the next release. -/
def waiters (S : Finset ι) (k : ι → ℕ) (g : ℕ) : Finset ι := S.filter (fun i => k i = g + 1)

/-- A barrier that the members `S` use: they are at the places `w`, have arrived `k` times, and were
released `g` times. -/
structure Consistent (S : Finset ι) (b : SenseBarrier) (w : ι → Option WaitState) (k : ι → ℕ) (g : ℕ) :
    Prop where
  size_eq : b.size.toNat = S.card
  sense_eq : b.sense = decide (g % 2 = 1)
  place : ∀ i ∈ S, PlaceOk b g (w i) (k i)
  releaser : ∀ i ∈ S, ∀ x, w i = some x → x.Releasing →
    (∀ j ∈ S, k j = g + 1) ∧ ∀ j ∈ S, j ≠ i → ∃ c, w j = some (.spin c)
  cleared : ∀ i ∈ S, ∀ c, w i = some (.writeSense c) → b.waitCount = 0
  count_eq : (∀ i ∈ S, ∀ c, w i ≠ some (.writeSense c)) → b.waitCount.toNat = (waiters S k g).card
  count_lt : (∀ i ∈ S, ∀ x, w i = some x → ¬ x.Releasing) → (waiters S k g).card < S.card

variable {S : Finset ι} {b : SenseBarrier} {w : ι → Option WaitState} {k : ι → ℕ} {g : ℕ} {i : ι}

/-- An initialised barrier at which nobody has arrived. -/
lemma consistent_initBarrier (hS : 0 < S.card) (hsize : S.card < 256) {x : Option WaitState}
    (hx : x = none ∨ x = some .readSize) :
    Consistent S (initBarrier (BitVec.ofNat 8 S.card)) (fun _ => x) (fun _ => 0) 0 := by
  have hnone : waiters S (fun _ => 0) 0 = ∅ := by
    rw [waiters, Finset.filter_eq_empty_iff]
    exact fun i _ h => absurd h (by omega)
  have hcard : (waiters S (fun _ => 0) 0).card = 0 := by rw [hnone, Finset.card_empty]
  have hfree : ∀ y, x = some y → ¬ y.Releasing := by
    rintro y rfl
    obtain h | h := hx
    · exact absurd h (by simp)
    · obtain rfl := Option.some.inj h
      exact id
  refine ⟨?_, rfl, ?_, ?_, ?_, ?_, ?_⟩
  · simp only [initBarrier, BitVec.toNat_ofNat]
    exact Nat.mod_eq_of_lt hsize
  · intro i hi
    obtain rfl | rfl := hx
    · rfl
    · rfl
  · exact fun i hi y hy hrel => absurd hrel (hfree y hy)
  · exact fun i hi c hy => absurd trivial (hfree _ hy)
  · exact fun _ => hcard.symm
  · exact fun _ => hcard.trans_lt hS

namespace Consistent

/-- A member arrives at most once more than it was released. -/
lemma arrivals_le (h : Consistent S b w k g) (hi : i ∈ S) : k i = g ∨ k i = g + 1 := by
  have hplace := h.place i hi
  cases hx : w i with
  | none => rw [hx] at hplace; exact .inl hplace
  | some x =>
    rw [hx] at hplace
    cases x with
    | readSize => exact .inl hplace
    | readSense n => exact .inl hplace.1
    | getAndIncrement n c => exact .inl hplace.1
    | clearCount c => exact .inr hplace.1
    | writeSense c => exact .inr hplace.1
    | spin c => exact hplace.elim (fun h => .inr h.1) (fun h => .inl h.1)

lemma no_releaser (h : Consistent S b w k g) (hi : i ∈ S) (hk : k i = g) :
    ∀ j ∈ S, ∀ x, w j = some x → ¬ x.Releasing := by
  intro j hj x hx hrel
  have := (h.releaser j hj x hx hrel).1 i hi
  omega

lemma no_writeSense (h : Consistent S b w k g) (hi : i ∈ S) (hk : k i = g) :
    ∀ j ∈ S, ∀ c, w j ≠ some (.writeSense c) :=
  fun j hj _ hx => h.no_releaser hi hk j hj _ hx trivial

/-- Only the members count. -/
lemma congr (h : Consistent S b w k g) {w' : ι → Option WaitState} {k' : ι → ℕ} (hw : ∀ i ∈ S, w' i = w i)
    (hk : ∀ i ∈ S, k' i = k i) : Consistent S b w' k' g := by
  have hwaiters : waiters S k' g = waiters S k g := by
    refine Finset.filter_congr (fun i hi => ?_)
    rw [hk i hi]
  refine ⟨h.size_eq, h.sense_eq, ?_, ?_, ?_, ?_, ?_⟩
  · intro i hi
    rw [hw i hi, hk i hi]
    exact h.place i hi
  · intro i hi x hx hrel
    rw [hw i hi] at hx
    obtain ⟨hall, hspin⟩ := h.releaser i hi x hx hrel
    refine ⟨fun j hj => (hk j hj).trans (hall j hj), fun j hj hji => ?_⟩
    rw [hw j hj]
    exact hspin j hj hji
  · intro i hi c hx
    rw [hw i hi] at hx
    exact h.cleared i hi c hx
  · intro hfree
    rw [hwaiters]
    refine h.count_eq (fun i hi c => ?_)
    rw [← hw i hi]
    exact hfree i hi c
  · intro hfree
    rw [hwaiters]
    refine h.count_lt (fun i hi x => ?_)
    rw [← hw i hi]
    exact hfree i hi x

/-- When no member is outside of `Wait`, one of them can go on. -/
lemma exists_ready (h : Consistent S b w k g) (hw : ∀ i ∈ S, ∃ x, w i = some x) :
    ∃ i ∈ S, ∃ x, w i = some x ∧ ¬ Blocked b x := by
  by_contra hblocked
  push Not at hblocked
  have hspin : ∀ i ∈ S, ∃ c, w i = some (.spin c) ∧ b.sense ≠ c := by
    intro i hi
    obtain ⟨x, hx⟩ := hw i hi
    obtain ⟨c, rfl, hc⟩ := hblocked i hi x hx
    exact ⟨c, hx, hc⟩
  have hall : ∀ i ∈ S, k i = g + 1 := by
    intro i hi
    obtain ⟨c, hx, hc⟩ := hspin i hi
    have hplace := h.place i hi
    rw [hx] at hplace
    rcases hplace with ⟨hk, -⟩ | ⟨-, rfl⟩
    · exact hk
    · exact absurd rfl hc
  have hfree : ∀ i ∈ S, ∀ x, w i = some x → ¬ x.Releasing := by
    intro i hi x hx
    obtain ⟨c, hc, -⟩ := hspin i hi
    obtain rfl := Option.some.inj (hc.symm.trans hx)
    exact id
  have hlt := h.count_lt hfree
  rw [waiters, Finset.filter_true_of_mem hall] at hlt
  exact lt_irrefl _ hlt

variable [DecidableEq ι]

/-- A member that is not awaited by the others moves between places that release nobody. -/
lemma move (h : Consistent S b w k g) (hi : i ∈ S) (hk : k i = g) {y : Option WaitState}
    (hy : PlaceOk b g y (k i)) (hrel : ∀ x, y = some x → ¬ x.Releasing) :
    Consistent S b (Function.update w i y) k g := by
  have hnone : ∀ j ∈ S, ∀ x, Function.update w i y j = some x → ¬ x.Releasing := by
    intro j hj x hx
    by_cases hji : j = i
    · subst hji
      rw [Function.update_self] at hx
      exact hrel x hx
    · rw [Function.update_of_ne hji] at hx
      exact h.no_releaser hi hk j hj x hx
  refine ⟨h.size_eq, h.sense_eq, ?_, ?_, ?_, ?_, ?_⟩
  · intro j hj
    by_cases hji : j = i
    · subst hji
      rw [Function.update_self]
      exact hy
    · rw [Function.update_of_ne hji]
      exact h.place j hj
  · exact fun j hj x hx hx' => absurd hx' (hnone j hj x hx)
  · exact fun j hj c hx => absurd trivial (hnone j hj _ hx)
  · exact fun _ => h.count_eq (h.no_writeSense hi hk)
  · exact fun _ => h.count_lt (h.no_releaser hi hk)

/-- The waiters behind the fetch-and-add of a member. -/
lemma waiters_update (hi : i ∈ S) (hk : k i = g) :
    (waiters S (Function.update k i (g + 1)) g).card = (waiters S k g).card + 1 := by
  have hnot : i ∉ waiters S k g := by
    rw [waiters, Finset.mem_filter]
    rintro ⟨_, h⟩
    omega
  have heq : waiters S (Function.update k i (g + 1)) g = insert i (waiters S k g) := by
    ext j
    by_cases hji : j = i
    · subst hji
      simp [waiters, hi]
    · simp [waiters, hji]
  rw [heq, Finset.card_insert_of_notMem hnot]

/-- When all others wait, the last fetch-and-add finds them in the loop. -/
lemma others_spin (h : Consistent S b w k g) (hi : i ∈ S) (hk : k i = g)
    (hall : (waiters S k g).card + 1 = S.card) {j : ι} (hj : j ∈ S) (hji : j ≠ i) :
    k j = g + 1 ∧ ∃ c, w j = some (.spin c) := by
  have hsub : waiters S k g ⊆ S.erase i := by
    intro l hl
    rw [waiters, Finset.mem_filter] at hl
    refine Finset.mem_erase.mpr ⟨?_, hl.1⟩
    rintro rfl
    omega
  have hcard : (S.erase i).card ≤ (waiters S k g).card := by
    rw [Finset.card_erase_of_mem hi]
    omega
  have hmem : j ∈ waiters S k g := by
    rw [Finset.eq_of_subset_of_card_le hsub hcard]
    exact Finset.mem_erase.mpr ⟨hji, hj⟩
  have hkj : k j = g + 1 := (Finset.mem_filter.mp hmem).2
  have hplace := h.place j hj
  have hfree := h.no_releaser hi hk j hj
  refine ⟨hkj, ?_⟩
  cases hx : w j with
  | none =>
    rw [hx] at hplace
    exact absurd (hplace.symm.trans hkj) (by omega)
  | some x =>
    rw [hx] at hplace
    cases x with
    | readSize => exact absurd (hplace.symm.trans hkj) (by omega)
    | readSense n => exact absurd (hplace.1.symm.trans hkj) (by omega)
    | getAndIncrement n c => exact absurd (hplace.1.symm.trans hkj) (by omega)
    | clearCount c => exact absurd trivial (hfree _ hx)
    | writeSense c => exact absurd trivial (hfree _ hx)
    | spin c => exact ⟨c, rfl⟩

/-- The fetch-and-add of a member. -/
lemma getAndIncrement (h : Consistent S b w k g) (hsize : S.card < 256) (hi : i ∈ S) {n : Byte} {c : Bool}
    (hx : w i = some (.getAndIncrement n c)) :
    Consistent S { b with waitCount := b.waitCount + 1 }
      (Function.update w i (some (if b.waitCount + 1 = n then .clearCount c else .spin c)))
      (Function.update k i (g + 1)) g := by
  have hplace := h.place i hi
  rw [hx] at hplace
  obtain ⟨hk, rfl, rfl⟩ := hplace
  have hcount : b.waitCount.toNat = (waiters S k g).card := h.count_eq (h.no_writeSense hi hk)
  have hlt : (waiters S k g).card < S.card := h.count_lt (h.no_releaser hi hk)
  have hnew : (b.waitCount + 1).toNat = (waiters S (Function.update k i (g + 1)) g).card := by
    rw [waiters_update hi hk, ← hcount, BitVec.toNat_add]
    exact Nat.mod_eq_of_lt (by simp; omega)
  have hlast : b.waitCount + 1 = b.size ↔ (waiters S k g).card + 1 = S.card := by
    rw [← BitVec.toNat_inj, hnew, h.size_eq, waiters_update hi hk]
  refine ⟨h.size_eq, h.sense_eq, ?_, ?_, ?_, fun _ => hnew, ?_⟩
  · intro j hj
    by_cases hji : j = i
    · subst hji
      rw [Function.update_self, Function.update_self]
      by_cases hl : b.waitCount + 1 = b.size
      · rw [if_pos hl]
        exact ⟨rfl, rfl⟩
      · rw [if_neg hl]
        exact .inl ⟨rfl, rfl⟩
    · rw [Function.update_of_ne hji, Function.update_of_ne hji]
      exact h.place j hj
  · intro j hj x hxj hrel
    by_cases hji : j = i
    · subst hji
      rw [Function.update_self] at hxj
      by_cases hl : b.waitCount + 1 = b.size
      · have hothers := fun l (hl' : l ∈ S) (hlj : l ≠ j) => h.others_spin hi hk (hlast.mp hl) hl' hlj
        constructor
        · intro l hl'
          by_cases hlj : l = j
          · rw [hlj, Function.update_self]
          · rw [Function.update_of_ne hlj]
            exact (hothers l hl' hlj).1
        · intro l hl' hlj
          rw [Function.update_of_ne hlj]
          exact (hothers l hl' hlj).2
      · rw [if_neg hl] at hxj
        obtain rfl := Option.some.inj hxj
        exact absurd hrel (by simp [WaitState.Releasing])
    · rw [Function.update_of_ne hji] at hxj
      exact absurd hrel (h.no_releaser hi hk j hj x hxj)
  · intro j hj c hxj
    by_cases hji : j = i
    · subst hji
      rw [Function.update_self] at hxj
      split_ifs at hxj <;> simp at hxj
    · rw [Function.update_of_ne hji] at hxj
      exact absurd trivial (h.no_releaser hi hk j hj _ hxj)
  · intro hfree
    have hl : ¬ b.waitCount + 1 = b.size := by
      intro hl
      refine hfree i hi _ (Function.update_self ..) ?_
      rw [if_pos hl]
      trivial
    have := mt hlast.mpr hl
    rw [waiters_update hi hk]
    omega

/-- The releasing member clears the counter. -/
lemma clearCount (h : Consistent S b w k g) (hi : i ∈ S) {c : Bool} (hx : w i = some (.clearCount c)) :
    Consistent S { b with waitCount := 0 } (Function.update w i (some (.writeSense c))) k g := by
  obtain ⟨hall, hspin⟩ := h.releaser i hi _ hx trivial
  have hplace := h.place i hi
  rw [hx] at hplace
  refine ⟨h.size_eq, h.sense_eq, ?_, ?_, fun _ _ _ _ => rfl, ?_, ?_⟩
  · intro j hj
    by_cases hji : j = i
    · subst hji
      rw [Function.update_self]
      exact hplace
    · rw [Function.update_of_ne hji]
      exact h.place j hj
  · intro j hj x hxj hrel
    by_cases hji : j = i
    · subst hji
      refine ⟨hall, fun l hl hlj => ?_⟩
      rw [Function.update_of_ne hlj]
      exact hspin l hl hlj
    · rw [Function.update_of_ne hji] at hxj
      obtain ⟨c', hc'⟩ := hspin j hj hji
      obtain rfl := Option.some.inj (hc'.symm.trans hxj)
      exact absurd hrel (by simp [WaitState.Releasing])
  · exact fun hfree => absurd (Function.update_self ..) (hfree i hi c)
  · exact fun hfree => absurd trivial (hfree i hi _ (Function.update_self ..))

/-- The releasing member releases the others and leaves. -/
lemma writeSense (h : Consistent S b w k g) (hi : i ∈ S) {c : Bool} (hx : w i = some (.writeSense c)) :
    Consistent S { b with sense := c } (Function.update w i none) k (g + 1) := by
  obtain ⟨hall, hspin⟩ := h.releaser i hi _ hx trivial
  have hplace := h.place i hi
  rw [hx] at hplace
  obtain ⟨-, rfl⟩ := hplace
  have hothers : ∀ j ∈ S, j ≠ i → w j = some (.spin (!b.sense)) := by
    intro j hj hji
    obtain ⟨c, hc⟩ := hspin j hj hji
    have hplace := h.place j hj
    rw [hc] at hplace
    rcases hplace with ⟨-, rfl⟩ | ⟨hk, -⟩
    · exact hc
    · exact absurd (hk.symm.trans (hall j hj)) (by omega)
  have hnone : waiters S k (g + 1) = ∅ := by
    rw [waiters, Finset.filter_eq_empty_iff]
    intro j hj hk
    have := hall j hj
    omega
  have hfree : ∀ j ∈ S, ∀ x, Function.update w i none j = some x → ¬ x.Releasing := by
    intro j hj x hxj hrel
    by_cases hji : j = i
    · rw [hji, Function.update_self] at hxj
      exact absurd hxj (by simp)
    · rw [Function.update_of_ne hji, hothers j hj hji] at hxj
      obtain rfl := Option.some.inj hxj
      exact hrel
  refine ⟨h.size_eq, ?_, ?_, ?_, ?_, ?_, ?_⟩
  · rw [h.sense_eq]
    rcases Nat.mod_two_eq_zero_or_one g with hg | hg <;> simp [Nat.add_mod, hg]
  · intro j hj
    by_cases hji : j = i
    · subst hji
      rw [Function.update_self]
      exact hall j hj
    · rw [Function.update_of_ne hji, hothers j hj hji]
      exact .inr ⟨hall j hj, rfl⟩
  · exact fun j hj x hxj hrel => absurd hrel (hfree j hj x hxj)
  · exact fun j hj c hxj => absurd trivial (hfree j hj _ hxj)
  · intro _
    rw [hnone, h.cleared i hi _ hx]
    rfl
  · intro _
    rw [hnone, Finset.card_empty]
    exact Finset.card_pos.mpr ⟨i, hi⟩

/-- The call of `Wait`. -/
lemma enter (h : Consistent S b w k g) (hi : i ∈ S) (hx : w i = none) :
    Consistent S b (Function.update w i (some .readSize)) k g := by
  have hplace := h.place i hi
  rw [hx] at hplace
  exact h.move hi hplace hplace (by rintro x ⟨⟩ ⟨⟩)

/-- Every step of `Wait` by a member keeps the barrier consistent. -/
lemma step (h : Consistent S b w k g) (hsize : S.card < 256) (hi : i ∈ S) {x : WaitState}
    (hx : w i = some x) :
    Consistent S (waitStep x b).2 (Function.update w i (waitStep x b).1)
      (Function.update k i (k i + x.arrival)) (g + x.release) := by
  have hplace := h.place i hi
  rw [hx] at hplace
  have hsame : Function.update k i (k i + 0) = k := by simp
  cases x with
  | readSize =>
    simp only [WaitState.arrival, hsame]
    exact h.move hi hplace ⟨hplace, rfl⟩ (by rintro x ⟨⟩ ⟨⟩)
  | readSense n =>
    simp only [WaitState.arrival, hsame]
    exact h.move hi hplace.1 ⟨hplace.1, hplace.2, rfl⟩ (by rintro x ⟨⟩ ⟨⟩)
  | getAndIncrement n c =>
    rw [WaitState.arrival, hplace.1]
    exact h.getAndIncrement hsize hi hx
  | clearCount c =>
    simp only [WaitState.arrival, hsame]
    exact h.clearCount hi hx
  | writeSense c =>
    simp only [WaitState.arrival, hsame]
    exact h.writeSense hi hx
  | spin c =>
    simp only [WaitState.arrival, hsame]
    by_cases hc : b.sense = c
    · have hk : k i = g := by
        rcases hplace with ⟨-, hne⟩ | ⟨hk, -⟩
        · exact absurd (hc.trans hne) (by simp)
        · exact hk
      simp only [waitStep, if_pos hc]
      exact h.move hi hk hk (by rintro x ⟨⟩)
    · simp only [waitStep, if_neg hc]
      rw [← hx, Function.update_eq_self]
      exact h

end Consistent

/-! ### Waiting again and again -/

/-- A CPU that calls `Wait` any number of times: where it is, how many fetch-and-adds it has executed,
how many calls have returned, and how many releases there were when it last read `Sense`. -/
structure Waiter where
  place : Option WaitState := none
  arrivals : ℕ := 0
  returns : ℕ := 0
  sensedAt : ℕ := 0

structure WaitSystem (n : ℕ) where
  barrier : SenseBarrier
  releases : ℕ
  cpus : Fin n → Waiter

def initWaitSystem (n : ℕ) : WaitSystem n := ⟨initBarrier (BitVec.ofNat 8 n), 0, fun _ => {}⟩

/-- The CPU behind its step `x`, which has led to the place `y`. -/
def Waiter.moved (c : Waiter) (x : WaitState) (y : Option WaitState) (releases : ℕ) : Waiter where
  place := y
  arrivals := c.arrivals + x.arrival
  returns := c.returns + if y = none then 1 else 0
  sensedAt := match x with
    | .readSense _ => releases
    | _ => c.sensedAt

/-- A CPU calls `Wait`, or makes the next step of its call. -/
def WaitSystem.step {n : ℕ} (s : WaitSystem n) (i : Fin n) : WaitSystem n :=
  match (s.cpus i).place with
  | none => { s with cpus := Function.update s.cpus i { s.cpus i with place := some .readSize } }
  | some x =>
    { barrier := (waitStep x s.barrier).2
      releases := s.releases + x.release
      cpus := Function.update s.cpus i ((s.cpus i).moved x (waitStep x s.barrier).1 s.releases) }

/-- The states of all interleavings of the CPUs. -/
def WaitSystem.Reachable {n : ℕ} (s : WaitSystem n) : Prop :=
  Lib.Reaches (fun (s : WaitSystem n) i => some (s.step i)) (fun _ _ => True) (· = initWaitSystem n) s

/-- Making steps alone, the CPU at the place leaves `Wait`. -/
def leaves : ℕ → WaitState → SenseBarrier → Bool
  | 0, _, _ => false
  | fuel + 1, x, b => match waitStep x b with
    | (none, _) => true
    | (some y, b') => leaves fuel y b'

/-- The counters of a CPU agree with its place. -/
structure Waiter.Ok (c : Waiter) : Prop where
  arrived : ∀ x, c.place = some x → x.Arrived → c.arrivals = c.returns + 1
  outside : (∀ x, c.place = some x → ¬ x.Arrived) → c.arrivals = c.returns
  sensed : ∀ n v, c.place = some (.getAndIncrement n v) → c.sensedAt = c.arrivals

lemma Waiter.Ok.enter {c : Waiter} (h : c.Ok) (hc : c.place = none) :
    Waiter.Ok { c with place := some .readSize } := by
  refine ⟨?_, ?_, ?_⟩
  · rintro x ⟨⟩ ⟨⟩
  · exact fun _ => h.outside (fun x hx => absurd (hx.symm.trans hc) (by simp))
  · rintro n v ⟨⟩

lemma Waiter.Ok.moved {c : Waiter} (h : c.Ok) {x : WaitState} (hx : c.place = some x) {b : SenseBarrier} {g : ℕ}
    (hplace : PlaceOk b g (some x) c.arrivals) : (c.moved x (waitStep x b).1 g).Ok := by
  have hbefore : ¬ x.Arrived → c.arrivals = c.returns := by
    intro hnot
    refine h.outside (fun y hy => ?_)
    obtain rfl := Option.some.inj (hx.symm.trans hy)
    exact hnot
  cases x with
  | readSize =>
    refine ⟨?_, fun _ => hbefore id, ?_⟩
    · rintro x ⟨⟩ ⟨⟩
    · rintro n v ⟨⟩
  | readSense n =>
    refine ⟨?_, fun _ => hbefore id, ?_⟩
    · rintro x ⟨⟩ ⟨⟩
    · exact fun _ _ _ => hplace.1.symm
  | getAndIncrement n v =>
    refine ⟨fun _ _ _ => congrArg (· + 1) (hbefore id), fun hnot => ?_, fun m u hy => ?_⟩
    · refine absurd ?_ (hnot _ rfl)
      split_ifs <;> trivial
    · simp only [Waiter.moved, waitStep, Option.some.injEq] at hy
      split_ifs at hy
  | clearCount v =>
    refine ⟨fun _ _ _ => h.arrived _ hx trivial, fun hnot => absurd trivial (hnot _ rfl), ?_⟩
    rintro n u ⟨⟩
  | writeSense v =>
    refine ⟨?_, fun _ => h.arrived _ hx trivial, ?_⟩
    · rintro x ⟨⟩
    · rintro n u ⟨⟩
  | spin v =>
    have harr := h.arrived _ hx trivial
    by_cases hv : b.sense = v
    · simp only [waitStep, if_pos hv]
      refine ⟨?_, fun _ => harr, ?_⟩
      · rintro x ⟨⟩
      · rintro n u ⟨⟩
    · simp only [waitStep, if_neg hv]
      refine ⟨fun _ _ _ => harr, fun hnot => absurd trivial (hnot _ rfl), ?_⟩
      rintro n u ⟨⟩

/-- The invariant of all interleavings. -/
structure WaitSystem.Ok {n : ℕ} (s : WaitSystem n) : Prop where
  consistent : Consistent Finset.univ s.barrier (fun i => (s.cpus i).place) (fun i => (s.cpus i).arrivals)
    s.releases
  waiter : ∀ i, (s.cpus i).Ok

lemma initWaitSystem_ok {n : ℕ} (hn : 0 < n) (hn' : n < 256) : (initWaitSystem n).Ok := by
  have hcard : (Finset.univ : Finset (Fin n)).card = n := Finset.card_fin n
  have h := consistent_initBarrier (S := (Finset.univ : Finset (Fin n))) (by omega) (by omega) (.inl rfl)
  rw [hcard] at h
  refine ⟨h, fun _ => ⟨?_, fun _ => rfl, ?_⟩⟩
  · rintro x ⟨⟩
  · rintro n v ⟨⟩

lemma WaitSystem.Ok.step {n : ℕ} {s : WaitSystem n} (h : s.Ok) (hn : n < 256) (i : Fin n) : (s.step i).Ok := by
  have hwaiter : ∀ c : Waiter, c.Ok → ∀ j, (Function.update s.cpus i c j).Ok := by
    intro c hc j
    by_cases hji : j = i
    · subst hji
      rwa [Function.update_self]
    · rw [Function.update_of_ne hji]
      exact h.waiter j
  have hmap : ∀ (β : Type) (f : Waiter → β) (c : Waiter),
      (fun j => f (Function.update s.cpus i c j)) = Function.update (fun j => f (s.cpus j)) i (f c) :=
    fun β f c => funext (fun j => Function.apply_update (fun _ => f) s.cpus i c j)
  unfold WaitSystem.step
  cases hx : (s.cpus i).place with
  | none =>
    refine ⟨?_, hwaiter _ ((h.waiter i).enter hx)⟩
    have hnew := h.consistent.enter (Finset.mem_univ i) hx
    dsimp only
    rw [hmap _ Waiter.place, hmap _ Waiter.arrivals, Function.update_eq_self]
    exact hnew
  | some x =>
    have hplace := h.consistent.place i (Finset.mem_univ i)
    rw [hx] at hplace
    refine ⟨?_, hwaiter _ ((h.waiter i).moved hx hplace)⟩
    dsimp only
    rw [hmap _ Waiter.place, hmap _ Waiter.arrivals]
    exact h.consistent.step (by simpa using hn) (Finset.mem_univ i) hx

lemma WaitSystem.Reachable.ok {n : ℕ} {s : WaitSystem n} (h : s.Reachable) (hn : 0 < n) (hn' : n < 256) :
    s.Ok := by
  refine Lib.Reaches.invariant h WaitSystem.Ok ?_ ?_
  · rintro s rfl
    exact initWaitSystem_ok hn hn'
  · intro s i s' hs _ hstep
    obtain rfl := Option.some.inj hstep
    exact hs.step hn' i

lemma WaitSystem.Ok.returns_le {n : ℕ} {s : WaitSystem n} (h : s.Ok) (i : Fin n) :
    (s.cpus i).returns ≤ s.releases := by
  have hplace := h.consistent.arrivals_le (Finset.mem_univ i)
  by_cases harr : ∃ x, (s.cpus i).place = some x ∧ x.Arrived
  · obtain ⟨x, hx, hx'⟩ := harr
    have := (h.waiter i).arrived x hx hx'
    omega
  · push Not at harr
    have hk := (h.waiter i).outside harr
    have hx := h.consistent.place i (Finset.mem_univ i)
    cases hp : (s.cpus i).place with
    | none => rw [hp] at hx; exact (hk.symm.trans hx).le
    | some x =>
      rw [hp] at hx
      cases x with
      | readSize => exact (hk.symm.trans hx).le
      | readSense n => exact (hk.symm.trans hx.1).le
      | getAndIncrement n v => exact (hk.symm.trans hx.1).le
      | clearCount v => exact absurd trivial (harr _ hp)
      | writeSense v => exact absurd trivial (harr _ hp)
      | spin v => exact absurd trivial (harr _ hp)

lemma leaves_of_not_blocked {b : SenseBarrier} {x : WaitState} (hx : x.Arrived) (hb : ¬ Blocked b x) :
    leaves 2 x b := by
  cases x with
  | readSize => exact hx.elim
  | readSense n => exact hx.elim
  | getAndIncrement n v => exact hx.elim
  | clearCount v => rfl
  | writeSense v => rfl
  | spin v =>
    have hv : b.sense = v := by
      by_contra hne
      exact hb ⟨v, rfl, hne⟩
    simp [leaves, waitStep, hv]

/-- In every interleaving a CPU returns from a `Wait` only after all CPUs have arrived at theirs, arrives
with a sense that it has read after the release before, the counter never exceeds the size, and when
all CPUs have arrived one of them can leave. -/
theorem wait_synchronizes {n : ℕ} (hn : 2 ≤ n) (hn' : n ≤ 255) {s : WaitSystem n} (h : s.Reachable) :
    (∀ i j, (s.cpus i).returns ≤ (s.cpus j).arrivals) ∧
    (∀ i m v, (s.cpus i).place = some (.getAndIncrement m v) → (s.cpus i).arrivals ≤ (s.cpus i).sensedAt) ∧
    s.barrier.waitCount.toNat ≤ n ∧
    ∀ k, (∀ i, ∃ x, (s.cpus i).place = some x ∧ x.Arrived ∧ (s.cpus i).arrivals = k) →
      ∃ i x fuel, (s.cpus i).place = some x ∧ leaves fuel x s.barrier := by
  have hok := h.ok (by omega) (by omega)
  refine ⟨?_, ?_, ?_, ?_⟩
  · intro i j
    have hi := hok.returns_le i
    have hj := hok.consistent.arrivals_le (Finset.mem_univ j)
    omega
  · intro i m v hx
    exact ((hok.waiter i).sensed m v hx).ge
  · by_cases hwrite : ∃ i v, (s.cpus i).place = some (.writeSense v)
    · obtain ⟨i, v, hx⟩ := hwrite
      rw [hok.consistent.cleared i (Finset.mem_univ i) v hx]
      exact Nat.zero_le n
    · push Not at hwrite
      rw [hok.consistent.count_eq (fun i _ v => hwrite i v)]
      exact (Finset.card_filter_le _ _).trans (Finset.card_fin n).le
  · intro k hall
    obtain ⟨i, -, x, hx, hb⟩ := hok.consistent.exists_ready (fun i _ => ⟨_, (hall i).choose_spec.1⟩)
    obtain ⟨y, hy, harr, -⟩ := hall i
    obtain rfl := Option.some.inj (hx.symm.trans hy)
    exact ⟨i, x, 2, hx, leaves_of_not_blocked harr hb⟩

/-- Two CPUs, one after the other, up to their fetch-and-adds. -/
def twoArrived : WaitSystem 2 := [0, 0, 0, 0, 1, 1, 1, 1].foldl WaitSystem.step (initWaitSystem 2)

lemma twoArrived_reachable : twoArrived.Reachable := by
  have hinit : (initWaitSystem 2).Reachable := .start rfl
  have hrun : Lib.run (fun (s : WaitSystem 2) i => some (s.step i)) (initWaitSystem 2)
      [0, 0, 0, 0, 1, 1, 1, 1] = some twoArrived := rfl
  exact Lib.Reaches.run hinit rfl hrun

theorem wait_synchronizes_two : twoArrived.Reachable ∧
    (twoArrived.cpus 0).place = some (.spin true) ∧ (twoArrived.cpus 1).place = some (.clearCount true) ∧
    ∃ i x fuel, (twoArrived.cpus i).place = some x ∧ leaves fuel x twoArrived.barrier := by
  have hzero : (twoArrived.cpus 0).place = some (.spin true) := by decide
  have hone : (twoArrived.cpus 1).place = some (.clearCount true) := by decide
  refine ⟨twoArrived_reachable, hzero, hone, ?_⟩
  refine (wait_synchronizes (by decide) (by decide) twoArrived_reachable).2.2.2 1 ?_
  intro i
  match i with
  | 0 => exact ⟨_, hzero, trivial, by decide⟩
  | 1 => exact ⟨_, hone, trivial, by decide⟩

end Muen.Kernel
