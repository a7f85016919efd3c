import Muen.Kernel.TimerListRuns

/-!
# The search for the next active group

`Find_Next_Active_Scheduling_Group` while nobody sends events: between two steps only time passes. The
groups of the partition are examined in cyclic order, and those that are not active are put to sleep.
-/

namespace Muen.Kernel

open Lib Relation

variable {P : Policy}

/-! ### Activity -/

/-- What `Is_Active` tests, at a given time. -/
def activeAt (s : State P) (now : Word64) (id : P.Subject) : Bool :=
  (s.descriptors id).running ∨ s.pendingEvents id ≠ 0 ∨ hasPendingInterrupt (s.pendingInterrupts id) ∨
  (s.timedEvents id).tscTriggerValue ≤ now

/-- The activity bit of a group. -/
def indicated (s : State P) (g : P.Group) : Bool :=
  bitTest (s.groupActivity (Policy.partitionOf g)) (P.groupIndex g)

def inTimerList (s : State P) (g : P.Group) : Bool :=
  isGroupInTimerList (Policy.partitionOf g) g s.scheduler

/-- The index that is visited after `k` others. -/
def visited (p : P.Partition) (current : GroupIndex) (k : ℕ) : GroupIndex :=
  (successorGroup p)^[k + 1] current

/-- The first group in the order of the visits whose bit is set and whose subject is active. -/
def nextActiveGroup (p : P.Partition) (s : State P) : Option P.Group :=
  (List.range (P.lastGroupIndex p + 1)).findSome? (fun k =>
    (P.partitionGroups p (visited p (s.scheduler.partitions p).activeGroupIndex k)).filter
      (fun g => indicated s g && activeAt s s.tsc (s.scheduler.groups g).activeSubject))

/-- Time passes, but not beyond `limit`. -/
def Ticks (limit : Word64) (c c' : Unit × State P) : Prop :=
  c'.2 = { c.2 with tsc := c'.2.tsc } ∧ c.2.tsc ≤ c'.2.tsc ∧ c'.2.tsc ≤ limit

/-- No run-time check fails, and the kernel does not halt. -/
def NoFailure : Option (Label P) → Unit × State P → Prop
  | some l, _ => l.failed = false
  | none, _ => False

/-- The outcome of a search that starts in `s` and ends in `s'` after `n` groups have been passed over. -/
structure RoundRobin (p : P.Partition) (s : State P) (r : Option P.Group × GroupIndex) (s' : State P)
    (n : ℕ) : Prop where
  passed : ∀ k < n, ∀ g,
    P.partitionGroups p (visited p (s.scheduler.partitions p).activeGroupIndex k) = some g →
    (indicated s g = true → activeAt s s.tsc (s.scheduler.groups g).activeSubject = false ∧
      inTimerList s' g = true) ∧
    (indicated s g = false → inTimerList s' g = inTimerList s g) ∧ indicated s' g = false
  found : ∀ g, r.1 = some g → n ≤ P.lastGroupIndex p ∧
    r.2 = visited p (s.scheduler.partitions p).activeGroupIndex n ∧ P.partitionGroups p r.2 = some g ∧
    indicated s g = true ∧ activeAt s s'.tsc (s.scheduler.groups g).activeSubject = true ∧
    inTimerList s' g = false ∧ indicated s' g = true
  notFound : r.1 = none → n = P.lastGroupIndex p + 1 ∧ r.2 = (s.scheduler.partitions p).activeGroupIndex
  notVisited : ∀ k, n < k → k ≤ P.lastGroupIndex p → ∀ g,
    P.partitionGroups p (visited p (s.scheduler.partitions p).activeGroupIndex k) = some g →
    indicated s' g = indicated s g ∧ inTimerList s' g = inTimerList s g
  partitions : ∀ q, q ≠ p → s'.groupActivity q = s.groupActivity q ∧
    s'.scheduler.partitions q = s.scheduler.partitions q
  groups : ∀ g, Policy.partitionOf g ≠ p → s'.scheduler.groups g = s.scheduler.groups g
  rest : s' = { s with scheduler := s'.scheduler, groupActivity := s'.groupActivity, tsc := s'.tsc }
  core : s'.scheduler.core = s.scheduler.core
  lists : ∃ chains, TimerListInvariant s'.scheduler chains

/-! ### The order of the visits -/

lemma successorGroup_val {p : P.Partition} {i : GroupIndex} (hi : i ≤ P.lastGroupIndex p) :
    (successorGroup p i).val = (i.val + 1) % ((P.lastGroupIndex p).val + 1) := by
  have hlast := (P.lastGroupIndex p).isLt
  rw [successorGroup]
  by_cases h : i < P.lastGroupIndex p
  · rw [if_pos h]
    simp only [Fin.lt_def, Fin.val_add] at h ⊢
    have hone : (1 : Fin 64).val = 1 := rfl
    rw [hone, Nat.mod_eq_of_lt (by omega), Nat.mod_eq_of_lt (by omega)]
  · rw [if_neg h]
    have heq : i.val = (P.lastGroupIndex p).val := le_antisymm hi (not_lt.mp h)
    rw [heq, Nat.mod_self]
    rfl

lemma visited_le (p : P.Partition) (current : GroupIndex) (k : ℕ) :
    visited p current k ≤ P.lastGroupIndex p := by
  rw [visited, Function.iterate_succ_apply']
  exact successorGroup_le p _

lemma visited_val {p : P.Partition} {current : GroupIndex} (hcurrent : current ≤ P.lastGroupIndex p) (k : ℕ) :
    (visited p current k).val = (current.val + 1 + k) % ((P.lastGroupIndex p).val + 1) := by
  induction k with
  | zero => exact successorGroup_val hcurrent
  | succ k ih =>
    have hnext : visited p current (k + 1) = successorGroup p (visited p current k) := by
      rw [visited, Function.iterate_succ_apply', visited]
    rw [hnext, successorGroup_val (visited_le p current k), ih, Nat.mod_add_mod, Nat.add_assoc _ k 1]

/-- The groups of a partition are visited at most once, the active one last. -/
lemma visited_injective {p : P.Partition} {current : GroupIndex} (hcurrent : current ≤ P.lastGroupIndex p)
    {j k : ℕ} (hj : j ≤ P.lastGroupIndex p) (hk : k ≤ P.lastGroupIndex p)
    (h : visited p current j = visited p current k) : j = k := by
  have hval := congrArg Fin.val h
  rw [visited_val hcurrent, visited_val hcurrent] at hval
  have hmod : j ≡ k [MOD (P.lastGroupIndex p).val + 1] :=
    Nat.ModEq.add_left_cancel' (current.val + 1) hval
  exact hmod.eq_of_lt_of_lt (Nat.lt_succ_of_le hj) (Nat.lt_succ_of_le hk)

lemma visited_last {p : P.Partition} {current : GroupIndex} (hcurrent : current ≤ P.lastGroupIndex p) :
    visited p current (P.lastGroupIndex p) = current := by
  apply Fin.ext
  have hle : current.val ≤ (P.lastGroupIndex p).val := hcurrent
  rw [visited_val hcurrent, Nat.add_assoc, Nat.add_comm 1, Nat.add_mod_right, Nat.mod_eq_of_lt (by omega)]

/-! ### The timer lists -/

/-- The representation invariant makes the chains timer lists. -/
lemma TimerListInvariant.timerLists {s : Scheduler P} {chains : P.Partition → List P.Group}
    (h : TimerListInvariant s chains) : TimerLists s chains := by
  have howned : ∀ q g, g ∈ chains q → Policy.partitionOf g = q := by
    intro q g hg
    obtain ⟨i, hi⟩ := h.owned q g hg
    exact ((Policy.partitionGroups_eq_some _ _ _).mp hi).1
  have hhead : ∀ group gs, Chain s group gs → group = gs.head? := by
    intro group gs hchain
    cases gs with
    | nil => exact hchain
    | cons g gs => exact hchain.1
  have hnext : ∀ (as : List P.Group) group x bs, Chain s group (as ++ x :: bs) →
      (s.groups x).nextTimer = bs.head? := by
    intro as
    induction as with
    | nil => exact fun group x bs hchain => hhead _ _ hchain.2
    | cons a as ih => exact fun group x bs hchain => ih _ x bs hchain.2
  refine ⟨⟨fun q => hhead _ _ (h.isChain q), ?_, h.nodup, ?_, h.free⟩, howned, h.sorted⟩
  · intro q as x bs hq
    have hchain := h.isChain q
    rw [hq] at hchain
    refine ⟨?_, hnext as _ x bs hchain⟩
    rcases List.eq_nil_or_concat as with rfl | ⟨as', a, rfl⟩
    · exact h.head q x hchain.1
    · have ha : (s.groups a).nextTimer = some x := by
        apply hnext as' (s.partitions q).earliestTimer a (x :: bs)
        simpa using hchain
      show (s.groups x).prevTimer = _
      rw [(h.inverse a x).mp ha]
      simp
  · intro q q' x hq hq'
    exact (howned q x hq).symm.trans (howned q' x hq')

/-- The step from one state of the timer lists to another changes the list of one partition only. -/
structure ListsWithin (p : P.Partition) (s : Scheduler P) (f : P.Partition → List P.Group) (s' : Scheduler P)
    (f' : P.Partition → List P.Group) : Prop where
  timerLists : TimerLists s' f'
  core : s'.core = s.core
  others : ∀ q, q ≠ p → f' q = f q
  timeout : ∀ x, Policy.partitionOf x ≠ p → s'.timeout x = s.timeout x

section Lists

variable {p : P.Partition} {s s' : Scheduler P} {f f' : P.Partition → List P.Group}

lemma ListsWithin.refl (h : TimerLists s f) : ListsWithin p s f s f :=
  ⟨h, rfl, fun _ _ => rfl, fun _ _ => rfl⟩

lemma ListsWithin.trans {s'' : Scheduler P} {f'' : P.Partition → List P.Group} (h : ListsWithin p s f s' f')
    (h' : ListsWithin p s' f' s'' f'') : ListsWithin p s f s'' f'' where
  timerLists := h'.timerLists
  core := h'.core.trans h.core
  others q hq := (h'.others q hq).trans (h.others q hq)
  timeout x hx := (h'.timeout x hx).trans (h.timeout x hx)

/-- The links of a group of another partition are the same. -/
lemma ListsWithin.cell (h : ListsWithin p s f s' f') (hs : TimerLists s f) {x : P.Group}
    (hx : Policy.partitionOf x ≠ p) :
    (s'.groups x).prevTimer = (s.groups x).prevTimer ∧ (s'.groups x).nextTimer = (s.groups x).nextTimer := by
  have hsame := h.others _ hx
  by_cases hmem : x ∈ f (Policy.partitionOf x)
  · obtain ⟨as, bs, hf⟩ := List.append_of_mem hmem
    have hold := hs.links.links_eq _ as x bs hf
    have hnew := h.timerLists.links.links_eq _ as x bs (hsame.trans hf)
    exact ⟨hnew.1.trans hold.1.symm, hnew.2.trans hold.2.symm⟩
  · have hfree : ∀ q, x ∉ f q := by
      intro q hq
      rw [← hs.owned q x hq] at hq
      exact hmem hq
    have hfree' : ∀ q, x ∉ f' q := by
      intro q hq
      rw [← h.timerLists.owned q x hq, hsame] at hq
      exact hmem hq
    have hold := hs.links.free x hfree
    have hnew := h.timerLists.links.free x hfree'
    exact ⟨hnew.1.trans hold.1.symm, hnew.2.trans hold.2.symm⟩

lemma ListsWithin.groups (h : ListsWithin p s f s' f') (hs : TimerLists s f) {x : P.Group}
    (hx : Policy.partitionOf x ≠ p) : s'.groups x = s.groups x := by
  obtain ⟨hprev, hnext⟩ := h.cell hs hx
  have hsubject : (s'.groups x).activeSubject = (s.groups x).activeSubject :=
    congrFun (congrArg Core.activeSubject h.core) x
  have htimeout : (s'.groups x).timeout = (s.groups x).timeout := h.timeout x hx
  cases hg : s'.groups x
  cases hg' : s.groups x
  simp only [hg, hg'] at hprev hnext hsubject htimeout
  rw [hprev, hnext, hsubject, htimeout]

lemma ListsWithin.partitions (h : ListsWithin p s f s' f') (hs : TimerLists s f) {q : P.Partition}
    (hq : q ≠ p) : s'.partitions q = s.partitions q := by
  have hindex : (s'.partitions q).activeGroupIndex = (s.partitions q).activeGroupIndex :=
    congrFun (congrArg Core.activeGroupIndex h.core) q
  have hsleeping : (s'.partitions q).sleeping = (s.partitions q).sleeping :=
    congrFun (congrArg Core.sleeping h.core) q
  have hearliest : (s'.partitions q).earliestTimer = (s.partitions q).earliestTimer := by
    have hnew : (s'.partitions q).earliestTimer = (f' q).head? := h.timerLists.links.head_eq q
    have hold : (s.partitions q).earliestTimer = (f q).head? := hs.links.head_eq q
    rw [hnew, hold, h.others q hq]
  cases hg : s'.partitions q
  cases hg' : s.partitions q
  simp only [hg, hg'] at hindex hsleeping hearliest
  rw [hindex, hsleeping, hearliest]

/-- `Deactivate_Group` puts the group into the list of its partition. -/
lemma insertTimer_within {g : P.Group} (h : TimerLists s f) (hp : Policy.partitionOf g = p) (d : Word64) :
    ∃ s' f', insertTimer p g d s = some s' ∧ ListsWithin p s f s' f' ∧
      ∀ x, x ∈ f' p ↔ x ∈ f p ∨ x = g := by
  unfold insertTimer
  by_cases hin : isGroupInTimerList p g s = true
  · rw [if_pos hin]
    have hmem := (h.mem_iff hp).mpr hin
    refine ⟨s, f, rfl, .refl h, fun x => ⟨.inl, ?_⟩⟩
    rintro (hx | rfl)
    · exact hx
    · exact hmem
  · rw [if_neg hin]
    have hg : g ∉ f p := fun hmem => hin ((h.mem_iff hp).mp hmem)
    have hhead : (s.partitions p).earliestTimer = (f p).head? := h.links.head_eq p
    obtain ⟨as, bs, hf, heq, hlists⟩ := h.insertLoop_eq hp hg (d := d) (P.groups + 1) [] (f p) rfl
      (Nat.lt_succ_of_le (h.length_le p)) (by simp)
    rw [hhead]
    refine ⟨_, _, heq, ⟨hlists, insertGroup_core s p g d _ _, ?_, ?_⟩, ?_⟩
    · exact fun q hq => Function.update_of_ne hq _ _
    · intro x hx
      have hxg : x ≠ g := fun hxg => hx (hxg ▸ hp)
      rw [insertGroup_timeout, Function.update_of_ne hxg]
    · intro x
      rw [Function.update_self, hf]
      simp only [List.mem_append, List.mem_cons]
      tauto

lemma remove_within {g : P.Group} (h : TimerLists s f) (hg : g ∈ f p) :
    ∃ f', ListsWithin p s f (removeGroupFromTimerList p g s) f' ∧ ∀ x, x ∈ f' p ↔ x ∈ f p ∧ x ≠ g := by
  obtain ⟨as, bs, hf⟩ := List.append_of_mem hg
  refine ⟨_, ⟨h.remove hf, removeGroupFromTimerList_core s p g, ?_, ?_⟩, ?_⟩
  · exact fun q hq => Function.update_of_ne hq _ _
  · intro x _
    rw [removeGroupFromTimerList_timeout]
  · intro x
    have hnodup := h.links.nodup p
    rw [hf] at hnodup
    rw [Function.update_self, hf]
    have hnot : g ∉ as ++ bs := (List.nodup_middle.mp hnodup).notMem
    simp only [List.mem_append, List.mem_cons] at hnot ⊢
    constructor
    · intro hx
      refine ⟨by tauto, fun hxg => ?_⟩
      subst hxg
      exact hnot hx
    · tauto

end Lists

/-! ### A round of the search -/

/-- A state that differs from `s` in the scheduler, in the activity indicators and in the time. -/
def At (limit : Word64) (s : State P) (σ : Scheduler P) (a : P.Partition → Word64) (c : Unit × State P) : Prop :=
  c.2 = { s with scheduler := σ, groupActivity := a, tsc := c.2.tsc } ∧ s.tsc ≤ c.2.tsc ∧ c.2.tsc ≤ limit

/-- What the round at an index does to the scheduler and to the activity indicators; it ends at `now`. -/
inductive Round (p : P.Partition) (s : State P) (i : GroupIndex) (σ : Scheduler P)
    (a : P.Partition → Word64) (now : Word64) :
    Option P.Group → Scheduler P → (P.Partition → Word64) → Prop
  | notIndicated (hbit : bitTest (a p) i = false) : Round p s i σ a now none σ a
  | active {g : P.Group} (hg : P.partitionGroups p i = some g) (hbit : bitTest (a p) i = true)
      (hactive : activeAt s now (σ.groups g).activeSubject = true) :
      Round p s i σ a now (some g)
        (if isGroupInTimerList p g σ then removeGroupFromTimerList p g σ else σ) a
  | inactive {g : P.Group} {σ' : Scheduler P} (hg : P.partitionGroups p i = some g)
      (hbit : bitTest (a p) i = true) (hactive : activeAt s s.tsc (σ.groups g).activeSubject = false)
      (hinsert : insertTimer p (P.subjectToGroup (σ.groups g).activeSubject)
        (s.timedEvents (σ.groups g).activeSubject).tscTriggerValue σ = some σ') :
      Round p s i σ a now none σ' (Function.update a p (bitClear (a p) i))
  | reactivated {g : P.Group} {σ' : Scheduler P} (hg : P.partitionGroups p i = some g)
      (hbit : bitTest (a p) i = true) (hactive : activeAt s now (σ.groups g).activeSubject = true)
      (hinsert : insertTimer p (P.subjectToGroup (σ.groups g).activeSubject)
        (s.timedEvents (σ.groups g).activeSubject).tscTriggerValue σ = some σ') :
      Round p s i σ a now (some g) (removeGroupFromTimerList p g σ')
        (Function.update a p (bitSet (bitClear (a p) i) (P.groupIndex g)))

section Rounds

variable {limit : Word64} {p : P.Partition} {s : State P} {i : GroupIndex} {σ σ' : Scheduler P}
  {a a' : P.Partition → Word64} {c : Unit × State P} {id : P.Subject}

lemma activeAt_iff {now : Word64} : activeAt s now id = true ↔
    (s.descriptors id).running = true ∨ s.pendingEvents id ≠ 0 ∨
      hasPendingInterrupt (s.pendingInterrupts id) = true ∨ (s.timedEvents id).tscTriggerValue ≤ now := by
  rw [activeAt, decide_eq_true_eq]

lemma activeAt_mono {now now' : Word64} (h : now ≤ now') (hactive : activeAt s now id = true) :
    activeAt s now' id = true := by
  rw [activeAt_iff] at hactive ⊢
  rcases hactive with h' | h' | h' | h'
  · exact .inl h'
  · exact .inr (.inl h')
  · exact .inr (.inr (.inl h'))
  · exact .inr (.inr (.inr (BitVec.le_trans h' h)))

lemma Round.mono {now now' : Word64} (h : now ≤ now') {r : Option P.Group}
    (hr : Round p s i σ a now r σ' a') : Round p s i σ a now' r σ' a' := by
  cases hr with
  | notIndicated hbit => exact .notIndicated hbit
  | active hg hbit hactive => exact .active hg hbit (activeAt_mono h hactive)
  | inactive hg hbit hactive hinsert => exact .inactive hg hbit hactive hinsert
  | reactivated hg hbit hactive hinsert => exact .reactivated hg hbit (activeAt_mono h hactive) hinsert

lemma at_stable : Stable (Ticks limit) (At limit s σ a) := by
  rintro c c' ⟨hc, hle, hlimit⟩ ⟨h, hs, -⟩
  refine ⟨?_, BitVec.le_trans hs hle, hlimit⟩
  rw [hc, h]

/-- An activity test that was passed stays passed. -/
lemma active_stable : Stable (Ticks limit) (fun c => At limit s σ a c ∧ activeAt s c.2.tsc id = true) :=
  fun c c' hc h => ⟨at_stable c c' hc h.1, activeAt_mono hc.2.1 h.2⟩

/-- The outcome of an activity test. -/
def Tested (limit : Word64) (s : State P) (σ : Scheduler P) (a : P.Partition → Word64) (id : P.Subject)
    (active : Bool) (c : Unit × State P) : Prop :=
  At limit s σ a c ∧ (active = true → activeAt s c.2.tsc id = true) ∧
    (active = false → activeAt s s.tsc id = false)

lemma tested_stable {active : Bool} : Stable (Ticks limit) (Tested limit s σ a id active) :=
  fun c c' hc h => ⟨at_stable c c' hc h.1, fun ht => activeAt_mono hc.2.1 (h.2.1 ht), h.2.2⟩

lemma At.descriptors (h : At limit s σ a c) : c.2.descriptors = s.descriptors := by rw [h.1]

lemma At.pendingEvents (h : At limit s σ a c) : c.2.pendingEvents = s.pendingEvents := by rw [h.1]

lemma At.pendingInterrupts (h : At limit s σ a c) : c.2.pendingInterrupts = s.pendingInterrupts := by rw [h.1]

lemma At.timedEvents (h : At limit s σ a c) : c.2.timedEvents = s.timedEvents := by rw [h.1]

lemma isActive_at (d : Option P.Group) (id : P.Subject) (h : At limit s σ a c) :
    (isActive d id).Sat (Ticks limit) NoFailure (Tested limit s σ a id) c := by
  have hyes : ∀ c', At limit s σ a c' → activeAt s c'.2.tsc id = true →
      (pure true : Proc P Bool).Sat (Ticks limit) NoFailure (Tested limit s σ a id) c' :=
    fun c' h' hactive => Prog.sat_pure tested_stable ⟨h', fun _ => hactive, fun hf => by cases hf⟩
  refine Prog.sat_read at_stable h (fun _ _ => rfl) (fun c₁ h₁ => ?_)
  by_cases hr : (c₁.2.descriptors id).running = true
  · rw [if_pos hr]
    rw [h₁.descriptors] at hr
    exact hyes c₁ h₁ (activeAt_iff.mpr (.inl hr))
  rw [if_neg hr]
  refine Prog.sat_read at_stable h₁ (fun _ _ => rfl) (fun c₂ h₂ => ?_)
  by_cases he : decide (c₂.2.pendingEvents id ≠ 0) = true
  · rw [if_pos he]
    rw [h₂.pendingEvents, decide_eq_true_eq] at he
    exact hyes c₂ h₂ (activeAt_iff.mpr (.inr (.inl he)))
  rw [if_neg he]
  refine Prog.sat_read at_stable h₂ (fun _ _ => rfl) (fun c₃ h₃ => ?_)
  by_cases hi : hasPendingInterrupt (c₃.2.pendingInterrupts id) = true
  · rw [if_pos hi]
    rw [h₃.pendingInterrupts] at hi
    exact hyes c₃ h₃ (activeAt_iff.mpr (.inr (.inr (.inl hi))))
  rw [if_neg hi]
  have hstable : ∀ now : Word64, Stable (Ticks limit) (fun c => At limit s σ a c ∧ now ≤ c.2.tsc) :=
    fun now c c' hc h => ⟨at_stable c c' hc h.1, BitVec.le_trans h.2 hc.2.1⟩
  refine Prog.sat_read at_stable h₃ (fun _ _ => rfl) (fun c₄ h₄ => ?_)
  intro c₅ hc₅
  obtain ⟨h₅, hle⟩ := (hstable c₄.2.tsc).steps hc₅ ⟨h₄, BitVec.le_refl _⟩
  refine ⟨rfl, fun c₆ hc₆ => tested_stable.steps hc₆ ⟨h₅, fun ht => ?_, fun hf => ?_⟩⟩
  · rw [decide_eq_true_eq, h₅.timedEvents] at ht
    exact activeAt_iff.mpr (.inr (.inr (.inr (BitVec.le_trans ht hle))))
  · rw [decide_eq_false_iff_not, h₅.timedEvents] at hf
    have hnot : ¬ (s.timedEvents id).tscTriggerValue ≤ s.tsc := fun hdue => hf (BitVec.le_trans hdue h₄.2.1)
    rw [h₁.descriptors] at hr
    rw [h₂.pendingEvents, decide_eq_true_eq] at he
    rw [h₃.pendingInterrupts] at hi
    rw [← Bool.not_eq_true, activeAt_iff]
    tauto

lemma round_stable {r : Option P.Group} : Stable (Ticks limit) (fun c : Unit × State P =>
    ∃ σ' a', At limit s σ' a' c ∧ Round p s i σ a c.2.tsc r σ' a') := by
  rintro c c' hc ⟨σ', a', h, hr⟩
  exact ⟨σ', a', at_stable c c' hc h, hr.mono hc.2.1⟩

lemma At.onScheduler (f : Scheduler P → Scheduler P) (h : At limit s σ a c) :
    At limit s (f σ) a (c.1, State.onScheduler f c.2) := by
  obtain ⟨hc, hle⟩ := h
  refine ⟨?_, hle⟩
  rw [hc]
  rfl

lemma At.activity {a : P.Partition → Word64} (u : (P.Partition → Word64) → P.Partition → Word64)
    (h : At limit s σ a c) : At limit s σ (u a) (c.1, { c.2 with groupActivity := u c.2.groupActivity }) := by
  obtain ⟨hc, hle⟩ := h
  refine ⟨?_, hle⟩
  rw [hc]

lemma deactivateGroup_at (h : At limit s σ a c)
    (hinsert : insertTimer p (P.subjectToGroup id) (s.timedEvents id).tscTriggerValue σ = some σ') :
    (deactivateGroup p i id).Sat (Ticks limit) NoFailure
      (fun _ => At limit s σ' (Function.update a p (bitClear (a p) i))) c := by
  refine Prog.sat_read at_stable h (fun _ _ => rfl) (fun c₁ h₁ => ?_)
  rw [h₁.timedEvents]
  refine Prog.sat_attempt at_stable h₁ (fun _ _ => rfl) (fun c₂ h₂ => ?_)
  have hscheduler : c₂.2.scheduler = σ := by rw [h₂.1]
  rw [hscheduler, hinsert]
  refine ⟨_, rfl, ?_⟩
  have h₃ : At limit s σ' a (c₂.1, { c₂.2 with scheduler := σ' }) := by
    obtain ⟨hc, hle⟩ := h₂
    refine ⟨?_, hle⟩
    rw [hc]
  intro c₄ hc₄
  have h₄ := at_stable.steps hc₄ h₃
  refine ⟨rfl, fun c₅ hc₅ => at_stable.steps hc₅ ?_⟩
  exact h₄.activity (fun x => Function.update x p (bitClear (x p) i))

lemma activateGroup_at {g : P.Group} (d : Option P.Group)
    (h : At limit s σ a c ∧ activeAt s c.2.tsc id = true) :
    (activateGroup d p g).Sat (Ticks limit) NoFailure
      (fun _ c' => At limit s (removeGroupFromTimerList p g σ)
        (Function.update a p (bitSet (a p) (P.groupIndex g))) c' ∧ activeAt s c'.2.tsc id = true) c := by
  refine Prog.sat_modify active_stable h (fun _ _ => rfl) (fun c₁ h₁ => ?_)
  have h₂ : At limit s (removeGroupFromTimerList p g σ) a
      (c₁.1, State.onScheduler (removeGroupFromTimerList p g) c₁.2) ∧
      activeAt s (State.onScheduler (removeGroupFromTimerList p g) c₁.2).tsc id = true :=
    ⟨h₁.1.onScheduler _, h₁.2⟩
  intro c₃ hc₃
  have h₃ := active_stable.steps hc₃ h₂
  refine ⟨rfl, fun c₄ hc₄ => active_stable.steps hc₄ ⟨?_, h₃.2⟩⟩
  exact h₃.1.activity (fun x => Function.update x p (bitSet (x p) (P.groupIndex g)))

/-- Without interference a round is one of the four. -/
lemma examineGroup_at {g : P.Group} (hg : P.partitionGroups p i = some g)
    (hinsert : ∃ σ', insertTimer p (P.subjectToGroup (σ.groups g).activeSubject)
      (s.timedEvents (σ.groups g).activeSubject).tscTriggerValue σ = some σ')
    (h : At limit s σ a c) :
    (examineGroup p i).Sat (Ticks limit) NoFailure
      (fun r c' => ∃ σ' a', At limit s σ' a' c' ∧ Round p s i σ a c'.2.tsc r σ' a') c := by
  obtain ⟨σ₁, hσ₁⟩ := hinsert
  refine Prog.sat_read at_stable h (fun _ _ => rfl) (fun c₁ h₁ => ?_)
  have hactivity : c₁.2.groupActivity = a := by rw [h₁.1]
  rw [hactivity]
  by_cases hbit : bitTest (a p) i = true
  case neg =>
    rw [if_neg hbit]
    exact Prog.sat_pure round_stable ⟨σ, a, h₁, .notIndicated (Bool.not_eq_true _ ▸ hbit)⟩
  rw [if_pos hbit, hg]
  refine Prog.sat_read at_stable h₁ (fun _ _ => rfl) (fun c₂ h₂ => ?_)
  have hscheduler : c₂.2.scheduler = σ := by rw [h₂.1]
  rw [hscheduler]
  refine Prog.sat_bind ((isActive_at none _ h₂).mono (fun active c₃ h₃ => ?_))
  cases active with
  | true =>
    refine Prog.sat_modify active_stable ⟨h₃.1, h₃.2.1 rfl⟩ (fun _ _ => rfl) (fun c₄ h₄ => ?_)
    refine Prog.sat_pure round_stable ⟨_, a, h₄.1.onScheduler _, ?_⟩
    exact .active hg hbit h₄.2
  | false =>
    have hinactive := h₃.2.2 rfl
    refine Prog.sat_bind ?_
    refine Prog.sat_bind ((deactivateGroup_at h₃.1 hσ₁).mono (fun _ c₄ h₄ => ?_))
    refine Prog.sat_bind ((isActive_at (some g) _ h₄).mono (fun active c₅ h₅ => ?_))
    cases active with
    | true =>
      refine Prog.sat_bind ((activateGroup_at (some g) ⟨h₅.1, h₅.2.1 rfl⟩).mono (fun _ c₆ h₆ => ?_))
      refine Prog.sat_pure ?_ (Prog.sat_pure round_stable ⟨_, _, h₆.1, ?_⟩)
      · exact Prog.Sat.stable
      · rw [Function.update_idem, Function.update_self]
        exact .reactivated hg hbit h₆.2 hσ₁
    | false =>
      refine Prog.sat_pure Prog.Sat.stable (Prog.sat_pure round_stable ⟨_, _, h₅.1, ?_⟩)
      exact .inactive hg hbit hinactive hσ₁

end Rounds

/-! ### The search -/

section Search

variable {p : P.Partition} {s : State P} {f₀ f : P.Partition → List P.Group} {n : ℕ} {σ σ' : Scheduler P}
  {a a' : P.Partition → Word64} {now limit : Word64} {g : P.Group}

/-- The group is one of the first `n` that the search visits. -/
def VisitedBefore (p : P.Partition) (s : State P) (n : ℕ) (g : P.Group) : Prop :=
  ∃ k < n, P.partitionGroups p (visited p (s.scheduler.partitions p).activeGroupIndex k) = some g

/-- The first `n` groups have been examined and none of them was active. -/
structure PassedOver (p : P.Partition) (s : State P) (f₀ : P.Partition → List P.Group) (n : ℕ)
    (σ : Scheduler P) (a : P.Partition → Word64) (f : P.Partition → List P.Group) : Prop where
  within : ListsWithin p s.scheduler f₀ σ f
  members : ∀ g, g ∈ f p ↔ g ∈ f₀ p ∨ (indicated s g = true ∧ VisitedBefore p s n g)
  bits : ∀ g, Policy.partitionOf g = p →
    (bitTest (a p) (P.groupIndex g) = true ↔ indicated s g = true ∧ ¬ VisitedBefore p s n g)
  others : ∀ q, q ≠ p → a q = s.groupActivity q
  inactive : ∀ g, indicated s g = true → VisitedBefore p s n g →
    activeAt s s.tsc (s.scheduler.groups g).activeSubject = false

lemma VisitedBefore.partition (h : VisitedBefore p s n g) : Policy.partitionOf g = p := by
  obtain ⟨k, -, hk⟩ := h
  exact ((Policy.partitionGroups_eq_some _ _ _).mp hk).1

lemma visitedBefore_succ (hg : P.partitionGroups p (visited p (s.scheduler.partitions p).activeGroupIndex n) = some g)
    (x : P.Group) : VisitedBefore p s (n + 1) x ↔ VisitedBefore p s n x ∨ x = g := by
  constructor
  · rintro ⟨k, hk, hx⟩
    rcases Nat.lt_succ_iff_lt_or_eq.mp hk with hk | rfl
    · exact .inl ⟨k, hk, hx⟩
    · exact .inr (Option.some.inj (hx.symm.trans hg))
  · rintro (⟨k, hk, hx⟩ | rfl)
    · exact ⟨k, Nat.lt_succ_of_lt hk, hx⟩
    · exact ⟨n, Nat.lt_succ_self n, hg⟩

/-- The group that is visited next was not visited before. -/
lemma not_visitedBefore (hcore : CoreOk s.scheduler) (hn : n ≤ P.lastGroupIndex p)
    (hg : P.partitionGroups p (visited p (s.scheduler.partitions p).activeGroupIndex n) = some g) :
    ¬ VisitedBefore p s n g := by
  rintro ⟨k, hk, hx⟩
  have hsame : visited p (s.scheduler.partitions p).activeGroupIndex k =
      visited p (s.scheduler.partitions p).activeGroupIndex n :=
    ((Policy.partitionGroups_eq_some _ _ _).mp hx).2.symm.trans
      ((Policy.partitionGroups_eq_some _ _ _).mp hg).2
  have heq := visited_injective (hcore.activeGroupIndex p) (by omega) hn hsame
  omega

lemma passedOver_zero (h : TimerLists s.scheduler f₀) :
    PassedOver p s f₀ 0 s.scheduler s.groupActivity f₀ := by
  have hnone : ∀ x, ¬ VisitedBefore p s 0 x := by
    rintro x ⟨k, hk, -⟩
    exact absurd hk (Nat.not_lt_zero k)
  refine ⟨.refl h, fun x => ?_, fun x hx => ?_, fun _ _ => rfl, fun x _ hv => absurd hv (hnone x)⟩
  · simp [hnone x]
  · subst hx
    simp [indicated, hnone x]

lemma PassedOver.activeSubject (h : PassedOver p s f₀ n σ a f) (x : P.Group) :
    (σ.groups x).activeSubject = (s.scheduler.groups x).activeSubject :=
  congrFun (congrArg Core.activeSubject h.within.core) x

/-- A round without result passes over one more group. -/
lemma PassedOver.next (h : PassedOver p s f₀ n σ a f) (hcore : CoreOk s.scheduler)
    (hn : n ≤ P.lastGroupIndex p)
    (hg : P.partitionGroups p (visited p (s.scheduler.partitions p).activeGroupIndex n) = some g)
    (hr : Round p s (visited p (s.scheduler.partitions p).activeGroupIndex n) σ a now none σ' a') :
    ∃ f', PassedOver p s f₀ (n + 1) σ' a' f' := by
  obtain ⟨hp, hi⟩ := (Policy.partitionGroups_eq_some _ _ _).mp hg
  have hnew := not_visitedBefore hcore hn hg
  have hbits := h.bits g hp
  rw [hi] at hbits
  cases hr with
  | notIndicated hbit =>
    have hclear : ¬ indicated s g = true := by
      intro hind
      rw [hbit] at hbits
      exact Bool.false_ne_true (hbits.mpr ⟨hind, hnew⟩)
    have hsame : ∀ x, indicated s x = true → (VisitedBefore p s (n + 1) x ↔ VisitedBefore p s n x) := by
      intro x hx
      rw [visitedBefore_succ hg, or_iff_left_iff_imp]
      rintro rfl
      exact absurd hx hclear
    refine ⟨f, h.within, fun x => ?_, fun x hx => ?_, h.others, fun x hx hv => ?_⟩
    · rw [h.members]
      by_cases hx : indicated s x = true
      · rw [hsame x hx]
      · simp [hx]
    · rw [h.bits x hx]
      by_cases hx : indicated s x = true
      · rw [hsame x hx]
      · simp [hx]
    · exact h.inactive x hx ((hsame x hx).mp hv)
  | @inactive g' _ hg' hbit hactive hinsert =>
    obtain rfl := Option.some.inj (hg'.symm.trans hg)
    rw [h.activeSubject, hcore.activeSubject] at hinsert
    rw [h.activeSubject] at hactive
    obtain ⟨σ₁, f', hσ₁, hwithin, hmem⟩ := insertTimer_within h.within.timerLists hp
      (s.timedEvents (s.scheduler.groups g').activeSubject).tscTriggerValue
    obtain rfl := Option.some.inj (hσ₁.symm.trans hinsert)
    have hind : indicated s g' = true := (hbits.mp hbit).1
    refine ⟨f', h.within.trans hwithin, fun x => ?_, fun x hx => ?_, fun q hq => ?_, fun x hx hv => ?_⟩
    · rw [hmem, h.members, visitedBefore_succ hg]
      by_cases hxg : x = g'
      · subst hxg
        simp [hind]
      · simp [hxg]
    · rw [Function.update_self, bitTest_bitClear, visitedBefore_succ hg, ← hi]
      by_cases hxg : x = g'
      · subst hxg
        simp
      · have hne : ¬ P.groupIndex g' = P.groupIndex x := fun he =>
          hxg (Policy.groupIndex_injective (hx.trans hp.symm) he.symm)
        simp [hne, hxg, h.bits x hx]
    · rw [Function.update_of_ne hq]
      exact h.others q hq
    · rcases (visitedBefore_succ hg x).mp hv with hv | rfl
      · exact h.inactive x hx hv
      · exact hactive

/-- A round with a result takes the group out of its timer list. -/
lemma PassedOver.found (h : PassedOver p s f₀ n σ a f) (hcore : CoreOk s.scheduler)
    (hr : Round p s (visited p (s.scheduler.partitions p).activeGroupIndex n) σ a now (some g) σ' a') :
    P.partitionGroups p (visited p (s.scheduler.partitions p).activeGroupIndex n) = some g ∧
      bitTest (a p) (P.groupIndex g) = true ∧ activeAt s now (s.scheduler.groups g).activeSubject = true ∧
      (∃ f', ListsWithin p s.scheduler f₀ σ' f' ∧ ∀ x, x ∈ f' p ↔ x ∈ f p ∧ x ≠ g) ∧
      (∀ i, bitTest (a' p) i = bitTest (a p) i) ∧ ∀ q, q ≠ p → a' q = a q := by
  cases hr with
  | active hg hbit hactive =>
    obtain ⟨hp, hi⟩ := (Policy.partitionGroups_eq_some _ _ _).mp hg
    rw [h.activeSubject] at hactive
    refine ⟨hg, hi ▸ hbit, hactive, ?_, fun _ => rfl, fun _ _ => rfl⟩
    by_cases hin : isGroupInTimerList p g σ = true
    · rw [if_pos hin]
      have hmem := (h.within.timerLists.mem_iff hp).mpr hin
      obtain ⟨f', hwithin, hf'⟩ := remove_within h.within.timerLists hmem
      exact ⟨f', h.within.trans hwithin, hf'⟩
    · rw [if_neg hin]
      refine ⟨f, h.within, fun x => ⟨fun hx => ⟨hx, ?_⟩, fun hx => hx.1⟩⟩
      rintro rfl
      exact hin ((h.within.timerLists.mem_iff hp).mp hx)
  | @reactivated _ σ₁ hg hbit hactive hinsert =>
    obtain ⟨hp, hi⟩ := (Policy.partitionGroups_eq_some _ _ _).mp hg
    rw [h.activeSubject, hcore.activeSubject] at hinsert
    rw [h.activeSubject] at hactive
    refine ⟨hg, hi ▸ hbit, hactive, ?_, fun i => ?_, fun q hq => Function.update_of_ne hq _ _⟩
    · obtain ⟨σ₂, f₁, hσ₂, hwithin, hmem⟩ := insertTimer_within h.within.timerLists hp
        (s.timedEvents (s.scheduler.groups g).activeSubject).tscTriggerValue
      obtain rfl := Option.some.inj (hσ₂.symm.trans hinsert)
      obtain ⟨f', hwithin', hf'⟩ := remove_within hwithin.timerLists ((hmem g).mpr (.inr rfl))
      refine ⟨f', h.within.trans (hwithin.trans hwithin'), fun x => ?_⟩
      rw [hf', hmem]
      tauto
    · rw [Function.update_self, bitTest_bitSet, bitTest_bitClear, hi]
      by_cases he : visited p (s.scheduler.partitions p).activeGroupIndex n = i
      · rw [← he, hbit]
        simp
      · simp [he]

variable {c : Unit × State P}

lemma At.scheduler_eq (h : At limit s σ a c) : c.2.scheduler = σ := by rw [h.1]

lemma At.groupActivity_eq (h : At limit s σ a c) : c.2.groupActivity = a := by rw [h.1]

lemma inTimerList_iff (h : TimerLists σ f) (hs : s.scheduler = σ) (hp : Policy.partitionOf g = p) :
    inTimerList s g = true ↔ g ∈ f p := by
  subst hp hs
  exact (h.mem_iff rfl).symm

lemma indicated_at (h : At limit s σ a c) (hp : Policy.partitionOf g = p) :
    indicated c.2 g = bitTest (a p) (P.groupIndex g) := by
  rw [indicated, h.groupActivity_eq, hp]

/-- A group that the search has not visited keeps its bit and its place. -/
lemma PassedOver.keeps (h : PassedOver p s f₀ n σ a f) (hp : Policy.partitionOf g = p)
    (hv : ¬ VisitedBefore p s n g) :
    (bitTest (a p) (P.groupIndex g) = true ↔ indicated s g = true) ∧ (g ∈ f p ↔ g ∈ f₀ p) := by
  refine ⟨(h.bits g hp).trans ?_, (h.members g).trans ?_⟩
  · tauto
  · tauto

/-- The search has been through all groups. -/
lemma PassedOver.finished (h : PassedOver p s f₀ (P.lastGroupIndex p + 1) σ a f)
    (hf₀ : TimerLists s.scheduler f₀) (hc : At limit s σ a c) :
    RoundRobin p s (none, (s.scheduler.partitions p).activeGroupIndex) c.2 (P.lastGroupIndex p + 1) where
  passed k hk g hg := by
    have hp := ((Policy.partitionGroups_eq_some _ _ _).mp hg).1
    have hv : VisitedBefore p s (P.lastGroupIndex p + 1) g := ⟨k, hk, hg⟩
    have hin := inTimerList_iff h.within.timerLists hc.scheduler_eq hp
    refine ⟨fun hind => ⟨h.inactive g hind hv, ?_⟩, fun hind => ?_, ?_⟩
    · rw [hin, h.members]
      exact .inr ⟨hind, hv⟩
    · rw [Bool.eq_iff_iff, hin, h.members, inTimerList_iff hf₀ rfl hp]
      simp [hind]
    · rw [indicated_at hc hp, ← Bool.not_eq_true, h.bits g hp]
      tauto
  found g hg := by cases hg
  notFound _ := ⟨rfl, rfl⟩
  notVisited k hk hk' := absurd hk' (by omega)
  partitions q hq := by
    rw [hc.scheduler_eq, hc.groupActivity_eq]
    exact ⟨h.others q hq, h.within.partitions hf₀ hq⟩
  groups x hx := by
    rw [hc.scheduler_eq]
    exact h.within.groups hf₀ hx
  rest := by
    rw [hc.scheduler_eq, hc.groupActivity_eq]
    exact hc.1
  core := by
    rw [hc.scheduler_eq]
    exact h.within.core
  lists := by
    rw [hc.scheduler_eq]
    exact ⟨f, h.within.timerLists.invariant⟩

/-- The search has found an active group. -/
lemma PassedOver.roundRobin (h : PassedOver p s f₀ n σ a f) (hcore : CoreOk s.scheduler)
    (hf₀ : TimerLists s.scheduler f₀) (hn : n ≤ P.lastGroupIndex p) (hc : At limit s σ' a' c)
    (hr : Round p s (visited p (s.scheduler.partitions p).activeGroupIndex n) σ a c.2.tsc (some g) σ' a') :
    RoundRobin p s (some g, visited p (s.scheduler.partitions p).activeGroupIndex n) c.2 n := by
  obtain ⟨hg, hbit, hactive, ⟨f', hwithin, hmem⟩, hbits, hothers⟩ := h.found hcore hr
  have hp := ((Policy.partitionGroups_eq_some _ _ _).mp hg).1
  have hnew := not_visitedBefore hcore hn hg
  exact {
    passed := fun k hk x hx => by
      have hxp := ((Policy.partitionGroups_eq_some _ _ _).mp hx).1
      have hv : VisitedBefore p s n x := ⟨k, hk, hx⟩
      have hne : x ≠ g := fun he => hnew (he ▸ hv)
      have hin := inTimerList_iff hwithin.timerLists hc.scheduler_eq hxp
      refine ⟨fun hind => ⟨h.inactive x hind hv, ?_⟩, fun hind => ?_, ?_⟩
      · rw [hin, hmem, h.members]
        exact ⟨.inr ⟨hind, hv⟩, hne⟩
      · rw [Bool.eq_iff_iff, hin, hmem, h.members, inTimerList_iff hf₀ rfl hxp]
        simp [hind, hne]
      · rw [indicated_at hc hxp, ← Bool.not_eq_true, hbits, h.bits x hxp]
        tauto
    found := fun x hx => by
      obtain rfl := Option.some.inj hx
      refine ⟨hn, rfl, hg, ((h.bits g hp).mp hbit).1, hactive, ?_, ?_⟩
      · rw [← Bool.not_eq_true, inTimerList_iff hwithin.timerLists hc.scheduler_eq hp, hmem]
        tauto
      · rw [indicated_at hc hp, hbits, hbit]
    notFound := fun hx => by cases hx
    notVisited := fun k hk hk' x hx => by
      have hxp := ((Policy.partitionGroups_eq_some _ _ _).mp hx).1
      have hne : x ≠ g := by
        rintro rfl
        have hsame := ((Policy.partitionGroups_eq_some _ _ _).mp hx).2.symm.trans
          ((Policy.partitionGroups_eq_some _ _ _).mp hg).2
        have heq := visited_injective (hcore.activeGroupIndex p) hk' hn hsame
        omega
      have hv : ¬ VisitedBefore p s n x := by
        rintro ⟨j, hj, hxj⟩
        have hsame := ((Policy.partitionGroups_eq_some _ _ _).mp hxj).2.symm.trans
          ((Policy.partitionGroups_eq_some _ _ _).mp hx).2
        have heq := visited_injective (hcore.activeGroupIndex p) (by omega) hk' hsame
        omega
      obtain ⟨hkeepsBit, hkeepsList⟩ := h.keeps hxp hv
      refine ⟨?_, ?_⟩
      · rw [indicated_at hc hxp, hbits, Bool.eq_iff_iff, hkeepsBit]
      · rw [Bool.eq_iff_iff, inTimerList_iff hwithin.timerLists hc.scheduler_eq hxp, hmem, hkeepsList,
          inTimerList_iff hf₀ rfl hxp]
        tauto
    partitions := fun q hq => by
      rw [hc.scheduler_eq, hc.groupActivity_eq, hothers q hq]
      exact ⟨h.others q hq, hwithin.partitions hf₀ hq⟩
    groups := fun x hx => by
      rw [hc.scheduler_eq]
      exact hwithin.groups hf₀ hx
    rest := by
      rw [hc.scheduler_eq, hc.groupActivity_eq]
      exact hc.1
    core := by
      rw [hc.scheduler_eq]
      exact hwithin.core
    lists := by
      rw [hc.scheduler_eq]
      exact ⟨f', hwithin.timerLists.invariant⟩ }

/-- What the search has established when it ends. -/
def SearchEnds (limit : Word64) (p : P.Partition) (s : State P) (f₀ : P.Partition → List P.Group)
    (r : Option P.Group × GroupIndex) (c : Unit × State P) : Prop :=
  (∃ n : ℕ, n ≤ P.lastGroupIndex p ∧ ∃ g σ a f σ' a',
    r = (some g, visited p (s.scheduler.partitions p).activeGroupIndex n) ∧
    PassedOver p s f₀ n σ a f ∧ At limit s σ' a' c ∧
    Round p s (visited p (s.scheduler.partitions p).activeGroupIndex n) σ a c.2.tsc (some g) σ' a') ∨
  (∃ σ a f, r = (none, (s.scheduler.partitions p).activeGroupIndex) ∧
    PassedOver p s f₀ (P.lastGroupIndex p + 1) σ a f ∧ At limit s σ a c)

lemma searchEnds_stable {r : Option P.Group × GroupIndex} : Stable (Ticks limit) (SearchEnds limit p s f₀ r) := by
  rintro c c' hc (⟨n, hn, g, σ, a, f, σ', a', hr, hpassed, hat, hround⟩ | ⟨σ, a, f, hr, hpassed, hat⟩)
  · exact .inl ⟨n, hn, g, σ, a, f, σ', a', hr, hpassed, at_stable c c' hc hat, hround.mono hc.2.1⟩
  · exact .inr ⟨σ, a, f, hr, hpassed, at_stable c c' hc hat⟩

lemma findLoop_at (hcore : CoreOk s.scheduler) (fuel : ℕ) :
    ∀ (n : ℕ) (i : GroupIndex) (σ : Scheduler P) (a : P.Partition → Word64) (f : P.Partition → List P.Group)
      (c : Unit × State P), n ≤ P.lastGroupIndex p → P.lastGroupIndex p + 1 ≤ n + fuel →
      successorGroup p i = visited p (s.scheduler.partitions p).activeGroupIndex n →
      PassedOver p s f₀ n σ a f → At limit s σ a c →
      (findLoop p (s.scheduler.partitions p).activeGroupIndex fuel i).Sat (Ticks limit) NoFailure
        (SearchEnds limit p s f₀) c := by
  induction fuel with
  | zero =>
    intro n i σ a f c hn hfuel
    omega
  | succ fuel ih =>
    intro n i σ a f c hn hfuel hi h hat
    obtain ⟨g, hg⟩ := Policy.exists_group (visited_le p (s.scheduler.partitions p).activeGroupIndex n)
    have hp := ((Policy.partitionGroups_eq_some _ _ _).mp hg).1
    have hinsert : ∃ σ', insertTimer p (P.subjectToGroup (σ.groups g).activeSubject)
        (s.timedEvents (σ.groups g).activeSubject).tscTriggerValue σ = some σ' := by
      rw [h.activeSubject, hcore.activeSubject]
      obtain ⟨σ', -, hσ', -⟩ := insertTimer_within h.within.timerLists hp
        (s.timedEvents (s.scheduler.groups g).activeSubject).tscTriggerValue
      exact ⟨σ', hσ'⟩
    rw [findLoop, hi]
    refine Prog.sat_bind ((examineGroup_at hg hinsert hat).mono ?_)
    rintro r c₁ ⟨σ', a', hat', hround⟩
    cases r with
    | some x =>
      have hstop : (some x).isSome = true ∨ visited p (s.scheduler.partitions p).activeGroupIndex n =
        (s.scheduler.partitions p).activeGroupIndex := .inl rfl
      rw [if_pos hstop]
      exact Prog.sat_pure searchEnds_stable (.inl ⟨n, hn, x, σ, a, f, σ', a', rfl, h, hat', hround⟩)
    | none =>
      obtain ⟨f', h'⟩ := h.next hcore hn hg hround
      by_cases hlast : n = P.lastGroupIndex p
      · have hback : visited p (s.scheduler.partitions p).activeGroupIndex n =
            (s.scheduler.partitions p).activeGroupIndex := by
          rw [hlast]
          exact visited_last (hcore.activeGroupIndex p)
        rw [if_pos (.inr hback), hback]
        rw [hlast] at h'
        exact Prog.sat_pure searchEnds_stable (.inr ⟨σ', a', f', rfl, h', hat'⟩)
      · have hgo : ¬ ((none : Option P.Group).isSome = true ∨
            visited p (s.scheduler.partitions p).activeGroupIndex n =
              (s.scheduler.partitions p).activeGroupIndex) := by
          rintro (hsome | hback)
          · cases hsome
          · have hcur := visited_last (hcore.activeGroupIndex p)
            exact hlast (visited_injective (hcore.activeGroupIndex p) hn le_rfl (hback.trans hcur.symm))
        rw [if_neg hgo]
        apply ih (n + 1) _ σ' a' f' c₁ (by omega) (by omega) _ h' hat'
        rw [visited, visited, ← Function.iterate_succ_apply' (successorGroup p)]

lemma SearchEnds.roundRobin (hcore : CoreOk s.scheduler) (hf₀ : TimerLists s.scheduler f₀)
    {r : Option P.Group × GroupIndex} (h : SearchEnds limit p s f₀ r c) :
    (s.tsc ≤ c.2.tsc ∧ c.2.tsc ≤ limit) ∧ ∃ n, RoundRobin p s r c.2 n := by
  rcases h with ⟨n, hn, g, σ, a, f, σ', a', rfl, hpassed, hat, hround⟩ | ⟨σ, a, f, rfl, hpassed, hat⟩
  · exact ⟨hat.2, n, hpassed.roundRobin hcore hf₀ hn hat hround⟩
  · exact ⟨hat.2, _, hpassed.finished hf₀ hat⟩

/-- What a search through a range finds is the value at the least index that has one. -/
lemma findSome?_range {β : Type} {F : ℕ → Option β} {m n : ℕ} {b : β} (hn : n < m) (hb : F n = some b)
    (hnone : ∀ k < n, F k = none) : (List.range m).findSome? F = some b := by
  cases hfind : (List.range m).findSome? F with
  | none =>
    rw [List.findSome?_eq_none_iff] at hfind
    exact absurd (hfind n (List.mem_range.mpr hn)) (by simp [hb])
  | some b' =>
    obtain ⟨as, k, bs, heq, hk, has⟩ := List.findSome?_eq_some_iff.mp hfind
    have hsorted : (as ++ k :: bs).Pairwise (· < ·) := heq ▸ List.pairwise_lt_range
    have hmem : n ∈ as ++ k :: bs := heq ▸ List.mem_range.mpr hn
    rcases List.mem_append.mp hmem with hmem | hmem
    · exact absurd (has n hmem) (by simp [hb])
    · rcases List.mem_cons.mp hmem with rfl | hmem
      · exact hk.symm.trans hb
      · have hlt := List.rel_of_pairwise_cons (List.pairwise_append.mp hsorted).2.1 hmem
        exact absurd (hnone k hlt) (by simp [hk])

/-- If no time passes, the outcome is the first active group. -/
lemma RoundRobin.exact {r : Option P.Group × GroupIndex} {s' : State P} (h : RoundRobin p s r s' n)
    (htime : s'.tsc = s.tsc) : r.1 = nextActiveGroup p s := by
  have hnone : ∀ k < n, (P.partitionGroups p (visited p (s.scheduler.partitions p).activeGroupIndex k)).filter
      (fun g => indicated s g && activeAt s s.tsc (s.scheduler.groups g).activeSubject) = none := by
    intro k hk
    rw [Option.filter_eq_none_iff]
    intro g hg
    obtain ⟨hinactive, -, -⟩ := h.passed k hk g hg
    cases hind : indicated s g with
    | false => simp
    | true => simp [(hinactive hind).1]
  cases hr : r.1 with
  | none =>
    obtain ⟨hn, -⟩ := h.notFound hr
    rw [nextActiveGroup, eq_comm, List.findSome?_eq_none_iff]
    intro k hk
    exact hnone k (by rw [hn]; exact List.mem_range.mp hk)
  | some g =>
    obtain ⟨hn, hindex, hg, hind, hactive, -⟩ := h.found g hr
    rw [nextActiveGroup, eq_comm]
    refine findSome?_range (Nat.lt_succ_of_le hn) ?_ hnone
    rw [← hindex, hg]
    rw [htime] at hactive
    simp [Option.filter, hind, hactive]

/-- The search returns after at most as many rounds as there are groups, and it ends at the first active
one in cyclic order. -/
theorem findNextActiveSchedulingGroup_roundRobin {chains : P.Partition → List P.Group}
    (hlists : TimerListInvariant s.scheduler chains) (hcore : CoreOk s.scheduler) :
    (∀ limit, s.tsc ≤ limit →
      (findNextActiveSchedulingGroup p).Sat (Ticks limit) NoFailure
        (fun r c => (s.tsc ≤ c.2.tsc ∧ c.2.tsc ≤ limit) ∧ ∃ n, RoundRobin p s r c.2 n) ((), s)) ∧
    (∀ limit, s.tsc ≤ limit →
      (findLoop p (s.scheduler.partitions p).activeGroupIndex (P.lastGroupIndex p + 1)
        (s.scheduler.partitions p).activeGroupIndex).Sat (Ticks limit) NoFailure
        (fun r c => (s.tsc ≤ c.2.tsc ∧ c.2.tsc ≤ limit) ∧ ∃ n, RoundRobin p s r c.2 n) ((), s)) ∧
    ∃ r s', (findNextActiveSchedulingGroup p).exec s = some (r, s') ∧ r.1 = nextActiveGroup p s ∧
      ∃ n, RoundRobin p s r s' n := by
  have hf₀ := hlists.timerLists
  have hloop : ∀ limit (fuel : ℕ) c, P.lastGroupIndex p + 1 ≤ fuel →
      At limit s s.scheduler s.groupActivity c →
      (findLoop p (s.scheduler.partitions p).activeGroupIndex fuel
        (s.scheduler.partitions p).activeGroupIndex).Sat (Ticks limit) NoFailure
        (fun r c => (s.tsc ≤ c.2.tsc ∧ c.2.tsc ≤ limit) ∧ ∃ n, RoundRobin p s r c.2 n) c := by
    intro limit fuel c hfuel hat
    have hsat := findLoop_at hcore fuel 0 (s.scheduler.partitions p).activeGroupIndex s.scheduler
      s.groupActivity chains c (Nat.zero_le _) (by omega) rfl (passedOver_zero hf₀) hat
    exact hsat.mono (fun r c' h => h.roundRobin hcore hf₀)
  have hstart : ∀ limit, s.tsc ≤ limit → At limit s s.scheduler s.groupActivity ((), s) :=
    fun limit hlimit => ⟨rfl, BitVec.le_refl _, hlimit⟩
  have hfind : ∀ limit, s.tsc ≤ limit →
      (findNextActiveSchedulingGroup p).Sat (Ticks limit) NoFailure
        (fun r c => (s.tsc ≤ c.2.tsc ∧ c.2.tsc ≤ limit) ∧ ∃ n, RoundRobin p s r c.2 n) ((), s) := by
    intro limit hlimit
    refine Prog.sat_read at_stable (hstart limit hlimit) (fun _ _ => rfl) (fun c₁ h₁ => ?_)
    rw [h₁.scheduler_eq]
    have hlast := (P.lastGroupIndex p).isLt
    exact hloop limit 64 c₁ (by omega) h₁
  refine ⟨hfind, fun limit hlimit => hloop limit _ _ le_rfl (hstart limit hlimit), ?_⟩
  obtain ⟨r, s', hexec, ⟨hle, hge⟩, n, hround⟩ :=
    (hfind s.tsc (BitVec.le_refl _)).exec_eq (fun _ h => h)
  exact ⟨r, s', hexec, hround.exact (BitVec.le_antisymm hge hle), n, hround⟩

end Search

/-! ### Searches of a small policy -/

lemma emptyLists_invariant {s : Scheduler P} (hhead : ∀ p, (s.partitions p).earliestTimer = none)
    (hlinks : ∀ g, (s.groups g).nextTimer = none ∧ (s.groups g).prevTimer = none) :
    TimerListInvariant s (fun _ => []) := by
  have hempty : s.links = ⟨fun _ => none, fun _ => none, fun _ => none⟩ := by
    unfold Scheduler.links
    congr
    · funext p
      exact hhead p
    · funext g
      exact (hlinks g).1
    · funext g
      exact (hlinks g).2
  have hlists : TimerLists s (fun _ => []) := by
    refine ⟨?_, fun p g hg => absurd hg List.not_mem_nil, fun _ => List.Pairwise.nil⟩
    rw [hempty]
    exact Links.represents_nil
  exact hlists.invariant

/-- The active subject of the group 1 is one of the group 0. -/
def strangerState : State smallPolicy :=
  State.onScheduler (fun s => s.setGroup 1 (fun x => { x with activeSubject := 3 })) (startState 0 true)

/-- The active group index is behind the last group of the partition. -/
def strayState : State smallPolicy :=
  State.onScheduler (setActiveGroupIndex 0 5) (startState 0 true)

lemma stranger_search : ∃ r s', (findNextActiveSchedulingGroup 0).exec strangerState = some (r, s') ∧
    r.1 = none ∧ indicated strangerState 1 = true ∧ inTimerList s' 1 = false :=
  ⟨_, _, rfl, rfl, by decide, by decide⟩

/-- With a subject of another group the group that is passed over is not put into the timer list, and with
an index behind the last one the search does not come back to it. -/
theorem findNextActiveSchedulingGroup_fails :
    (∃ s : State smallPolicy, TimerListInvariant s.scheduler (fun _ => []) ∧
      ∃ r s', (findNextActiveSchedulingGroup 0).exec s = some (r, s') ∧ ¬ ∃ n, RoundRobin 0 s r s' n) ∧
    (∃ s : State smallPolicy, TimerListInvariant s.scheduler (fun _ => []) ∧
      (findLoop 0 (s.scheduler.partitions 0).activeGroupIndex (smallPolicy.lastGroupIndex 0 + 1)
        (s.scheduler.partitions 0).activeGroupIndex).exec s = none) := by
  constructor
  · obtain ⟨r, s', hexec, hnone, hind, hnot⟩ := stranger_search
    have hlists : TimerListInvariant strangerState.scheduler (fun _ => []) :=
      emptyLists_invariant (by decide) (by decide)
    refine ⟨strangerState, hlists, r, s', hexec, ?_⟩
    rintro ⟨n, h⟩
    obtain ⟨hn, -⟩ := h.notFound hnone
    have hpassed := h.passed 0 (by rw [hn]; exact Nat.succ_pos _) 1 (by decide)
    rw [(hpassed.1 hind).2] at hnot
    cases hnot
  · have hlists : TimerListInvariant strayState.scheduler (fun _ => []) :=
      emptyLists_invariant (by decide) (by decide)
    exact ⟨strayState, hlists, rfl⟩

/-- `smallPolicy` with three groups in the first partition, one for each of its subjects. -/
def threeGroups : Policy :=
  { smallPolicy with
    subjects := 4
    groups := 4
    lastGroupIndex := fun p => if p = 0 then 2 else 0
    partitionGroups := fun p i =>
      if p = 0 then (if i = 0 then some 0 else if i = 1 then some 1 else if i = 2 then some 2 else none)
      else if i = 0 then some 3 else none
    initialSubject := fun g => g
    groupIndex := fun g => if g = 1 then 1 else if g = 2 then 2 else 0
    subjectToPartition := fun s => if s = 3 then 1 else 0
    subjectToGroup := fun s => s
    partitionGroups_isSome := by decide
    partitionGroups_unique := by decide
    subject_in_partition := by decide
    initialSubject_group := fun _ => rfl }

instance : NeZero threeGroups.subjects := ⟨by decide⟩
instance : NeZero threeGroups.partitions := ⟨by decide⟩
instance : NeZero threeGroups.groups := ⟨by decide⟩
instance : NeZero threeGroups.cpus := ⟨by decide⟩

/-- The subject of the active group 0 runs, that of group 1 waits in the timer list, and that of group 2
has set its timed event and is not active, although the bit of its group is set. -/
def sleepersState : State threeGroups :=
  let s : State threeGroups := setRunning 0 true (startState 0 true)
  let s := { s with timedEvents := fun id => if id = 1 then ⟨50, 0⟩ else if id = 2 then ⟨20, 0⟩ else s.timedEvents id }
  let s := State.onScheduler (insertGroup 0 1 50 none none) s
  State.clearActivity 0 1 s

lemma sleepersState_invariant :
    TimerListInvariant sleepersState.scheduler (fun p => if p = 0 then [1] else []) where
  isChain
    | 0 => ⟨rfl, rfl⟩
    | 1 => rfl
  nodup := by decide
  owned
    | 0, g, hg => ⟨1, congrArg some (List.mem_singleton.mp hg).symm⟩
  inverse := by decide
  head := by decide
  sorted := by decide
  free := by decide
  inList := by decide

/-- The search that starts behind group 0 leaves group 1 in the timer list, puts group 2 there and comes
back to group 0. -/
theorem findNextActiveSchedulingGroup_awake :
    ∃ r s', (findNextActiveSchedulingGroup 0).exec sleepersState = some (r, s') ∧ r.1 = some 0 ∧
      inTimerList s' 1 = true ∧ inTimerList sleepersState 2 = false ∧ inTimerList s' 2 = true ∧
      RoundRobin 0 sleepersState r s' 2 := by
  have hcore : CoreOk sleepersState.scheduler := ⟨by decide, by decide⟩
  obtain ⟨r, s', hexec, hr, n, hround⟩ :=
    (findNextActiveSchedulingGroup_roundRobin (p := 0) (s := sleepersState) sleepersState_invariant hcore).2.2
  have hnext : nextActiveGroup 0 sleepersState = some 0 := by decide
  have hfound := hround.found 0 (hr.trans hnext)
  have hn : n = 2 := by
    have hlast : n ≤ 2 := hfound.1
    have hgroup := hfound.2.2.1
    rw [hfound.2.1] at hgroup
    rcases (by omega : n = 0 ∨ n = 1 ∨ n = 2) with rfl | rfl | hn
    · exact absurd hgroup (by decide)
    · exact absurd hgroup (by decide)
    · exact hn
  subst hn
  have hsecond := hround.passed 0 Nat.zero_lt_two 1 (by decide)
  have hthird := hround.passed 1 Nat.one_lt_two 2 (by decide)
  have hwaits : inTimerList s' 1 = true := by
    rw [hsecond.2.1 (by decide)]
    decide
  exact ⟨r, s', hexec, hr.trans hnext, hwaits, by decide, (hthird.1 (by decide)).2, hround⟩

end Muen.Kernel
