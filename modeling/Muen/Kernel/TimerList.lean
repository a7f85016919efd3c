import Mathlib.Data.Fintype.Card
import Muen.Kernel.Scheduler
import Muen.Lib.Links

/-!
# The timer lists of the scheduling partitions

The groups of a partition that wait for their timed event are linked through `Next_Timer` and
`Prev_Timer`, sorted by `Timeout`, from `Earliest_Timer` on. `TimerLists` relates the links to the lists
they stand for.
-/

namespace Muen.Kernel

open Lib

variable {P : Policy}

/-- The links of the timer lists. -/
def Scheduler.links (s : Scheduler P) : Links P.Partition P.Group where
  head p := (s.partitions p).earliestTimer
  next g := (s.groups g).nextTimer
  prev g := (s.groups g).prevTimer

/-- The variables of the scheduler that are not part of the timer lists. -/
structure Core (P : Policy) where
  cpuID : P.Cpu
  isBSP : Bool
  minor : P.Minor
  major : P.Major
  majorStart : Word64
  activeGroupIndex : P.Partition → GroupIndex
  sleeping : P.Partition → Bool
  activeSubject : P.Group → P.Subject

def Scheduler.core (s : Scheduler P) : Core P where
  cpuID := s.cpuID
  isBSP := s.isBSP
  minor := s.currentMinorFrameID
  major := s.currentMajorFrameID
  majorStart := s.currentMajorStartCycles
  activeGroupIndex p := (s.partitions p).activeGroupIndex
  sleeping p := (s.partitions p).sleeping
  activeSubject g := (s.groups g).activeSubject

def Scheduler.timeout (s : Scheduler P) (g : P.Group) : Word64 := (s.groups g).timeout

section Updates

/-- A component that an update of one entry does not change. -/
lemma proj_update_same {ι β γ : Type} [DecidableEq ι] (proj : β → γ) (f : ι → β) {i : ι} {v : β}
    (h : proj v = proj (f i)) : (fun j => proj (Function.update f i v j)) = fun j => proj (f j) := by
  funext j
  by_cases hj : j = i
  · subst hj
    rw [Function.update_self, h]
  · rw [Function.update_of_ne hj]

/-- A component that an update of one entry sets. -/
lemma proj_update {ι β γ : Type} [DecidableEq ι] (proj : β → γ) (f : ι → β) (i : ι) (v : β) :
    (fun j => proj (Function.update f i v j)) = Function.update (fun j => proj (f j)) i (proj v) := by
  funext j
  by_cases hj : j = i
  · subst hj
    rw [Function.update_self, Function.update_self]
  · rw [Function.update_of_ne hj, Function.update_of_ne hj]

variable (s : Scheduler P)

lemma setGroup_core {g : P.Group} {f : SchedulingGroup P → SchedulingGroup P}
    (hf : (f (s.groups g)).activeSubject = (s.groups g).activeSubject) : (s.setGroup g f).core = s.core := by
  unfold Scheduler.core Scheduler.setGroup
  rw [proj_update_same SchedulingGroup.activeSubject s.groups hf]

lemma setEarliestTimer_core (p : P.Partition) (t : Option P.Group) :
    (setEarliestTimer p t s).core = s.core := by
  unfold Scheduler.core setEarliestTimer Scheduler.setPartition
  congr 1
  · exact proj_update_same SchedulingPartition.activeGroupIndex s.partitions rfl
  · exact proj_update_same SchedulingPartition.sleeping s.partitions rfl

lemma setNextTimer_core (g t : Option P.Group) : (setNextTimer g t s).core = s.core := by
  cases g with
  | none => rfl
  | some g =>
    apply setGroup_core
    rfl

lemma setPrevTimer_core (g t : Option P.Group) : (setPrevTimer g t s).core = s.core := by
  cases g with
  | none => rfl
  | some g =>
    apply setGroup_core
    rfl

lemma setGroup_timeout (g : P.Group) (f : SchedulingGroup P → SchedulingGroup P) :
    (s.setGroup g f).timeout = Function.update s.timeout g (f (s.groups g)).timeout :=
  proj_update SchedulingGroup.timeout s.groups g (f (s.groups g))

lemma setGroup_timeout_same {g : P.Group} {f : SchedulingGroup P → SchedulingGroup P}
    (hf : (f (s.groups g)).timeout = (s.groups g).timeout) : (s.setGroup g f).timeout = s.timeout :=
  proj_update_same SchedulingGroup.timeout s.groups hf

lemma setEarliestTimer_timeout (p : P.Partition) (t : Option P.Group) :
    (setEarliestTimer p t s).timeout = s.timeout := rfl

lemma setNextTimer_timeout (g t : Option P.Group) : (setNextTimer g t s).timeout = s.timeout := by
  cases g with
  | none => rfl
  | some g =>
    show (s.setGroup g (fun x => { x with nextTimer := t })).timeout = s.timeout
    exact setGroup_timeout_same s rfl

lemma setPrevTimer_timeout (g t : Option P.Group) : (setPrevTimer g t s).timeout = s.timeout := by
  cases g with
  | none => rfl
  | some g =>
    show (s.setGroup g (fun x => { x with prevTimer := t })).timeout = s.timeout
    exact setGroup_timeout_same s rfl

lemma setGroup_links (g : P.Group) (f : SchedulingGroup P → SchedulingGroup P) :
    (s.setGroup g f).links =
      { s.links with
        next := Function.update s.links.next g (f (s.groups g)).nextTimer
        prev := Function.update s.links.prev g (f (s.groups g)).prevTimer } := by
  unfold Scheduler.links Scheduler.setGroup
  rw [proj_update SchedulingGroup.nextTimer, proj_update SchedulingGroup.prevTimer]

lemma setEarliestTimer_links (p : P.Partition) (t : Option P.Group) :
    (setEarliestTimer p t s).links = { s.links with head := Function.update s.links.head p t } := by
  unfold Scheduler.links setEarliestTimer Scheduler.setPartition
  rw [proj_update SchedulingPartition.earliestTimer]

lemma setNextTimer_links (g t : Option P.Group) :
    (setNextTimer g t s).links = { s.links with next := assign s.links.next g t } := by
  cases g with
  | none => rfl
  | some g =>
    refine (setGroup_links s g (fun x => { x with nextTimer := t })).trans ?_
    exact congrArg (Links.mk _ _) (Function.update_eq_self g s.links.prev)

lemma setPrevTimer_links (g t : Option P.Group) :
    (setPrevTimer g t s).links = { s.links with prev := assign s.links.prev g t } := by
  cases g with
  | none => rfl
  | some g =>
    refine (setGroup_links s g (fun x => { x with prevTimer := t })).trans ?_
    exact congrArg (fun next => Links.mk _ next _) (Function.update_eq_self g s.links.next)

/-- Removing a group from its timer list is cutting its cell out. -/
lemma removeGroupFromTimerList_links (p : P.Partition) (g : P.Group) :
    (removeGroupFromTimerList p g s).links = s.links.unlink p g := by
  unfold removeGroupFromTimerList Links.unlink
  rw [setGroup_links, setPrevTimer_links]
  by_cases hp : (s.groups g).prevTimer = none
  · simp only [hp, if_true, setEarliestTimer_links]
    simp [Scheduler.links, hp, assign]
  · simp only [hp, if_false, setNextTimer_links]
    simp [Scheduler.links, hp]

lemma removeGroupFromTimerList_core (p : P.Partition) (g : P.Group) :
    (removeGroupFromTimerList p g s).core = s.core := by
  unfold removeGroupFromTimerList
  refine (setGroup_core _ rfl).trans ((setPrevTimer_core _ _ _).trans ?_)
  by_cases hp : (s.groups g).prevTimer = none
  · simp only [hp, if_true, setEarliestTimer_core]
  · simp only [hp, if_false, setNextTimer_core]

lemma removeGroupFromTimerList_timeout (p : P.Partition) (g : P.Group) :
    (removeGroupFromTimerList p g s).timeout = s.timeout := by
  unfold removeGroupFromTimerList
  refine (setGroup_timeout_same _ rfl).trans ((setPrevTimer_timeout _ _ _).trans ?_)
  by_cases hp : (s.groups g).prevTimer = none
  · simp only [hp, if_true, setEarliestTimer_timeout]
  · simp only [hp, if_false, setNextTimer_timeout]

/-- Inserting a group into a timer list is linking its cell. -/
lemma insertGroup_links (p : P.Partition) (g : P.Group) (d : Word64) (prev next : Option P.Group) :
    (insertGroup p g d prev next s).links = s.links.link p g prev next := by
  unfold insertGroup Links.link
  rw [setPrevTimer_links]
  by_cases hp : prev = none
  · simp only [hp, if_true, setEarliestTimer_links, setGroup_links]
    simp [assign]
  · simp only [hp, if_false, setNextTimer_links, setGroup_links]

lemma insertGroup_core (p : P.Partition) (g : P.Group) (d : Word64) (prev next : Option P.Group) :
    (insertGroup p g d prev next s).core = s.core := by
  unfold insertGroup
  refine (setPrevTimer_core _ _ _).trans ?_
  by_cases hp : prev = none
  · rw [if_pos hp, setEarliestTimer_core]
    exact setGroup_core s rfl
  · rw [if_neg hp, setNextTimer_core]
    exact setGroup_core s rfl

lemma insertGroup_timeout (p : P.Partition) (g : P.Group) (d : Word64) (prev next : Option P.Group) :
    (insertGroup p g d prev next s).timeout = Function.update s.timeout g d := by
  unfold insertGroup
  refine (setPrevTimer_timeout _ _ _).trans ?_
  by_cases hp : prev = none
  · rw [if_pos hp, setEarliestTimer_timeout]
    exact setGroup_timeout s g _
  · rw [if_neg hp, setNextTimer_timeout]
    exact setGroup_timeout s g _

end Updates

/-! ### The lists and the operations on them -/

/-- The timer lists are `f`: their links stand for `f`, a list holds groups of its own partition, and
it is sorted by the timeouts. -/
structure TimerLists (s : Scheduler P) (f : P.Partition → List P.Group) : Prop where
  links : s.links.Represents f
  owned : ∀ p g, g ∈ f p → Policy.partitionOf g = p
  sorted : ∀ p, (f p).Pairwise (fun a b => s.timeout a ≤ s.timeout b)

namespace TimerLists

variable {s : Scheduler P} {f : P.Partition → List P.Group} {p : P.Partition} {g : P.Group}
  {as bs : List P.Group} {d : Word64}

lemma mem_iff (h : TimerLists s f) (hp : Policy.partitionOf g = p) :
    g ∈ f p ↔ isGroupInTimerList p g s = true := by
  have hown : ∀ q, g ∈ f q → q = p := fun q hq => (h.owned q g hq).symm.trans hp
  rw [h.links.mem_iff hown]
  simp [isGroupInTimerList, Scheduler.links]

lemma length_le (h : TimerLists s f) (p : P.Partition) : (f p).length ≤ P.groups := by
  simpa using (h.links.nodup p).length_le_card

/-- A group that is in its timer list is removed from it. -/
lemma remove (h : TimerLists s f) (hf : f p = as ++ g :: bs) :
    TimerLists (removeGroupFromTimerList p g s) (Function.update f p (as ++ bs)) := by
  have hsub : (as ++ bs).Sublist (f p) := by
    rw [hf]
    exact (List.Sublist.refl as).append (List.sublist_cons_self g bs)
  constructor
  · rw [removeGroupFromTimerList_links]
    exact h.links.unlink hf
  · intro q x hx
    by_cases hq : q = p
    · subst hq
      rw [Function.update_self] at hx
      exact h.owned q x (hsub.subset hx)
    · rw [Function.update_of_ne hq] at hx
      exact h.owned q x hx
  · intro q
    rw [removeGroupFromTimerList_timeout]
    by_cases hq : q = p
    · subst hq
      rw [Function.update_self]
      exact (h.sorted q).sublist hsub
    · rw [Function.update_of_ne hq]
      exact h.sorted q

/-- A group that is not in its timer list is inserted behind the groups with an earlier timeout. -/
lemma insert (h : TimerLists s f) (hp : Policy.partitionOf g = p) (hg : g ∉ f p) (hf : f p = as ++ bs)
    (has : ∀ a ∈ as, s.timeout a ≤ d) (hbs : ∀ b ∈ bs, d ≤ s.timeout b) :
    TimerLists (insertGroup p g d as.getLast? bs.head? s) (Function.update f p (as ++ g :: bs)) := by
  have hfree : ∀ q, g ∉ f q := by
    intro q hq
    have hqp : p = q := hp.symm.trans (h.owned q g hq)
    exact hg (hqp ▸ hq)
  have hsame : ∀ q, ∀ x ∈ f q, Function.update s.timeout g d x = s.timeout x := by
    intro q x hx
    have hne : x ≠ g := by
      rintro rfl
      exact hfree q hx
    rw [Function.update_of_ne hne]
  have hsorted : ∀ q, (f q).Pairwise
      (fun a b => Function.update s.timeout g d a ≤ Function.update s.timeout g d b) := by
    intro q
    refine (h.sorted q).imp_of_mem ?_
    intro a b ha hb hab
    rwa [hsame q a ha, hsame q b hb]
  constructor
  · rw [insertGroup_links]
    exact h.links.link hf hfree
  · intro q x hx
    by_cases hq : q = p
    · subst hq
      rw [Function.update_self] at hx
      by_cases hxg : x = g
      · rwa [hxg]
      · refine h.owned q x ?_
        rw [hf]
        simp only [List.mem_append, List.mem_cons] at hx ⊢
        tauto
    · rw [Function.update_of_ne hq] at hx
      exact h.owned q x hx
  · intro q
    rw [insertGroup_timeout]
    by_cases hq : q = p
    · subst hq
      have hold := hsorted q
      rw [hf, List.pairwise_append] at hold
      rw [Function.update_self, List.pairwise_append, List.pairwise_cons]
      refine ⟨hold.1, ⟨?_, hold.2.1⟩, ?_⟩
      · intro b hb
        rw [Function.update_self, hsame q b (by rw [hf]; exact List.mem_append_right as hb)]
        exact hbs b hb
      · intro a ha b hb
        rcases List.mem_cons.mp hb with rfl | hb
        · rw [Function.update_self, hsame q a (by rw [hf]; exact List.mem_append_left bs ha)]
          exact has a ha
        · exact hold.2.2 a ha b hb
    · rw [Function.update_of_ne hq]
      exact hsorted q

/-- The insertion loop stops at the place of the deadline. -/
lemma insertLoop_eq (h : TimerLists s f) (hp : Policy.partitionOf g = p) (hg : g ∉ f p) (fuel : ℕ) :
    ∀ as bs, f p = as ++ bs → bs.length < fuel → (∀ a ∈ as, s.timeout a ≤ d) →
    ∃ as' bs', f p = as' ++ bs' ∧
      insertLoop p g d fuel as.getLast? bs.head? s = some (insertGroup p g d as'.getLast? bs'.head? s) ∧
      TimerLists (insertGroup p g d as'.getLast? bs'.head? s) (Function.update f p (as' ++ g :: bs')) := by
  induction fuel with
  | zero =>
    intro as bs _ hlen
    exact absurd hlen (Nat.not_lt_zero _)
  | succ fuel ih =>
    intro as bs hf hlen has
    cases bs with
    | nil => exact ⟨as, [], hf, rfl, h.insert hp hg hf has (by simp)⟩
    | cons b bs =>
      by_cases hd : d < s.timeout b
      · refine ⟨as, b :: bs, hf, ?_, h.insert hp hg hf has ?_⟩
        · exact if_pos hd
        · have hsorted := h.sorted p
          rw [hf, List.pairwise_append, List.pairwise_cons] at hsorted
          intro b' hb'
          rcases List.mem_cons.mp hb' with rfl | hb'
          · exact BitVec.le_of_lt hd
          · exact BitVec.le_trans (BitVec.le_of_lt hd) (hsorted.2.1.1 b' hb')
      · have hf' : f p = (as ++ [b]) ++ bs := by simp [hf]
        have hnext : (s.groups b).nextTimer = bs.head? := (h.links.links_eq p as b bs hf).2
        have hlast : some b = (as ++ [b]).getLast? := by simp
        obtain ⟨as', bs', hfs, heq, hlists⟩ := ih (as ++ [b]) bs hf' (by simpa using hlen) (by
          intro a ha
          rcases List.mem_append.mp ha with ha | ha
          · exact has a ha
          · rw [List.mem_singleton.mp ha]
            exact BitVec.not_lt.mp hd)
        refine ⟨as', bs', hfs, ?_, hlists⟩
        rw [← heq, ← hlast, ← hnext]
        exact if_neg hd

/-- What `Deactivate_Group` does to the timer lists: a group that is not in its list is inserted with
the deadline, and nothing else changes. -/
lemma insertTimer_eq (h : TimerLists s f) (hp : Policy.partitionOf g = p) (d : Word64) :
    ∃ s' f', insertTimer p g d s = some s' ∧ TimerLists s' f' ∧ s'.core = s.core ∧ g ∈ f' p ∧
      (∀ q x, x ∈ f' q → x ∈ f q ∧ s'.timeout x = s.timeout x ∨ x = g ∧ s'.timeout x = d) := by
  unfold insertTimer
  by_cases hin : isGroupInTimerList p g s = true
  · rw [if_pos hin]
    refine ⟨s, f, rfl, h, rfl, (h.mem_iff hp).mpr hin, ?_⟩
    intro q x hx
    exact .inl ⟨hx, rfl⟩
  · rw [if_neg hin]
    have hg : g ∉ f p := fun hmem => hin ((h.mem_iff hp).mp hmem)
    have hhead : (s.partitions p).earliestTimer = (f p).head? := h.links.head_eq p
    obtain ⟨as, bs, hf, heq, hlists⟩ := h.insertLoop_eq hp hg (d := d) (P.groups + 1) [] (f p) rfl
      (Nat.lt_succ_of_le (h.length_le p)) (by simp)
    rw [hhead]
    refine ⟨_, _, heq, hlists, insertGroup_core s p g d _ _, ?_, ?_⟩
    · rw [Function.update_self]
      simp
    · intro q x hx
      rw [insertGroup_timeout]
      by_cases hxg : x = g
      · exact .inr ⟨hxg, by rw [hxg, Function.update_self]⟩
      · refine .inl ⟨?_, by rw [Function.update_of_ne hxg]⟩
        by_cases hq : q = p
        · subst hq
          rw [Function.update_self] at hx
          rw [hf]
          simp only [List.mem_append, List.mem_cons] at hx ⊢
          tauto
        · rwa [Function.update_of_ne hq] at hx

end TimerLists

end Muen.Kernel
