import Muen.Kernel.SchedulerSpec

/-!
# The representation invariant of the timer lists

The runs of one CPU that consist of calls of `Update_Scheduling_Info` and `Reschedule_Partition`, with
any outcome of the activity tests and any trigger values: between two steps the environment may change
everything but the scheduler's own variables.
-/

namespace Muen.Kernel

open Lib

variable {P : Policy}

/-- The groups that are reached from a group through `Next_Timer`. -/
def Chain (s : Scheduler P) : Option P.Group → List P.Group → Prop
  | group, [] => group = none
  | group, g :: gs => group = some g ∧ Chain s (s.groups g).nextTimer gs

/-- The group is on the chain of the partition that starts at `Earliest_Timer`. -/
def OnChain (s : Scheduler P) (p : P.Partition) (g : P.Group) : Prop :=
  ∃ gs, Chain s (s.partitions p).earliestTimer gs ∧ g ∈ gs

/-- The representation invariant of the timer lists. -/
structure TimerListInvariant (s : Scheduler P) (chains : P.Partition → List P.Group) : Prop where
  isChain : ∀ p, Chain s (s.partitions p).earliestTimer (chains p)
  nodup : ∀ p, (chains p).Nodup
  owned : ∀ p, ∀ g ∈ chains p, ∃ i, P.partitionGroups p i = some g
  inverse : ∀ g h, (s.groups g).nextTimer = some h ↔ (s.groups h).prevTimer = some g
  head : ∀ p g, (s.partitions p).earliestTimer = some g → (s.groups g).prevTimer = none
  sorted : ∀ p, (chains p).Pairwise (fun g h => (s.groups g).timeout ≤ (s.groups h).timeout)
  free : ∀ g, (∀ p, g ∉ chains p) → (s.groups g).prevTimer = none ∧ (s.groups g).nextTimer = none
  inList : ∀ p i g, P.partitionGroups p i = some g → (isGroupInTimerList p g s = true ↔ g ∈ chains p)

/-- The calls of the scheduler that change timer lists. -/
inductive ListCall (P : Policy)
  | updateSchedulingInfo
  | reschedulePartition (id : P.Subject) (incrRIP sleep : Bool)

/-- One CPU that makes such calls; `Reschedule_Partition` is called for a subject of the partition of
the current minor frame. -/
def listSystem (P : Policy) : System (ListCall P) (Label P) Unit (State P) where
  rely c c' := c'.2.scheduler = c.2.scheduler
  enabled c
    | .updateSchedulingInfo => True
    | .reschedulePartition id _ _ => P.subjectToPartition id = currentSchedulingPartitionID c.2.scheduler
  prog
    | .updateSchedulingInfo => do
      let _ ← updateSchedulingInfo
      pure ()
    | .reschedulePartition id incrRIP sleep => do
      let _ ← reschedulePartition id incrRIP sleep
      pure ()

/-- The state after `Init_Scheduling_Groups`. -/
def ListsInitialized (c : Unit × State P) : Prop :=
  c.2.scheduler.groups = initSchedulingGroups ∧ c.2.scheduler.partitions = fun _ => nullSchedulingPartition

lemma TimerLists.chain_from {s : Scheduler P} {f : P.Partition → List P.Group} (h : TimerLists s f)
    {p : P.Partition} {as bs : List P.Group} (hf : f p = as ++ bs) : Chain s bs.head? bs := by
  induction bs generalizing as with
  | nil => rfl
  | cons b bs ih =>
    refine ⟨rfl, ?_⟩
    have hnext : (s.groups b).nextTimer = bs.head? := (h.links.links_eq p as b bs hf).2
    rw [hnext]
    have hrest : f p = (as ++ [b]) ++ bs := by simp [hf]
    exact ih hrest

/-- Timer lists satisfy the representation invariant. -/
lemma TimerLists.invariant {s : Scheduler P} {f : P.Partition → List P.Group} (h : TimerLists s f) :
    TimerListInvariant s f where
  isChain p := by
    have hhead : (s.partitions p).earliestTimer = (f p).head? := h.links.head_eq p
    rw [hhead]
    exact h.chain_from (List.nil_append (f p)).symm
  nodup := h.links.nodup
  owned p g hg := ⟨P.groupIndex g, (Policy.partitionGroups_eq_some _ _ _).mpr ⟨h.owned p g hg, rfl⟩⟩
  inverse := h.links.next_eq_some_iff
  head p g hg := by
    have hhead : (f p).head? = some g := (h.links.head_eq p).symm.trans hg
    obtain ⟨bs, hf⟩ := List.head?_eq_some_iff.mp hhead
    exact (h.links.links_eq p [] g bs hf).1
  sorted := h.sorted
  free := h.links.free
  inList p i g hg := (h.mem_iff ((Policy.partitionGroups_eq_some _ _ _).mp hg).1).symm

/-- The lists are empty at the start. -/
lemma good_initialized {X : Prop} {c : Unit × State P} (h : ListsInitialized c) : Good X (fun _ => True) c := by
  obtain ⟨hgroups, hparts⟩ := h
  refine ⟨⟨fun _ => [], ⟨?_, ?_, ?_⟩, fun _ p g hg => absurd hg List.not_mem_nil⟩, ⟨?_, ?_⟩, trivial⟩
  · have hlinks : c.2.scheduler.links = ⟨fun _ => none, fun _ => none, fun _ => none⟩ := by
      unfold Scheduler.links
      rw [hgroups, hparts]
      rfl
    rw [hlinks]
    exact Links.represents_nil
  · intro p g hg
    exact absurd hg List.not_mem_nil
  · exact fun _ => List.Pairwise.nil
  · intro g
    rw [hgroups]
    exact P.initialSubject_group g
  · intro p
    rw [hparts]
    exact Fin.zero_le _

lemma listSystem_interferes : Interferes False (listSystem P).rely :=
  ⟨fun _ _ h => h, fun hX => hX.elim⟩

lemma listSystem_framed : Framed (listSystem P).rely (fun _ => True) :=
  ⟨fun _ _ _ _ => trivial, fun _ _ _ _ => trivial, fun _ _ _ _ => trivial, fun _ _ _ _ => trivial,
    fun _ _ _ _ => trivial, fun _ _ _ _ => trivial⟩

/-- Every call keeps the timer lists. -/
lemma listCall_sat {c : Unit × State P} (call : ListCall P) (h : Good False (fun _ => True) c)
    (hcall : (listSystem P).enabled c call) :
    ((listSystem P).prog call).Sat (listSystem P).rely (AtStep False False)
      (fun _ => Good False (fun _ => True)) c := by
  have hR := listSystem_interferes (P := P)
  have hK := listSystem_framed (P := P)
  cases call with
  | updateSchedulingInfo =>
    refine Prog.sat_bind ((updateSchedulingInfo_sat hR hK (fun _ _ _ _ _ => trivial) h).mono ?_)
    exact fun _ c₁ h₁ => Prog.sat_pure (good_stable hR hK) h₁.1
  | reschedulePartition id incrRIP sleep =>
    refine Prog.sat_bind ((reschedulePartition_sat hR hK hcall (fun hX => hX.elim)
      (fun _ _ _ => trivial) h).mono ?_)
    exact fun _ c₁ h₁ => Prog.sat_pure (good_stable hR hK) h₁.1

/-- In every run the timer lists satisfy their representation invariant between two calls and at every
step inside of a call; no run-time check fails, no call ends without returning, and `Activate_Group` is
called for groups on the chain only. -/
theorem timerLists_invariant {x : Option (Prog (Label P) (State P) Unit) × (Unit × State P)}
    (hx : (listSystem P).Reached ListsInitialized x) :
    (∀ c, x = (none, c) → ∃ chains, TimerListInvariant c.2.scheduler chains) ∧
    (∀ l u k c, x = (some (.step l u k), c) → l.failed = false ∧
      ∃ chains, TimerListInvariant c.2.scheduler chains ∧
        ∀ p g, l.activating = some (p, g) → g ∈ chains p) ∧
    (∀ c, x ≠ (some .halt, c)) := by
  have hholds := hx.holds (fun c => good_initialized) (good_stable listSystem_interferes listSystem_framed)
    (fun c call => listCall_sat call)
  refine ⟨?_, ?_, ?_⟩
  · rintro c rfl
    obtain ⟨f, hf, -⟩ := hholds.idle.timers
    exact ⟨f, hf.invariant⟩
  · rintro l u k c rfl
    have hstep := hholds.label
    obtain ⟨f, hf, -⟩ := hstep.timers
    refine ⟨hstep.notFailed, f, hf.invariant, ?_⟩
    intro p g ha
    obtain ⟨f', hf', hmem⟩ := hstep.activating p g ha
    exact (hf.mem_iff (hf'.owned p g hmem)).mpr ((hf'.mem_iff (hf'.owned p g hmem)).mp hmem)
  · rintro c rfl
    exact hholds.halted

/-! ### Runs of a small policy -/

/-- The calls without the condition on the subject of `Reschedule_Partition`. -/
def anyListSystem (P : Policy) : System (ListCall P) (Label P) Unit (State P) :=
  { listSystem P with enabled := fun _ _ => True }

instance (c : Unit × State P) (call : ListCall P) : Decidable ((listSystem P).enabled c call) :=
  match call with
  | .updateSchedulingInfo => isTrue trivial
  | .reschedulePartition id _ _ =>
    inferInstanceAs (Decidable (P.subjectToPartition id = currentSchedulingPartitionID c.2.scheduler))

instance (c : Unit × State P) (call : ListCall P) : Decidable ((anyListSystem P).enabled c call) :=
  isTrue trivial

/-- Subject 0 goes to sleep and no other subject is active: both groups of its partition are linked, the
second one behind the first one. -/
lemma sleepers_reached : ∃ s : State smallPolicy,
    (listSystem smallPolicy).Reached ListsInitialized (none, ((), s)) ∧
      (s.scheduler.partitions 1).earliestTimer = none ∧ isGroupInTimerList 1 1 s.scheduler = true := by
  have hrun : ∃ s, (listSystem smallPolicy).execOps () [.reschedulePartition 0 false true]
      (startState 0 true) = some s ∧ (s.scheduler.partitions 1).earliestTimer = none ∧
      isGroupInTimerList 1 1 s.scheduler = true :=
    ⟨_, rfl, by decide, by decide⟩
  obtain ⟨s, hs, hfacts⟩ := hrun
  have hstart : (listSystem smallPolicy).Reached ListsInitialized (none, ((), startState 0 true)) :=
    ⟨_, ⟨rfl, rfl⟩, Relation.ReflTransGen.refl⟩
  exact ⟨s, hstart.execOps hs, hfacts⟩

/-- A call for a subject of another partition puts its group into the list of the current partition. -/
lemma stranger_reached : ∃ s : State smallPolicy,
    (anyListSystem smallPolicy).Reached ListsInitialized (none, ((), s)) ∧
      (s.scheduler.partitions 0).earliestTimer = some 2 ∧ (s.scheduler.groups 2).nextTimer = some 1 ∧
      (s.scheduler.groups 1).nextTimer = none := by
  have hrun : ∃ s, (anyListSystem smallPolicy).execOps () [.reschedulePartition 2 false true]
      (startState 0 true) = some s ∧ (s.scheduler.partitions 0).earliestTimer = some 2 ∧
      (s.scheduler.groups 2).nextTimer = some 1 ∧ (s.scheduler.groups 1).nextTimer = none :=
    ⟨_, rfl, by decide, by decide, by decide⟩
  obtain ⟨s, hs, hfacts⟩ := hrun
  have hstart : (anyListSystem smallPolicy).Reached ListsInitialized (none, ((), startState 0 true)) :=
    ⟨_, ⟨rfl, rfl⟩, Relation.ReflTransGen.refl⟩
  exact ⟨s, hstart.execOps hs, hfacts⟩

/-- `Is_Group_In_Timer_List` is also true for a group in the list of another partition, and a call of
`Reschedule_Partition` for a subject of another partition breaks the lists. -/
theorem timerLists_not_invariant :
    (∃ s : State smallPolicy, (listSystem smallPolicy).Reached ListsInitialized (none, ((), s)) ∧
      ¬ ∀ p g, isGroupInTimerList p g s.scheduler = true ↔ OnChain s.scheduler p g) ∧
    (∃ s : State smallPolicy, (anyListSystem smallPolicy).Reached ListsInitialized (none, ((), s)) ∧
      ¬ ∀ p g, OnChain s.scheduler p g → ∃ i, smallPolicy.partitionGroups p i = some g) := by
  constructor
  · obtain ⟨s, hs, hempty, hin⟩ := sleepers_reached
    refine ⟨s, hs, fun h => ?_⟩
    obtain ⟨gs, hchain, hmem⟩ := (h 1 1).mp hin
    rw [hempty] at hchain
    cases gs with
    | nil => exact absurd hmem List.not_mem_nil
    | cons g gs => exact absurd hchain.1 (by simp)
  · obtain ⟨s, hs, hhead, hnext, hlast⟩ := stranger_reached
    refine ⟨s, hs, fun h => ?_⟩
    have hchain : Chain s.scheduler (s.scheduler.partitions 0).earliestTimer [2, 1] :=
      ⟨hhead, hnext, hlast⟩
    obtain ⟨i, hi⟩ := h 0 2 ⟨[2, 1], hchain, List.mem_cons_self⟩
    exact absurd ((Policy.partitionGroups_eq_some _ _ _).mp hi).1 (by decide)

/-- The invariant holds after the first run. -/
theorem timerLists_invariant_sleepers : ∃ s : State smallPolicy,
    (listSystem smallPolicy).Reached ListsInitialized (none, ((), s)) ∧
      ∃ chains, TimerListInvariant s.scheduler chains := by
  obtain ⟨s, hs, -⟩ := sleepers_reached
  exact ⟨s, hs, (timerLists_invariant hs).1 _ rfl⟩

end Muen.Kernel
