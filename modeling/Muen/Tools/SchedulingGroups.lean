import Muen.Lib.Fallible
import Muen.Lib.PathSearch
import Mathlib.Data.Finset.Card
import Mathlib.Data.List.Nodup

/-!
# Mutools.XML_Utils: scheduling groups of subjects

`Get_Subject_To_Scheduling_Group_Map` walks from a subject back along the events by which subjects switch to each other
until it meets a subject whose group is known. It marks the subjects on its path, and notes the group of a subject when
it has found one. `Get_Switch_Sources` only returns the first source of an event.
-/

namespace Muen.Tools.SchedulingGroups
open Muen.Lib

structure Event where
  name : String
  mode : String

structure Subject where
  name : String
  globalId : Nat
  sources : List String
  targets : List String
deriving DecidableEq

/-- The IDs of subjects number them, and events that switch to a subject have a source. -/
structure Policy where
  events : List Event
  subjects : List Subject
  /-- The name of the first subject of each scheduling group. -/
  groups : List String
  ids_nodup : (subjects.map Subject.globalId).Nodup
  ids_lt : ∀ s ∈ subjects, s.globalId < subjects.length
  sourced : ∀ t ∈ subjects, ∀ ev ∈ t.targets, (∃ e ∈ events, e.mode = "switch" ∧ e.name = ev) →
    ∃ s ∈ subjects, ev ∈ s.sources

inductive GroupError
  | missingSubject (message : String)
  | invalidSubjectId (message : String)
  | constraintError
deriving DecidableEq

def noGroup : Nat := 0

/-- The ID of the initial subject of a group. -/
def initialSubject (policy : Policy) (subjectName : String) : Except GroupError Nat :=
  match policy.subjects.find? (fun s => s.name = subjectName) with
  | none =>
    .error (.missingSubject ("Subject '" ++ subjectName ++ "' referenced in scheduling plan not present"))
  | some s =>
    if s.globalId < policy.subjects.length then .ok s.globalId
    else .error (.invalidSubjectId ("Subject '" ++ subjectName ++ "' referenced in scheduling plan has invalid ID " ++
      toString s.globalId ++ ", not in range 0.. " ++ toString (policy.subjects.length - 1)))

def getInitialSchedulingGroupSubjects (policy : Policy) : Except GroupError (List Nat) :=
  policy.groups.mapM (initialSubject policy)

def isSwitch (policy : Policy) (ev : String) : Bool :=
  (policy.events.filter (fun e => e.mode = "switch")).any (fun e => e.name = ev)

/-- The subject of the first source of each event that switches to the target. -/
def getSwitchSources (policy : Policy) (target : Subject) : List (Option Subject) :=
  (target.targets.filter (isSwitch policy)).map (fun ev => policy.subjects.find? (fun s => ev ∈ s.sources))

structure State where
  subjectToGroupId : Nat → Nat
  visitedSubjects : Nat → Bool

def State.setGroup (s : State) (id group : Nat) : State :=
  { s with subjectToGroupId := Function.update s.subjectToGroupId id group }

def State.setVisited (s : State) (id : Nat) (visited : Bool) : State :=
  { s with visitedSubjects := Function.update s.visitedSubjects id visited }

/-- The loop over the sources of a subject up to the first one with a group. -/
def sourcesLoop (determine : Subject → State → Option State) (id : Nat) : List (Option Subject) → State → Option State
  | [], s => some (s.setVisited id false)
  | none :: _, _ => none
  | some src :: srcs, s => do
    let s ← determine src s
    if s.subjectToGroupId src.globalId ≠ noGroup then
      some ((s.setGroup id (s.subjectToGroupId src.globalId)).setVisited id false)
    else sourcesLoop determine id srcs s

/-- `Determine_Sched_Group` with a bound on the depth of its calls, which each mark another subject. -/
def determineSchedGroup (policy : Policy) : Nat → Subject → State → Option State
  | 0, _, _ => none
  | fuel + 1, subject, s =>
    if s.subjectToGroupId subject.globalId ≠ noGroup then some s
    else if s.visitedSubjects subject.globalId then some s
    else sourcesLoop (determineSchedGroup policy fuel) subject.globalId (getSwitchSources policy subject)
      (s.setVisited subject.globalId true)

/-- The groups of the initial subjects, numbered from one. -/
def initialState (groupToSubj : List Nat) : State :=
  groupToSubj.zipIdx.foldl (fun s (id, i) => s.setGroup id (i + 1)) ⟨fun _ => noGroup, fun _ => false⟩

def determineRemaining (policy : Policy) (s : State) (i : Nat) : Option State :=
  if s.subjectToGroupId i = noGroup then do
    let subject ← policy.subjects.find? (fun s => s.globalId = i)
    determineSchedGroup policy (policy.subjects.length + 1) subject s
  else some s

def getSubjectToSchedulingGroupMap (policy : Policy) : Except GroupError (List Nat) := do
  let groupToSubj ← getInitialSchedulingGroupSubjects policy
  let ids := List.range policy.subjects.length
  match ids.foldlM (determineRemaining policy) (initialState groupToSubj) with
  | some s => return ids.map s.subjectToGroupId
  | none => .error .constraintError

/-! ### Switches -/

/-- The step back from a subject to the first source of an event that switches to it, by IDs. -/
def BackFirst (policy : Policy) (i j : Nat) : Prop :=
  ∃ t ∈ policy.subjects, t.globalId = i ∧ ∃ p, some p ∈ getSwitchSources policy t ∧ p.globalId = j

/-- The step back from a subject to any source of an event that switches to it. -/
def Back (policy : Policy) (i j : Nat) : Prop :=
  ∃ t ∈ policy.subjects, t.globalId = i ∧ ∃ p ∈ policy.subjects, p.globalId = j ∧
    ∃ ev ∈ t.targets, isSwitch policy ev ∧ ev ∈ p.sources

lemma mem_getSwitchSources {policy : Policy} {t p : Subject} (h : some p ∈ getSwitchSources policy t) :
    p ∈ policy.subjects ∧ ∃ ev ∈ t.targets, isSwitch policy ev ∧ ev ∈ p.sources := by
  obtain ⟨ev, hev, hfind⟩ := List.mem_map.mp h
  obtain ⟨htarget, hswitch⟩ := List.mem_filter.mp hev
  exact ⟨List.mem_of_find?_eq_some hfind, ev, htarget, hswitch, by simpa using List.find?_some hfind⟩

lemma not_none_mem_getSwitchSources {policy : Policy} {t : Subject} (ht : t ∈ policy.subjects) :
    none ∉ getSwitchSources policy t := by
  intro h
  obtain ⟨ev, hev, hfind⟩ := List.mem_map.mp h
  obtain ⟨htarget, hswitch⟩ := List.mem_filter.mp hev
  obtain ⟨e, he, hname⟩ := List.any_eq_true.mp hswitch
  obtain ⟨hmem, hmode⟩ := List.mem_filter.mp he
  obtain ⟨s, hs, hsource⟩ := policy.sourced t ht ev htarget ⟨e, hmem, by simpa using hmode, by simpa using hname⟩
  have hnone := List.find?_eq_none.mp hfind s hs
  simp only [decide_eq_true_eq] at hnone
  exact hnone hsource

lemma BackFirst.back {policy : Policy} {i j : Nat} (h : BackFirst policy i j) : Back policy i j := by
  obtain ⟨t, ht, hi, p, hp, hj⟩ := h
  obtain ⟨hmem, hevent⟩ := mem_getSwitchSources hp
  exact ⟨t, ht, hi, p, hmem, hj, hevent⟩

lemma Policy.eq_of_globalId (policy : Policy) {s t : Subject} (hs : s ∈ policy.subjects) (ht : t ∈ policy.subjects)
    (h : s.globalId = t.globalId) : s = t := List.inj_on_of_nodup_map policy.ids_nodup hs ht h

/-- All IDs below the number of subjects are taken. -/
lemma Policy.exists_globalId (policy : Policy) {i : Nat} (hi : i < policy.subjects.length) :
    ∃ s ∈ policy.subjects, s.globalId = i := by
  have hsubset : (policy.subjects.map Subject.globalId).toFinset ⊆ Finset.range policy.subjects.length := by
    intro id hid
    obtain ⟨s, hs, rfl⟩ := List.mem_map.mp (List.mem_toFinset.mp hid)
    exact Finset.mem_range.mpr (policy.ids_lt s hs)
  have hcard : (policy.subjects.map Subject.globalId).toFinset.card = policy.subjects.length := by
    rw [List.toFinset_card_of_nodup policy.ids_nodup, List.length_map]
  have heq := Finset.eq_of_subset_of_card_le hsubset (by rw [hcard, Finset.card_range])
  have hmem : i ∈ (policy.subjects.map Subject.globalId).toFinset := by
    rw [heq]
    exact Finset.mem_range.mpr hi
  exact List.mem_map.mp (List.mem_toFinset.mp hmem)

/-! ### The walk -/

namespace State

def Grouped (s : State) (i : Nat) : Prop := s.subjectToGroupId i ≠ noGroup

def marked (s : State) : Set Nat := {i | s.visitedSubjects i = true}

/-- The number of subjects that are not marked. -/
def unvisited (policy : Policy) (s : State) : Nat :=
  ((Finset.range policy.subjects.length).filter (fun i => s.visitedSubjects i = false)).card

lemma marked_setVisited (s : State) (id : Nat) : (s.setVisited id true).marked = insert id s.marked := by
  ext i
  simp only [marked, setVisited, Set.mem_ofPred_eq, Set.mem_insert_iff, Function.update_apply]
  by_cases hi : i = id <;> simp [hi]

lemma unvisited_setVisited {policy : Policy} {s : State} {id : Nat} (hid : id < policy.subjects.length)
    (hvisited : s.visitedSubjects id = false) : (s.setVisited id true).unvisited policy < s.unvisited policy :=
  card_unmarked_lt (Finset.mem_range.mpr hid) hvisited

end State

/-- Every group that is known is that of an initial subject the walk back leads to. -/
def Sound (policy : Policy) (initial : Nat → Nat → Prop) (s : State) : Prop :=
  ∀ i, s.Grouped i → ∃ j, initial (s.subjectToGroupId i) j ∧ Relation.ReflTransGen (BackFirst policy) i j

/-- What a walk keeps. -/
structure Advances (policy : Policy) (initial : Nat → Nat → Prop) (s s' : State) : Prop where
  grouped : ∀ i, s.Grouped i → s'.Grouped i
  sound : Sound policy initial s → Sound policy initial s'

section Walk

variable {policy : Policy} {initial : Nat → Nat → Prop}

lemma Advances.refl (s : State) : Advances policy initial s s := ⟨fun _ h => h, fun h => h⟩

lemma Advances.trans {s s' s'' : State} (h : Advances policy initial s s') (h' : Advances policy initial s' s'') :
    Advances policy initial s s'' :=
  ⟨fun i hi => h'.grouped i (h.grouped i hi), fun hs => h'.sound (h.sound hs)⟩

lemma advances_setVisited (s : State) (id : Nat) (visited : Bool) :
    Advances policy initial s (s.setVisited id visited) := ⟨fun _ h => h, fun h => h⟩

/-- A subject takes the group of one of its sources. -/
lemma advances_setGroup {s : State} {id j : Nat} (hback : BackFirst policy id j) (hj : s.Grouped j) :
    Advances policy initial s (s.setGroup id (s.subjectToGroupId j)) := by
  constructor
  · intro i hi
    by_cases heq : i = id
    · rw [heq]
      simpa [State.Grouped, State.setGroup] using hj
    · simpa [State.Grouped, State.setGroup, Function.update_of_ne heq] using hi
  · intro hs i hi
    by_cases heq : i = id
    · obtain ⟨q, hq, hpath⟩ := hs j hj
      rw [heq]
      refine ⟨q, ?_, Relation.ReflTransGen.head hback hpath⟩
      simpa [State.setGroup] using hq
    · simp only [State.Grouped, State.setGroup, Function.update_of_ne heq] at hi ⊢
      exact hs i hi

/-- A walk ends with the marks that it started with, and finds a group if a subject with one can be reached along
subjects without a mark. -/
def Walks (policy : Policy) (initial : Nat → Nat → Prop) (subject : Subject) (s : State) (result : Option State) :
    Prop :=
  ∃ s', result = some s' ∧ Advances policy initial s s' ∧ s'.visitedSubjects = s.visitedSubjects ∧
    (Found (BackFirst policy) s.Grouped s.marked subject.globalId → s'.Grouped subject.globalId)

/-- The loop over sources, when the walks from them do as they should. -/
lemma sourcesLoop_spec {determine : Subject → State → Option State} {visited : Nat → Bool} {subject : Subject}
    (hsubject : subject ∈ policy.subjects)
    (hdetermine : ∀ src ∈ policy.subjects, ∀ s : State, s.visitedSubjects = visited →
      Walks policy initial src s (determine src s))
    {srcs : List (Option Subject)} (hsrcs : ∀ o ∈ srcs, o ∈ getSwitchSources policy subject) {s : State}
    (hvisited : s.visitedSubjects = visited) :
    ∃ s', sourcesLoop determine subject.globalId srcs s = some s' ∧ Advances policy initial s s' ∧
      s'.visitedSubjects = Function.update visited subject.globalId false ∧
      ((∃ p, some p ∈ srcs ∧ Found (BackFirst policy) s.Grouped s.marked p.globalId) →
        s'.Grouped subject.globalId) := by
  induction srcs generalizing s with
  | nil =>
    refine ⟨_, rfl, advances_setVisited s subject.globalId false, by rw [← hvisited]; rfl, ?_⟩
    rintro ⟨p, hp, -⟩
    exact absurd hp List.not_mem_nil
  | cons o srcs ih =>
    have ho := hsrcs o List.mem_cons_self
    cases o with
    | none => exact absurd ho (not_none_mem_getSwitchSources hsubject)
    | some src =>
      obtain ⟨t, ht, hadvances, hmarks, hfound⟩ := hdetermine src (mem_getSwitchSources ho).1 s hvisited
      have hback : BackFirst policy subject.globalId src.globalId := ⟨subject, hsubject, rfl, src, ho, rfl⟩
      unfold sourcesLoop
      rw [ht]
      simp only [Option.bind_eq_bind, Option.bind_some]
      by_cases hgroup : t.subjectToGroupId src.globalId ≠ noGroup
      · rw [if_pos hgroup]
        refine ⟨_, rfl, hadvances.trans ((advances_setGroup hback hgroup).trans (advances_setVisited _ _ _)), ?_, ?_⟩
        · rw [← hvisited, ← hmarks]
          rfl
        · intro _
          simpa [State.Grouped, State.setGroup, State.setVisited] using hgroup
      · rw [if_neg hgroup]
        obtain ⟨s', hs', hadvances', hmarks', hfound'⟩ := ih (fun o' ho' => hsrcs o' (List.mem_cons_of_mem _ ho'))
          (hmarks.trans hvisited)
        refine ⟨s', hs', hadvances.trans hadvances', hmarks', ?_⟩
        rintro ⟨p, hp, hpfound⟩
        rcases List.mem_cons.mp hp with heq | hp
        · rw [Option.some.inj heq] at hpfound
          exact absurd (hfound hpfound) hgroup
        · apply hfound' ⟨p, hp, ?_⟩
          have hmarked : t.marked = s.marked := by
            unfold State.marked
            rw [hmarks]
          rw [hmarked]
          exact hpfound.imp hadvances.grouped

lemma determineSchedGroup_spec {fuel : Nat} {subject : Subject} (hsubject : subject ∈ policy.subjects) {s : State}
    (hfuel : s.unvisited policy < fuel) :
    Walks policy initial subject s (determineSchedGroup policy fuel subject s) := by
  induction fuel generalizing subject s with
  | zero => exact absurd hfuel (Nat.not_lt_zero _)
  | succ fuel ih =>
    unfold determineSchedGroup
    by_cases hgroup : s.subjectToGroupId subject.globalId ≠ noGroup
    · rw [if_pos hgroup]
      exact ⟨s, rfl, Advances.refl s, rfl, fun _ => hgroup⟩
    rw [if_neg hgroup]
    by_cases hvisited : s.visitedSubjects subject.globalId = true
    · rw [if_pos hvisited]
      refine ⟨s, rfl, Advances.refl s, rfl, ?_⟩
      intro hfound
      cases hfound with
      | goal h => exact h
      | step ha _ _ => exact absurd hvisited ha
    · rw [if_neg hvisited]
      have hid := policy.ids_lt subject hsubject
      have hfalse : s.visitedSubjects subject.globalId = false := by simpa using hvisited
      have hless := State.unvisited_setVisited hid hfalse
      have hdetermine : ∀ src ∈ policy.subjects, ∀ t : State,
          t.visitedSubjects = (s.setVisited subject.globalId true).visitedSubjects →
          Walks policy initial src t (determineSchedGroup policy fuel src t) := by
        intro src hsrc t ht
        apply ih hsrc
        have heq : t.unvisited policy = (s.setVisited subject.globalId true).unvisited policy := by
          unfold State.unvisited
          rw [ht]
        omega
      obtain ⟨s', hs', hadvances, hmarks, hfound⟩ := sourcesLoop_spec hsubject hdetermine (fun o ho => ho)
        (s := s.setVisited subject.globalId true) rfl
      refine ⟨s', hs', (advances_setVisited s subject.globalId true).trans hadvances, ?_, ?_⟩
      · rw [hmarks]
        unfold State.setVisited
        rw [Function.update_idem, ← hfalse, Function.update_eq_self]
      · intro hsearch
        cases hsearch with
        | goal h => exact absurd h hgroup
        | step ha hb h =>
          obtain ⟨t, ht, hid, p, hp, rfl⟩ := hb
          rw [policy.eq_of_globalId ht hsubject hid] at hp
          apply hfound ⟨p, hp, ?_⟩
          rw [State.marked_setVisited]
          exact h

/-- The walks from some subjects in turn. -/
lemma determineRemaining_spec {ids : List Nat} (hids : ∀ i ∈ ids, i < policy.subjects.length) {s : State}
    (hvisited : ∀ i, s.visitedSubjects i = false) :
    ∃ s', ids.foldlM (determineRemaining policy) s = some s' ∧ Advances policy initial s s' ∧
      ∀ i ∈ ids, Found (BackFirst policy) s.Grouped ∅ i → s'.Grouped i := by
  induction ids generalizing s with
  | nil => exact ⟨s, rfl, Advances.refl s, nofun⟩
  | cons i ids ih =>
    have hunvisited : s.unvisited policy < policy.subjects.length + 1 := by
      apply Nat.lt_succ_of_le
      exact (Finset.card_filter_le _ _).trans (le_of_eq (Finset.card_range _))
    have hempty : s.marked = ∅ := by
      ext j
      simp [State.marked, hvisited j]
    have hstep : ∃ t, determineRemaining policy s i = some t ∧ Advances policy initial s t ∧
        t.visitedSubjects = s.visitedSubjects ∧ (Found (BackFirst policy) s.Grouped ∅ i → t.Grouped i) := by
      unfold determineRemaining
      by_cases hgroup : s.subjectToGroupId i = noGroup
      · rw [if_pos hgroup]
        obtain ⟨x, hx, hxi⟩ := policy.exists_globalId (hids i List.mem_cons_self)
        obtain ⟨subject, hfind⟩ := Option.isSome_iff_exists.mp
          (List.find?_isSome (p := fun s => decide (s.globalId = i)).mpr ⟨x, hx, decide_eq_true hxi⟩)
        have hid : subject.globalId = i := by simpa using List.find?_some hfind
        have hwalk : Walks policy initial subject s _ :=
          determineSchedGroup_spec (List.mem_of_find?_eq_some hfind) hunvisited
        rw [hfind]
        subst hid
        rw [← hempty]
        exact hwalk
      · rw [if_neg hgroup]
        exact ⟨s, rfl, Advances.refl s, rfl, fun _ => hgroup⟩
    obtain ⟨t, ht, hadvances, hmarks, hfound⟩ := hstep
    obtain ⟨s', hs', hadvances', hfound'⟩ := ih (fun j hj => hids j (List.mem_cons_of_mem i hj)) (s := t)
      (by rw [hmarks]; exact hvisited)
    refine ⟨s', ?_, hadvances.trans hadvances', ?_⟩
    · rw [List.foldlM_cons, ht]
      exact hs'
    · intro j hj hsearch
      rcases List.mem_cons.mp hj with rfl | hj
      · exact hadvances'.grouped j (hfound hsearch)
      · exact hfound' j hj (hsearch.imp hadvances.grouped)

end Walk

/-! ### The map -/

/-- The initial subject of a group, where groups are numbered from one. -/
def InitialOf (groupToSubj : List Nat) (group id : Nat) : Prop := 0 < group ∧ groupToSubj[group - 1]? = some id

lemma initialState_spec (groupToSubj : List Nat) :
    (∀ i, (initialState groupToSubj).visitedSubjects i = false) ∧
      (∀ i, (initialState groupToSubj).Grouped i →
        InitialOf groupToSubj ((initialState groupToSubj).subjectToGroupId i) i) ∧
      ∀ i ∈ groupToSubj, (initialState groupToSubj).Grouped i := by
  have hgen : ∀ (l : List Nat) (k : Nat) (s : State),
      let s' := (l.zipIdx k).foldl (fun s (id, i) => s.setGroup id (i + 1)) s
      s'.visitedSubjects = s.visitedSubjects ∧ ∀ i,
        (i ∈ l → ∃ m, l[m]? = some i ∧ s'.subjectToGroupId i = k + m + 1) ∧
        (i ∉ l → s'.subjectToGroupId i = s.subjectToGroupId i) := by
    intro l
    induction l with
    | nil => exact fun k s => ⟨rfl, fun i => ⟨nofun, fun _ => rfl⟩⟩
    | cons id l ih =>
      intro k s
      obtain ⟨hvisited, hgroups⟩ := ih (k + 1) (s.setGroup id (k + 1))
      refine ⟨hvisited, fun i => ?_⟩
      obtain ⟨hin, hout⟩ := hgroups i
      by_cases hmem : i ∈ l
      · refine ⟨fun _ => ?_, fun hnot => absurd (List.mem_cons_of_mem id hmem) hnot⟩
        obtain ⟨m, hm, hgroup⟩ := hin hmem
        exact ⟨m + 1, hm, hgroup.trans (by omega)⟩
      · have hgroup := hout hmem
        constructor
        · intro hi
          obtain rfl := (List.mem_cons.mp hi).resolve_right hmem
          refine ⟨0, rfl, hgroup.trans ?_⟩
          simp [State.setGroup]
        · intro hi
          refine hgroup.trans ?_
          have hne : i ≠ id := fun heq => hi (heq ▸ List.mem_cons_self)
          simp [State.setGroup, Function.update_of_ne hne]
  obtain ⟨hvisited, hgroups⟩ := hgen groupToSubj 0 ⟨fun _ => noGroup, fun _ => false⟩
  refine ⟨fun i => congrFun hvisited i, ?_, ?_⟩
  · intro i hi
    have hmem : i ∈ groupToSubj := by
      by_contra hnot
      exact hi ((hgroups i).2 hnot)
    obtain ⟨m, hm, hgroup⟩ := (hgroups i).1 hmem
    have hvalue : (initialState groupToSubj).subjectToGroupId i = m + 1 := hgroup.trans (by omega)
    rw [hvalue]
    exact ⟨Nat.succ_pos m, hm⟩
  · intro i hi
    obtain ⟨m, -, hgroup⟩ := (hgroups i).1 hi
    exact fun h => Nat.succ_ne_zero _ (hgroup.symm.trans h)

/-- A subject can be reached from another one along events that switch. -/
def Reaches (policy : Policy) (j i : Nat) : Prop := Relation.ReflTransGen (Back policy) i j

/-- The same along the first sources of events only. -/
def ReachesFirst (policy : Policy) (j i : Nat) : Prop := Relation.ReflTransGen (BackFirst policy) i j

lemma ReachesFirst.reaches {policy : Policy} {j i : Nat} (h : ReachesFirst policy j i) : Reaches policy j i :=
  Relation.ReflTransGen.mono (fun _ _ => BackFirst.back) i j h

variable {policy : Policy} {groupToSubj : List Nat}

/-- A group is only assigned to subjects that can be reached from its initial subject. -/
def Sources (policy : Policy) (groupToSubj map : List Nat) : Prop :=
  ∀ i group, map[i]? = some group → group ≠ noGroup → ∃ j, InitialOf groupToSubj group j ∧ Reaches policy j i

/-- The map is the one that switches and initial subjects call for. -/
structure Exact (policy : Policy) (groupToSubj map : List Nat) : Prop where
  sound : Sources policy groupToSubj map
  complete : ∀ i < policy.subjects.length,
    (map[i]? = some noGroup ↔ ∀ group j, InitialOf groupToSubj group j → ¬Reaches policy j i)
  unique : (∀ i group j group' j', InitialOf groupToSubj group j → InitialOf groupToSubj group' j' →
      Reaches policy j i → Reaches policy j' i → group = group') →
    ∀ i group, (map[i]? = some group ∧ group ≠ noGroup) ↔ ∃ j, InitialOf groupToSubj group j ∧ Reaches policy j i

lemma getInitialSchedulingGroupSubjects_lt (hinitial : getInitialSchedulingGroupSubjects policy = .ok groupToSubj) :
    ∀ id ∈ groupToSubj, id < policy.subjects.length := by
  have hgen : ∀ (names : List String) (ids : List Nat), names.mapM (initialSubject policy) = .ok ids →
      ∀ id ∈ ids, id < policy.subjects.length := by
    intro names
    induction names with
    | nil =>
      intro ids h
      rw [List.mapM_nil] at h
      rw [← Except.ok.inj h]
      exact nofun
    | cons name names ih =>
      intro ids h
      rw [List.mapM_cons] at h
      obtain ⟨id, hid, h⟩ := bind_eq_ok h
      obtain ⟨rest, hrest, h⟩ := bind_eq_ok h
      rw [← Except.ok.inj h]
      intro i hi
      rcases List.mem_cons.mp hi with rfl | hi
      · unfold initialSubject at hid
        split at hid
        · cases hid
        · split at hid
          · rename_i hlt
            rw [← Except.ok.inj hid]
            exact hlt
          · cases hid
      · exact ih rest hrest i hi
  exact hgen policy.groups groupToSubj hinitial

lemma reaches_lt (hinitial : getInitialSchedulingGroupSubjects policy = .ok groupToSubj) {group i j : Nat}
    (hj : InitialOf groupToSubj group j) (h : Reaches policy j i) : i < policy.subjects.length := by
  rcases Relation.ReflTransGen.cases_head h with rfl | ⟨k, ⟨t, ht, rfl, -⟩, -⟩
  · exact getInitialSchedulingGroupSubjects_lt hinitial i (List.mem_of_getElem? hj.2)
  · exact policy.ids_lt t ht

/-- All subjects that can be reached from initial ones can be so along first sources. -/
def FirstSourcesReach (policy : Policy) (groupToSubj : List Nat) : Prop :=
  ∀ i, (∃ group j, InitialOf groupToSubj group j ∧ Reaches policy j i) →
    ∃ group j, InitialOf groupToSubj group j ∧ ReachesFirst policy j i

/-- The map is that of the subjects that can be reached along first sources. -/
lemma getSubjectToSchedulingGroupMap_spec (hinitial : getInitialSchedulingGroupSubjects policy = .ok groupToSubj) :
    ∃ map, getSubjectToSchedulingGroupMap policy = .ok map ∧ map.length = policy.subjects.length ∧
      (∀ i group, map[i]? = some group → group ≠ noGroup →
        ∃ j, InitialOf groupToSubj group j ∧ ReachesFirst policy j i) ∧
      ∀ i < policy.subjects.length, (∃ group j, InitialOf groupToSubj group j ∧ ReachesFirst policy j i) →
        map[i]? ≠ some noGroup := by
  obtain ⟨hvisited, hgroups, hgrouped⟩ := initialState_spec groupToSubj
  have hids : ∀ i ∈ List.range policy.subjects.length, i < policy.subjects.length := fun i hi => List.mem_range.mp hi
  obtain ⟨s, hs, hadvances, hfound⟩ : ∃ s, _ ∧ Advances policy (InitialOf groupToSubj) _ s ∧ _ :=
    determineRemaining_spec hids hvisited
  have hsound := hadvances.sound fun i hi => ⟨i, hgroups i hi, Relation.ReflTransGen.refl⟩
  have hget : ∀ i < policy.subjects.length,
      ((List.range policy.subjects.length).map s.subjectToGroupId)[i]? = some (s.subjectToGroupId i) := by
    intro i hi
    rw [List.getElem?_map, List.getElem?_range hi]
    rfl
  refine ⟨(List.range policy.subjects.length).map s.subjectToGroupId, ?_, by simp, ?_, ?_⟩
  · unfold getSubjectToSchedulingGroupMap
    rw [hinitial, ok_bind]
    simp only [hs]
    rfl
  · intro i group hi hgroup
    obtain ⟨hlt, -⟩ := List.getElem?_eq_some_iff.mp hi
    rw [List.length_map, List.length_range] at hlt
    rw [hget i hlt] at hi
    rw [← Option.some.inj hi] at hgroup ⊢
    exact hsound i hgroup
  · rintro i hi ⟨group, j, hj, hreach⟩ hnone
    rw [hget i hi] at hnone
    have hmem : j ∈ groupToSubj := List.mem_of_getElem? hj.2
    exact hfound i (List.mem_range.mpr hi) (Found.of_reaches hreach (hgrouped j hmem)) (Option.some.inj hnone)

/-- The map is the exact one if and only if first sources are enough to reach all subjects. -/
theorem getSubjectToSchedulingGroupMap_exact_iff
    (hinitial : getInitialSchedulingGroupSubjects policy = .ok groupToSubj) :
    ∃ map, getSubjectToSchedulingGroupMap policy = .ok map ∧ map.length = policy.subjects.length ∧
      Sources policy groupToSubj map ∧ (Exact policy groupToSubj map ↔ FirstSourcesReach policy groupToSubj) := by
  obtain ⟨map, hmap, hlength, hsound, hcomplete⟩ := getSubjectToSchedulingGroupMap_spec hinitial
  have hsources : Sources policy groupToSubj map := by
    intro i group hi hgroup
    obtain ⟨j, hj, h⟩ := hsound i group hi hgroup
    exact ⟨j, hj, h.reaches⟩
  have hget : ∀ i < policy.subjects.length, ∃ group, map[i]? = some group := by
    intro i hi
    exact ⟨_, List.getElem?_eq_getElem (hlength ▸ hi)⟩
  refine ⟨map, hmap, hlength, hsources, ?_, ?_⟩
  · rintro hexact i ⟨group, j, hj, hreach⟩
    have hi := reaches_lt hinitial hj hreach
    obtain ⟨found, hfound⟩ := hget i hi
    have hne : found ≠ noGroup := by
      intro heq
      rw [heq] at hfound
      exact (hexact.complete i hi).mp hfound group j hj hreach
    obtain ⟨k, hk⟩ := hsound i found hfound hne
    exact ⟨found, k, hk⟩
  · intro hfirst
    have hgrouped : ∀ {i group j}, InitialOf groupToSubj group j → Reaches policy j i → map[i]? ≠ some noGroup :=
      fun {i group j} hj hreach => hcomplete i (reaches_lt hinitial hj hreach) (hfirst i ⟨group, j, hj, hreach⟩)
    refine ⟨hsources, ?_, ?_⟩
    · intro i hi
      constructor
      · intro hnone group j hj hreach
        exact hgrouped hj hreach hnone
      · intro hunreached
        obtain ⟨group, hgroup⟩ := hget i hi
        by_cases hzero : group = noGroup
        · rw [hgroup, hzero]
        · obtain ⟨j, hj, hreach⟩ := hsources i group hgroup hzero
          exact absurd hreach (hunreached group j hj)
    · intro hunique i group
      constructor
      · rintro ⟨hgroup, hne⟩
        exact hsources i group hgroup hne
      · rintro ⟨j, hj, hreach⟩
        obtain ⟨found, hfound⟩ := hget i (reaches_lt hinitial hj hreach)
        have hne : found ≠ noGroup := by
          intro heq
          exact hgrouped hj hreach (heq ▸ hfound)
        obtain ⟨k, hk, hreach'⟩ := hsources i found hfound hne
        rw [hunique i group j found k hj hk hreach hreach']
        exact ⟨hfound, hne⟩

/-- Two subjects switch to each other, and a third one, the initial one of the only group, can switch to both. -/
def loopPolicy : Policy where
  events := [⟨"e1", "switch"⟩, ⟨"e2", "switch"⟩]
  subjects := [⟨"t1", 0, ["e2"], ["e1"]⟩, ⟨"t2", 1, ["e1"], ["e2"]⟩, ⟨"a", 2, ["e1"], []⟩]
  groups := ["a"]
  ids_nodup := by decide
  ids_lt := by decide
  sourced := by decide

lemma loopPolicy_initial : getInitialSchedulingGroupSubjects loopPolicy = .ok [2] := by decide

/-- The subject that can be switched to is left without a group. -/
theorem getSubjectToSchedulingGroupMap_not_exact : ∃ map, getSubjectToSchedulingGroupMap loopPolicy = .ok map ∧
    Reaches loopPolicy 2 0 ∧ map[0]? = some noGroup ∧ ¬Exact loopPolicy [2] map := by
  have hreach : Reaches loopPolicy 2 0 := by
    apply Relation.ReflTransGen.single
    refine ⟨⟨"t1", 0, ["e2"], ["e1"]⟩, by decide, rfl, ⟨"a", 2, ["e1"], []⟩, by decide, rfl, "e1", by decide,
      by decide, by decide⟩
  refine ⟨[0, 0, 1], by decide, hreach, rfl, ?_⟩
  intro hexact
  exact (hexact.complete 0 (by decide)).mp rfl 1 2 ⟨by decide, rfl⟩ hreach

theorem getSubjectToSchedulingGroupMap_exact_iff_loop :
    ∃ map, getSubjectToSchedulingGroupMap loopPolicy = .ok map ∧ map.length = loopPolicy.subjects.length ∧
      Sources loopPolicy [2] map ∧ (Exact loopPolicy [2] map ↔ FirstSourcesReach loopPolicy [2]) :=
  getSubjectToSchedulingGroupMap_exact_iff loopPolicy_initial

end Muen.Tools.SchedulingGroups
