import Muen.Lib.Aggregates
import Muen.Tools.Mucfgcheck.Events

/-!
# Spec.Skp_Events

The tables of source events that are generated for a subject. Events with the same entry share a choice of the
aggregate, and reserved IDs have an entry that panics. For an accepted policy the compiler accepts the tables, and they
say what the policy says.
-/

namespace Muen.Tools.Mugenspec.Events

open Lib SystemPolicy
open Mucfgcheck.Events (EventGroupType sourceEvents systemActions)

/-- `Mutools.Types.Event_Action_Kind`. -/
inductive EventActionKind
  | subjectSleep
  | subjectYield
  | systemReboot
  | systemPanic
  | systemPoweroff
  | unmaskIrq
  | noAction
  | injectInterrupt
  | reset
deriving DecidableEq

/-- `Event_Action_Kind'Value` of the names of elements. -/
def actionKind (name : String) : Option EventActionKind :=
  [("subject_sleep", EventActionKind.subjectSleep), ("subject_yield", .subjectYield),
    ("system_reboot", .systemReboot), ("system_panic", .systemPanic), ("system_poweroff", .systemPoweroff),
    ("unmask_irq", .unmaskIrq), ("no_action", .noAction), ("inject_interrupt", .injectInterrupt),
    ("reset", .reset)].lookup name

/-- `Source_Event_Type`, with no target for `Invalid_Target_Subject` and `Invalid_Target_Event`. -/
structure SourceEntry where
  sourceAction : EventActionKind
  targetSubject : Option ℕ
  targetEvent : Option ℕ
  handover : Bool
  sendIPI : Bool
  irqNumber : ℕ
deriving DecidableEq

def invalidEvent : SourceEntry := ⟨.systemPanic, none, none, false, false, 0⟩

def nullSourceEvent : SourceEntry := ⟨.noAction, none, none, false, false, 0⟩

variable (value : String → Option ℕ) (d : Document)

/-- The mode of the physical event with a name. -/
def notifyMode (physical : String) : String := (getElement d.events Event.name physical).elim "" Event.mode

/-- The target of the physical event with a name. -/
def eventTarget (physical : String) : Option (Subject × TargetEvent) :=
  getElement d.targets (fun x => x.2.physical) physical

/-- The number of a target; `Natural'Last` stands for none. -/
def validTarget (n : ℕ) : Option ℕ := if n = Mucfgcheck.Scheduling.naturalLast then none else some n

def targetSubjectID (target : Option (Subject × TargetEvent)) : Option (Option ℕ) :=
  target.elim (some none) fun x => (natural value x.1.globalId).map validTarget

def targetEventID (mode : String) (target : Option (Subject × TargetEvent)) : Option (Option ℕ) :=
  target.elim (some none) fun x =>
    if mode = "switch" ∧ x.2.actions = [] then some none else (natural value x.2.id).map validTarget

def irqNumber (action : Option Action) : Option ℕ :=
  action.elim (some 0) fun action => if action.name = "unmask_irq" then natural value action.number else some 0

def toSourceEvent (event : SourceEvent) : Option SourceEntry := do
  let mode := notifyMode d event.physical
  let srcAction := event.actions.head?
  let target := eventTarget d event.physical
  let subjectID ← targetSubjectID value target
  let eventID ← targetEventID value mode target
  let irq ← irqNumber value srcAction
  let kind ← actionKind (srcAction.elim "no_action" Action.name)
  some ⟨kind, subjectID, eventID, mode = "switch", mode = "ipi", irq⟩

def reservedIDs (group : EventGroupType) : List ℕ :=
  (List.range (group.getMaxID + 1)).filter fun id => !group.isValidEventID id

/-- The choices before the events of a group are added. -/
def reservedChoices (group : EventGroupType) : List (List ℕ × SourceEntry) :=
  if reservedIDs group = [] then [] else [(reservedIDs group, invalidEvent)]

/-- An event with its ID. -/
def toEntry (event : SourceEvent) : Option (ℕ × SourceEntry) := do
  let id ← natural value event.id
  let entry ← toSourceEvent value d event
  some (id, entry)

def toSourceEventMap (group : EventGroupType) (events : List SourceEvent) : Option (List (List ℕ × SourceEntry)) := do
  let entries ← events.mapM (toEntry value d)
  addChoices entries (reservedChoices group)

/-- `Add_Traps`. -/
def trapTable (traps : List SourceEvent) : Option (Aggregate ℕ SourceEntry) := do
  let trapMap ← toSourceEventMap value d .vmxExit traps
  some (if trapMap.length = 1 then ⟨[], trapMap.head?.map Prod.snd⟩ else ⟨trapMap, none⟩)

def maxEventCount : ℕ := 64

/-- `Add_Source_Events`, or the empty table of a subject without events. -/
def sourceEventTable (events : List SourceEvent) : Option (Aggregate ℕ SourceEntry) :=
  if events = [] then some ⟨[], some nullSourceEvent⟩
  else do
    let srcEvtsMap ← toSourceEventMap value d .vmcall events
    some ⟨srcEvtsMap, if srcEvtsMap.length = maxEventCount then none else some nullSourceEvent⟩

/-- `events/source/group[@name=...]/*`. -/
def groupEvents (subject : Subject) (group : EventGroupType) : List SourceEvent :=
  (subject.groups.filter fun g => g.name = group.name).flatMap EventGroup.events

/-! ### Accepted policies -/

/-- The IDs of target events are numbers below their maximal count. -/
def TargetIDs : Prop := ∀ x ∈ d.targets, ∃ id, natural value x.2.id = some id ∧ id < maxEventCount

/-- What the schema of format B says of events. -/
structure InFormatB : Prop where
  tag : ∀ x ∈ d.sources, x.2.2.tag = "event"
  action : ∀ x ∈ d.sources, ∀ action ∈ x.2.2.actions, action.name ∈ systemActions ∧
    (action.name = "unmask_irq" → ∃ number, natural value action.number = some number)
  targetID : TargetIDs value d
  globalID : ∀ subject ∈ d.subjects, ∃ id, natural value subject.globalId = some id ∧
    id < Mucfgcheck.Scheduling.naturalLast

/-- A subject has one group of source events of each name, at most. The schema allows several, whose IDs the checks do
not compare. -/
def SingleGroups : Prop := ∀ subject ∈ d.subjects, (subject.groups.map EventGroup.name).Nodup

/-- The checks of events record no errors. -/
structure Accepted : Prop where
  references : Mucfgcheck.Events.subjectEventReferences d = some []
  sourceTargets : Mucfgcheck.Events.sourceTargets d = some []
  switch : Mucfgcheck.Events.switchSameCore value d = some []
  ipi : Mucfgcheck.Events.ipiDifferentCore value d = some []
  validity : Mucfgcheck.Events.sourceGroupEventIDValidity value d = some []
  uniqueness : Mucfgcheck.Events.sourceGroupEventIDNameUniqueness value d = some []
  targetUniqueness : Mucfgcheck.Events.targetEventIDNameUniqueness value d = some []
  completeness : Mucfgcheck.Events.sourceVMXExitEventCompleteness d = some []
  eventActions : Mucfgcheck.Events.kernelModeEventActions d = some []
  systemActions : Mucfgcheck.Events.kernelModeSystemActions d = some []

/-- What the entry of an event says: there is an action or a target and not both, handovers stay on the CPU and in the
scheduling group, and IPIs go to another CPU. -/
structure Delivers (source : Subject) (event : SourceEvent) (entry : SourceEntry) : Prop where
  action_or_target : entry.sourceAction = .noAction ↔ entry.targetSubject ≠ none
  noTarget : entry.targetSubject = none ↔ ∀ x ∈ d.targets, x.2.physical ≠ event.physical
  target : ∀ n, entry.targetSubject = some n → ∃ x ∈ d.targets, x.2.physical = event.physical ∧
    natural value x.1.globalId = some n ∧ (∀ y ∈ d.targets, y.2.physical = event.physical → y = x) ∧
    entry.targetEvent = (if notifyMode d event.physical = "switch" ∧ x.2.actions = [] then none
      else natural value x.2.id) ∧
    (entry.handover = true → value source.cpu = value x.1.cpu ∧ value source.schedGroupId = value x.1.schedGroupId) ∧
    (entry.sendIPI = true → value source.cpu ≠ value x.1.cpu)

/-! ### Entries -/

variable {value d}

lemma actionKind_system : ∀ name ∈ systemActions,
    (actionKind name).isSome = true ∧ actionKind name ≠ some .noAction := by decide

lemma validTarget_lt {n : ℕ} (h : n < Mucfgcheck.Scheduling.naturalLast) : validTarget n = some n :=
  if_neg h.ne

/-- The physical event of a source event. -/
lemma exists_event (hA : Accepted value d) {x : Subject × EventGroup × SourceEvent} (hx : x ∈ d.sources) :
    ∃ event ∈ d.events, event.name = x.2.2.physical ∧ notifyMode d x.2.2.physical = event.mode := by
  obtain ⟨event, hevent, hname⟩ :=
    Mucfgcheck.Events.subjectEventReferences_nil hA.references _ (Mucfgcheck.Events.mem_eventReferences_source hx)
  obtain ⟨first, hfirst⟩ := exists_getElement hevent hname
  obtain ⟨hmem, hfirstName⟩ := getElement_some hfirst
  exact ⟨first, hmem, hfirstName, by rw [notifyMode, hfirst]; rfl⟩

lemma eventTarget_kernel (hA : Accepted value d) {event : Event} (hevent : event ∈ d.events)
    (hmode : event.mode = "kernel") : eventTarget d event.name = none := by
  have htargets := Mucfgcheck.Events.sourceTargets_nil hA.sourceTargets hevent
  rw [if_pos hmode] at htargets
  apply getElement_eq_none.mpr
  intro x hx hphysical
  have hmem : x ∈ getElements d.targets (fun x => x.2.physical) event.name := mem_getElements.mpr ⟨hx, hphysical⟩
  rw [htargets] at hmem
  exact absurd hmem List.not_mem_nil

/-- An event that is not for the kernel has one target. -/
lemma eventTarget_subject (hA : Accepted value d) {event : Event} (hevent : event ∈ d.events)
    (hmode : event.mode ≠ "kernel") : ∃ x ∈ d.targets, x.2.physical = event.name ∧
      eventTarget d event.name = some x ∧ ∀ y ∈ d.targets, y.2.physical = event.name → y = x := by
  have htargets := Mucfgcheck.Events.sourceTargets_nil hA.sourceTargets hevent
  rw [if_neg hmode] at htargets
  obtain ⟨x, hx⟩ := htargets
  have hunique : ∀ y ∈ d.targets, y.2.physical = event.name → y = x := by
    intro y hy hphysical
    have hmem : y ∈ getElements d.targets (fun x => x.2.physical) event.name := mem_getElements.mpr ⟨hy, hphysical⟩
    rw [hx] at hmem
    exact List.mem_singleton.mp hmem
  have hmem : x ∈ getElements d.targets (fun x => x.2.physical) event.name := by
    rw [hx]
    exact List.mem_singleton_self x
  obtain ⟨hxmem, hphysical⟩ := mem_getElements.mp hmem
  exact ⟨x, hxmem, hphysical, getElement_eq hxmem hphysical hunique, hunique⟩

lemma targetEventID_target (hB : InFormatB value d) (mode : String) {x : Subject × TargetEvent}
    (hx : x ∈ d.targets) : targetEventID value mode (some x) =
      some (if mode = "switch" ∧ x.2.actions = [] then none else natural value x.2.id) := by
  obtain ⟨id, hid, hlt⟩ := hB.targetID x hx
  change (if mode = "switch" ∧ x.2.actions = [] then some none
    else (natural value x.2.id).map validTarget) = _
  by_cases hnone : mode = "switch" ∧ x.2.actions = []
  · rw [if_pos hnone, if_pos hnone]
  · rw [if_neg hnone, if_neg hnone, hid, Option.map_some, validTarget_lt (hlt.trans (by decide))]

/-- The action of an event for the kernel. -/
lemma action_kernel (hB : InFormatB value d) {x : Subject × EventGroup × SourceEvent} (hx : x ∈ d.sources)
    (hne : x.2.2.actions ≠ []) : ∃ kind irq, actionKind (x.2.2.actions.head?.elim "no_action" Action.name) = some kind ∧
      kind ≠ .noAction ∧ irqNumber value x.2.2.actions.head? = some irq := by
  obtain ⟨action, rest, hactions⟩ := List.exists_cons_of_ne_nil hne
  have hmem : action ∈ x.2.2.actions := by
    rw [hactions]
    exact List.mem_cons_self
  obtain ⟨hsystem, hnumber⟩ := hB.action x hx action hmem
  obtain ⟨hsome, hne⟩ := actionKind_system action.name hsystem
  obtain ⟨kind, hkind⟩ := Option.isSome_iff_exists.mp hsome
  have hhead : x.2.2.actions.head? = some action := by rw [hactions, List.head?_cons]
  rw [hhead]
  have hirq : ∃ irq, irqNumber value (some action) = some irq := by
    change ∃ irq, (if action.name = "unmask_irq" then natural value action.number else some 0) = some irq
    by_cases hunmask : action.name = "unmask_irq"
    · rw [if_pos hunmask]
      exact hnumber hunmask
    · exact ⟨0, if_neg hunmask⟩
  obtain ⟨irq, hirq⟩ := hirq
  exact ⟨kind, irq, hkind, fun heq => hne (by rw [hkind, heq]), hirq⟩

lemma toSourceEvent_eq {event : SourceEvent} {mode : String} {target : Option (Subject × TargetEvent)}
    {subjectID eventID : Option ℕ} {irq : ℕ} {kind : EventActionKind} (hmode : notifyMode d event.physical = mode)
    (htarget : eventTarget d event.physical = target) (hsubject : targetSubjectID value target = some subjectID)
    (hid : targetEventID value mode target = some eventID) (hirq : irqNumber value event.actions.head? = some irq)
    (hkind : actionKind (event.actions.head?.elim "no_action" Action.name) = some kind) :
    toSourceEvent value d event = some ⟨kind, subjectID, eventID, mode = "switch", mode = "ipi", irq⟩ := by
  simp only [toSourceEvent, hmode, htarget, hsubject, hid, hirq, hkind, Option.bind_eq_bind, Option.bind_some]

/-- Each source event of an accepted policy has an entry. -/
lemma toSourceEvent_delivers (hB : InFormatB value d) (hA : Accepted value d)
    {x : Subject × EventGroup × SourceEvent} (hx : x ∈ d.sources) :
    ∃ entry, toSourceEvent value d x.2.2 = some entry ∧ Delivers value d x.1 x.2.2 entry := by
  have hsource : x ∈ sourceEvents d := Mucfgcheck.Events.mem_sourceEvents.mpr ⟨hx, hB.tag x hx⟩
  obtain ⟨event, hevent, hname, hmode⟩ := exists_event hA hx
  by_cases hkernel : event.mode = "kernel"
  · have hne := Mucfgcheck.Events.kernelModeEventActions_nil hA.eventActions hevent hkernel hsource hname.symm
    obtain ⟨kind, irq, hkind, hnoAction, hirq⟩ := action_kernel hB hx hne
    have htarget := eventTarget_kernel hA hevent hkernel
    rw [hname] at htarget
    refine ⟨_, toSourceEvent_eq hmode htarget rfl rfl hirq hkind, ?_, ?_, ?_⟩
    · exact iff_of_false hnoAction (fun h => h rfl)
    · exact iff_of_true rfl (getElement_eq_none.mp htarget)
    · exact fun n hn => absurd hn.symm (Option.some_ne_none n)
  · obtain ⟨y, hy, hphysical, htarget, hunique⟩ := eventTarget_subject hA hevent hkernel
    obtain ⟨n, hn, hlt⟩ := hB.globalID y.1 (mem_children.mp hy).1
    have hid := targetEventID_target hB event.mode hy
    have hactions : x.2.2.actions = [] := by
      apply List.eq_nil_iff_forall_not_mem.mpr
      intro action haction
      exact hkernel (Mucfgcheck.Events.kernelModeSystemActions_nil hA.systemActions hsource haction
        (hB.action x hx action haction).1 hevent hname)
    have hsubject : targetSubjectID value (some y) = some (some n) := by
      change (natural value y.1.globalId).map validTarget = some (some n)
      rw [hn, Option.map_some, validTarget_lt hlt]
    rw [hname] at htarget hphysical hunique
    have hkind : actionKind (x.2.2.actions.head?.elim "no_action" Action.name) = some .noAction := by
      rw [hactions]
      rfl
    have hirq : irqNumber value x.2.2.actions.head? = some 0 := by
      rw [hactions]
      rfl
    refine ⟨_, toSourceEvent_eq hmode htarget hsubject hid hirq hkind, ?_, ?_, ?_⟩
    · exact iff_of_true rfl (Option.some_ne_none n)
    · exact iff_of_false (Option.some_ne_none n) fun h => h y hy hphysical
    · intro m hm
      obtain rfl := Option.some.inj hm
      refine ⟨y, hy, hphysical, hn, hunique, by rw [hmode], ?_, ?_⟩
      · intro hhandover
        obtain ⟨dst, hdst, hsame⟩ := Mucfgcheck.Events.switchSameCore_nil hA.switch hevent (of_decide_eq_true hhandover)
        rw [hname] at hdst hsame
        rw [← Option.some.inj (htarget.symm.trans hdst)] at hsame
        exact hsame x hsource rfl
      · intro hipi
        obtain ⟨dst, hdst, hother⟩ := Mucfgcheck.Events.ipiDifferentCore_nil hA.ipi hevent (of_decide_eq_true hipi)
        rw [hname] at hdst hother
        rw [← Option.some.inj (htarget.symm.trans hdst)] at hother
        exact hother x hsource rfl

/-! ### Groups of events -/

lemma mem_groupEvents {subject : Subject} {group : EventGroupType} {event : SourceEvent} :
    event ∈ groupEvents subject group ↔ ∃ g ∈ subject.groups, g.name = group.name ∧ event ∈ g.events := by
  unfold groupEvents
  constructor
  · intro h
    obtain ⟨g, hg, hevent⟩ := List.mem_flatMap.mp h
    obtain ⟨hmem, hname⟩ := List.mem_filter.mp hg
    exact ⟨g, hmem, of_decide_eq_true hname, hevent⟩
  · rintro ⟨g, hg, hname, hevent⟩
    exact List.mem_flatMap_of_mem (List.mem_filter.mpr ⟨hg, decide_eq_true hname⟩) hevent

/-- Of the groups of a subject, at most one has a name. -/
lemma filter_name {groups : List EventGroup} (h : (groups.map EventGroup.name).Nodup) (name : String) :
    (groups.filter fun g => g.name = name) = [] ∨ ∃ g ∈ groups, (groups.filter fun g => g.name = name) = [g] := by
  induction groups with
  | nil => exact Or.inl rfl
  | cons g groups ih =>
    rw [List.map_cons, List.nodup_cons] at h
    by_cases hname : g.name = name
    · refine Or.inr ⟨g, List.mem_cons_self, ?_⟩
      rw [List.filter_cons_of_pos (by rw [decide_eq_true_eq]; exact hname), List.cons_inj_right]
      apply List.filter_eq_nil_iff.mpr
      intro g' hg' hname'
      exact h.1 (hname.trans (of_decide_eq_true hname').symm ▸ List.mem_map_of_mem hg')
    · rw [List.filter_cons_of_neg (by rw [decide_eq_true_eq]; exact hname)]
      exact (ih h.2).imp_right fun ⟨g', hg', heq⟩ => ⟨g', List.mem_cons_of_mem _ hg', heq⟩

/-- The IDs of the events of a group are different. -/
lemma groupEvents_nodup (hB : InFormatB value d) (hA : Accepted value d) (hS : SingleGroups d) {subject : Subject}
    (hsubject : subject ∈ d.subjects) (group : EventGroupType) :
    ((groupEvents subject group).map fun event => natural value event.id).Nodup := by
  unfold groupEvents
  rcases filter_name (hS subject hsubject) group.name with hnone | ⟨g, hg, hone⟩
  · rw [hnone]
    exact List.nodup_nil
  · have hnodup := Mucfgcheck.Events.sourceGroupEventIDNameUniqueness_nil hA.uniqueness hsubject hg
    have hall : (g.events.filter fun event => event.tag = "event") = g.events := by
      apply List.filter_eq_self.mpr
      intro event hevent
      exact decide_eq_true (hB.tag (subject, g, event) (mem_grandchildren.mpr ⟨hsubject, hg, hevent⟩))
    rw [hall] at hnodup
    rw [hone, List.flatMap_singleton]
    exact hnodup

/-- An event of a group has an entry and a valid ID. -/
lemma groupEvents_entry (hB : InFormatB value d) (hA : Accepted value d) {subject : Subject}
    (hsubject : subject ∈ d.subjects) {group : EventGroupType} {event : SourceEvent}
    (hevent : event ∈ groupEvents subject group) : ∃ id entry, natural value event.id = some id ∧
      group.isValidEventID id = true ∧ toEntry value d event = some (id, entry) ∧
        Delivers value d subject event entry := by
  obtain ⟨g, hg, hname, hmem⟩ := mem_groupEvents.mp hevent
  have hsource : (subject, g, event) ∈ d.sources := mem_grandchildren.mpr ⟨hsubject, hg, hmem⟩
  obtain ⟨entry, hentry, hdelivers⟩ := toSourceEvent_delivers hB hA hsource
  obtain ⟨id, group', hid, hgroup, hvalid⟩ := Mucfgcheck.Events.sourceGroupEventIDValidity_nil hA.validity
    (Mucfgcheck.Events.mem_sourceEvents.mpr ⟨hsource, hB.tag _ hsource⟩)
  have hsame : EventGroupType.ofName group.name = some group' := by rw [← hname]; exact hgroup
  rw [EventGroupType.ofName_name] at hsame
  obtain rfl := Option.some.inj hsame
  refine ⟨id, entry, hid, hvalid, ?_, hdelivers⟩
  unfold toEntry
  rw [hid, hentry]
  rfl


/-! ### Tables -/

lemma mapM_option {α β : Type} {f : α → Option β} {l : List α} (h : ∀ a ∈ l, ∃ b, f a = some b) :
    ∃ bs, l.mapM f = some bs := by
  induction l with
  | nil => exact ⟨[], rfl⟩
  | cons a l ih =>
    obtain ⟨b, hb⟩ := h a List.mem_cons_self
    obtain ⟨bs, hbs⟩ := ih fun a' ha' => h a' (List.mem_cons_of_mem a ha')
    refine ⟨b :: bs, ?_⟩
    rw [List.mapM_cons, hb, hbs]
    rfl

lemma map_of_mapM {α β : Type} {f : α → Option β} {l : List α} {bs : List β} (h : l.mapM f = some bs) :
    l.map f = bs.map some := by
  induction l generalizing bs with
  | nil =>
    obtain rfl := Option.some.inj h
    rfl
  | cons a l ih =>
    rw [List.mapM_cons] at h
    obtain ⟨b, hb, h⟩ := Option.bind_eq_some_iff.mp h
    obtain ⟨rest, hrest, h⟩ := Option.bind_eq_some_iff.mp h
    obtain rfl := Option.some.inj h
    rw [List.map_cons, List.map_cons, hb, ih hrest]

lemma mem_reservedIDs {group : EventGroupType} {id : ℕ} :
    id ∈ reservedIDs group ↔ id ≤ group.getMaxID ∧ group.isValidEventID id = false := by
  unfold reservedIDs
  rw [List.mem_filter, List.mem_range, Nat.lt_succ_iff, Bool.not_eq_true_eq_eq_false]

lemma indexes_reservedChoices (group : EventGroupType) :
    indexes (reservedChoices group) = reservedIDs group := by
  unfold reservedChoices
  by_cases hnone : reservedIDs group = []
  · rw [if_pos hnone, hnone]
    rfl
  · rw [if_neg hnone]
    exact List.flatMap_singleton _ _

lemma nonempty_reservedChoices (group : EventGroupType) : ∀ choice ∈ reservedChoices group, choice.1 ≠ [] := by
  intro choice hchoice
  unfold reservedChoices at hchoice
  by_cases hnone : reservedIDs group = []
  · rw [if_pos hnone] at hchoice
    exact absurd hchoice List.not_mem_nil
  · rw [if_neg hnone, List.mem_singleton] at hchoice
    rw [hchoice]
    exact hnone

lemma chosen_reservedChoices {group : EventGroupType} {id : ℕ} (h : id ∈ reservedIDs group) :
    Chosen (reservedChoices group) id invalidEvent := by
  unfold reservedChoices
  rw [if_neg (List.ne_nil_of_mem h)]
  exact ⟨reservedIDs group, List.mem_singleton_self _, h⟩

lemma reservedIDs_nodup (group : EventGroupType) : (reservedIDs group).Nodup := List.nodup_range.filter _

variable (value d) in
/-- The choices for the events of a group. -/
structure ChoicesOf (subject : Subject) (group : EventGroupType) (choices : List (List ℕ × SourceEntry)) : Prop where
  nodup : (indexes choices).Nodup
  nonempty : ∀ choice ∈ choices, choice.1 ≠ []
  mem_iff : ∀ id, id ∈ indexes choices ↔ id ∈ reservedIDs group ∨
    ∃ event ∈ groupEvents subject group, natural value event.id = some id
  event : ∀ event ∈ groupEvents subject group, ∃ id entry, natural value event.id = some id ∧ Chosen choices id entry ∧
    toSourceEvent value d event = some entry ∧ Delivers value d subject event entry
  reserved : ∀ id ∈ reservedIDs group, Chosen choices id invalidEvent

lemma toSourceEventMap_choices (hB : InFormatB value d) (hA : Accepted value d) (hS : SingleGroups d)
    {subject : Subject} (hsubject : subject ∈ d.subjects) (group : EventGroupType) :
    ∃ choices, toSourceEventMap value d group (groupEvents subject group) = some choices ∧
      ChoicesOf value d subject group choices := by
  have hentry := fun event (hevent : event ∈ groupEvents subject group) =>
    groupEvents_entry hB hA hsubject hevent
  have hexists : ∀ event ∈ groupEvents subject group, ∃ entry, toEntry value d event = some entry := by
    intro event hevent
    obtain ⟨id, entry, -, -, htoEntry, -⟩ := hentry event hevent
    exact ⟨(id, entry), htoEntry⟩
  obtain ⟨entries, hmapM⟩ := mapM_option hexists
  have hmap := map_of_mapM hmapM
  have hids : (entries.map Prod.fst).map some =
      (groupEvents subject group).map fun event => natural value event.id := by
    calc (entries.map Prod.fst).map some = (entries.map some).map (Option.map Prod.fst) := by
          rw [List.map_map, List.map_map]
          rfl
      _ = ((groupEvents subject group).map (toEntry value d)).map (Option.map Prod.fst) := by rw [hmap]
      _ = (groupEvents subject group).map fun event => natural value event.id := by
          rw [List.map_map]
          apply List.map_congr_left
          intro event hevent
          obtain ⟨id, entry, hid, -, htoEntry, -⟩ := hentry event hevent
          rw [Function.comp_apply, htoEntry, hid]
          rfl
  have hmem : ∀ id, id ∈ entries.map Prod.fst ↔
      ∃ event ∈ groupEvents subject group, natural value event.id = some id := by
    intro id
    rw [← List.mem_map_of_injective (Option.some_injective ℕ), hids, List.mem_map]
  have hnodup : (entries.map Prod.fst ++ indexes (reservedChoices group)).Nodup := by
    rw [indexes_reservedChoices]
    apply List.nodup_append.mpr
    refine ⟨?_, reservedIDs_nodup group, ?_⟩
    · exact List.Nodup.of_map some (hids ▸ groupEvents_nodup hB hA hS hsubject group)
    · rintro id hid _ hreserved rfl
      obtain ⟨event, hevent, hvalue⟩ := (hmem id).mp hid
      obtain ⟨id', _, hid', hvalid, -⟩ := hentry event hevent
      obtain rfl := Option.some.inj (hvalue.symm.trans hid')
      exact Bool.false_ne_true ((mem_reservedIDs.mp hreserved).2.symm.trans hvalid)
  obtain ⟨choices, hchoices⟩ := addChoices_isSome hnodup
  have hadded := addChoices_added hchoices
  refine ⟨choices, ?_, ?_, ?_, ?_, ?_, ?_⟩
  · unfold toSourceEventMap
    rw [hmapM]
    exact hchoices
  · exact hadded.indexes_perm.nodup_iff.mpr hnodup
  · apply hadded.nonempty
    exact nonempty_reservedChoices group
  · intro id
    rw [hadded.indexes_perm.mem_iff, List.mem_append, indexes_reservedChoices, hmem, or_comm]
  · intro event hevent
    obtain ⟨id, entry, hid, -, htoEntry, hdelivers⟩ := hentry event hevent
    have hmemEntry : (id, entry) ∈ entries := by
      rw [← List.mem_map_of_injective (Option.some_injective _), ← hmap, ← htoEntry]
      exact List.mem_map_of_mem hevent
    refine ⟨id, entry, hid, (hadded.chosen_iff id entry).mpr (Or.inl hmemEntry), ?_, hdelivers⟩
    obtain ⟨_, -, hrest⟩ := Option.bind_eq_some_iff.mp htoEntry
    obtain ⟨_, hsource, heq⟩ := Option.bind_eq_some_iff.mp hrest
    rw [hsource, (Prod.mk.inj (Option.some.inj heq)).2]
  · intro id hid
    exact (hadded.chosen_iff id invalidEvent).mpr (Or.inr (chosen_reservedChoices hid))

lemma ChoicesOf.le_maxID (hB : InFormatB value d) (hA : Accepted value d) {subject : Subject}
    (hsubject : subject ∈ d.subjects) {group : EventGroupType}
    {choices : List (List ℕ × SourceEntry)} (h : ChoicesOf value d subject group choices) :
    ∀ id ∈ indexes choices, id ≤ group.getMaxID := by
  intro id hid
  rcases (h.mem_iff id).mp hid with hreserved | ⟨event, hevent, hvalue⟩
  · exact (mem_reservedIDs.mp hreserved).1
  · obtain ⟨id', _, hid', hvalid, -⟩ := groupEvents_entry hB hA hsubject hevent
    obtain rfl := Option.some.inj (hvalue.symm.trans hid')
    exact EventGroupType.isValidEventID_le hvalid

variable (value d) in
/-- A table of the events of a group says what the policy says. -/
structure TableOf (subject : Subject) (group : EventGroupType) (table : Aggregate ℕ SourceEntry) : Prop where
  legal : table.Legal (· ≤ group.getMaxID)
  event : ∀ event ∈ groupEvents subject group, ∃ id entry, natural value event.id = some id ∧
    id ≤ group.getMaxID ∧ table.find id = some entry ∧ toSourceEvent value d event = some entry ∧
      Delivers value d subject event entry
  reserved : ∀ id ∈ reservedIDs group, table.find id = some invalidEvent

/-- The entry at the ID of an event is that of the event. -/
lemma TableOf.delivers {subject : Subject} {group : EventGroupType} {table : Aggregate ℕ SourceEntry}
    (h : TableOf value d subject group table) {event : SourceEvent} (hevent : event ∈ groupEvents subject group) {n : ℕ}
    (hid : natural value event.id = some n) {entry : SourceEntry} (hentry : table.find n = some entry) :
    Delivers value d subject event entry := by
  obtain ⟨id, entry', hid', -, hfind, -, hdelivers⟩ := h.event event hevent
  rw [← Option.some.inj (hid.symm.trans hid')] at hfind
  rwa [Option.some.inj (hentry.symm.trans hfind)]

lemma ChoicesOf.tableOf (hB : InFormatB value d) (hA : Accepted value d) {subject : Subject}
    (hsubject : subject ∈ d.subjects) {group : EventGroupType} {choices : List (List ℕ × SourceEntry)}
    (h : ChoicesOf value d subject group choices) {others : Option SourceEntry}
    (hcomplete : others = none → ∀ id ≤ group.getMaxID, id ∈ indexes choices) :
    TableOf value d subject group ⟨choices, others⟩ where
  legal := ⟨h.nodup, h.le_maxID hB hA hsubject, hcomplete⟩
  event := by
    intro event hevent
    obtain ⟨id, entry, hid, hchosen, hentry, hdelivers⟩ := h.event event hevent
    have hle := h.le_maxID hB hA hsubject id (mem_indexes.mpr ⟨entry, hchosen⟩)
    exact ⟨id, entry, hid, hle, Aggregate.find_of_chosen h.nodup hchosen, hentry, hdelivers⟩
  reserved id hid := Aggregate.find_of_chosen h.nodup (h.reserved id hid)

/-- One value for all indexes is written without choices. -/
lemma ChoicesOf.tableOf_single (hB : InFormatB value d) (hA : Accepted value d) {subject : Subject}
    (hsubject : subject ∈ d.subjects) {group : EventGroupType} {choice : List ℕ × SourceEntry}
    (h : ChoicesOf value d subject group [choice]) : TableOf value d subject group ⟨[], some choice.2⟩ := by
  have hfind : ∀ (id : ℕ) (entry : SourceEntry), Chosen [choice] id entry →
      Aggregate.find ⟨[], some choice.2⟩ id = some entry := by
    rintro id entry ⟨ids, hmem, -⟩
    rw [← List.mem_singleton.mp hmem]
    rfl
  refine ⟨⟨List.nodup_nil, fun id hid => absurd hid List.not_mem_nil, fun hnone => ?_⟩, ?_, ?_⟩
  · exact absurd hnone (Option.some_ne_none _)
  · intro event hevent
    obtain ⟨id, entry, hid, hchosen, hentry, hdelivers⟩ := h.event event hevent
    have hle := h.le_maxID hB hA hsubject id (mem_indexes.mpr ⟨entry, hchosen⟩)
    exact ⟨id, entry, hid, hle, hfind id entry hchosen, hentry, hdelivers⟩
  · exact fun id hid => hfind id invalidEvent (h.reserved id hid)

/-! ### A call -/

/-- `Natural'Value` of plain decimal texts. -/
def decimal (text : String) : Option ℕ :=
  if text = "" ∨ ¬ text.toList.all Char.isDigit then none
  else some (text.toList.foldl (fun n c => 10 * n + (c.toNat - 48)) 0)

/-- All valid exit reasons, with an action that panics. -/
def panicTraps : List SourceEvent :=
  ((List.range 60).filter EventGroupType.vmxExit.isValidEventID).map fun id =>
    ⟨"event", toString id, toString id, "panic", [⟨"system_panic", "", ""⟩]⟩

def client : Subject :=
  ⟨"client", "0", "0", "1", [⟨"vmx_exit", panicTraps⟩, ⟨"vmcall", [⟨"event", "1", "call", "call", []⟩]⟩], [], []⟩

def server : Subject :=
  ⟨"server", "1", "0", "1", [⟨"vmx_exit", panicTraps⟩],
    [⟨"2", "called", "call", [⟨"inject_interrupt", "", "33"⟩]⟩], []⟩

def worker : Subject :=
  ⟨"worker", "2", "1", "2", [⟨"vmx_exit", panicTraps⟩], [], [⟨"nic", [⟨"nic_irq", "40"⟩]⟩]⟩

/-- A subject that hands over to another one, and a subject on another CPU with a network card. -/
def callPolicy : Document where
  events := [⟨"panic", "kernel"⟩, ⟨"call", "switch"⟩]
  subjects := [client, server, worker]
  partitions := [⟨"1", "calls", "0", [⟨"1", ["client", "server"]⟩]⟩, ⟨"2", "work", "1", [⟨"2", ["worker"]⟩]⟩]
  majorFrames := [⟨[⟨"0", [⟨"calls", "100", "none"⟩]⟩, ⟨"1", [⟨"work", "100", "none"⟩]⟩]⟩]
  memory := [⟨"client|vmcs", "kernel_vmcs", "4096", "4096"⟩, ⟨"server|vmcs", "kernel_vmcs", "8192", "4096"⟩,
    ⟨"worker|vmcs", "kernel_vmcs", "12288", "4096"⟩]
  devices := [⟨"nic", "false", [⟨"nic_irq", "16"⟩], []⟩]
  aliases := []

/-- Exit reasons are read as they are written. -/
lemma decimal_toString : ∀ n ≤ EventGroupType.vmxExit.getMaxID, decimal (toString n) = some n := by decide +kernel

lemma callPolicy_inFormatB : InFormatB decimal callPolicy where
  tag := by decide +kernel
  action := by
    have hpanic : ∀ x ∈ callPolicy.sources, ∀ action ∈ x.2.2.actions, action.name = "system_panic" := by
      decide +kernel
    intro x hx action haction
    rw [hpanic x hx action haction]
    exact ⟨by decide, fun h => absurd h (by decide)⟩
  targetID := by
    have hid : ∀ x ∈ callPolicy.targets, natural decimal x.2.id = some 2 := by decide +kernel
    exact fun x hx => ⟨2, hid x hx, by decide⟩
  globalID := by
    have hid : ∀ subject ∈ callPolicy.subjects, natural decimal subject.globalId = some 0 ∨
        natural decimal subject.globalId = some 1 ∨ natural decimal subject.globalId = some 2 := by decide +kernel
    intro subject hsubject
    rcases hid subject hsubject with h | h | h
    · exact ⟨0, h, by decide⟩
    · exact ⟨1, h, by decide⟩
    · exact ⟨2, h, by decide⟩

lemma callPolicy_singleGroups : SingleGroups callPolicy := by
  unfold SingleGroups
  decide +kernel

/-- IDs and names of traps are different. -/
lemma panicTraps_unique (subject : String) : Mucfgcheck.Events.idNameUniqueness decimal "source" subject
    SourceEvent.id SourceEvent.logical panicTraps = some [] := by
  have hread : ∀ n ∈ List.range 60, natural decimal (toString n) = some n := by
    intro n hn
    have hle : n ≤ EventGroupType.vmxExit.getMaxID := Nat.le_of_lt_succ (List.mem_range.mp hn)
    exact natural_eq_some.mpr ⟨decimal_toString n hle, hle.trans (by decide)⟩
  unfold Mucfgcheck.Events.idNameUniqueness
  split
  · apply Mucfgcheck.comparePairs_of_pairs
    rintro left right ⟨i, j, hlt, hi, hj⟩
    unfold panicTraps at hi hj
    rw [List.getElem?_map] at hi hj
    obtain ⟨n, hn, rfl⟩ := Option.map_eq_some_iff.mp hi
    obtain ⟨m, hm, rfl⟩ := Option.map_eq_some_iff.mp hj
    have hnodup : ((List.range 60).filter EventGroupType.vmxExit.isValidEventID).Nodup := List.nodup_range.filter _
    have hne : n ≠ m := by
      rintro rfl
      exact hlt.ne ((List.getElem?_inj (List.getElem?_eq_some_iff.mp hn).1 hnodup).mp (hn.trans hm.symm))
    have hleft := hread n (List.mem_filter.mp (List.mem_of_getElem? hn)).1
    have hright := hread m (List.mem_filter.mp (List.mem_of_getElem? hm)).1
    have htext : toString n ≠ toString m := by
      intro heq
      rw [heq, hright] at hleft
      exact hne (Option.some.inj hleft).symm
    simp only [Mucfgcheck.Events.checkInequality, Mucfgcheck.differentNumbers, hleft, hright, Option.bind_eq_bind,
      Option.bind_some, Mucfgcheck.unlessThat, if_pos hne, if_pos htext, List.append_nil]
  · rfl

lemma callPolicy_accepted : Accepted decimal callPolicy where
  references := by decide +kernel
  sourceTargets := by decide +kernel
  switch := by decide +kernel
  ipi := by decide +kernel
  validity := by decide +kernel
  uniqueness := by
    have htraps : (panicTraps.filter fun event => event.tag = "event") = panicTraps := by decide +kernel
    unfold Mucfgcheck.Events.sourceGroupEventIDNameUniqueness callPolicy client server worker children
    simp only [List.flatMap_cons, List.flatMap_nil, List.map_cons, List.map_nil, List.cons_append, List.nil_append,
      Mucfgcheck.checkEach, Mucfgcheck.Scheduling.each, htraps, panicTraps_unique]
    rfl
  targetUniqueness := by decide +kernel
  completeness := by decide +kernel
  eventActions := by decide +kernel
  systemActions := by decide +kernel

/-! ### Traps -/

/-- An accepted policy has an event for each valid exit reason. -/
lemma exists_trap (hvalue : ∀ n ≤ EventGroupType.vmxExit.getMaxID, value (toString n) = some n)
    (hB : InFormatB value d) (hA : Accepted value d) {subject : Subject} (hsubject : subject ∈ d.subjects) {id : ℕ}
    (hid : EventGroupType.vmxExit.isValidEventID id = true) :
    ∃ event ∈ groupEvents subject .vmxExit, natural value event.id = some id := by
  obtain ⟨group, hgroup, hname, hall⟩ :=
    Mucfgcheck.Events.sourceVMXExitEventCompleteness_nil hA.completeness hsubject
  have htags : ∀ event ∈ group.events, event.tag ≠ "default" := by
    intro event hevent
    rw [hB.tag (subject, group, event) (mem_grandchildren.mpr ⟨hsubject, hgroup, hevent⟩)]
    decide
  obtain ⟨event, hevent, heq⟩ := hall htags id hid
  have hle := EventGroupType.isValidEventID_le hid
  refine ⟨event, mem_groupEvents.mpr ⟨group, hgroup, hname, hevent⟩, ?_⟩
  apply natural_eq_some.mpr
  rw [heq]
  exact ⟨hvalue id hle, hle.trans (by decide)⟩

lemma trapTable_tableOf (hvalue : ∀ n ≤ EventGroupType.vmxExit.getMaxID, value (toString n) = some n)
    (hB : InFormatB value d) (hA : Accepted value d) (hS : SingleGroups d) {subject : Subject}
    (hsubject : subject ∈ d.subjects) : ∃ table, trapTable value d (groupEvents subject .vmxExit) = some table ∧
      TableOf value d subject .vmxExit table := by
  obtain ⟨choices, hchoices, hof⟩ := toSourceEventMap_choices hB hA hS hsubject .vmxExit
  refine ⟨_, by rw [trapTable, hchoices]; rfl, ?_⟩
  by_cases hone : choices.length = 1
  · obtain ⟨choice, rfl⟩ := List.length_eq_one_iff.mp hone
    rw [if_pos hone]
    exact hof.tableOf_single hB hA hsubject
  · rw [if_neg hone]
    apply hof.tableOf hB hA hsubject
    intro _ id hid
    rw [hof.mem_iff]
    cases hvalid : EventGroupType.vmxExit.isValidEventID id with
    | false => exact Or.inl (mem_reservedIDs.mpr ⟨hid, hvalid⟩)
    | true => exact Or.inr (exists_trap hvalue hB hA hsubject hvalid)

/-- Different numbers below their count are all numbers below it. -/
lemma mem_of_length {ids : List ℕ} {n : ℕ} (h : ids.Nodup) (hlt : ∀ id ∈ ids, id < n) (hlength : n ≤ ids.length) :
    ∀ id < n, id ∈ ids := by
  have hsub : ids.Subperm (List.range n) := h.subperm fun id hid => List.mem_range.mpr (hlt id hid)
  have hle : (List.range n).length ≤ ids.length := by rwa [List.length_range]
  intro id hid
  exact (hsub.perm_of_length_le hle).mem_iff.mpr (List.mem_range.mpr hid)

/-- As many choices as there are IDs leave none out. -/
lemma ChoicesOf.full (hB : InFormatB value d) (hA : Accepted value d) {subject : Subject}
    (hsubject : subject ∈ d.subjects) {choices : List (List ℕ × SourceEntry)}
    (h : ChoicesOf value d subject .vmcall choices) (hfull : choices.length = maxEventCount) :
    ∀ id ≤ EventGroupType.vmcall.getMaxID, id ∈ indexes choices := by
  have hlt : ∀ id ∈ indexes choices, id < maxEventCount :=
    fun id hid => Nat.lt_succ_of_le (h.le_maxID hB hA hsubject id hid)
  have hlength : maxEventCount ≤ (indexes choices).length := hfull ▸ length_le_indexes h.nonempty
  exact fun id hid => mem_of_length h.nodup hlt hlength id (Nat.lt_succ_of_le hid)

lemma reservedIDs_vmcall : reservedIDs .vmcall = [] := by decide

lemma sourceEventTable_tableOf (hB : InFormatB value d) (hA : Accepted value d) (hS : SingleGroups d)
    {subject : Subject} (hsubject : subject ∈ d.subjects) :
    ∃ table, sourceEventTable value d (groupEvents subject .vmcall) = some table ∧
      TableOf value d subject .vmcall table := by
  by_cases hevents : groupEvents subject .vmcall = []
  · refine ⟨⟨[], some nullSourceEvent⟩, by rw [sourceEventTable, if_pos hevents], ?_⟩
    refine ⟨⟨List.nodup_nil, fun id hid => absurd hid List.not_mem_nil, fun hnone => ?_⟩, ?_, ?_⟩
    · exact absurd hnone (Option.some_ne_none _)
    · intro event hevent
      rw [hevents] at hevent
      exact absurd hevent List.not_mem_nil
    · intro id hid
      rw [reservedIDs_vmcall] at hid
      exact absurd hid List.not_mem_nil
  · obtain ⟨choices, hchoices, hof⟩ := toSourceEventMap_choices hB hA hS hsubject .vmcall
    refine ⟨_, by rw [sourceEventTable, if_neg hevents, hchoices]; rfl, ?_⟩
    apply hof.tableOf hB hA hsubject
    intro hnone id hid
    apply hof.full hB hA hsubject _ id hid
    by_contra hne
    rw [if_neg hne] at hnone
    exact Option.some_ne_none _ hnone

/-- IDs without an event have no action. -/
lemma sourceEventTable_other (hB : InFormatB value d) (hA : Accepted value d) (hS : SingleGroups d) {subject : Subject}
    (hsubject : subject ∈ d.subjects) {table : Aggregate ℕ SourceEntry}
    (htable : sourceEventTable value d (groupEvents subject .vmcall) = some table) {id : ℕ}
    (hid : id ≤ EventGroupType.vmcall.getMaxID)
    (hnone : ∀ event ∈ groupEvents subject .vmcall, natural value event.id ≠ some id) :
    table.find id = some nullSourceEvent := by
  by_cases hevents : groupEvents subject .vmcall = []
  · rw [sourceEventTable, if_pos hevents] at htable
    rw [← Option.some.inj htable]
    rfl
  · obtain ⟨choices, hchoices, hof⟩ := toSourceEventMap_choices hB hA hS hsubject .vmcall
    rw [sourceEventTable, if_neg hevents, hchoices] at htable
    have hnot : id ∉ indexes choices := by
      rw [hof.mem_iff, reservedIDs_vmcall]
      rintro (hnil | ⟨event, hevent, hvalue⟩)
      · exact List.not_mem_nil hnil
      · exact hnone event hevent hvalue
    have hshort : choices.length ≠ maxEventCount := fun hfull => hnot (hof.full hB hA hsubject hfull id hid)
    rw [← Option.some.inj htable, if_neg hshort]
    exact Aggregate.find_of_notMem hnot

end Muen.Tools.Mugenspec.Events
