import Muen.Tools.Mucfgcheck.Checks

/-!
# Mucfgcheck.Events

The checks of the events of a policy, and what a policy has that passes them.
-/

namespace Muen.Tools.Mucfgcheck.Events

open Scheduling (img eachUntil eachUntil_nil)
open SystemPolicy

/-- `Mutools.Types.Event_Group_Type`. -/
inductive EventGroupType
  | vmxExit
  | vmcall
deriving DecidableEq

namespace EventGroupType

def ofName (name : String) : Option EventGroupType :=
  if name = "vmx_exit" then some .vmxExit else if name = "vmcall" then some .vmcall else none

def name : EventGroupType → String
  | vmxExit => "vmx_exit"
  | vmcall => "vmcall"

/-- `Event_Group'Img`. -/
def image : EventGroupType → String
  | vmxExit => "VMX_EXIT"
  | vmcall => "VMCALL"

def getMaxID : EventGroupType → ℕ
  | vmxExit => 59
  | vmcall => 63

def isValidEventID (group : EventGroupType) (id : ℕ) : Bool :=
  id ≤ group.getMaxID && match group with
    | vmxExit => !(id ∈ [35, 38, 42] || id ∈ [1, 7, 41, 52, 55])
    | vmcall => true

lemma ofName_name (group : EventGroupType) : ofName group.name = some group := by
  cases group <;> decide

lemma isValidEventID_le {group : EventGroupType} {id : ℕ} (h : group.isValidEventID id = true) :
    id ≤ group.getMaxID :=
  of_decide_eq_true (Bool.and_eq_true_iff.mp h).1

end EventGroupType

variable (value : String → Option ℕ) (d : Document)

/-- The nodes `event` of groups. -/
def sourceEvents : List (Subject × EventGroup × SourceEvent) := d.sources.filter fun x => x.2.2.tag = "event"

/-- The nodes `event` and `default` of groups. -/
def eventsAndDefaults : List (Subject × EventGroup × SourceEvent) :=
  d.sources.filter fun x => x.2.2.tag = "event" ∨ x.2.2.tag = "default"

/-! ### Physical events -/

/-- `/system/subjects/subject/events//*[@physical]`, with the subjects. -/
def eventReferences : List (Subject × String) :=
  children (fun subject => (subject.groups.flatMap fun group => group.events.map SourceEvent.physical) ++
    subject.targets.map TargetEvent.physical) d.subjects

def subjectEventReferences : Option (List String) :=
  forEachMatch (fun node event => some (decide (node.2 = event.name))) (eventReferences d) d.events
    (fun node => some ("Event '" ++ node.2 ++ "' referenced by subject '" ++ node.1.name ++ "' does not exist")) false

/-- The errors of an event with a number of sources and targets. -/
def sourceTargetErrors (event : Event) (sourceCount targetCount : ℕ) : List String :=
  unlessThat (sourceCount ≠ 0) ("Invalid number of sources for event '" ++ event.name ++ "':" ++ img sourceCount) ++
    if event.mode = "kernel" then
      unlessThat (targetCount = 0) ("Invalid number of targets for kernel-mode event '" ++ event.name ++ "':" ++
        img targetCount ++ " (no target allowed)")
    else
      unlessThat (targetCount = 1) ("Invalid number of targets for event '" ++ event.name ++ "':" ++ img targetCount)

def sourceTargets : Option (List String) :=
  checkEach (fun event => some (sourceTargetErrors event
    (getElements (eventsAndDefaults d) (fun x => x.2.2.physical) event.name).length
    (getElements d.targets (fun x => x.2.physical) event.name).length)) d.events

/-! ### Actions -/

def kernelModeEventActions : Option (List String) :=
  checkEach (fun event =>
    match getElement ((sourceEvents d).filter fun x => x.2.2.actions = []) (fun x => x.2.2.physical) event.name with
    | none => some []
    | some x => some ["Kernel-mode source event '" ++ x.2.2.logical ++ "' of subject '" ++ x.1.name ++ "' does not" ++
        " specify mandatory event action"])
    (d.events.filter fun event => event.mode = "kernel")

def systemActions : List String :=
  ["subject_sleep", "subject_yield", "system_reboot", "system_panic", "system_poweroff", "unmask_irq"]

def kernelModeSystemActions : Option (List String) :=
  checkEach (fun x : Subject × EventGroup × SourceEvent =>
    match getElement (d.events.filter fun event => event.mode ≠ "kernel") Event.name x.2.2.physical with
    | none => some []
    | some _ => some ["System action for event '" ++ x.2.2.logical ++ "' of subject '" ++ x.1.name ++
        "' does not reference physical kernel-mode event '" ++ x.2.2.physical ++ "'"])
    ((sourceEvents d).filter fun x => ∃ action ∈ x.2.2.actions, action.name ∈ systemActions)

/-! ### Destinations -/

def checkEventDestination (mode : String) (test : Subject → Subject → Option Bool) (errorMsg : String) :
    Option (List String) :=
  checkEach (fun event => do
    let dst ← getElement d.targets (fun x => x.2.physical) event.name
    let dstCPU ← unsigned64 value dst.1.cpu
    checkEach (fun src : Subject × EventGroup × SourceEvent => do
      let srcCPU ← unsigned64 value src.1.cpu
      let passed ← test src.1 dst.1
      some (unlessThat (passed = true) ("Destination subject '" ++ dst.1.name ++ "' (CPU" ++ img dstCPU.toNat ++
        ") in subject's '" ++ src.1.name ++ "' (CPU" ++ img srcCPU.toNat ++ ") " ++ mode ++ " notification '" ++
        event.name ++ "' invalid - " ++ errorMsg)))
      (getElements (eventsAndDefaults d) (fun x => x.2.2.physical) event.name))
    (d.events.filter fun event => event.mode = mode)

def hasSameCPUAndSchedGroup (source dest : Subject) : Option Bool := do
  let srcCPU ← unsigned64 value source.cpu
  let srcGroup ← unsigned64 value source.schedGroupId
  let dstCPU ← unsigned64 value dest.cpu
  let dstGroup ← unsigned64 value dest.schedGroupId
  some (srcCPU = dstCPU && srcGroup = dstGroup)

def switchSameCore : Option (List String) :=
  checkEventDestination value d "switch" (hasSameCPUAndSchedGroup value)
    "must run on the same CPU and be in the same scheduling group"

def hasDifferentCPU (source dest : Subject) : Option Bool := do
  let srcCPU ← unsigned64 value source.cpu
  let dstCPU ← unsigned64 value dest.cpu
  some (srcCPU != dstCPU)

def ipiDifferentCore : Option (List String) :=
  checkEventDestination value d "ipi" (hasDifferentCPU value) "must run on different CPU"

/-! ### IDs -/

/-- The errors of two events of a subject with equal IDs or names. -/
def checkInequality {α : Type} (kind subject : String) (id logical : α → String) (left right : α) :
    Option (List String) := do
  let errors ← differentNumbers value id (fun left right n => "Subject '" ++ subject ++ "' " ++ kind ++ " events '" ++
    logical left ++ "' and '" ++ logical right ++ "' share ID" ++ img n) left right
  let names ← some (unlessThat (logical left ≠ logical right) ("Subject '" ++ subject ++ "' has multiple " ++ kind ++
    " events with the same name: '" ++ logical left ++ "'"))
  some (errors ++ names)

/-- Compares the events of a subject if there are several. -/
def idNameUniqueness {α : Type} (kind subject : String) (id logical : α → String) (events : List α) :
    Option (List String) :=
  if events.length > 1 then comparePairs (checkInequality value kind subject id logical) events else some []

def targetEventIDNameUniqueness : Option (List String) :=
  checkEach (fun subject : Subject => idNameUniqueness value "target" subject.name TargetEvent.id TargetEvent.logical
    subject.targets) d.subjects

def sourceGroupEventIDNameUniqueness : Option (List String) :=
  checkEach (fun x : Subject × EventGroup => idNameUniqueness value "source" x.1.name SourceEvent.id
    SourceEvent.logical (x.2.events.filter fun event => event.tag = "event")) (children Subject.groups d.subjects)

def sourceGroupEventIDValidity : Option (List String) :=
  checkEach (fun x : Subject × EventGroup × SourceEvent => do
    let eventID ← natural value x.2.2.id
    let eventGroup ← EventGroupType.ofName x.2.1.name
    some (unlessThat (eventGroup.isValidEventID eventID = true) ("Subject '" ++ x.1.name ++ "': ID" ++ img eventID ++
      " of event '" ++ x.2.2.logical ++ "' invalid for group " ++ eventGroup.image)))
    (sourceEvents d)

/-- The errors for valid IDs without an event in a group for VMX exits that has no default. -/
def missingExits (subject : Subject) (group : EventGroup) : List String :=
  if ∃ event ∈ group.events, event.tag = "default" then []
  else (List.range (EventGroupType.vmxExit.getMaxID + 1)).flatMap fun id =>
    unlessThat (EventGroupType.vmxExit.isValidEventID id = true →
      getElement group.events SourceEvent.id (toString id) ≠ none)
      ("Subject '" ++ subject.name ++ "' does not specify 'vmx_exit' group source event with ID" ++ img id)

/-- The errors of a subject, and whether the loop over subjects ends with it. -/
def checkCompleteness (subject : Subject) : List String × Bool :=
  match getElement subject.groups EventGroup.name "vmx_exit" with
  | none => (["Subject '" ++ subject.name ++ "' does not specify any source event in 'vmx_exit' group"], true)
  | some group => (missingExits subject group, false)

def sourceVMXExitEventCompleteness : Option (List String) :=
  (eachUntil (fun _ subject => some (checkCompleteness subject)) 0 d.subjects).map Prod.fst

/-! ### Accepted policies -/

variable {value d}

lemma mem_sourceEvents {x : Subject × EventGroup × SourceEvent} :
    x ∈ sourceEvents d ↔ x ∈ d.sources ∧ x.2.2.tag = "event" := by
  rw [sourceEvents, List.mem_filter, decide_eq_true_eq]

lemma sourceEvents_subset {x : Subject × EventGroup × SourceEvent} (h : x ∈ sourceEvents d) :
    x ∈ eventsAndDefaults d := by
  obtain ⟨hmem, htag⟩ := mem_sourceEvents.mp h
  exact List.mem_filter.mpr ⟨hmem, decide_eq_true (Or.inl htag)⟩

lemma mem_eventReferences_source {x : Subject × EventGroup × SourceEvent} (hx : x ∈ d.sources) :
    (x.1, x.2.2.physical) ∈ eventReferences d := by
  obtain ⟨hsubject, hgroup, hevent⟩ := mem_grandchildren.mp hx
  apply mem_children.mpr
  refine ⟨hsubject, List.mem_append_left _ ?_⟩
  exact List.mem_flatMap_of_mem hgroup (List.mem_map_of_mem hevent)

lemma subjectEventReferences_nil (h : subjectEventReferences d = some []) :
    ∀ x ∈ eventReferences d, ∃ event ∈ d.events, event.name = x.2 := by
  intro x hx
  obtain ⟨event, hevent, hname⟩ := forEachMatch_nil h x hx
  exact ⟨event, hevent, (of_decide_eq_true (Option.some.inj hname)).symm⟩

/-- The targets of a kernel-mode event and of others. -/
lemma sourceTargets_nil (h : sourceTargets d = some []) {event : Event} (hevent : event ∈ d.events) :
    if event.mode = "kernel" then getElements d.targets (fun x => x.2.physical) event.name = []
    else ∃ target, getElements d.targets (fun x => x.2.physical) event.name = [target] := by
  have herrors := Option.some.inj (checkEach_nil h event hevent)
  have htargets := (List.append_eq_nil_iff.mp herrors).2
  by_cases hmode : event.mode = "kernel"
  · rw [if_pos hmode] at htargets ⊢
    exact List.length_eq_zero_iff.mp (unlessThat_eq_nil.mp htargets)
  · rw [if_neg hmode] at htargets ⊢
    exact List.length_eq_one_iff.mp (unlessThat_eq_nil.mp htargets)

lemma kernelModeEventActions_nil (h : kernelModeEventActions d = some []) {event : Event} (hevent : event ∈ d.events)
    (hmode : event.mode = "kernel") {x : Subject × EventGroup × SourceEvent} (hx : x ∈ sourceEvents d)
    (hphysical : x.2.2.physical = event.name) : x.2.2.actions ≠ [] := by
  intro hnone
  have hcheck := checkEach_nil h event (List.mem_filter.mpr ⟨hevent, decide_eq_true hmode⟩)
  have hexists : ∃ first, getElement ((sourceEvents d).filter fun x => x.2.2.actions = []) (fun x => x.2.2.physical)
      event.name = some first :=
    exists_getElement (List.mem_filter.mpr ⟨hx, decide_eq_true hnone⟩) hphysical
  obtain ⟨first, hfirst⟩ := hexists
  rw [hfirst] at hcheck
  exact absurd (Option.some.inj hcheck) (List.cons_ne_nil _ _)

lemma kernelModeSystemActions_nil (h : kernelModeSystemActions d = some [])
    {x : Subject × EventGroup × SourceEvent} (hx : x ∈ sourceEvents d)
    {action : Action} (haction : action ∈ x.2.2.actions) (hsystem : action.name ∈ systemActions) {event : Event}
    (hevent : event ∈ d.events) (hname : event.name = x.2.2.physical) : event.mode = "kernel" := by
  by_contra hmode
  have hcheck := checkEach_nil h x (List.mem_filter.mpr ⟨hx, decide_eq_true ⟨action, haction, hsystem⟩⟩)
  have hmem : event ∈ d.events.filter fun event => event.mode ≠ "kernel" :=
    List.mem_filter.mpr ⟨hevent, decide_eq_true hmode⟩
  obtain ⟨first, hfirst⟩ := exists_getElement hmem hname
  rw [hfirst] at hcheck
  exact absurd (Option.some.inj hcheck) (List.cons_ne_nil _ _)

lemma checkEventDestination_nil {mode errorMsg : String} {test : Subject → Subject → Option Bool}
    (h : checkEventDestination value d mode test errorMsg = some []) {event : Event} (hevent : event ∈ d.events)
    (hmode : event.mode = mode) : ∃ dst, getElement d.targets (fun x => x.2.physical) event.name = some dst ∧
      ∀ src ∈ sourceEvents d, src.2.2.physical = event.name → test src.1 dst.1 = some true := by
  have hcheck := checkEach_nil h event (List.mem_filter.mpr ⟨hevent, decide_eq_true hmode⟩)
  obtain ⟨dst, hdst, hcheck⟩ := Option.bind_eq_some_iff.mp hcheck
  obtain ⟨dstCPU, -, hcheck⟩ := Option.bind_eq_some_iff.mp hcheck
  refine ⟨dst, hdst, ?_⟩
  intro src hsrc hphysical
  have hround := checkEach_nil hcheck src (mem_getElements.mpr ⟨sourceEvents_subset hsrc, hphysical⟩)
  obtain ⟨srcCPU, -, hround⟩ := Option.bind_eq_some_iff.mp hround
  obtain ⟨passed, hpassed, hround⟩ := Option.bind_eq_some_iff.mp hround
  rw [hpassed, unlessThat_eq_nil.mp (Option.some.inj hround)]

/-- A handover goes to a subject of the same CPU and scheduling group. -/
lemma switchSameCore_nil (h : switchSameCore value d = some []) {event : Event} (hevent : event ∈ d.events)
    (hmode : event.mode = "switch") : ∃ dst, getElement d.targets (fun x => x.2.physical) event.name = some dst ∧
      ∀ src ∈ sourceEvents d, src.2.2.physical = event.name → value src.1.cpu = value dst.1.cpu ∧
        value src.1.schedGroupId = value dst.1.schedGroupId := by
  obtain ⟨dst, hdst, htest⟩ := checkEventDestination_nil h hevent hmode
  refine ⟨dst, hdst, ?_⟩
  intro src hsrc hphysical
  obtain ⟨srcCPU, hsrcCPU, hrest⟩ := Option.bind_eq_some_iff.mp (htest src hsrc hphysical)
  obtain ⟨srcGroup, hsrcGroup, hrest⟩ := Option.bind_eq_some_iff.mp hrest
  obtain ⟨dstCPU, hdstCPU, hrest⟩ := Option.bind_eq_some_iff.mp hrest
  obtain ⟨dstGroup, hdstGroup, hrest⟩ := Option.bind_eq_some_iff.mp hrest
  obtain ⟨hcpu, hgroup⟩ := Bool.and_eq_true_iff.mp (Option.some.inj hrest)
  rw [← of_decide_eq_true hcpu] at hdstCPU
  rw [← of_decide_eq_true hgroup] at hdstGroup
  exact ⟨value_eq_of_unsigned64 hsrcCPU hdstCPU, value_eq_of_unsigned64 hsrcGroup hdstGroup⟩

/-- An IPI goes to another CPU. -/
lemma ipiDifferentCore_nil (h : ipiDifferentCore value d = some []) {event : Event} (hevent : event ∈ d.events)
    (hmode : event.mode = "ipi") : ∃ dst, getElement d.targets (fun x => x.2.physical) event.name = some dst ∧
      ∀ src ∈ sourceEvents d, src.2.2.physical = event.name → value src.1.cpu ≠ value dst.1.cpu := by
  obtain ⟨dst, hdst, htest⟩ := checkEventDestination_nil h hevent hmode
  refine ⟨dst, hdst, ?_⟩
  intro src hsrc hphysical heq
  obtain ⟨srcCPU, hsrcCPU, hrest⟩ := Option.bind_eq_some_iff.mp (htest src hsrc hphysical)
  obtain ⟨dstCPU, hdstCPU, hrest⟩ := Option.bind_eq_some_iff.mp hrest
  rw [unsigned64_eq_some] at hsrcCPU hdstCPU
  apply bne_iff_ne.mp (Option.some.inj hrest)
  apply BitVec.eq_of_toNat_eq
  exact Option.some.inj (hsrcCPU.symm.trans (heq.trans hdstCPU))

/-- The events of a subject have different IDs. -/
lemma idNameUniqueness_nil {α : Type} {kind subject : String} {id logical : α → String} {events : List α}
    (h : idNameUniqueness value kind subject id logical events = some []) :
    (events.map fun event => natural value (id event)).Nodup := by
  apply nodup_of_several h
  intro hcheck
  exact nodup_of_differentNumbers fun _ _ hpair => (bind_eq_nil (comparePairs_nil hcheck hpair)).1

lemma targetEventIDNameUniqueness_nil (h : targetEventIDNameUniqueness value d = some []) {subject : Subject}
    (hsubject : subject ∈ d.subjects) : (subject.targets.map fun event => natural value event.id).Nodup :=
  idNameUniqueness_nil (checkEach_nil h subject hsubject)

lemma sourceGroupEventIDNameUniqueness_nil (h : sourceGroupEventIDNameUniqueness value d = some []) {subject : Subject}
    (hsubject : subject ∈ d.subjects) {group : EventGroup} (hgroup : group ∈ subject.groups) :
    ((group.events.filter fun event => event.tag = "event").map fun event => natural value event.id).Nodup :=
  idNameUniqueness_nil (checkEach_nil h (subject, group) (mem_children.mpr ⟨hsubject, hgroup⟩))

lemma sourceGroupEventIDValidity_nil (h : sourceGroupEventIDValidity value d = some [])
    {x : Subject × EventGroup × SourceEvent} (hx : x ∈ sourceEvents d) : ∃ id group,
      natural value x.2.2.id = some id ∧ EventGroupType.ofName x.2.1.name = some group ∧
        group.isValidEventID id = true := by
  obtain ⟨id, hid, hcheck⟩ := Option.bind_eq_some_iff.mp (checkEach_nil h x hx)
  obtain ⟨group, hgroup, hcheck⟩ := Option.bind_eq_some_iff.mp hcheck
  exact ⟨id, group, hid, hgroup, unlessThat_eq_nil.mp (Option.some.inj hcheck)⟩

lemma flatMap_unlessThat {α : Type} {condition : α → Prop} [DecidablePred condition] {message : α → String}
    {l : List α} (h : (l.flatMap fun a => unlessThat (condition a) (message a)) = []) : ∀ a ∈ l, condition a :=
  fun a ha => unlessThat_eq_nil.mp (List.flatMap_eq_nil_iff.mp h a ha)

/-- A subject has a group for VMX exits, with an event for each valid ID if it has no default. -/
lemma sourceVMXExitEventCompleteness_nil (h : sourceVMXExitEventCompleteness d = some []) {subject : Subject}
    (hsubject : subject ∈ d.subjects) : ∃ group ∈ subject.groups, group.name = "vmx_exit" ∧
      ((∀ event ∈ group.events, event.tag ≠ "default") → ∀ id, EventGroupType.vmxExit.isValidEventID id = true →
        ∃ event ∈ group.events, event.id = toString id) := by
  have hreturned : ∀ (k : ℕ) (subject : Subject) (e : List String),
      some (checkCompleteness subject) = some (e, true) → e ≠ [] := by
    intro k subject e he
    have heq := Option.some.inj he
    unfold checkCompleteness at heq
    split at heq
    · rw [← (Prod.mk.inj heq).1]
      exact List.cons_ne_nil _ _
    · exact absurd (Prod.mk.inj heq).2 Bool.false_ne_true
  obtain ⟨-, hcheck⟩ := eachUntil_nil hreturned h subject hsubject
  have heq := Option.some.inj hcheck
  unfold checkCompleteness at heq
  cases hgroup : getElement subject.groups EventGroup.name "vmx_exit" with
  | none =>
    rw [hgroup] at heq
    exact absurd (Prod.mk.inj heq).2.symm Bool.false_ne_true
  | some group =>
    rw [hgroup] at heq
    obtain ⟨hmem, hname⟩ := getElement_some hgroup
    refine ⟨group, hmem, hname, ?_⟩
    intro hdefault id hvalid
    have hmissing : missingExits subject group = [] := (Prod.mk.inj heq).1
    rw [missingExits, if_neg (fun ⟨event, hevent, htag⟩ => hdefault event hevent htag)] at hmissing
    have hle : id ∈ List.range (EventGroupType.vmxExit.getMaxID + 1) :=
      List.mem_range.mpr (Nat.lt_succ_of_le (EventGroupType.isValidEventID_le hvalid))
    have hsome := flatMap_unlessThat hmissing id hle hvalid
    obtain ⟨event, hevent⟩ := Option.ne_none_iff_exists'.mp hsome
    exact ⟨event, (getElement_some hevent).1, (getElement_some hevent).2⟩

end Muen.Tools.Mucfgcheck.Events
