import Muen.Tools.Mugenspec.Events

/-!
# Spec.Skp_Events, target events

The table of target events is written in one pass over the events, which decides on each comma before it is known what
follows. The commas are right except for a subject that has as many target events as there are IDs, and one of them
without an action.
-/

namespace Muen.Tools.Mugenspec.Events

open Lib SystemPolicy
open Mucfgcheck.Events (EventGroupType)

/-- `Target_Event_Type`, with the text of its vector. -/
structure TargetEntry where
  kind : String
  vector : String
deriving DecidableEq

/-- `Null_Target_Event`. -/
def nullTargetEvent : TargetEntry := ⟨"No_Action", "Invalid_Vector"⟩

/-- `Add_Event_Action_Entry`: no entry is added for an event without an action. -/
def eventActionEntry (event : TargetEvent) : Option TargetEntry :=
  let action := event.actions.head?
  let actionKind := action.elim "No_Action" Action.name
  let vectorStr := action.elim "Invalid_Vector" fun action =>
    if actionKind = "inject_interrupt" then action.vector else "Invalid_Vector"
  if ¬ (actionKind = "No_Action" ∧ vectorStr = "Invalid_Vector") then some ⟨actionKind, vectorStr⟩ else none

inductive Item
  | choice (id : String) (entry : TargetEntry)
  | others

inductive Token
  | item (item : Item)
  | comma

/-- The choice of an event. -/
def toItem (event : TargetEvent) : Option Item := (eventActionEntry event).map (Item.choice event.id)

/-- The loop over the target events, with the number of events that it has skipped. -/
def targetLoop (skipCount : ℕ) : List TargetEvent → List Token × ℕ
  | [] => ([], skipCount)
  | event :: events =>
    match toItem event with
    | none => targetLoop (skipCount + 1) events
    | some item =>
      let rest := targetLoop skipCount events
      (Token.item item :: (if events ≠ [] ∨ skipCount > 0 then [Token.comma] else []) ++ rest.1, rest.2)

/-- The table of a subject with target events. -/
def targetTokens (events : List TargetEvent) : List Token :=
  let loop := targetLoop 0 events
  if events.length ≠ maxEventCount then
    loop.1 ++ (if loop.2 = 0 then [Token.comma] else []) ++ [Token.item .others]
  else loop.1

/-! ### What the compiler reads -/

/-- Items with commas between them. -/
def separated (items : List Item) : List Token := (items.map Token.item).intersperse .comma

/-- The aggregate of items, of which `others` is the last. -/
def toAggregate (value : String → Option ℕ) : List Item → Option (Aggregate ℕ TargetEntry)
  | [] => some ⟨[], none⟩
  | .choice id entry :: items => do
    let n ← natural value id
    let a ← toAggregate value items
    some ⟨([n], entry) :: a.choices, a.others⟩
  | .others :: items => if items.isEmpty then some ⟨[], some nullTargetEvent⟩ else none

/-- Tokens are those of an aggregate. -/
def Denotes (value : String → Option ℕ) (tokens : List Token) (table : Aggregate ℕ TargetEntry) : Prop :=
  ∃ items, items ≠ [] ∧ tokens = separated items ∧ toAggregate value items = some table

/-! ### Commas -/

lemma targetLoop_skipCount (n : ℕ) (events : List TargetEvent) :
    n ≤ (targetLoop n events).2 ∧ ((targetLoop n events).2 = n ↔ ∀ event ∈ events, toItem event ≠ none) := by
  induction events generalizing n with
  | nil => exact ⟨le_rfl, iff_of_true rfl fun event hevent => absurd hevent List.not_mem_nil⟩
  | cons event events ih =>
    rw [targetLoop, List.forall_mem_cons]
    cases hitem : toItem event with
    | none =>
      obtain ⟨hle, -⟩ := ih (n + 1)
      refine ⟨Nat.le_of_succ_le hle, iff_of_false (fun heq => ?_) fun h => h.1 rfl⟩
      exact absurd (hle.trans heq.le) (Nat.not_succ_le_self n)
    | some item =>
      obtain ⟨hle, hiff⟩ := ih n
      exact ⟨hle, hiff.trans ⟨fun h => ⟨Option.some_ne_none item, h⟩, And.right⟩⟩

/-- Each item is followed by a comma if an event is skipped before or after it. -/
lemma targetLoop_skipped {n : ℕ} {events : List TargetEvent} (h : (targetLoop n events).2 ≠ 0) :
    (targetLoop n events).1 = (events.filterMap toItem).flatMap fun item => [Token.item item, Token.comma] := by
  induction events generalizing n with
  | nil => rfl
  | cons event events ih =>
    rw [targetLoop] at h ⊢
    cases hitem : toItem event with
    | none =>
      rw [hitem] at h
      rw [List.filterMap_cons_none hitem]
      exact ih h
    | some item =>
      rw [hitem] at h
      rw [List.filterMap_cons_some hitem, List.flatMap_cons, ← ih h]
      have hcomma : events ≠ [] ∨ n > 0 := by
        cases events with
        | nil => exact Or.inr (Nat.pos_of_ne_zero h)
        | cons event' events => exact Or.inl (List.cons_ne_nil _ _)
      dsimp only
      rw [if_pos hcomma]

/-- There are commas between the items if no event is skipped. -/
lemma targetLoop_all {events : List TargetEvent} (h : ∀ event ∈ events, toItem event ≠ none) :
    (targetLoop 0 events).1 = separated (events.filterMap toItem) := by
  induction events with
  | nil => rfl
  | cons event events ih =>
    obtain ⟨hevent, hrest⟩ := List.forall_mem_cons.mp h
    obtain ⟨item, hitem⟩ := Option.ne_none_iff_exists'.mp hevent
    rw [targetLoop, hitem, List.filterMap_cons_some hitem]
    dsimp only
    rw [ih hrest]
    cases events with
    | nil => rfl
    | cons event' events =>
      obtain ⟨item', hitem'⟩ := Option.ne_none_iff_exists'.mp (List.forall_mem_cons.mp hrest).1
      rw [if_pos (Or.inl (List.cons_ne_nil event' events)), List.filterMap_cons_some hitem']
      rfl

/-- Items that are followed by commas, and a last one. -/
lemma separated_append (items : List Item) (item : Item) :
    separated (items ++ [item]) = (items.flatMap fun item => [Token.item item, Token.comma]) ++ [Token.item item] := by
  unfold separated
  induction items with
  | nil => rfl
  | cons first items ih =>
    rw [List.cons_append, List.flatMap_cons, List.append_assoc, ← ih]
    cases items with
    | nil => rfl
    | cons second items => rfl

lemma separated_comma {items : List Item} (h : items ≠ []) :
    separated items ++ [Token.comma] = items.flatMap fun item => [Token.item item, Token.comma] := by
  rw [← List.dropLast_append_getLast h, separated_append, List.flatMap_append, List.append_assoc]
  rfl

/-- The items of the table, when the commas are right. -/
def targetItems (events : List TargetEvent) : List Item :=
  events.filterMap toItem ++ if events.length ≠ maxEventCount then [.others] else []

lemma filterMap_toItem_ne_nil {events : List TargetEvent} (hne : events ≠ [])
    (h : ∀ event ∈ events, toItem event ≠ none) : events.filterMap toItem ≠ [] := by
  obtain ⟨event, hevent⟩ := List.exists_mem_of_ne_nil events hne
  obtain ⟨item, hitem⟩ := Option.ne_none_iff_exists'.mp (h event hevent)
  exact List.ne_nil_of_mem (List.mem_filterMap.mpr ⟨event, hevent, hitem⟩)

lemma targetItems_ne_nil {events : List TargetEvent} (hne : events ≠ [])
    (h : events.length ≠ maxEventCount ∨ ∀ event ∈ events, toItem event ≠ none) : targetItems events ≠ [] := by
  unfold targetItems
  by_cases hlength : events.length ≠ maxEventCount
  · rw [if_pos hlength]
    exact List.append_ne_nil_of_right_ne_nil _ (List.cons_ne_nil _ _)
  · exact List.append_ne_nil_of_left_ne_nil (filterMap_toItem_ne_nil hne (h.resolve_left hlength)) _

lemma targetTokens_eq {events : List TargetEvent} (hne : events ≠ [])
    (h : events.length ≠ maxEventCount ∨ ∀ event ∈ events, toItem event ≠ none) :
    targetTokens events = separated (targetItems events) := by
  unfold targetTokens targetItems
  have hcount := (targetLoop_skipCount 0 events).2
  by_cases hlength : events.length ≠ maxEventCount
  · dsimp only
    rw [if_pos hlength, if_pos hlength, separated_append]
    by_cases hskip : (targetLoop 0 events).2 = 0
    · have hall := hcount.mp hskip
      rw [if_pos hskip, targetLoop_all hall, separated_comma (filterMap_toItem_ne_nil hne hall)]
    · rw [if_neg hskip, List.append_nil, targetLoop_skipped hskip]
  · dsimp only
    rw [if_neg hlength, if_neg hlength, List.append_nil]
    exact targetLoop_all (h.resolve_left hlength)

lemma length_commas (items : List Item) :
    (items.flatMap fun item => [Token.item item, Token.comma]).length = 2 * items.length := by
  induction items with
  | nil => rfl
  | cons item items ih =>
    rw [List.flatMap_cons, List.length_append, ih]
    simp only [List.length_cons, List.length_nil]
    omega

/-- A comma after each item is not between items. -/
lemma not_separated {items items' : List Item} (h : items' ≠ []) :
    (items.flatMap fun item => [Token.item item, Token.comma]) ≠ separated items' := by
  intro heq
  have hlength := congrArg List.length heq
  have hpos := List.length_pos_of_ne_nil h
  rw [length_commas, separated, List.length_intersperse, List.length_map] at hlength
  omega

def itemOf : Token → Option Item
  | .item i => some i
  | .comma => none

lemma filterMap_separated (items : List Item) : (separated items).filterMap itemOf = items := by
  unfold separated
  induction items with
  | nil => rfl
  | cons item items ih =>
    cases items with
    | nil => rfl
    | cons item' items => exact congrArg (item :: ·) ih

lemma separated_injective : Function.Injective separated :=
  Function.LeftInverse.injective filterMap_separated

/-! ### Items -/

variable {value : String → Option ℕ} {d : Document}

lemma toItem_eq_none {event : TargetEvent} : toItem event = none ↔ eventActionEntry event = none :=
  Option.map_eq_none_iff

/-- The choices of the items of events. -/
lemma toAggregate_items {events : List TargetEvent} (hids : ∀ event ∈ events, ∃ id, natural value event.id = some id)
    {tail : List Item} {others : Option TargetEntry} (htail : toAggregate value tail = some ⟨[], others⟩) :
    ∃ choices, toAggregate value (events.filterMap toItem ++ tail) = some ⟨choices, others⟩ ∧
      ((indexes choices).map some).Sublist (events.map fun event => natural value event.id) ∧
        ∀ id entry, Chosen choices id entry ↔
          ∃ event ∈ events, natural value event.id = some id ∧ eventActionEntry event = some entry := by
  induction events with
  | nil =>
    refine ⟨[], htail, List.Sublist.refl [], fun id entry => iff_of_false ?_ ?_⟩
    · rintro ⟨ids, hmem, -⟩
      exact List.not_mem_nil hmem
    · rintro ⟨event, hmem, -⟩
      exact List.not_mem_nil hmem
  | cons event events ih =>
    obtain ⟨⟨id, hid⟩, hrest⟩ := List.forall_mem_cons.mp hids
    obtain ⟨choices, hchoices, hsub, hchosen⟩ := ih hrest
    cases hentry : eventActionEntry event with
    | none =>
      refine ⟨choices, ?_, hsub.cons _, fun id entry => ?_⟩
      · rw [List.filterMap_cons_none (toItem_eq_none.mpr hentry)]
        exact hchoices
      · rw [hchosen, List.exists_mem_cons_iff, hentry]
        exact (or_iff_right fun h => Option.some_ne_none entry h.2.symm).symm
    | some first =>
      have hitem : toItem event = some (.choice event.id first) := by rw [toItem, hentry, Option.map_some]
      refine ⟨([id], first) :: choices, ?_, ?_, fun id' entry => ?_⟩
      · rw [List.filterMap_cons_some hitem, List.cons_append, toAggregate, hid, hchoices]
        rfl
      · rw [List.map_cons, hid]
        exact hsub.cons_cons (some id)
      · rw [chosen_cons, hchosen, List.exists_mem_cons_iff, hid, hentry, List.mem_singleton, Option.some.injEq,
          Option.some.injEq, eq_comm (a := id'), eq_comm (a := entry)]

variable (value) in
lemma toAggregate_others (p : Prop) [Decidable p] : toAggregate value (if p then [.others] else []) =
    some ⟨[], if p then some nullTargetEvent else none⟩ := by
  by_cases h : p
  · rw [if_pos h, if_pos h]
    rfl
  · rw [if_neg h, if_neg h]
    rfl

/-! ### Tables of target events -/

variable (value) in
/-- A table says what the target events of a subject do. -/
structure TargetTableOf (events : List TargetEvent) (table : Aggregate ℕ TargetEntry) : Prop where
  legal : table.Legal (· < maxEventCount)
  event : ∀ event ∈ events, ∃ id, natural value event.id = some id ∧
    table.find id = some ((eventActionEntry event).getD nullTargetEvent)
  other : ∀ id < maxEventCount, (∀ event ∈ events, natural value event.id ≠ some id) →
    table.find id = some nullTargetEvent

/-- All IDs have an event if there are as many events. -/
lemma exists_targetEvent {events : List TargetEvent}
    (hids : ∀ event ∈ events, ∃ id, natural value event.id = some id ∧ id < maxEventCount)
    (hnodup : (events.map fun event => natural value event.id).Nodup) (hlength : events.length = maxEventCount) :
    ∀ id < maxEventCount, ∃ event ∈ events, natural value event.id = some id := by
  obtain ⟨ids, hmapM⟩ := mapM_option fun event hevent => (hids event hevent).imp fun id h => h.1
  have hmap := map_of_mapM hmapM
  have hmem : ∀ id, id ∈ ids ↔ ∃ event ∈ events, natural value event.id = some id := by
    intro id
    rw [← List.mem_map_of_injective (Option.some_injective ℕ), ← hmap, List.mem_map]
  have hlt : ∀ id ∈ ids, id < maxEventCount := by
    intro id hid
    obtain ⟨event, hevent, hvalue⟩ := (hmem id).mp hid
    obtain ⟨id', hid', hlt⟩ := hids event hevent
    rwa [Option.some.inj (hvalue.symm.trans hid')]
  have hcount : maxEventCount ≤ ids.length := by
    have hsame := congrArg List.length hmap
    rw [List.length_map, List.length_map, hlength] at hsame
    exact hsame.le
  intro id hid
  exact (hmem id).mp (mem_of_length (List.Nodup.of_map some (hmap ▸ hnodup)) hlt hcount id hid)

lemma Denotes.condition {events : List TargetEvent} {table : Aggregate ℕ TargetEntry}
    (h : Denotes value (targetTokens events) table) :
    events.length ≠ maxEventCount ∨ ∀ event ∈ events, toItem event ≠ none := by
  obtain ⟨items, hne, htokens, -⟩ := h
  by_contra hnot
  obtain ⟨hlength, hskip⟩ := not_or.mp hnot
  have hcount : (targetLoop 0 events).2 ≠ 0 := fun heq => hskip ((targetLoop_skipCount 0 events).2.mp heq)
  unfold targetTokens at htokens
  dsimp only at htokens
  rw [if_neg hlength, targetLoop_skipped hcount] at htokens
  exact not_separated hne htokens

/-- The aggregate of the items of a table. -/
lemma toAggregate_targetItems {events : List TargetEvent}
    (hids : ∀ event ∈ events, ∃ id, natural value event.id = some id ∧ id < maxEventCount)
    (hnodup : (events.map fun event => natural value event.id).Nodup)
    (h : events.length ≠ maxEventCount ∨ ∀ event ∈ events, toItem event ≠ none) :
    ∃ table, toAggregate value (targetItems events) = some table ∧ TargetTableOf value events table := by
  obtain ⟨choices, htable, hsub, hchosen⟩ := toAggregate_items
    (fun event hevent => (hids event hevent).imp fun id h => h.1)
    (toAggregate_others value (events.length ≠ maxEventCount))
  have hindexes : (indexes choices).Nodup := List.Nodup.of_map some (hnodup.sublist hsub)
  have hunique : ∀ event ∈ events, ∀ event' ∈ events, natural value event.id = natural value event'.id →
      event = event' := fun event hevent event' hevent' => List.inj_on_of_nodup_map hnodup hevent hevent'
  have hother : ∀ id < maxEventCount, id ∉ indexes choices →
      (if events.length ≠ maxEventCount then some nullTargetEvent else none) = some nullTargetEvent := by
    intro id hid hnot
    by_cases hlength : events.length ≠ maxEventCount
    · rw [if_pos hlength]
    · obtain ⟨event, hevent, hvalue⟩ := exists_targetEvent hids hnodup (not_not.mp hlength) id hid
      obtain ⟨entry, hentry⟩ := Option.ne_none_iff_exists'.mp
        fun hnone => h.resolve_left hlength event hevent (toItem_eq_none.mpr hnone)
      exact absurd (mem_indexes.mpr ⟨entry, (hchosen id entry).mpr ⟨event, hevent, hvalue, hentry⟩⟩) hnot
  refine ⟨_, htable, ⟨hindexes, ?_, ?_⟩, ?_, ?_⟩
  · intro id hid
    obtain ⟨entry, hentry⟩ := mem_indexes.mp hid
    obtain ⟨event, hevent, hvalue, -⟩ := (hchosen id entry).mp hentry
    obtain ⟨id', hid', hlt⟩ := hids event hevent
    rwa [Option.some.inj (hvalue.symm.trans hid')]
  · intro hnone id hid
    by_contra hnot
    exact Option.some_ne_none _ ((hother id hid hnot).symm.trans hnone)
  · intro event hevent
    obtain ⟨id, hid, hlt⟩ := hids event hevent
    refine ⟨id, hid, ?_⟩
    cases hentry : eventActionEntry event with
    | some entry => exact Aggregate.find_of_chosen hindexes ((hchosen id entry).mpr ⟨event, hevent, hid, hentry⟩)
    | none =>
      have hnot : id ∉ indexes choices := by
        intro hmem
        obtain ⟨entry, hchosenEntry⟩ := mem_indexes.mp hmem
        obtain ⟨event', hevent', hid', hentry'⟩ := (hchosen id entry).mp hchosenEntry
        rw [hunique event hevent event' hevent' (hid.trans hid'.symm), hentry'] at hentry
        exact Option.some_ne_none entry hentry
      exact (Aggregate.find_of_notMem hnot).trans (hother id hlt hnot)
  · intro id hid hnone
    have hnot : id ∉ indexes choices := by
      intro hmem
      obtain ⟨entry, hchosenEntry⟩ := mem_indexes.mp hmem
      obtain ⟨event, hevent, hvalue, -⟩ := (hchosen id entry).mp hchosenEntry
      exact hnone event hevent hvalue
    exact (Aggregate.find_of_notMem hnot).trans (hother id hid hnot)

/-- The compiler can read the table of target events of a subject of an accepted policy if and only if there are not
as many events as there are IDs, or each of them has an action. What it reads is then legal, with the action of each
event, and none for other IDs. -/
theorem targetTokens_exact (hid : TargetIDs value d)
    (hunique : Mucfgcheck.Events.targetEventIDNameUniqueness value d = some []) {subject : Subject}
    (hsubject : subject ∈ d.subjects) (hne : subject.targets ≠ []) :
    ((∃ table, Denotes value (targetTokens subject.targets) table) ↔
      subject.targets.length ≠ maxEventCount ∨ ∀ event ∈ subject.targets, eventActionEntry event ≠ none) ∧
    ∀ table, Denotes value (targetTokens subject.targets) table → TargetTableOf value subject.targets table := by
  have hids : ∀ event ∈ subject.targets, ∃ id, natural value event.id = some id ∧ id < maxEventCount :=
    fun event hevent => hid (subject, event) (mem_children.mpr ⟨hsubject, hevent⟩)
  have hnodup := Mucfgcheck.Events.targetEventIDNameUniqueness_nil hunique hsubject
  have hitems : (∀ event ∈ subject.targets, toItem event ≠ none) ↔
      ∀ event ∈ subject.targets, eventActionEntry event ≠ none :=
    forall₂_congr fun event _ => not_congr toItem_eq_none
  rw [← hitems]
  refine ⟨⟨fun ⟨table, h⟩ => h.condition, fun h => ?_⟩, fun table h => ?_⟩
  · obtain ⟨table, htable, -⟩ := toAggregate_targetItems hids hnodup h
    exact ⟨table, targetItems subject.targets, targetItems_ne_nil hne h, targetTokens_eq hne h, htable⟩
  · have hcondition := h.condition
    obtain ⟨table', htable', hof⟩ := toAggregate_targetItems hids hnodup hcondition
    obtain ⟨items, -, htokens, htable⟩ := h
    rw [targetTokens_eq hne hcondition] at htokens
    rw [separated_injective htokens] at htable'
    rwa [Option.some.inj (htable.symm.trans htable')]

/-- A subject with a target event that is skipped between two others. -/
def driver : Subject :=
  ⟨"driver", "0", "0", "1", [], [⟨"2", "called", "call", [⟨"inject_interrupt", "", "33"⟩]⟩, ⟨"5", "woken", "wake", []⟩,
    ⟨"7", "restarted", "restart", [⟨"reset", "", ""⟩]⟩], []⟩

def driverPolicy : Document := { callPolicy with subjects := [driver] }

lemma driverPolicy_targetIDs : TargetIDs decimal driverPolicy := by
  have hid : ∀ x ∈ driverPolicy.targets, natural decimal x.2.id = some 2 ∨ natural decimal x.2.id = some 5 ∨
      natural decimal x.2.id = some 7 := by decide +kernel
  intro x hx
  rcases hid x hx with h | h | h
  · exact ⟨2, h, by decide⟩
  · exact ⟨5, h, by decide⟩
  · exact ⟨7, h, by decide⟩

theorem targetTokens_driver : ∃ table, Denotes decimal (targetTokens driver.targets) table ∧
    table.find 2 = some ⟨"inject_interrupt", "33"⟩ ∧ table.find 5 = some nullTargetEvent ∧
      table.find 7 = some ⟨"reset", "Invalid_Vector"⟩ ∧ table.find 6 = some nullTargetEvent := by
  have hunique : Mucfgcheck.Events.targetEventIDNameUniqueness decimal driverPolicy = some [] := by decide +kernel
  have hmem : driver ∈ driverPolicy.subjects := List.mem_singleton_self driver
  have hne : driver.targets ≠ [] := List.cons_ne_nil _ _
  obtain ⟨hiff, hof⟩ := targetTokens_exact driverPolicy_targetIDs hunique hmem hne
  obtain ⟨table, htable⟩ := hiff.mpr (Or.inl (by decide))
  have hfind : ∀ event ∈ driver.targets, ∀ n, natural decimal event.id = some n →
      table.find n = some ((eventActionEntry event).getD nullTargetEvent) := by
    intro event hevent n hn
    obtain ⟨id, hid, h⟩ := (hof table htable).event event hevent
    rwa [← Option.some.inj (hn.symm.trans hid)] at h
  refine ⟨table, htable, hfind _ List.mem_cons_self 2 (by decide +kernel), ?_, ?_, ?_⟩
  · exact hfind _ (List.mem_cons_of_mem _ List.mem_cons_self) 5 (by decide +kernel)
  · exact hfind _ (List.mem_cons_of_mem _ (List.mem_cons_of_mem _ List.mem_cons_self)) 7 (by decide +kernel)
  · exact (hof table htable).other 6 (by decide) (by decide +kernel)

end Muen.Tools.Mugenspec.Events
