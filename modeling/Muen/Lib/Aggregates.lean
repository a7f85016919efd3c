import Mathlib.Data.List.Nodup
import Mathlib.Data.List.Perm.Basic
import Mathlib.Data.List.Sort
import Mathlib.Order.Lattice.Nat

/-!
# Array aggregates

An aggregate lists values with the indexes that have them, and may give one value to all other indexes. It is legal for
a range of indexes if each of them has one value. `addChoice` builds the choices of an aggregate index by index, with
one choice for each value.
-/

namespace Muen.Lib

structure Aggregate (ι α : Type) where
  choices : List (List ι × α)
  others : Option α

variable {ι α : Type}

/-- All indexes of a list of choices. -/
def indexes (choices : List (List ι × α)) : List ι := choices.flatMap Prod.fst

/-- The value at an index stands in a choice. -/
def Chosen (choices : List (List ι × α)) (i : ι) (x : α) : Prop := ∃ is, (is, x) ∈ choices ∧ i ∈ is

lemma mem_indexes {choices : List (List ι × α)} {i : ι} : i ∈ indexes choices ↔ ∃ x, Chosen choices i x := by
  unfold indexes Chosen
  rw [List.mem_flatMap]
  constructor
  · rintro ⟨⟨is, x⟩, hmem, hi⟩
    exact ⟨x, is, hmem, hi⟩
  · rintro ⟨x, is, hmem, hi⟩
    exact ⟨(is, x), hmem, hi⟩

lemma chosen_cons {is : List ι} {y : α} {choices : List (List ι × α)} {i : ι} {x : α} :
    Chosen ((is, y) :: choices) i x ↔ (i ∈ is ∧ x = y) ∨ Chosen choices i x := by
  unfold Chosen
  constructor
  · rintro ⟨js, hmem, hi⟩
    rcases List.mem_cons.mp hmem with heq | hmem
    · obtain ⟨rfl, rfl⟩ := Prod.mk.inj heq
      exact Or.inl ⟨hi, rfl⟩
    · exact Or.inr ⟨js, hmem, hi⟩
  · rintro (⟨hi, rfl⟩ | ⟨js, hmem, hi⟩)
    · exact ⟨is, List.mem_cons_self, hi⟩
    · exact ⟨js, List.mem_cons_of_mem _ hmem, hi⟩

/-- In a list of choices without duplicates an index has one value. -/
lemma Chosen.unique {choices : List (List ι × α)} (h : (indexes choices).Nodup) {i : ι} {x y : α}
    (hx : Chosen choices i x) (hy : Chosen choices i y) : x = y := by
  induction choices with
  | nil =>
    obtain ⟨is, hmem, -⟩ := hx
    exact absurd hmem List.not_mem_nil
  | cons choice choices ih =>
    obtain ⟨is, z⟩ := choice
    have happend : (is ++ indexes choices).Nodup := h
    obtain ⟨-, hrest, hdisjoint⟩ := List.nodup_append.mp happend
    have happart : i ∈ is → ¬ ∃ w, Chosen choices i w :=
      fun hi hw => hdisjoint i hi i (mem_indexes.mpr hw) rfl
    rcases chosen_cons.mp hx with ⟨hi, rfl⟩ | hx'
    · rcases chosen_cons.mp hy with ⟨-, rfl⟩ | hy'
      · rfl
      · exact absurd ⟨y, hy'⟩ (happart hi)
    · rcases chosen_cons.mp hy with ⟨hi, rfl⟩ | hy'
      · exact absurd ⟨x, hx'⟩ (happart hi)
      · exact ih hrest hx' hy'

namespace Aggregate

variable [DecidableEq ι]

/-- The value at an index. -/
def find (a : Aggregate ι α) (i : ι) : Option α :=
  ((a.choices.find? fun choice => i ∈ choice.1).map Prod.snd).or a.others

/-- Each index of the range has one value, and there are no other indexes. -/
structure Legal (a : Aggregate ι α) (range : ι → Prop) : Prop where
  nodup : (indexes a.choices).Nodup
  inRange : ∀ i ∈ indexes a.choices, range i
  complete : a.others = none → ∀ i, range i → i ∈ indexes a.choices

variable {a : Aggregate ι α}

lemma find_of_chosen (h : (indexes a.choices).Nodup) {i : ι} {x : α} (hx : Chosen a.choices i x) :
    a.find i = some x := by
  unfold find
  cases hfind : a.choices.find? fun choice => i ∈ choice.1 with
  | none =>
    obtain ⟨is, hmem, hi⟩ := hx
    exact absurd (decide_eq_true hi) (List.find?_eq_none.mp hfind _ hmem)
  | some choice =>
    have hi : decide (i ∈ choice.1) = true := List.find?_some (p := fun c : List ι × α => decide (i ∈ c.1)) hfind
    have hy : Chosen a.choices i choice.2 := ⟨choice.1, List.mem_of_find?_eq_some hfind, of_decide_eq_true hi⟩
    rw [hx.unique h hy]
    rfl

lemma find_of_notMem {i : ι} (h : i ∉ indexes a.choices) : a.find i = a.others := by
  have hnone : a.choices.find? (fun choice => decide (i ∈ choice.1)) = none := by
    apply List.find?_eq_none.mpr
    intro choice hmem hi
    exact h (List.mem_flatMap.mpr ⟨choice, hmem, of_decide_eq_true hi⟩)
  rw [find, hnone]
  rfl

end Aggregate

/-! ### Choices by value -/

section Group

variable [LinearOrder ι] [DecidableEq α]

/-- Adds an index to the choice with a value, or makes a new choice. The indexes of a choice are a set, to which an
index can be added once. -/
def addChoice (i : ι) (x : α) : List (List ι × α) → Option (List (List ι × α))
  | [] => some [([i], x)]
  | (is, y) :: choices =>
    if y = x then if i ∈ is then none else some ((is.orderedInsert (· ≤ ·) i, y) :: choices)
    else (addChoice i x choices).map ((is, y) :: ·)

/-- Adds indexes with their values. -/
def addChoices (entries : List (ι × α)) (choices : List (List ι × α)) : Option (List (List ι × α)) :=
  entries.foldlM (fun choices entry => addChoice entry.1 entry.2 choices) choices

/-- What has been added to a list of choices. -/
structure Added (choices : List (List ι × α)) (entries : List (ι × α)) (choices' : List (List ι × α)) : Prop where
  indexes_perm : (indexes choices').Perm (entries.map Prod.fst ++ indexes choices)
  chosen_iff : ∀ i x, Chosen choices' i x ↔ (i, x) ∈ entries ∨ Chosen choices i x
  nonempty : (∀ choice ∈ choices, choice.1 ≠ []) → ∀ choice ∈ choices', choice.1 ≠ []
  nodup : (choices.map Prod.snd).Nodup → (choices'.map Prod.snd).Nodup

variable {i : ι} {x : α} {choices choices' : List (List ι × α)}

omit [LinearOrder ι] [DecidableEq α] in
lemma Added.refl : Added choices [] choices where
  indexes_perm := List.Perm.refl _
  chosen_iff _ _ := ⟨Or.inr, fun h => h.resolve_left List.not_mem_nil⟩
  nonempty h := h
  nodup h := h

omit [LinearOrder ι] [DecidableEq α] in
lemma Added.trans {choices'' : List (List ι × α)} {entries entries' : List (ι × α)} (h : Added choices entries choices')
    (h' : Added choices' entries' choices'') : Added choices (entries ++ entries') choices'' where
  indexes_perm := by
    rw [List.map_append]
    calc (indexes choices'').Perm (entries'.map Prod.fst ++ indexes choices') := h'.indexes_perm
      List.Perm _ (entries'.map Prod.fst ++ (entries.map Prod.fst ++ indexes choices)) := h.indexes_perm.append_left _
      List.Perm _ ((entries'.map Prod.fst ++ entries.map Prod.fst) ++ indexes choices) := by rw [List.append_assoc]
      List.Perm _ _ := List.perm_append_comm.append_right _
  chosen_iff i x := by rw [h'.chosen_iff, h.chosen_iff, List.mem_append, or_left_comm, or_assoc]
  nonempty hne := h'.nonempty (h.nonempty hne)
  nodup hnd := h'.nodup (h.nodup hnd)

lemma mem_values_addChoice (h : addChoice i x choices = some choices') (y : α) (hy : y ∈ choices'.map Prod.snd) :
    y = x ∨ y ∈ choices.map Prod.snd := by
  induction choices generalizing choices' with
  | nil =>
    obtain rfl := Option.some.inj h
    exact Or.inl (List.mem_singleton.mp hy)
  | cons choice choices ih =>
    obtain ⟨is, z⟩ := choice
    rw [addChoice] at h
    by_cases hz : z = x
    · rw [if_pos hz] at h
      split at h
      · cases h
      · obtain rfl := Option.some.inj h
        exact Or.inr hy
    · rw [if_neg hz] at h
      obtain ⟨rest, hrest, rfl⟩ := Option.map_eq_some_iff.mp h
      rcases List.mem_cons.mp hy with rfl | hy
      · exact Or.inr List.mem_cons_self
      · exact (ih hrest hy).imp_right (List.mem_cons_of_mem _)

lemma addChoice_added (h : addChoice i x choices = some choices') : Added choices [(i, x)] choices' := by
  induction choices generalizing choices' with
  | nil =>
    obtain rfl := Option.some.inj h
    refine ⟨List.Perm.refl _, ?_, ?_, ?_⟩
    · intro j y
      rw [chosen_cons, List.mem_singleton, List.mem_singleton, Prod.mk.injEq]
    · intro _ choice hchoice
      rw [List.mem_singleton.mp hchoice]
      exact List.cons_ne_nil _ _
    · exact fun _ => List.nodup_singleton _
  | cons choice choices ih =>
    obtain ⟨is, z⟩ := choice
    rw [addChoice] at h
    by_cases hz : z = x
    · rw [if_pos hz] at h
      subst hz
      split at h
      · cases h
      · obtain rfl := Option.some.inj h
        refine ⟨?_, ?_, ?_, fun hnd => hnd⟩
        · exact (List.perm_orderedInsert _ i is).append_right _
        · intro j y
          rw [chosen_cons, chosen_cons, List.mem_orderedInsert, List.mem_singleton, Prod.mk.injEq, or_and_right,
            or_assoc]
        · intro hne choice hchoice
          rcases List.mem_cons.mp hchoice with rfl | hchoice
          · exact List.ne_nil_of_mem ((List.mem_orderedInsert _).mpr (Or.inl rfl))
          · exact hne choice (List.mem_cons_of_mem _ hchoice)
    · rw [if_neg hz] at h
      obtain ⟨rest, hrest, rfl⟩ := Option.map_eq_some_iff.mp h
      have hadded := ih hrest
      refine ⟨?_, ?_, ?_, ?_⟩
      · exact (hadded.indexes_perm.append_left is).trans List.perm_middle
      · intro j y
        rw [chosen_cons, chosen_cons, hadded.chosen_iff, or_left_comm]
      · intro hne choice hchoice
        rcases List.mem_cons.mp hchoice with rfl | hchoice
        · exact hne _ List.mem_cons_self
        · exact hadded.nonempty (fun c hc => hne c (List.mem_cons_of_mem _ hc)) choice hchoice
      · intro hnd
        obtain ⟨hfresh, hnd⟩ := List.nodup_cons.mp hnd
        apply List.nodup_cons.mpr
        refine ⟨?_, hadded.nodup hnd⟩
        exact fun hmem => (mem_values_addChoice hrest z hmem).elim hz hfresh

lemma addChoice_isSome (h : i ∉ indexes choices) : ∃ choices', addChoice i x choices = some choices' := by
  induction choices with
  | nil => exact ⟨_, rfl⟩
  | cons choice choices ih =>
    obtain ⟨is, z⟩ := choice
    have hnot : i ∉ is ∧ i ∉ indexes choices := not_or.mp fun hor => h (List.mem_append.mpr hor)
    rw [addChoice]
    by_cases hz : z = x
    · rw [if_pos hz, if_neg hnot.1]
      exact ⟨_, rfl⟩
    · rw [if_neg hz]
      obtain ⟨choices', hchoices⟩ := ih hnot.2
      exact ⟨_, by rw [hchoices]; rfl⟩

lemma addChoices_added {entries : List (ι × α)} (h : addChoices entries choices = some choices') :
    Added choices entries choices' := by
  induction entries generalizing choices with
  | nil =>
    obtain rfl := Option.some.inj h
    exact Added.refl
  | cons entry entries ih =>
    obtain ⟨middle, hmiddle, hrest⟩ := Option.bind_eq_some_iff.mp h
    exact (addChoice_added hmiddle).trans (ih hrest)

lemma addChoices_isSome {entries : List (ι × α)} (h : (entries.map Prod.fst ++ indexes choices).Nodup) :
    ∃ choices', addChoices entries choices = some choices' := by
  induction entries generalizing choices with
  | nil => exact ⟨choices, rfl⟩
  | cons entry entries ih =>
    obtain ⟨hfresh, hrest⟩ := List.nodup_cons.mp h
    obtain ⟨middle, hmiddle⟩ := addChoice_isSome (x := entry.2) (fun hmem => hfresh (List.mem_append_right _ hmem))
    have hperm : (entry.1 :: (entries.map Prod.fst ++ indexes choices)).Perm
        (entries.map Prod.fst ++ indexes middle) :=
      List.perm_middle.symm.trans ((addChoice_added hmiddle).indexes_perm.symm.append_left _)
    obtain ⟨choices', hchoices⟩ := ih (hperm.nodup_iff.mp h)
    exact ⟨choices', by rw [addChoices, List.foldlM_cons, hmiddle]; exact hchoices⟩

end Group

/-- There are at least as many indexes as choices. -/
lemma length_le_indexes {choices : List (List ι × α)} (h : ∀ choice ∈ choices, choice.1 ≠ []) :
    choices.length ≤ (indexes choices).length := by
  induction choices with
  | nil => exact Nat.zero_le _
  | cons choice choices ih =>
    have hpos : 0 < choice.1.length := List.length_pos_iff.mpr (h choice List.mem_cons_self)
    have hrest := ih fun c hc => h c (List.mem_cons_of_mem _ hc)
    have hcons : (indexes (choice :: choices)).length = choice.1.length + (indexes choices).length :=
      List.length_append
    rw [hcons, List.length_cons]
    omega

end Muen.Lib
