import Mathlib.Data.Finset.Card
import Mathlib.Logic.Relation
import Mathlib.Data.Set.Insert

/-!
# Search along paths

A search for a goal that marks the nodes on its current path and takes the mark away on its way back only follows paths
that meet no node twice. It still finds a goal from every node that one can be reached from, since the nodes of a
shortest path are different.
-/

namespace Muen.Lib

variable {α : Type} {next : α → α → Prop} {goal goal' : α → Prop}

/-- A goal is found along nodes that are not marked, where each of them is marked before the next one. -/
inductive Found (next : α → α → Prop) (goal : α → Prop) : Set α → α → Prop
  | goal {marked : Set α} {a : α} (h : goal a) : Found next goal marked a
  | step {marked : Set α} {a b : α} (ha : a ∉ marked) (hb : next a b) (h : Found next goal (insert a marked) b) :
      Found next goal marked a

lemma Found.imp {marked : Set α} {a : α} (h : Found next goal marked a) (hgoal : ∀ a, goal a → goal' a) :
    Found next goal' marked a := by
  induction h with
  | goal h => exact Found.goal (hgoal _ h)
  | step ha hb _ ih => exact Found.step ha hb ih

/-- A goal is at most some steps away. -/
def Within (next : α → α → Prop) (goal : α → Prop) : Nat → α → Prop
  | 0, a => goal a
  | n + 1, a => goal a ∨ ∃ b, next a b ∧ Within next goal n b

lemma Within.succ {n : Nat} {a : α} (h : Within next goal n a) : Within next goal (n + 1) a := by
  induction n generalizing a with
  | zero => exact Or.inl h
  | succ n ih =>
    rcases h with hgoal | ⟨b, hb, h⟩
    · exact Or.inl hgoal
    · exact Or.inr ⟨b, hb, ih h⟩

lemma Within.of_reaches {a b : α} (h : Relation.ReflTransGen next a b) (hgoal : goal b) :
    ∃ n, Within next goal n a := by
  induction h using Relation.ReflTransGen.head_induction_on with
  | refl => exact ⟨0, hgoal⟩
  | head hac _ ih =>
    obtain ⟨n, hn⟩ := ih
    exact ⟨n + 1, Or.inr ⟨_, hac, hn⟩⟩

/-- Marked nodes that are farther from a goal do not hide it. -/
lemma Found.of_within {n : Nat} {a : α} {marked : Set α} (h : Within next goal n a)
    (hmarked : ∀ b ∈ marked, ¬Within next goal n b) : Found next goal marked a := by
  induction n generalizing a marked with
  | zero => exact Found.goal h
  | succ n ih =>
    have hfarther : ∀ b ∈ marked, ¬Within next goal n b := fun b hb hn => hmarked b hb hn.succ
    by_cases hnear : Within next goal n a
    · exact ih hnear hfarther
    · rcases h with hgoal | ⟨b, hb, hbn⟩
      · exact Found.goal hgoal
      · have ha : a ∉ marked := fun hmem => hmarked a hmem (Or.inr ⟨b, hb, hbn⟩)
        apply Found.step ha hb
        apply ih hbn
        intro c hc
        rcases Set.mem_insert_iff.mp hc with rfl | hc
        · exact hnear
        · exact hfarther c hc

lemma Found.of_reaches {a b : α} (h : Relation.ReflTransGen next a b) (hgoal : goal b) : Found next goal ∅ a := by
  obtain ⟨n, hn⟩ := Within.of_reaches h hgoal
  exact Found.of_within hn nofun

/-- Marking a node leaves fewer nodes without a mark. -/
lemma card_unmarked_lt [DecidableEq α] {s : Finset α} {marked : α → Bool} {a : α} (ha : a ∈ s)
    (hmarked : marked a = false) :
    (s.filter (fun b => Function.update marked a true b = false)).card < (s.filter (marked · = false)).card := by
  apply Finset.card_lt_card
  rw [Finset.ssubset_iff_of_subset]
  · refine ⟨a, Finset.mem_filter.mpr ⟨ha, hmarked⟩, ?_⟩
    intro hmem
    have hfalse := (Finset.mem_filter.mp hmem).2
    simp at hfalse
  · intro b hb
    obtain ⟨hs, hfalse⟩ := Finset.mem_filter.mp hb
    refine Finset.mem_filter.mpr ⟨hs, ?_⟩
    by_cases heq : b = a
    · rw [heq]
      exact hmarked
    · simpa [Function.update_of_ne heq] using hfalse

end Muen.Lib
