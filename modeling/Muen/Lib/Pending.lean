import Mathlib.Order.Bounds.Defs
import Mathlib.Data.Set.Insert
import Mathlib.Logic.Function.Basic

/-!
# Sets of pending items

Every owner has a set of pending items. Items are inserted one by one and the greatest is taken first.
A history lists the calls together with their answers.
-/

namespace Muen.Lib.Pending

inductive Call (ι α : Type)
  | insert (i : ι) (a : α)
  | take (i : ι)
  | test (i : ι)
  | clear (i : ι)

inductive Answer (α : Type)
  | done
  | taken (a : Option α)
  | holds (b : Bool)

variable {ι α : Type} [DecidableEq ι] [LE α]

/-- What a call does to the sets and what it answers. -/
inductive Step : (ι → Set α) → Call ι α × Answer α → (ι → Set α) → Prop
  | insert (S : ι → Set α) (i : ι) (a : α) :
      Step S (.insert i a, .done) (Function.update S i (insert a (S i)))
  | take {S : ι → Set α} {i : ι} {a : α} (h : IsGreatest (S i) a) :
      Step S (.take i, .taken (some a)) (Function.update S i (S i \ {a}))
  | takeNone {S : ι → Set α} {i : ι} (h : S i = ∅) : Step S (.take i, .taken none) S
  | test {S : ι → Set α} {i : ι} {b : Bool} (h : b = true ↔ (S i).Nonempty) : Step S (.test i, .holds b) S
  | clear (S : ι → Set α) (i : ι) : Step S (.clear i, .done) (Function.update S i ∅)

inductive Steps : (ι → Set α) → List (Call ι α × Answer α) → (ι → Set α) → Prop
  | nil (S : ι → Set α) : Steps S [] S
  | cons {S S₁ S' : ι → Set α} {e : Call ι α × Answer α} {es : List (Call ι α × Answer α)} :
      Step S e S₁ → Steps S₁ es S' → Steps S (e :: es) S'

/-- The item `a` is taken from the set of `i`. -/
def delivery (i : ι) (a : α) : Call ι α × Answer α := (.take i, .taken (some a))

lemma Step.keeps {S S' : ι → Set α} {e : Call ι α × Answer α} (h : Step S e S') {i : ι} {a : α}
    (ha : a ∈ S i) (hclear : e.1 ≠ .clear i) (hdeliver : e ≠ delivery i a) : a ∈ S' i := by
  cases h with
  | insert j b =>
    by_cases hij : i = j
    · subst hij
      rw [Function.update_self]
      exact Set.mem_insert_of_mem b ha
    · rwa [Function.update_of_ne hij]
  | @take j b h =>
    by_cases hij : i = j
    · subst hij
      rw [Function.update_self]
      have hab : a ≠ b := fun hab => hdeliver (by rw [hab, delivery])
      exact ⟨ha, hab⟩
    · rwa [Function.update_of_ne hij]
  | takeNone h => exact ha
  | test h => exact ha
  | clear j =>
    have hij : i ≠ j := fun hij => hclear (by rw [hij])
    rwa [Function.update_of_ne hij]

lemma Step.absent {S S' : ι → Set α} {e : Call ι α × Answer α} (h : Step S e S') {i : ι} {a : α}
    (ha : a ∉ S i) (hinsert : e.1 ≠ .insert i a) : a ∉ S' i := by
  cases h with
  | insert j b =>
    by_cases hij : i = j
    · subst hij
      rw [Function.update_self]
      have hab : a ≠ b := fun hab => hinsert (by rw [hab])
      exact fun hmem => hmem.elim hab ha
    · rwa [Function.update_of_ne hij]
  | @take j b h =>
    by_cases hij : i = j
    · subst hij
      rw [Function.update_self]
      exact fun hmem => ha hmem.1
    · rwa [Function.update_of_ne hij]
  | takeNone h => exact ha
  | test h => exact ha
  | clear j =>
    by_cases hij : i = j
    · subst hij
      rw [Function.update_self]
      exact Set.notMem_empty a
    · rwa [Function.update_of_ne hij]

lemma Steps.append {S S' : ι → Set α} {es fs : List (Call ι α × Answer α)} (h : Steps S (es ++ fs) S') :
    ∃ S₁, Steps S es S₁ ∧ Steps S₁ fs S' := by
  induction es generalizing S with
  | nil => exact ⟨S, .nil S, h⟩
  | cons e es ih =>
    cases h with
    | cons he hes =>
      obtain ⟨S₁, h₁, h₂⟩ := ih hes
      exact ⟨S₁, .cons he h₁, h₂⟩

lemma Steps.keeps {S S' : ι → Set α} {es : List (Call ι α × Answer α)} (h : Steps S es S') {i : ι} {a : α}
    (ha : a ∈ S i) (hclear : ∀ e ∈ es, e.1 ≠ .clear i) (hdeliver : delivery i a ∉ es) : a ∈ S' i := by
  induction h with
  | nil S => exact ha
  | @cons S S₁ S' e es he hes ih =>
    have hne : e ≠ delivery i a := fun hne => hdeliver (by simp [hne])
    have h₁ : a ∈ S₁ i := he.keeps ha (hclear e (by simp)) hne
    exact ih h₁ (fun f hf => hclear f (by simp [hf])) (fun hmem => hdeliver (by simp [hmem]))

lemma Steps.absent {S S' : ι → Set α} {es : List (Call ι α × Answer α)} (h : Steps S es S') {i : ι} {a : α}
    (ha : a ∉ S i) (hinsert : ∀ e ∈ es, e.1 ≠ .insert i a) : a ∉ S' i := by
  induction h with
  | nil S => exact ha
  | @cons S S₁ S' e es he hes ih =>
    have h₁ : a ∉ S₁ i := he.absent ha (hinsert e (by simp))
    exact ih h₁ (fun f hf => hinsert f (by simp [hf]))

/-- What the history of calls says about the delivery of items. -/
structure Delivers (S : ι → Set α) (es : List (Call ι α × Answer α)) (S' : ι → Set α) : Prop where
  /-- An inserted item is delivered or still pending, unless the set is cleared. -/
  delivered : ∀ pre post i a r, es = pre ++ (Call.insert i a, r) :: post →
    (∀ e ∈ post, e.1 ≠ .clear i) → delivery i a ∈ post ∨ a ∈ S' i
  /-- An item is delivered only if it was pending at the start or inserted before. -/
  inserted : ∀ pre post i a, es = pre ++ delivery i a :: post →
    a ∈ S i ∨ ∃ e ∈ pre, e.1 = .insert i a
  /-- Between two deliveries of an item it is inserted again. -/
  once : ∀ pre mid post i a, es = pre ++ delivery i a :: (mid ++ delivery i a :: post) →
    ∃ e ∈ mid, e.1 = .insert i a
  /-- As long as an item is pending, what is taken is not below it. -/
  highest : ∀ pre mid post i a r o, es = pre ++ (Call.insert i a, r) :: (mid ++ (Call.take i, o) :: post) →
    (∀ e ∈ mid, e.1 ≠ .clear i) → delivery i a ∉ mid → ∃ b, o = .taken (some b) ∧ a ≤ b

theorem Steps.delivers {S S' : ι → Set α} {es : List (Call ι α × Answer α)} (h : Steps S es S') :
    Delivers S es S' where
  delivered := by
    rintro pre post i a r rfl hclear
    obtain ⟨S₁, h₁, h₂⟩ := h.append
    by_cases hd : delivery i a ∈ post
    · exact .inl hd
    · cases h₂ with
      | cons he hes =>
        cases he with
        | insert =>
          have ha : a ∈ Function.update S₁ i (insert a (S₁ i)) i := by simp
          exact .inr (hes.keeps ha hclear hd)
  inserted := by
    rintro pre post i a rfl
    obtain ⟨S₁, h₁, h₂⟩ := h.append
    by_contra hnone
    push Not at hnone
    have habs : a ∉ S₁ i := h₁.absent hnone.1 hnone.2
    cases h₂ with
    | cons he hes =>
      cases he with
      | take hg => exact habs hg.1
  once := by
    rintro pre mid post i a rfl
    obtain ⟨S₁, h₁, h₂⟩ := h.append
    cases h₂ with
    | cons he hes =>
      obtain ⟨S₂, h₃, h₄⟩ := hes.append
      by_contra hnone
      push Not at hnone
      cases he with
      | take hg =>
        have hout : a ∉ Function.update S₁ i (S₁ i \ {a}) i := by simp
        have habs : a ∉ S₂ i := h₃.absent hout hnone
        cases h₄ with
        | cons he' _ =>
          cases he' with
          | take hg' => exact habs hg'.1
  highest := by
    rintro pre mid post i a r o rfl hclear hd
    obtain ⟨S₁, h₁, h₂⟩ := h.append
    cases h₂ with
    | cons he hes =>
      obtain ⟨S₂, h₃, h₄⟩ := hes.append
      cases he with
      | insert =>
        have ha : a ∈ Function.update S₁ i (insert a (S₁ i)) i := by simp
        have ha₂ : a ∈ S₂ i := h₃.keeps ha hclear hd
        cases h₄ with
        | cons he' _ =>
          cases he' with
          | @take _ b hg => exact ⟨b, rfl, hg.2 ha₂⟩
          | takeNone hempty =>
            rw [hempty] at ha₂
            exact absurd ha₂ (Set.notMem_empty a)

end Muen.Lib.Pending
