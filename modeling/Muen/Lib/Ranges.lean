import Mathlib.Data.Set.Lattice
import Mathlib.Tactic

/-!
# Ordered lists of ranges

A list of things that each stand for a set, the union of these sets, and lists that are kept
in order by a relation between any two of their members. Operations on such lists put a list
in the place of one member or of a gap; the lemmas say when that keeps the order and what it
does to the union.
-/

namespace Muen.Lib

variable {α β : Type}

/-- The union of the sets of the members of a list. -/
def covered (f : α → Set β) (l : List α) : Set β := {a | ∃ i ∈ l, a ∈ f i}

/-- Members are valid and any two of them are in the order `R`. -/
def Ordered (P : α → Prop) (R : α → α → Prop) (l : List α) : Prop := (∀ i ∈ l, P i) ∧ l.Pairwise R

section Covered

variable (f : α → Set β)

@[simp] lemma covered_nil : covered f [] = ∅ := by
  ext a
  simp [covered]

lemma covered_cons (i : α) (l : List α) : covered f (i :: l) = f i ∪ covered f l := by
  ext a
  simp [covered]

lemma covered_append (l m : List α) : covered f (l ++ m) = covered f l ∪ covered f m := by
  induction l with
  | nil => rw [List.nil_append, covered_nil, Set.empty_union]
  | cons i l ih => rw [List.cons_append, covered_cons, covered_cons, ih, Set.union_assoc]

/-- Taking a part of one member away takes it from the union when the other members are apart. -/
lemma covered_replace {before after m : List α} {e : α} {t : Set β} (hm : covered f m = f e \ t)
    (hbefore : ∀ d ∈ before, ∀ x ∈ t, x ∉ f d) (hafter : ∀ d ∈ after, ∀ x ∈ t, x ∉ f d) :
    covered f (before ++ (m ++ after)) = covered f (before ++ e :: after) \ t := by
  have hapart : ∀ l : List α, (∀ d ∈ l, ∀ x ∈ t, x ∉ f d) → covered f l \ t = covered f l := by
    intro l hl
    apply Set.Subset.antisymm Set.sdiff_subset
    rintro x ⟨d, hd, hx⟩
    exact ⟨⟨d, hd, hx⟩, fun hxt => hl d hd x hxt hx⟩
  rw [covered_append, covered_append, covered_append, covered_cons, hm, Set.union_sdiff_distrib,
    Set.union_sdiff_distrib, hapart before hbefore, hapart after hafter]

/-- Putting members into a gap adds what they stand for. -/
lemma covered_insert (before m after : List α) :
    covered f (before ++ (m ++ after)) = covered f (before ++ after) ∪ covered f m := by
  rw [covered_append, covered_append, covered_append, Set.union_assoc, Set.union_comm (covered f m)]

end Covered

section Ordered

variable {P : α → Prop} {R : α → α → Prop}

lemma ordered_nil : Ordered P R [] := ⟨by simp, List.Pairwise.nil⟩

lemma ordered_cons {i : α} {l : List α} :
    Ordered P R (i :: l) ↔ P i ∧ (∀ j ∈ l, R i j) ∧ Ordered P R l := by
  simp only [Ordered, List.forall_mem_cons, List.pairwise_cons]
  tauto

lemma ordered_append {l m : List α} :
    Ordered P R (l ++ m) ↔ Ordered P R l ∧ Ordered P R m ∧ ∀ i ∈ l, ∀ j ∈ m, R i j := by
  simp only [Ordered, List.pairwise_append, List.mem_append]
  constructor
  · rintro ⟨hn, hl, hm, hlm⟩
    exact ⟨⟨fun i hi => hn i (Or.inl hi), hl⟩, ⟨fun i hi => hn i (Or.inr hi), hm⟩, hlm⟩
  · rintro ⟨⟨hnl, hl⟩, ⟨hnm, hm⟩, hlm⟩
    exact ⟨fun i hi => hi.elim (hnl i) (hnm i), hl, hm, hlm⟩

lemma Ordered.filter {l : List α} (h : Ordered P R l) (p : α → Bool) : Ordered P R (l.filter p) :=
  ⟨fun i hi => h.1 i (List.mem_of_mem_filter hi), h.2.sublist List.filter_sublist⟩

/-- Two members are the same or stand in the order one way or the other. -/
lemma Ordered.compare {l : List α} (h : Ordered P R l) {d e : α} (hd : d ∈ l) (he : e ∈ l) :
    d = e ∨ R d e ∨ R e d := by
  induction l with
  | nil => simp at hd
  | cons x l ih =>
    obtain ⟨-, hgap, hl⟩ := ordered_cons.mp h
    rcases List.mem_cons.mp hd with hdx | hd' <;> rcases List.mem_cons.mp he with hex | he'
    · exact Or.inl (hdx.trans hex.symm)
    · exact Or.inr (Or.inl (hdx ▸ hgap e he'))
    · exact Or.inr (Or.inr (hex ▸ hgap d hd'))
    · exact ih hl hd' he'

/-- Members in the place of a gap. -/
lemma Ordered.insert {before after m : List α} (h : Ordered P R (before ++ after)) (hm : Ordered P R m)
    (hbefore : ∀ c ∈ before, ∀ d ∈ m, R c d) (hafter : ∀ d ∈ m, ∀ c ∈ after, R d c) :
    Ordered P R (before ++ (m ++ after)) := by
  obtain ⟨hb, ha, hba⟩ := ordered_append.mp h
  refine ordered_append.mpr ⟨hb, ordered_append.mpr ⟨hm, ha, hafter⟩, ?_⟩
  intro c hc d hd
  rcases List.mem_append.mp hd with hd | hd
  · exact hbefore c hc d hd
  · exact hba c hc d hd

/-- Members in the place of another one whose order to the rest they inherit. -/
lemma Ordered.replace {before after m : List α} {e : α} (h : Ordered P R (before ++ e :: after))
    (hm : Ordered P R m) (hleft : ∀ d ∈ m, ∀ c, R c e → R c d) (hright : ∀ d ∈ m, ∀ c, R e c → R d c) :
    Ordered P R (before ++ (m ++ after)) := by
  obtain ⟨hb, hea, hbe⟩ := ordered_append.mp h
  obtain ⟨-, hgap, ha⟩ := ordered_cons.mp hea
  have hba : Ordered P R (before ++ after) :=
    ordered_append.mpr ⟨hb, ha, fun c hc d hd => hbe c hc d (List.mem_cons_of_mem e hd)⟩
  apply hba.insert hm
  · exact fun c hc d hd => hleft d hd c (hbe c hc e List.mem_cons_self)
  · exact fun d hd c hc => hright d hd c (hgap c hc)

end Ordered

end Muen.Lib
