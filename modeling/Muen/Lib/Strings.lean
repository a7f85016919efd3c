import Mathlib.Data.List.Basic

/-!
# Strings with positions

A string is a list of characters whose positions are numbered from that of the first one. Searches return the position
of the first occurrence at or after a given position, or zero.
-/

namespace Muen.Lib

structure Str where
  first : Nat
  chars : List Char
  first_pos : 0 < first

/-- The position of the first occurrence of a pattern in characters numbered from `position`. -/
def searchFrom (pattern : List Char) : Nat → List Char → Nat
  | _, [] => 0
  | position, c :: cs => if pattern.isPrefixOf (c :: cs) then position else searchFrom pattern (position + 1) cs

namespace Str

def last (s : Str) : Nat := s.first + s.chars.length - 1

/-- The characters at positions from `low` to `high`, with their positions. -/
def slice (s : Str) (low high : Nat) : Option Str :=
  if hlow : 0 < low then
    if high < low then some ⟨low, [], hlow⟩
    else if s.first ≤ low ∧ high ≤ s.last then
      some ⟨low, (s.chars.drop (low - s.first)).take (high + 1 - low), hlow⟩
    else none
  else none

/-- The search may start one past the end, where it finds nothing. -/
def index (s : Str) (pattern : List Char) (start : Nat) : Option Nat :=
  if s.chars = [] then some 0
  else if s.first ≤ start ∧ start ≤ s.last + 1 then some (searchFrom pattern start (s.chars.drop (start - s.first)))
  else none

/-- The characters from a position on. -/
def At (s : Str) (position : Nat) (rest : List Char) : Prop :=
  ∃ done, s.chars = done ++ rest ∧ position = s.first + done.length

lemma at_first (s : Str) : s.At s.first s.chars := ⟨[], rfl, rfl⟩

namespace At

variable {s : Str} {position : Nat} {l rest : List Char}

lemma pos (h : s.At position rest) : 0 < position := by
  obtain ⟨done, -, hposition⟩ := h
  have hfirst := s.first_pos
  omega

lemma append (h : s.At position (l ++ rest)) : s.At (position + l.length) rest := by
  obtain ⟨done, hchars, hposition⟩ := h
  refine ⟨done ++ l, by rw [hchars, List.append_assoc], ?_⟩
  rw [List.length_append]
  omega

lemma last_eq (h : s.At position rest) : s.last = position + rest.length - 1 := by
  obtain ⟨done, hchars, hposition⟩ := h
  unfold last
  rw [hchars, List.length_append]
  omega

lemma index_eq (h : s.At position rest) (pattern : List Char) :
    s.index pattern position = some (searchFrom pattern position rest) := by
  have hlast := h.last_eq
  have hfirst := s.first_pos
  obtain ⟨done, hchars, hposition⟩ := h
  unfold index
  by_cases hempty : s.chars = []
  · rw [if_pos hempty]
    rw [hempty] at hchars
    obtain ⟨-, rfl⟩ := List.append_eq_nil_iff.mp hchars.symm
    rfl
  · have hdrop : s.chars.drop (position - s.first) = rest := by
      rw [hchars, hposition, Nat.add_sub_cancel_left, List.drop_left]
    rw [if_neg hempty, if_pos ⟨by omega, by omega⟩, hdrop]

lemma slice_eq (h : s.At position (l ++ rest)) :
    s.slice position (position + l.length - 1) = some ⟨position, l, h.pos⟩ := by
  have hlast := h.last_eq
  have hpos := h.pos
  obtain ⟨done, hchars, hposition⟩ := h
  unfold slice
  rw [dif_pos hpos]
  by_cases hempty : l = []
  · subst hempty
    rw [if_pos (by rw [List.length_nil]; omega)]
  · have hlength := List.length_pos_iff.mpr hempty
    rw [List.length_append] at hlast
    have hdrop : s.chars.drop (position - s.first) = l ++ rest := by
      rw [hchars, hposition, Nat.add_sub_cancel_left, List.drop_left]
    have hcount : position + l.length - 1 + 1 - position = l.length := by omega
    rw [if_neg (by omega), if_pos ⟨by omega, by omega⟩]
    congr
    rw [hdrop, hcount, List.take_left]

end At

end Str

/-! ### Occurrences -/

/-- A pattern occurs after the characters `before` and nowhere earlier. -/
def FirstOccurrence (pattern before after l : List Char) : Prop :=
  l = before ++ (pattern ++ after) ∧ ∀ p q, l = p ++ (pattern ++ q) → before.length ≤ p.length

lemma searchFrom_cases {pattern : List Char} (hpattern : pattern ≠ []) {position : Nat} (hpos : 0 < position)
    (l : List Char) :
    (searchFrom pattern position l = 0 ∧ ∀ p q, l ≠ p ++ (pattern ++ q)) ∨
      ∃ before after, FirstOccurrence pattern before after l ∧
        searchFrom pattern position l = position + before.length := by
  induction l generalizing position with
  | nil =>
    refine Or.inl ⟨rfl, ?_⟩
    intro p q h
    have hnil := List.append_eq_nil_iff.mp h.symm
    exact hpattern (List.append_eq_nil_iff.mp hnil.2).1
  | cons c cs ih =>
    unfold searchFrom
    by_cases hprefix : pattern.isPrefixOf (c :: cs) = true
    · rw [if_pos hprefix]
      obtain ⟨after, hafter⟩ := List.isPrefixOf_iff_prefix.mp hprefix
      exact Or.inr ⟨[], after, ⟨hafter.symm, fun _ _ _ => Nat.zero_le _⟩, rfl⟩
    · rw [if_neg hprefix]
      have hhead : ∀ q, c :: cs ≠ [] ++ (pattern ++ q) :=
        fun q h => hprefix (List.isPrefixOf_iff_prefix.mpr ⟨q, h.symm⟩)
      rcases ih (Nat.succ_pos position) with ⟨hzero, hnone⟩ | ⟨before, after, ⟨hcs, hfirst⟩, hsearch⟩
      · refine Or.inl ⟨hzero, ?_⟩
        intro p q h
        cases p with
        | nil => exact hhead q h
        | cons c' p => exact hnone p q (List.cons.inj h).2
      · refine Or.inr ⟨c :: before, after, ⟨by rw [hcs]; rfl, ?_⟩, ?_⟩
        · intro p q h
          cases p with
          | nil => exact absurd h (hhead q)
          | cons c' p => exact Nat.succ_le_succ (hfirst p q (List.cons.inj h).2)
        · rw [hsearch, List.length_cons]
          omega

/-- A character is found if it is one of them. -/
lemma searchFrom_singleton {c : Char} {position : Nat} (hpos : 0 < position) (l : List Char) :
    searchFrom [c] position l = 0 ↔ c ∉ l := by
  rcases searchFrom_cases (List.cons_ne_nil c []) hpos l with ⟨hzero, hnone⟩ | ⟨before, after, ⟨hl, -⟩, hsearch⟩
  · refine iff_of_true hzero ?_
    intro hmem
    obtain ⟨p, q, h⟩ := List.append_of_mem hmem
    exact hnone p q h
  · refine iff_of_false (by omega) ?_
    rw [not_not, hl]
    simp

end Muen.Lib
