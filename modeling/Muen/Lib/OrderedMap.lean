import Mathlib.Data.List.Basic

/-!
# Ordered maps

A map is the list of its keys with their elements in the order of the keys.
-/

namespace Muen.Lib.OrderedMap

variable {κ α : Type} [DecidableEq κ] [LT κ] [DecidableLT κ]

/-- The map with an element for a key, in place of the one that it has for it. -/
def insert (key : κ) (element : α) : List (κ × α) → List (κ × α)
  | [] => [(key, element)]
  | (k, a) :: map =>
    if k = key then (key, element) :: map
    else if key < k then (key, element) :: (k, a) :: map
    else (k, a) :: insert key element map

@[simp] lemma lookup_insert_self (key : κ) (element : α) (map : List (κ × α)) :
    (insert key element map).lookup key = some element := by
  induction map with
  | nil => simp [insert]
  | cons entry map ih =>
    obtain ⟨k, a⟩ := entry
    unfold insert
    by_cases hk : k = key
    · rw [if_pos hk, List.lookup_cons_self]
    · rw [if_neg hk]
      split
      · rw [List.lookup_cons_self]
      · rw [List.lookup_cons, beq_false_of_ne (Ne.symm hk)]
        exact ih

lemma lookup_insert_of_ne {key k : κ} (hne : k ≠ key) (element : α) (map : List (κ × α)) :
    (insert key element map).lookup k = map.lookup k := by
  have hbeq := beq_false_of_ne hne
  induction map with
  | nil => simp [insert, List.lookup_cons, hbeq]
  | cons entry map ih =>
    obtain ⟨k', a⟩ := entry
    unfold insert
    by_cases hk : k' = key
    · rw [if_pos hk, List.lookup_cons, hbeq, List.lookup_cons, hk, hbeq]
    · rw [if_neg hk]
      split
      · rw [List.lookup_cons, hbeq]
      · rw [List.lookup_cons, List.lookup_cons, ih]

end Muen.Lib.OrderedMap
