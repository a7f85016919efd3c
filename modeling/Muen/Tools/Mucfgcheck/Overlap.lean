import Muen.Tools.Utils
import Mathlib.Data.List.Basic

/-!
# Mucfgcheck: overlap of memory regions

`Check_Memory_Overlap` compares each region of a list with all that follow it and records an error for each pair that
it finds to overlap. The ends of the regions are 64-bit numbers, and that of a region at the top of the address space
wraps to zero.
-/

namespace Muen.Tools.Mucfgcheck

/-- A region with the values of its name, address and size attributes. -/
structure Region where
  name : String
  address : Unsigned64
  size : Unsigned64

/-- Compares each element with all that follow it. -/
def compareAll {σ α : Type} (comparator : σ → α → α → σ) (nodes : List α) (s : σ) : σ :=
  if nodes.length < 2 then s
  else
    (List.range (nodes.length - 1)).foldl (fun s i =>
      (List.range' (i + 1) (nodes.length - 1 - i)).foldl (fun s j =>
        match nodes[i]?, nodes[j]? with
        | some left, some right => comparator s left right
        | _, _ => s) s) s

def overlaps (left right : Region) : Bool :=
  (left.address ≤ right.address && left.address + left.size > right.address) ||
    (right.address < left.address && right.address + right.size > left.address)

/-- The errors that are recorded for a pair. -/
def checkOverlap (regionType addMsg : String) (left right : Region) : List String :=
  if overlaps left right then
    ["Overlap of " ++ regionType ++ " '" ++ left.name ++ "' and '" ++ right.name ++ "'" ++ addMsg]
  else []

def checkMemoryOverlap (nodes : List Region) (regionType addMsg : String) (errors : List String) : List String :=
  compareAll (fun errors left right => errors ++ checkOverlap regionType addMsg left right) nodes errors

/-! ### Pairs of regions -/

/-- Two elements of a list in their order. -/
def Pair {α : Type} (nodes : List α) (left right : α) : Prop :=
  ∃ i j : Nat, i < j ∧ nodes[i]? = some left ∧ nodes[j]? = some right

lemma Pair.mem {α : Type} {nodes : List α} {left right : α} (h : Pair nodes left right) :
    left ∈ nodes ∧ right ∈ nodes := by
  obtain ⟨i, j, -, hleft, hright⟩ := h
  exact ⟨List.mem_of_getElem? hleft, List.mem_of_getElem? hright⟩

/-- The results of a comparator that appends are those of all pairs. -/
lemma compareAll_append {α β : Type} (f : α → α → List β) (nodes : List α) (s : List β) :
    ∃ found, compareAll (fun s left right => s ++ f left right) nodes s = s ++ found ∧
      ∀ e, e ∈ found ↔ ∃ left right, Pair nodes left right ∧ e ∈ f left right := by
  unfold compareAll
  by_cases hshort : nodes.length < 2
  · rw [if_pos hshort]
    refine ⟨[], (List.append_nil s).symm, ?_⟩
    intro e
    refine iff_of_false List.not_mem_nil ?_
    rintro ⟨left, right, ⟨i, j, hlt, -, hright⟩, -⟩
    have hj := (List.getElem?_eq_some_iff.mp hright).1
    omega
  · rw [if_neg hshort]
    let results := fun i j : Nat =>
      match nodes[i]?, nodes[j]? with
      | some left, some right => f left right
      | _, _ => []
    have hstep : ∀ (s : List β) (i j : Nat),
        (match nodes[i]?, nodes[j]? with
        | some left, some right => s ++ f left right
        | _, _ => s) = s ++ results i j := by
      intro s i j
      simp only [results]
      split <;> simp
    simp only [hstep, List.foldl_append_eq_append]
    refine ⟨_, rfl, ?_⟩
    intro e
    simp only [List.mem_flatten, List.mem_map, List.mem_range, exists_exists_and_eq_and, List.mem_range'_1]
    constructor
    · rintro ⟨i, hi, j, hj, he⟩
      have hleft : nodes[i]? = some nodes[i] := List.getElem?_eq_getElem (by omega)
      have hright : nodes[j]? = some nodes[j] := List.getElem?_eq_getElem (by omega)
      simp only [results, hleft, hright] at he
      exact ⟨nodes[i], nodes[j], ⟨i, j, by omega, hleft, hright⟩, he⟩
    · rintro ⟨left, right, ⟨i, j, hlt, hleft, hright⟩, he⟩
      have hj := (List.getElem?_eq_some_iff.mp hright).1
      refine ⟨i, by omega, j, by omega, ?_⟩
      simp only [results, hleft, hright]
      exact he

/-! ### Shared addresses -/

/-- Two ranges of addresses have one in common. -/
def Share (address size address' size' : Unsigned64) : Prop :=
  ∃ a : Nat, (address.toNat ≤ a ∧ a < address.toNat + size.toNat) ∧
    (address'.toNat ≤ a ∧ a < address'.toNat + size'.toNat)

lemma share_iff {address size address' size' : Unsigned64} (h : 0 < size.toNat) (h' : 0 < size'.toNat) :
    Share address size address' size' ↔
      address.toNat < address'.toNat + size'.toNat ∧ address'.toNat < address.toNat + size.toNat := by
  constructor
  · rintro ⟨a, ha, ha'⟩
    omega
  · intro hends
    by_cases hle : address.toNat ≤ address'.toNat
    · exact ⟨address'.toNat, ⟨hle, hends.2⟩, le_refl _, by omega⟩
    · exact ⟨address.toNat, ⟨le_refl _, by omega⟩, by omega, hends.1⟩

/-- A range is not empty and does not go beyond the address space. -/
def InSpace (address size : Unsigned64) : Prop := 0 < size.toNat ∧ address.toNat + size.toNat ≤ 2 ^ 64

def Region.Share (left right : Region) : Prop := Mucfgcheck.Share left.address left.size right.address right.size

/-- The region that starts first, which is the left one if both start at the same address, ends at the top. -/
def LowerAtTop (left right : Region) : Prop :=
  if left.address.toNat ≤ right.address.toNat then left.address.toNat + left.size.toNat = 2 ^ 64
  else right.address.toNat + right.size.toNat = 2 ^ 64

lemma LowerAtTop.share {left right : Region} (hleft : InSpace left.address left.size)
    (hright : InSpace right.address right.size) (h : LowerAtTop left right) : left.Share right := by
  have hlt := left.address.isLt
  have hlt' := right.address.isLt
  have hsize := hleft.1
  have hsize' := hright.1
  apply (share_iff hsize hsize').mpr
  unfold LowerAtTop at h
  by_cases hle : left.address.toNat ≤ right.address.toNat
  · rw [if_pos hle] at h
    omega
  · rw [if_neg hle] at h
    omega

/-- A pair is found if it overlaps, unless the lower region ends at the top of the address space. -/
lemma overlaps_iff {left right : Region} (hleft : InSpace left.address left.size)
    (hright : InSpace right.address right.size) :
    overlaps left right = true ↔ left.Share right ∧ ¬LowerAtTop left right := by
  obtain ⟨hsize, hend⟩ := hleft
  obtain ⟨hsize', hend'⟩ := hright
  unfold Region.Share
  rw [share_iff hsize hsize']
  unfold overlaps LowerAtTop
  simp only [Bool.or_eq_true, Bool.and_eq_true, decide_eq_true_eq, BitVec.le_def, BitVec.lt_def, gt_iff_lt,
    BitVec.toNat_add]
  by_cases hle : left.address.toNat ≤ right.address.toNat
  · rw [if_pos hle]
    by_cases htop : left.address.toNat + left.size.toNat = 2 ^ 64
    · rw [htop, Nat.mod_self]
      omega
    · rw [Nat.mod_eq_of_lt (by omega)]
      omega
  · rw [if_neg hle]
    by_cases htop : right.address.toNat + right.size.toNat = 2 ^ 64
    · rw [htop, Nat.mod_self]
      omega
    · rw [Nat.mod_eq_of_lt (by omega : right.address.toNat + right.size.toNat < 2 ^ 64)]
      omega

/-- An error is recorded if a pair overlaps whose lower region ends below the top of the address space. -/
lemma checkMemoryOverlap_ne_iff {nodes : List Region} (h : ∀ r ∈ nodes, InSpace r.address r.size)
    (regionType addMsg : String) (errors : List String) :
    checkMemoryOverlap nodes regionType addMsg errors ≠ errors ↔
      ∃ left right, Pair nodes left right ∧ left.Share right ∧ ¬LowerAtTop left right := by
  obtain ⟨found, hfound, hmem⟩ := compareAll_append (checkOverlap regionType addMsg) nodes errors
  unfold checkMemoryOverlap
  rw [hfound, ne_eq, List.append_right_eq_self, ← ne_eq, List.ne_nil_iff_exists_cons]
  constructor
  · rintro ⟨e, rest, rfl⟩
    obtain ⟨left, right, hpair, he⟩ := (hmem e).mp List.mem_cons_self
    refine ⟨left, right, hpair, (overlaps_iff (h left hpair.mem.1) (h right hpair.mem.2)).mp ?_⟩
    unfold checkOverlap at he
    by_contra hnot
    rw [if_neg hnot] at he
    exact List.not_mem_nil he
  · rintro ⟨left, right, hpair, hshare⟩
    have hoverlaps := (overlaps_iff (h left hpair.mem.1) (h right hpair.mem.2)).mpr hshare
    apply List.ne_nil_iff_exists_cons.mp
    apply List.ne_nil_of_mem
    apply (hmem _).mpr
    refine ⟨left, right, hpair, ?_⟩
    unfold checkOverlap
    rw [if_pos hoverlaps]
    exact List.mem_singleton_self _

/-- The check is exact unless the only overlaps are those of regions at the top of the address space. -/
lemma checkMemoryOverlap_exact_iff {nodes : List Region} (h : ∀ r ∈ nodes, InSpace r.address r.size)
    (regionType addMsg : String) (errors : List String) :
    (checkMemoryOverlap nodes regionType addMsg errors ≠ errors ↔
        ∃ left right, Pair nodes left right ∧ left.Share right) ↔
      (∃ left right, Pair nodes left right ∧ left.Share right ∧ ¬LowerAtTop left right) ∨
        ∀ left right, Pair nodes left right → ¬LowerAtTop left right := by
  rw [checkMemoryOverlap_ne_iff h]
  constructor
  · intro hexact
    by_cases hfound : ∃ left right, Pair nodes left right ∧ left.Share right ∧ ¬LowerAtTop left right
    · exact Or.inl hfound
    · refine Or.inr ?_
      intro left right hpair htop
      have hshare := htop.share (h left hpair.mem.1) (h right hpair.mem.2)
      exact hfound (hexact.mpr ⟨left, right, hpair, hshare⟩)
  · rintro (hfound | hnone)
    · refine iff_of_true hfound ?_
      obtain ⟨left, right, hpair, hshare, -⟩ := hfound
      exact ⟨left, right, hpair, hshare⟩
    · constructor
      · rintro ⟨left, right, hpair, hshare, -⟩
        exact ⟨left, right, hpair, hshare⟩
      · rintro ⟨left, right, hpair, hshare⟩
        exact ⟨left, right, hpair, hshare, hnone left right hpair⟩

end Muen.Tools.Mucfgcheck
