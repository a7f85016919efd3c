import Muen.Tools.Intervals
import Muen.Lib.Fallible
import Mathlib.Order.CompletePartialOrder

/-!
# Available resources

The interval list of an allocation with its invariant, the numbers that are free in it, and what taking out an interval
and reserving one do to them.
-/

namespace Muen.Tools.VresAlloc
open Muen.Lib Intervals

inductive Error
  | validation (message : String)
  | constraint
  | intervals (error : IntervalError)
deriving DecidableEq

/-- The numbers of an interval that starts at the first one, in unbounded integers. -/
def extent (first size : Nat) : Set Nat := {n | first ≤ n ∧ n < first + size}

lemma mem_extent {first size n : Nat} : n ∈ extent first size ↔ first ≤ n ∧ n < first + size := Iff.rfl

lemma subtractSized_wellFormed {list list' : IntervalList} {firstElement size : Unsigned64}
    {r : Except IntervalError Unit} (hwf : WellFormed list.elems)
    (h : subtractSized list firstElement size = some (r, list')) : WellFormed list'.elems := by
  obtain ⟨list'', hwf', ⟨-, hsub, -⟩ | ⟨-, rfl, hsub⟩⟩ := subtractSized_spec list firstElement size hwf
  · rw [h] at hsub
    obtain rfl : list' = list'' := congrArg Prod.snd (Option.some.inj hsub)
    exact hwf'
  · rw [h] at hsub
    obtain rfl : list' = list'' := congrArg Prod.snd (Option.some.inj hsub)
    exact hwf'

lemma reserveInterval_wellFormed {list list' : IntervalList} {size : Unsigned64}
    {r : Except IntervalError Unsigned64} (hwf : WellFormed list.elems)
    (h : reserveInterval list size = some (r, list')) : WellFormed list'.elems := by
  obtain ⟨r', list'', hres, hwf', -⟩ := reserveInterval_spec list size hwf
  rw [h] at hres
  obtain rfl : list' = list'' := congrArg Prod.snd (Option.some.inj hres)
  exact hwf'

structure Available where
  list : IntervalList
  wellFormed : WellFormed list.elems

namespace Available

/-- `Subtract_Interval` with a first element and a size. -/
def subtract (av : Available) (firstElement size : Unsigned64) : Except Error Available :=
  match h : subtractSized av.list firstElement size with
  | some (.ok _, list) => .ok ⟨list, subtractSized_wellFormed av.wellFormed h⟩
  | some (.error e, _) => .error (.intervals e)
  | none => .ok av

def reserve (av : Available) (size : Unsigned64) : Except Error (Unsigned64 × Available) :=
  match h : reserveInterval av.list size with
  | some (.ok a, list) => .ok (a, ⟨list, reserveInterval_wellFormed av.wellFormed h⟩)
  | some (.error e, _) => .error (.intervals e)
  | none => .error .constraint

/-- The free numbers. -/
def free (av : Available) : Set Nat := {n | ∃ x ∈ covers av.list.elems, x.toNat = n}

/-- Taking a block out of the covered addresses takes its numbers out of the free ones. -/
lemma free_sdiff {av av' : Available} {a size : Unsigned64}
    (h : covers av'.list.elems = covers av.list.elems \ block a size) :
    av'.free = av.free \ extent a.toNat size.toNat := by
  ext n
  unfold free
  rw [h, Set.mem_ofPred_eq, Set.mem_sdiff, Set.mem_ofPred_eq]
  constructor
  · rintro ⟨x, ⟨hx, hout⟩, rfl⟩
    exact ⟨⟨x, hx, rfl⟩, hout⟩
  · rintro ⟨⟨x, hx, rfl⟩, hout⟩
    exact ⟨x, ⟨hx, hout⟩, rfl⟩

lemma subtract_free {av av' : Available} {firstElement size : Unsigned64}
    (h : av.subtract firstElement size = .ok av') :
    av'.free = av.free \ extent firstElement.toNat size.toNat := by
  unfold subtract at h
  split at h
  · next list hsub =>
    obtain rfl := Except.ok.inj h
    obtain ⟨list', -, ⟨-, hspec, hcov⟩ | ⟨-, -, hspec⟩⟩ :=
      subtractSized_spec av.list firstElement size av.wellFormed
    · rw [hsub] at hspec
      obtain rfl : list = list' := congrArg Prod.snd (Option.some.inj hspec)
      exact free_sdiff hcov
    · rw [hsub] at hspec
      cases congrArg Prod.fst (Option.some.inj hspec)
  · cases h
  · next hnone =>
    obtain ⟨list', -, ⟨-, hspec, -⟩ | ⟨-, -, hspec⟩⟩ := subtractSized_spec av.list firstElement size av.wellFormed
    · rw [hnone] at hspec
      cases hspec
    · rw [hnone] at hspec
      cases hspec

/-- Without a free interval of the size the reservation raises. -/
lemma reserve_outOfSpace {av : Available} {size : Unsigned64} (hsize : 0 < size)
    (h : ∀ b : Unsigned64, ¬extent b.toNat size.toNat ⊆ av.free) :
    av.reserve size = .error (.intervals (.outOfSpace ("Cannot find free interval of size '" ++ toHex size ++ "'"))) := by
  obtain ⟨r, list', hspec, -, hcorrect⟩ := reserveInterval_spec av.list size av.wellFormed
  have hc := hcorrect hsize
  cases r with
  | ok a => exact absurd (fun n hn => hc.1 n hn.1 hn.2) (h a)
  | error e =>
    obtain ⟨rfl, -⟩ := hc
    unfold reserve
    split
    · next hres =>
      rw [hspec] at hres
      cases hres
    · next hres =>
      rw [hspec] at hres
      simp only [Option.some.injEq, Prod.mk.injEq, Except.error.injEq] at hres
      rw [hres.1]
    · next hres =>
      rw [hspec] at hres
      cases hres

end Available

/-! ### Pages -/

/-- Whatever number is in the set, the numbers of its page up to it are. -/
def PageClosed (s : Set Nat) : Prop := ∀ n ∈ s, ∀ k ≤ n, k / 4096 = n / 4096 → k ∈ s

lemma PageClosed.sdiff {s : Set Nat} (hs : PageClosed s) {a size : Nat} (ha : a % 4096 = 0) (hsize : size % 4096 = 0) :
    PageClosed (s \ extent a size) := by
  rintro n ⟨hn, hout⟩ k hk hpage
  refine ⟨hs n hn k hk hpage, ?_⟩
  intro hmem
  rw [mem_extent] at hmem hout
  omega

/-- The first free interval of a size starts a page. -/
lemma PageClosed.aligned {s : Set Nat} (hs : PageClosed s) {a size : Unsigned64} (hsize : 0 < size)
    (hfits : extent a.toNat size.toNat ⊆ s) (hleast : ∀ b : Unsigned64, extent b.toNat size.toNat ⊆ s → a ≤ b) :
    a.toNat % 4096 = 0 := by
  have hpos : 0 < size.toNat := hsize
  have hlt := a.isLt
  have hdown : (BitVec.ofNat 64 (4096 * (a.toNat / 4096))).toNat = 4096 * (a.toNat / 4096) := by
    rw [BitVec.toNat_ofNat, Nat.mod_eq_of_lt (by omega)]
  have hle := hleast (BitVec.ofNat 64 (4096 * (a.toNat / 4096))) (by
    rw [hdown]
    rintro n ⟨hn, hlast⟩
    by_cases hbefore : n < a.toNat
    · exact hs a.toNat (hfits ⟨le_rfl, by omega⟩) n hbefore.le (by omega)
    · exact hfits ⟨by omega, by omega⟩)
  rw [BitVec.le_def, hdown] at hle
  omega

/-! ### Allocations -/

section Allocation

variable {α : Type} {occupied : α → Set Nat} {domain : Set Nat} {av av' : Available} {done : List α} {x : α}

/-- The nodes that have been served from a set of numbers, and what is left of it. -/
structure Allocation (occupied : α → Set Nat) (domain : Set Nat) (av : Available) (done : List α) : Prop where
  free : av.free ⊆ domain
  inside : ∀ x ∈ done, occupied x ⊆ domain
  taken : ∀ x ∈ done, Disjoint (occupied x) av.free
  disjoint : done.Pairwise (fun x y => Disjoint (occupied x) (occupied y))

/-- One more node, which is served from what is left. -/
lemma Allocation.add (h : Allocation occupied domain av done) (hx : occupied x ⊆ av.free)
    (hfree : av'.free = av.free \ occupied x) : Allocation occupied domain av' (done ++ [x]) := by
  have hsub : av'.free ⊆ av.free := by
    rw [hfree]
    exact Set.sdiff_subset
  refine ⟨hsub.trans h.free, ?_, ?_, ?_⟩
  · intro y hy
    rcases List.mem_append.mp hy with hy | hy
    · exact h.inside y hy
    · rw [List.mem_singleton.mp hy]
      exact hx.trans h.free
  · intro y hy
    rcases List.mem_append.mp hy with hy | hy
    · exact (h.taken y hy).mono_right hsub
    · rw [List.mem_singleton.mp hy, hfree]
      exact Set.disjoint_sdiff_right
  · rw [List.pairwise_append]
    refine ⟨h.disjoint, List.pairwise_singleton _ _, ?_⟩
    intro y hy z hz
    rw [List.mem_singleton.mp hz]
    exact (h.taken y hy).mono_right hx

end Allocation

end Muen.Tools.VresAlloc
