import Muen.Tools.Expanders.XmlUtils
import Muen.Tools.Mugentau0cmds.Roots

/-!
# The page tables that the commands of a root object create

A page table is named by its level, counted from the bottom, and the first address of its range. The tables
created for disjoint regions are those whose ranges meet a region, each once and after the table above it, on
the pages that `Calculate_PT_Size` reserves. This fails only when the level 1 table is full.
-/

namespace Muen.Tools.Mugentau0cmds
open Muen.Lib Paging

/-- What names a page table in a command. -/
structure TableKey where
  level : Nat
  virtualAddress : Unsigned64
deriving DecidableEq

namespace Command

/-- The page and the table of a command that creates a page table. -/
def created : Command → Option (Unsigned64 × TableKey)
  | createPageTable _ page level virtualAddress _ _ _ => some (page, ⟨level, virtualAddress⟩)
  | _ => none

def activated : Command → Option TableKey
  | activatePageTable _ level virtualAddress => some ⟨level, virtualAddress⟩
  | _ => none

end Command

def createdPages (commands : List Command) : List Unsigned64 := (commands.filterMap Command.created).map Prod.fst

def createdTables (commands : List Command) : List TableKey := (commands.filterMap Command.created).map Prod.snd

def activatedTables (commands : List Command) : List TableKey := commands.filterMap Command.activated

namespace TableKey

/-- The address is in the range of the table. -/
def Covers (t : TableKey) (address : Nat) : Prop :=
  t.virtualAddress.toNat ≤ address ∧ address < t.virtualAddress.toNat + 4096 * 512 ^ t.level

/-- One of the ranges into which a level divides the address space, and some of it is mapped. -/
def Needed (levels : Nat) (rs : List MemoryRegion) (t : TableKey) : Prop :=
  (1 ≤ t.level ∧ t.level ≤ levels) ∧ t.virtualAddress.toNat % (4096 * 512 ^ t.level) = 0 ∧
    ∃ r ∈ rs, ∃ address, t.Covers address ∧ r.virtualAddress.toNat ≤ address ∧
      address < r.virtualAddress.toNat + r.size.toNat

/-- The table of the next higher level that covers the base address. -/
def ParentOf (p t : TableKey) : Prop := p.level = t.level + 1 ∧ p.Covers t.virtualAddress.toNat

end TableKey

/-- The page table commands for the given regions, on the given range of pages. -/
structure Consistent (levels : Nat) (rs : List MemoryRegion) (ptAddress size : Unsigned64)
    (commands : List Command) : Prop where
  created_once : (createdTables commands).Nodup
  created_iff : ∀ t, t ∈ createdTables commands ↔ t.Needed levels rs
  pages_distinct : (createdPages commands).Nodup
  pages_reserved : ∀ page ∈ createdPages commands, page - ptAddress < size
  created_after_parent : ∀ before t after, createdTables commands = before ++ t :: after → t.level < levels →
    ∃ p ∈ before, p.ParentOf t
  activated_once : (activatedTables commands).Nodup
  activated_iff : ∀ t, t ∈ activatedTables commands ↔ t ∈ createdTables commands
  activated_before_parent : ∀ before t after, activatedTables commands = before ++ t :: after → t.level < levels →
    ∃ p ∈ after, p.ParentOf t

/-! ### The tables by level and number -/

/-- The table that is visited with a level, counted from the top, and a number. -/
def tableKey (levels : Nat) (x : Nat × Nat) : TableKey :=
  ⟨levels + 1 - x.1, getBaseAddress x.2 (4 - (levels - x.1))⟩

lemma levelSize_toNat {level : Nat} (h1 : 1 ≤ level) (h3 : level ≤ 3) :
    (levelSize level).toNat = 4096 * 512 ^ (4 - level) := by
  interval_cases level <;> rfl

lemma getBaseAddress_toNat {levels l n : Nat} (hl : levels = 3 ∨ levels = 4) (h1 : 1 ≤ l) (hle : l ≤ levels)
    (hn : n * 512 ^ (levels + 1 - l) < 512 ^ levels) :
    (getBaseAddress n (4 - (levels - l))).toNat = n * (4096 * 512 ^ (levels + 1 - l)) := by
  have hmul : n * (4096 * 512 ^ (levels + 1 - l)) < 2 ^ 48 := by
    have hlevels : 4096 * 512 ^ levels ≤ 2 ^ 48 := by
      rcases hl with rfl | rfl <;> norm_num
    have hlt := Nat.mul_lt_mul_of_pos_left hn (by norm_num : 0 < 4096)
    rw [Nat.mul_left_comm] at hlt
    exact hlt.trans_le hlevels
  have hn48 : n < 2 ^ 48 := lt_of_le_of_lt (Nat.le_mul_of_pos_right n (by positivity)) hmul
  unfold getBaseAddress
  by_cases hroot : 4 - (levels - l) = 1
  · have h0 : n = 0 := by
      have hpow : levels + 1 - l = levels := by omega
      rw [hpow] at hn
      by_contra hne
      exact absurd hn (not_lt.mpr (Nat.le_mul_of_pos_left _ (Nat.pos_of_ne_zero hne)))
    rw [if_pos hroot, h0, Nat.zero_mul]
    rfl
  · have hsize : (levelSize (4 - (levels - l) - 1)).toNat = 4096 * 512 ^ (levels + 1 - l) := by
      rw [levelSize_toNat (by omega) (by omega)]
      congr 2
      omega
    rw [if_neg hroot, BitVec.toNat_mul, BitVec.toNat_ofNat, hsize, Nat.mod_eq_of_lt (by omega : n < 2 ^ 64),
      Nat.mod_eq_of_lt (by omega)]

/-- A member that is not after `x` is before it. -/
lemma mem_before {α : Type} {R : α → α → Prop} {before after : List α} {x y : α}
    (h : (before ++ x :: after).Pairwise R) (hy : y ∈ before ++ x :: after) (hne : y ≠ x) (hR : ¬R x y) :
    y ∈ before := by
  rcases List.mem_append.mp hy with hy | hy
  · exact hy
  · have hafter := (List.mem_cons.mp hy).resolve_left hne
    exact absurd ((List.pairwise_cons.mp (List.pairwise_append.mp h).2.1).1 y hafter) hR

section Tree

variable {levels : Nat} {P : Nat → Prop} {a : MemoryLayout}

/-- The tables in the order of their creation. -/
def createdOrder (layout : MemoryLayout) : List (Nat × Nat) := (1, 0) :: (visitedInMaps layout).reverse

lemma mem_createdOrder (h : MapsPages levels P a) (hlevels : 1 ≤ levels) (hbound : ∀ idx, P idx → idx < 512 ^ levels)
    (hne : ∃ idx, P idx) {l n : Nat} : (l, n) ∈ createdOrder a ↔
      1 ≤ l ∧ l ≤ levels ∧ ∃ idx, P idx ∧ idx / 512 ^ (levels + 1 - l) = n := by
  unfold createdOrder
  rw [List.mem_cons, List.mem_reverse, h.mem_visitedInMaps, Prod.mk.injEq]
  constructor
  · rintro (⟨rfl, rfl⟩ | ⟨h2, hl, hidx⟩)
    · obtain ⟨idx, hidx⟩ := hne
      refine ⟨le_refl _, hlevels, idx, hidx, ?_⟩
      rw [Nat.add_sub_cancel]
      exact Nat.div_eq_of_lt (hbound idx hidx)
    · exact ⟨by omega, hl, hidx⟩
  · rintro ⟨h1, hl, idx, hidx, hn⟩
    by_cases hroot : l = 1
    · subst hroot
      rw [Nat.add_sub_cancel, Nat.div_eq_of_lt (hbound idx hidx)] at hn
      exact Or.inl ⟨rfl, hn.symm⟩
    · exact Or.inr ⟨by omega, hl, idx, hidx, hn⟩

lemma createdOrder_pairwise (h : MapsPages levels P a) :
    (createdOrder a).Pairwise (fun x y => x.1 ≤ y.1 ∧ x ≠ y) := by
  unfold createdOrder
  rw [List.pairwise_cons, List.pairwise_reverse]
  constructor
  · rintro ⟨l, n⟩ hx
    rw [List.mem_reverse, h.mem_visitedInMaps] at hx
    refine ⟨by simp only; omega, ?_⟩
    intro heq
    have hl := congrArg Prod.fst heq
    simp only at hl
    omega
  · apply h.visitedInMaps_pairwise.imp
    rintro ⟨l, n⟩ ⟨l', n'⟩ hlt
    unfold Precedes at hlt
    simp only [ne_eq, Prod.mk.injEq] at hlt ⊢
    omega

lemma createdTables_pairwise (h : MapsPages levels P a) :
    ((createdOrder a).map (tableKey levels)).Pairwise (fun t t' => t'.level ≤ t.level) := by
  rw [List.pairwise_map]
  apply (createdOrder_pairwise h).imp
  intro x y hxy
  change levels + 1 - y.1 ≤ levels + 1 - x.1
  omega

section Keys

variable (hl : levels = 3 ∨ levels = 4) (h : MapsPages levels P a) (hbound : ∀ idx, P idx → idx < 512 ^ levels)
  (hne : ∃ idx, P idx)

include hl h hbound hne

lemma tableKey_toNat {x : Nat × Nat} (hx : x ∈ createdOrder a) :
    (tableKey levels x).virtualAddress.toNat = x.2 * (4096 * 512 ^ (levels + 1 - x.1)) := by
  obtain ⟨l, n⟩ := x
  obtain ⟨h1, hle, idx, hidx, hn⟩ := (mem_createdOrder h (by omega) hbound hne).mp hx
  apply getBaseAddress_toNat hl h1 hle
  rw [← hn]
  exact lt_of_le_of_lt (Nat.div_mul_le_self _ _) (hbound idx hidx)

lemma tableKey_injOn {x y : Nat × Nat} (hx : x ∈ createdOrder a) (hy : y ∈ createdOrder a)
    (heq : tableKey levels x = tableKey levels y) : x = y := by
  have hxv := tableKey_toNat hl h hbound hne hx
  have hyv := tableKey_toNat hl h hbound hne hy
  have hxl := ((mem_createdOrder h (by omega) hbound hne).mp hx)
  have hyl := ((mem_createdOrder h (by omega) hbound hne).mp hy)
  have hlevel : levels + 1 - x.1 = levels + 1 - y.1 := congrArg TableKey.level heq
  have hfst : x.1 = y.1 := by omega
  rw [heq, hyv, hfst] at hxv
  have hsnd := Nat.eq_of_mul_eq_mul_right (by positivity) hxv
  exact Prod.ext hfst hsnd.symm

lemma createdTables_nodup : ((createdOrder a).map (tableKey levels)).Nodup := by
  apply List.Nodup.map_on
  · intro x hx y hy heq
    exact tableKey_injOn hl h hbound hne hx hy heq
  · exact (createdOrder_pairwise h).imp And.right

lemma createdTables_parent {t : TableKey} (ht : t ∈ (createdOrder a).map (tableKey levels))
    (hlt : t.level < levels) : ∃ p ∈ (createdOrder a).map (tableKey levels), p.ParentOf t := by
  obtain ⟨⟨l, n⟩, hx, rfl⟩ := List.mem_map.mp ht
  have hx' := (mem_createdOrder h (by omega) hbound hne).mp hx
  obtain ⟨h1, hle, idx, hidx, hn⟩ := hx'
  change levels + 1 - l < levels at hlt
  have hpow : levels + 1 - (l - 1) = levels + 1 - l + 1 := by omega
  have hparent : (l - 1, n / 512) ∈ createdOrder a := by
    rw [mem_createdOrder h (by omega) hbound hne]
    refine ⟨by omega, by omega, idx, hidx, ?_⟩
    rw [hpow, pow_succ, ← Nat.div_div_eq_div_mul, hn]
  refine ⟨_, List.mem_map_of_mem hparent, hpow, ?_⟩
  have hpv := tableKey_toNat hl h hbound hne hparent
  have hxv := tableKey_toNat hl h hbound hne hx
  simp only [hpow, pow_succ] at hpv hxv
  have hsize : 4096 * 512 ^ (tableKey levels (l - 1, n / 512)).level = 512 * (4096 * 512 ^ (levels + 1 - l)) := by
    change 4096 * 512 ^ (levels + 1 - (l - 1)) = _
    rw [hpow, pow_succ]
    ring
  unfold TableKey.Covers
  rw [hsize, hpv, hxv]
  have hdiv : n / 512 * 512 ≤ n ∧ n < n / 512 * 512 + 512 := by omega
  constructor
  · nlinarith [Nat.mul_le_mul_right (4096 * 512 ^ (levels + 1 - l)) hdiv.1]
  · nlinarith [Nat.mul_lt_mul_of_pos_right hdiv.2 (by positivity : 0 < 4096 * 512 ^ (levels + 1 - l))]

end Keys

end Tree

/-! ### The pages of the regions -/

section Regions

variable {levels : Nat} {rs : List MemoryRegion} {a : MemoryLayout}

/-- The pages that the regions map. -/
def Mapped (rs : List MemoryRegion) (idx : Nat) : Prop := ∃ r ∈ rs, r.HasPage idx

lemma mapped_lt (hfits : ∀ r ∈ rs, r.Fits levels) {idx : Nat} (hidx : Mapped rs idx) : idx < 512 ^ levels := by
  obtain ⟨r, hr, hpage⟩ := hidx
  have hle := (hfits r hr).virtual_le
  have hlt := hpage.2
  omega

lemma mapped_nonempty (hfits : ∀ r ∈ rs, r.Fits levels) (hne : rs ≠ []) : ∃ idx, Mapped rs idx := by
  obtain ⟨r, hr⟩ := List.exists_mem_of_ne_nil rs hne
  have hv := (hfits r hr).virtual_aligned
  have hpos := (hfits r hr).size_pos
  exact ⟨r.virtualAddress.toNat / 4096, r, hr, by unfold MemoryRegion.HasPage; omega⟩

/-- A mapped page starts with a mapped address, and every mapped address is in a mapped page. -/
lemma mapped_div (hfits : ∀ r ∈ rs, r.Fits levels) {r : MemoryRegion} (hr : r ∈ rs) {address : Nat}
    (h1 : r.virtualAddress.toNat ≤ address) (h2 : address < r.virtualAddress.toNat + r.size.toNat) :
    Mapped rs (address / 4096) := by
  have hv := (hfits r hr).virtual_aligned
  exact ⟨r, hr, by unfold MemoryRegion.HasPage; omega⟩

/-- The regions can be entered, and the layout maps their pages. -/
lemma mapped_layout (address : Unsigned64) (hl : levels = 3 ∨ levels = 4) (hfits : ∀ r ∈ rs, r.Fits levels)
    (hdisjoint : rs.Pairwise MemoryRegion.Disjoint) :
    ∃ layout, rs.foldlM addMemoryRegion (setAddress (emptyLayout levels false) address) = .ok layout ∧
      MapsPages levels (Mapped rs) layout := by
  obtain ⟨layout, hrun, hlayout⟩ := (mapsPages_empty levels address).addMemoryRegions hl hfits hdisjoint
    (fun _ _ _ _ hfalse => hfalse)
  refine ⟨layout, hrun, hlayout.congr ?_⟩
  intro idx
  rw [false_or]
  rfl

lemma mem_createdTables (hl : levels = 3 ∨ levels = 4) (h : MapsPages levels (Mapped rs) a)
    (hfits : ∀ r ∈ rs, r.Fits levels) (hne : rs ≠ []) (t : TableKey) :
    t ∈ (createdOrder a).map (tableKey levels) ↔ t.Needed levels rs := by
  have hbound : ∀ idx, Mapped rs idx → idx < 512 ^ levels := fun idx => mapped_lt hfits
  have hsome := mapped_nonempty hfits hne
  constructor
  · intro ht
    obtain ⟨⟨l, n⟩, hx, rfl⟩ := List.mem_map.mp ht
    have hv := tableKey_toNat hl h hbound hsome hx
    obtain ⟨h1, hle, idx, ⟨r, hr, hpage⟩, hn⟩ := (mem_createdOrder h (by omega) hbound hsome).mp hx
    refine ⟨?_, ?_, r, hr, 4096 * idx, ⟨?_, ?_⟩, hpage.1, hpage.2⟩
    · change 1 ≤ levels + 1 - l ∧ levels + 1 - l ≤ levels
      omega
    · rw [hv]
      exact Nat.mul_mod_left _ _
    · rw [hv, ← hn, Nat.mul_left_comm]
      exact Nat.mul_le_mul_left 4096 (Nat.div_mul_le_self _ _)
    · have hlt := Nat.lt_div_mul_add (a := idx) (by positivity : 0 < 512 ^ (levels + 1 - l))
      rw [hv, ← hn]
      change 4096 * idx < idx / 512 ^ (levels + 1 - l) * (4096 * 512 ^ (levels + 1 - l)) +
        4096 * 512 ^ (levels + 1 - l)
      nlinarith
  · rintro ⟨⟨h1, hle⟩, haligned, r, hr, address, ⟨hlow, hhigh⟩, hr1, hr2⟩
    obtain ⟨level, virtualAddress⟩ := t
    simp only at h1 hle haligned hlow hhigh
    have hpow : levels + 1 - (levels + 1 - level) = level := by omega
    have hx : (levels + 1 - level, virtualAddress.toNat / (4096 * 512 ^ level)) ∈ createdOrder a := by
      rw [mem_createdOrder h (by omega) hbound hsome, hpow]
      refine ⟨by omega, by omega, address / 4096, mapped_div hfits hr hr1 hr2, ?_⟩
      rw [Nat.div_div_eq_div_mul]
      obtain ⟨n, hn⟩ := Nat.dvd_of_mod_eq_zero haligned
      have hpos : 0 < 4096 * 512 ^ level := by positivity
      rw [hn] at hlow hhigh ⊢
      rw [Nat.mul_div_cancel_left n hpos]
      apply Nat.div_eq_of_lt_le
      · rw [Nat.mul_comm]
        exact hlow
      · rw [Nat.add_mul, Nat.one_mul, Nat.mul_comm n]
        exact hhigh
    refine List.mem_map.mpr ⟨_, hx, ?_⟩
    have hv := tableKey_toNat hl h hbound hsome hx
    rw [hpow] at hv
    unfold tableKey at hv ⊢
    congr 1
    apply BitVec.eq_of_toNat_eq
    rw [hv]
    exact Nat.div_mul_cancel (Nat.dvd_of_mod_eq_zero haligned)

end Regions

/-! ### The commands -/

/-- The tables with the pages from the given one on. -/
def numbered (page : Unsigned64) : List TableKey → List (Unsigned64 × TableKey)
  | [] => []
  | t :: ts => (page, t) :: numbered (page + 4096) ts

lemma numbered_snd (page : Unsigned64) (ts : List TableKey) : (numbered page ts).map Prod.snd = ts := by
  induction ts generalizing page with
  | nil => rfl
  | cons t ts ih => rw [numbered, List.map_cons, ih]

lemma numbered_fst (page : Unsigned64) (ts : List TableKey) : (numbered page ts).map Prod.fst =
    (List.range ts.length).map (fun k => page + BitVec.ofNat 64 (4096 * k)) := by
  induction ts generalizing page with
  | nil => rfl
  | cons t ts ih =>
    rw [numbered, List.map_cons, ih, List.length_cons, List.range_succ_eq_map, List.map_cons, List.map_map]
    apply congrArg₂ List.cons
    · simp
    · apply List.map_congr_left
      intro k _
      apply BitVec.eq_of_toNat_eq
      have hpage : (4096 : Unsigned64).toNat = 4096 := rfl
      simp only [Function.comp, BitVec.toNat_add, BitVec.toNat_ofNat, hpage, Nat.succ_eq_add_one]
      omega

section Commands

variable {levels : Nat} {rs : List MemoryRegion} {a : MemoryLayout} (object : Object)

/-- No command that creates or activates a page table. -/
def Plain (commands : List Command) : Prop :=
  commands.filterMap Command.created = [] ∧ commands.filterMap Command.activated = []

lemma Plain.append {c c' : List Command} (h : Plain c) (h' : Plain c') : Plain (c ++ c') := by
  unfold Plain
  rw [List.filterMap_append, List.filterMap_append, h.1, h.2, h'.1, h'.2]
  exact ⟨rfl, rfl⟩

lemma processTable_below {x : Nat × Nat} (hx : x.1 > 1) (s : TableCmds) :
    processTable object levels s x.1 x.2 nullTable =
      ⟨s.curPtAddr + 4096,
        s.createCmds ++ [.createPageTable object s.curPtAddr (tableKey levels x).level
          (tableKey levels x).virtualAddress true true true],
        s.activateCmds ++ [.activatePageTable object (tableKey levels x).level
          (tableKey levels x).virtualAddress]⟩ := by
  unfold processTable
  simp only [if_pos hx]
  rfl

/-- The commands for the tables visited below the root. -/
lemma foldl_processTable {xs : List (Nat × Nat)} (hxs : ∀ x ∈ xs, 2 ≤ x.1) :
    ∀ s : TableCmds, s.createCmds.filterMap Command.activated = [] → s.activateCmds.filterMap Command.created = [] →
      ∃ s', xs.foldl (fun s x => processTable object levels s x.1 x.2 nullTable) s = s' ∧
        s'.createCmds.filterMap Command.created =
          s.createCmds.filterMap Command.created ++ numbered s.curPtAddr (xs.map (tableKey levels)) ∧
        s'.activateCmds.filterMap Command.activated =
          s.activateCmds.filterMap Command.activated ++ xs.map (tableKey levels) ∧
        s'.createCmds.filterMap Command.activated = [] ∧ s'.activateCmds.filterMap Command.created = [] := by
  induction xs with
  | nil =>
    intro s hcreate hactivate
    exact ⟨s, rfl, (List.append_nil _).symm, (List.append_nil _).symm, hcreate, hactivate⟩
  | cons x xs ih =>
    intro s hcreate hactivate
    have hx : x.1 > 1 := hxs x List.mem_cons_self
    rw [List.foldl_cons, processTable_below object hx s]
    have hcreate₁ : (s.createCmds ++ [Command.createPageTable object s.curPtAddr (tableKey levels x).level
        (tableKey levels x).virtualAddress true true true]).filterMap Command.activated = [] := by
      rw [List.filterMap_append, hcreate]
      rfl
    have hactivate₁ : (s.activateCmds ++ [Command.activatePageTable object (tableKey levels x).level
        (tableKey levels x).virtualAddress]).filterMap Command.created = [] := by
      rw [List.filterMap_append, hactivate]
      rfl
    obtain ⟨s', hrun, h1, h2, h3, h4⟩ := ih (fun y hy => hxs y (List.mem_cons_of_mem x hy))
      ⟨s.curPtAddr + 4096, _, _⟩ hcreate₁ hactivate₁
    refine ⟨s', hrun, ?_, ?_, h3, h4⟩
    · rw [h1, List.filterMap_append, List.append_assoc]
      rfl
    · rw [h2, List.filterMap_append, List.append_assoc]
      rfl

/-- The commands of `Create_Object_PTs` for a layout that maps the regions. -/
lemma createObjectPTs_spec (h : MapsPages levels (Mapped rs) a)
    (hused : PartlyUsed (Mapped rs)) (stream : List Command) (hstream : Plain stream) (ptAddress ptSize : Unsigned64) :
    ∃ commands activate, createObjectPTs object stream a ptAddress ptSize = .ok (commands, activate) ∧
      commands.filterMap Command.created =
        (ptAddress, tableKey levels (1, 0)) ::
          (numbered (ptAddress + 4096) ((visitedInMaps a).map (tableKey levels))).reverse ∧
      commands.filterMap Command.activated = [] ∧ activate.filterMap Command.created = [] ∧
      activate.filterMap Command.activated =
        (visitedInMaps a).map (tableKey levels) ++ [tableKey levels (1, 0)] := by
  have hroot : tableKey levels (1, 0) = ⟨levels, 0⟩ := by
    unfold tableKey getBaseAddress
    simp
  have hvisited : ∀ x ∈ visitedInMaps a, 2 ≤ x.1 := fun x hx => (h.mem_visitedInMaps.mp hx).1
  obtain ⟨s', hfold, h1, h2, h3, h4⟩ := foldl_processTable object hvisited
    ⟨ptAddress + 4096, [], []⟩ rfl rfl
  have htraverse := h.traverseTables_eq hused (fun s x => processTable object levels s x.1 x.2 nullTable)
    ⟨ptAddress, [], []⟩
  have hrun : traverseTables a (processTable object a.levels) ⟨ptAddress, [], []⟩ = .ok s' := by
    rw [h.exactly.levels_eq, ← hfold]
    exact htraverse
  refine ⟨_, _, by unfold createObjectPTs; rw [hrun, ok_bind], ?_, ?_, ?_, ?_⟩
  · rw [List.filterMap_append, List.filterMap_append, List.filterMap_append, List.filterMap_reverse, hstream.1, h1,
      h.exactly.levels_eq, hroot]
    rfl
  · rw [List.filterMap_append, List.filterMap_append, List.filterMap_append, List.filterMap_reverse, hstream.2, h3]
    rfl
  · rw [List.filterMap_append, h4]
    rfl
  · rw [List.filterMap_append, h2, h.exactly.levels_eq, hroot]
    rfl

/-! ### The regions -/

/-- The regions in the order in which they are entered. -/
def regions (logicalMem : List LogicalMemory) (logicalDevs : List LogicalDevice) : List MemoryRegion :=
  logicalMem.map LogicalMemory.region ++ (logicalDevs.flatMap LogicalDevice.memory).map LogicalDeviceMemory.region

/-- The state holds the layout and no page table command. -/
def Holding (layout : MemoryLayout) (s : AssignState) : Prop :=
  s.memLayout = layout ∧ Plain s.stream ∧ Plain s.mapCmdBuf

lemma assignRegion_holding {layout layout' : MemoryLayout} {s : AssignState} {m : LogicalMemory}
    (hs : Holding layout s) (h : addMemoryRegion layout m.region = .ok layout') :
    ∃ s', assignRegion object s m = .ok s' ∧ Holding layout' s' := by
  obtain ⟨rfl, hstream, hmap⟩ := hs
  refine ⟨_, by unfold assignRegion; rw [h, ok_bind], ?_⟩
  exact ⟨rfl, hstream.append ⟨rfl, rfl⟩, hmap.append ⟨rfl, rfl⟩⟩

lemma assignDeviceRegion_holding {layout layout' : MemoryLayout} {s : AssignState} {m : LogicalDeviceMemory}
    (device : String) (hs : Holding layout s) (h : addMemoryRegion layout m.region = .ok layout') :
    ∃ s', assignDeviceRegion object device s m = .ok s' ∧ Holding layout' s' := by
  obtain ⟨rfl, hstream, hmap⟩ := hs
  refine ⟨_, by unfold assignDeviceRegion; rw [h, ok_bind], ?_⟩
  exact ⟨rfl, hstream, hmap.append ⟨rfl, rfl⟩⟩

lemma foldlM_assignRegion {logicalMem : List LogicalMemory} {layout layout' : MemoryLayout} {s : AssignState}
    (hs : Holding layout s)
    (h : logicalMem.foldlM (fun layout m => addMemoryRegion layout m.region) layout = .ok layout') :
    ∃ s', logicalMem.foldlM (assignRegion object) s = .ok s' ∧ Holding layout' s' := by
  apply (along_true layout logicalMem).lockstep _ hs h
  intro m l l' t ht _ hstep
  exact assignRegion_holding object ht hstep

lemma foldlM_assignDeviceRegion {memory : List LogicalDeviceMemory} {layout layout' : MemoryLayout}
    {s : AssignState} (device : String) (hs : Holding layout s)
    (h : memory.foldlM (fun layout m => addMemoryRegion layout m.region) layout = .ok layout') :
    ∃ s', memory.foldlM (assignDeviceRegion object device) s = .ok s' ∧ Holding layout' s' := by
  apply (along_true layout memory).lockstep _ hs h
  intro m l l' t ht _ hstep
  exact assignDeviceRegion_holding object device ht hstep

lemma assignDeviceMemory_holding {logicalDevs : List LogicalDevice} {layout layout' : MemoryLayout}
    {s : AssignState} (hs : Holding layout s)
    (h : (logicalDevs.flatMap LogicalDevice.memory).foldlM (fun layout m => addMemoryRegion layout m.region) layout =
      .ok layout') : ∃ s', assignDeviceMemory object s logicalDevs = .ok s' ∧ Holding layout' s' := by
  rw [foldlM_flatMap] at h
  apply (along_true layout logicalDevs).lockstep _ hs h
  intro dev l l' t ht _ hstep
  exact foldlM_assignDeviceRegion object dev.tau0DeviceId ht hstep

/-- The regions are entered as a list of regions is. -/
lemma assignMemory_regions {logicalMem : List LogicalMemory} {logicalDevs : List LogicalDevice}
    {layout layout' : MemoryLayout} {s : AssignState} (hs : Holding layout s)
    (h : (regions logicalMem logicalDevs).foldlM addMemoryRegion layout = .ok layout') :
    ∃ s₁ s₂, logicalMem.foldlM (assignRegion object) s = .ok s₁ ∧
      assignDeviceMemory object s₁ logicalDevs = .ok s₂ ∧ Holding layout' s₂ := by
  unfold regions at h
  rw [List.foldlM_append] at h
  obtain ⟨layout₁, hmem, hdevs⟩ := bind_eq_ok h
  rw [List.foldlM_map] at hmem hdevs
  obtain ⟨s₁, hrun₁, hs₁⟩ := foldlM_assignRegion object hs hmem
  obtain ⟨s₂, hrun₂, hs₂⟩ := assignDeviceMemory_holding object hs₁ hdevs
  exact ⟨s₁, s₂, hrun₁, hrun₂, hs₂⟩

end Commands

/-! ### Assigning the memory -/

section Assign

variable {levels : Nat} {logicalMem : List LogicalMemory} {logicalDevs : List LogicalDevice} {layout : MemoryLayout}

/-- What is left to do once the regions have been entered. -/
lemma assignMemory_eq (object : Object) (currentPT : Nat) (ptAddr ptSize : Unsigned64)
    (hrun : (regions logicalMem logicalDevs).foldlM addMemoryRegion (setAddress (emptyLayout levels false) ptAddr) =
      .ok layout) :
    ∃ stream mapCmds nextPT, Plain stream ∧ Plain mapCmds ∧
      assignMemory object currentPT logicalMem logicalDevs ptAddr ptSize levels =
        (createObjectPTs object stream layout ptAddr ptSize >>= fun commands =>
          .ok (commands.1 ++ mapCmds ++ [.lock object] ++ commands.2, nextPT)) := by
  have hs : Holding (setAddress (emptyLayout levels false) ptAddr)
      ⟨[], [], setAddress (emptyLayout levels false) ptAddr, currentPT⟩ := ⟨rfl, ⟨rfl, rfl⟩, ⟨rfl, rfl⟩⟩
  obtain ⟨s₁, s₂, hmemory, hdevices, rfl, hstream, hmap⟩ := assignMemory_regions object hs hrun
  refine ⟨s₂.stream, s₂.mapCmdBuf, s₂.currentPT, hstream, hmap, ?_⟩
  unfold assignMemory
  change (logicalMem.foldlM (assignRegion object)
    ⟨[], [], setAddress (emptyLayout levels false) ptAddr, currentPT⟩ >>= _) = _
  rw [hmemory, ok_bind, hdevices, ok_bind]

lemma assignMemory_full (object : Object) (currentPT : Nat) (ptAddr ptSize : Unsigned64)
    (hl : levels = 3 ∨ levels = 4) (hfits : ∀ r ∈ regions logicalMem logicalDevs, r.Fits levels)
    (hdisjoint : (regions logicalMem logicalDevs).Pairwise MemoryRegion.Disjoint)
    (hfull : ∀ n, n < 512 → ∃ idx, Mapped (regions logicalMem logicalDevs) idx ∧ idx / 512 ^ 3 = n) :
    assignMemory object currentPT logicalMem logicalDevs ptAddr ptSize levels = .error .constraintError := by
  obtain ⟨layout, hrun, hlayout⟩ := mapped_layout ptAddr hl hfits hdisjoint
  obtain ⟨stream, mapCmds, nextPT, -, -, heq⟩ := assignMemory_eq object currentPT ptAddr ptSize hrun
  rw [heq]
  unfold createObjectPTs
  rw [hlayout.traverseTables_full hfull]
  rfl

/-- The offsets of the pages of `n` tables. -/
lemma pages_nodup {n : Nat} (hn : 4096 * n ≤ 2 ^ 64) (page : Unsigned64) :
    ((List.range n).map (fun k => page + BitVec.ofNat 64 (4096 * k))).Nodup := by
  apply List.Nodup.map_on
  · intro k hk m hm heq
    have hoffset := congrArg BitVec.toNat ((BitVec.add_right_inj page).mp heq)
    rw [List.mem_range] at hk hm
    rw [BitVec.toNat_ofNat, BitVec.toNat_ofNat, Nat.mod_eq_of_lt (by omega), Nat.mod_eq_of_lt (by omega)] at hoffset
    omega
  · exact List.nodup_range

/-- The pages of the root and of the tables below it. -/
lemma createdPages_perm (ptAddress : Unsigned64) (t : TableKey) (ts : List TableKey) :
    (((ptAddress, t) :: (numbered (ptAddress + 4096) ts).reverse).map Prod.fst).Perm
      ((List.range (ts.length + 1)).map (fun k => ptAddress + BitVec.ofNat 64 (4096 * k))) := by
  have hpages := numbered_fst ptAddress (t :: ts)
  rw [numbered, List.length_cons] at hpages
  rw [← hpages]
  exact ((List.reverse_perm _).cons _).map _

lemma page_reserved {n k : Nat} (hn : n ≤ 1 + 5 * 512 ^ 3) (hk : k < n) (page : Unsigned64) :
    page + BitVec.ofNat 64 (4096 * k) - page < BitVec.ofNat 64 n * 4096 := by
  have hsize : (BitVec.ofNat 64 n * 4096).toNat = n * 4096 := by
    have hpage : (4096 : Unsigned64).toNat = 4096 := rfl
    rw [BitVec.toNat_mul, BitVec.toNat_ofNat, hpage, Nat.mod_eq_of_lt (by omega), Nat.mod_eq_of_lt (by omega)]
  rw [BitVec.add_comm, BitVec.add_sub_cancel, BitVec.lt_def, hsize, BitVec.toNat_ofNat, Nat.mod_eq_of_lt (by omega)]
  omega

/-- The commands for a layout that maps the regions, and the size for another one that does. -/
lemma consistent_of_commands {rs : List MemoryRegion} {commands : List Command} {ptAddress : Unsigned64}
    (hl : levels = 3 ∨ levels = 4) (h : MapsPages levels (Mapped rs) layout) (hfits : ∀ r ∈ rs, r.Fits levels)
    (hne : rs ≠ [])
    (hcreated : commands.filterMap Command.created = (ptAddress, tableKey levels (1, 0)) ::
      (numbered (ptAddress + 4096) ((visitedInMaps layout).map (tableKey levels))).reverse)
    (hactivated : commands.filterMap Command.activated =
      (visitedInMaps layout).map (tableKey levels) ++ [tableKey levels (1, 0)]) :
    Consistent levels rs ptAddress (BitVec.ofNat 64 (1 + (visitedInMaps layout).length) * 4096) commands := by
  have hbound : ∀ idx, Mapped rs idx → idx < 512 ^ levels := fun idx => mapped_lt hfits
  have hsome := mapped_nonempty hfits hne
  have hlength := h.length_visitedInMaps_le (by omega)
    (fun idx hidx => (hbound idx hidx).trans_le (Nat.pow_le_pow_right (by norm_num) (by omega)))
  have htables : createdTables commands = (createdOrder layout).map (tableKey levels) := by
    unfold createdTables createdOrder
    rw [hcreated, List.map_cons, List.map_reverse, numbered_snd, List.map_cons, List.map_reverse]
  have hreverse : activatedTables commands = (createdTables commands).reverse := by
    unfold activatedTables
    rw [hactivated, htables, createdOrder, List.map_cons, List.reverse_cons, List.map_reverse, List.reverse_reverse]
  have hnodup : (createdTables commands).Nodup := by
    rw [htables]
    exact createdTables_nodup hl h hbound hsome
  have hpages : (createdPages commands).Perm ((List.range ((visitedInMaps layout).length + 1)).map
      (fun k => ptAddress + BitVec.ofNat 64 (4096 * k))) := by
    have hlen : ((visitedInMaps layout).map (tableKey levels)).length = (visitedInMaps layout).length :=
      List.length_map _
    unfold createdPages
    rw [hcreated, ← hlen]
    exact createdPages_perm ptAddress _ _
  have hparent : ∀ before t after, createdTables commands = before ++ t :: after → t.level < levels →
      ∃ p ∈ before, p.ParentOf t := by
    intro before t after hsplit hlt
    have hmem : t ∈ (createdOrder layout).map (tableKey levels) := by
      rw [← htables, hsplit]
      simp
    obtain ⟨p, hp, hcovers⟩ := createdTables_parent hl h hbound hsome hmem hlt
    have hpair := createdTables_pairwise h
    rw [← htables, hsplit] at hp hpair
    have hlevel := hcovers.1
    refine ⟨p, mem_before hpair hp ?_ (by omega), hcovers⟩
    rintro rfl
    omega
  refine ⟨hnodup, ?_, ?_, ?_, hparent, ?_, ?_, ?_⟩
  · intro t
    rw [htables]
    exact mem_createdTables hl h hfits hne t
  · rw [hpages.nodup_iff]
    exact pages_nodup (by omega) ptAddress
  · intro page hpage
    obtain ⟨k, hk, rfl⟩ := List.mem_map.mp (hpages.mem_iff.mp hpage)
    rw [List.mem_range] at hk
    exact page_reserved (by omega) (by omega) ptAddress
  · rw [hreverse, List.nodup_reverse]
    exact hnodup
  · intro t
    rw [hreverse, List.mem_reverse]
  · intro before t after hsplit hlt
    rw [hreverse] at hsplit
    have hcreation := congrArg List.reverse hsplit
    rw [List.reverse_reverse, List.reverse_append, List.reverse_cons, List.append_assoc] at hcreation
    obtain ⟨p, hp, hcovers⟩ := hparent after.reverse t before.reverse hcreation hlt
    exact ⟨p, List.mem_reverse.mp hp, hcovers⟩

/-- Some 512 GB of the address space hold no mapped address. -/
def SlotFree (rs : List MemoryRegion) : Prop :=
  ∃ slot, slot < 512 ∧ ∀ r ∈ rs, ∀ address, r.virtualAddress.toNat ≤ address →
    address < r.virtualAddress.toNat + r.size.toNat → address / 2 ^ 39 ≠ slot

lemma slotFree_iff {rs : List MemoryRegion} (hfits : ∀ r ∈ rs, r.Fits levels) :
    SlotFree rs ↔ ∃ n, n < 512 ∧ ∀ idx, Mapped rs idx → idx / 512 ^ 3 ≠ n := by
  unfold SlotFree
  apply exists_congr
  intro slot
  apply and_congr_right
  intro _
  constructor
  · rintro hfree idx ⟨r, hr, hpage⟩ hslot
    apply hfree r hr (4096 * idx) hpage.1 hpage.2
    omega
  · intro hfree r hr address h1 h2 hslot
    apply hfree (address / 4096) (mapped_div hfits hr h1 h2)
    omega

/-- The page table commands are as they should be exactly if the level 1 table is not full. -/
theorem assignMemory_consistent_iff {memoryNodes : List Expanders.XmlUtils.VirtualMemory}
    {deviceNodes : List Expanders.XmlUtils.DeviceMemory} (object : Object) (currentPT : Nat)
    (ptAddr ptSize : Unsigned64) (hl : levels = 3 ∨ levels = 4) (hne : regions logicalMem logicalDevs ≠ [])
    (hfits : ∀ r ∈ regions logicalMem logicalDevs, r.Fits levels)
    (hdisjoint : (regions logicalMem logicalDevs).Pairwise MemoryRegion.Disjoint)
    (hsame : ((Expanders.XmlUtils.regions memoryNodes deviceNodes).map MemoryRegion.range).Perm
      ((regions logicalMem logicalDevs).map MemoryRegion.range)) :
    (∃ commands nextPT size,
      assignMemory object currentPT logicalMem logicalDevs ptAddr ptSize levels = .ok (commands, nextPT) ∧
      Expanders.XmlUtils.calculatePtSize levels false memoryNodes deviceNodes = .ok size ∧
      Consistent levels (regions logicalMem logicalDevs) ptAddr size commands) ↔
    SlotFree (regions logicalMem logicalDevs) := by
  rw [slotFree_iff hfits]
  constructor
  · rintro ⟨commands, nextPT, size, hrun, -, -⟩
    by_contra hfull
    push Not at hfull
    rw [assignMemory_full object currentPT ptAddr ptSize hl hfits hdisjoint hfull] at hrun
    cases hrun
  · intro hfree
    obtain ⟨idx, hidx⟩ := mapped_nonempty hfits hne
    have hlt := mapped_lt hfits hidx
    have hused : PartlyUsed (Mapped (regions logicalMem logicalDevs)) := by
      refine ⟨⟨idx / 512 ^ 3, ?_, idx, hidx, rfl⟩, hfree⟩
      rcases hl with rfl | rfl <;> omega
    obtain ⟨layout, hlayout, hmaps⟩ := mapped_layout ptAddr hl hfits hdisjoint
    obtain ⟨stream, mapCmds, nextPT, hstream, hmap, heq⟩ := assignMemory_eq object currentPT ptAddr ptSize hlayout
    obtain ⟨created, activate, hcreate, h1, h2, h3, h4⟩ :=
      createObjectPTs_spec object hmaps hused stream hstream ptAddr ptSize
    obtain ⟨layout', hlayout', hmaps'⟩ := mapped_layout 0 hl (MemoryRegion.fits_of_perm hsame hfits)
      (MemoryRegion.disjoint_of_perm hsame hdisjoint)
    have hpages : MapsPages levels (Mapped (regions logicalMem logicalDevs)) layout' :=
      hmaps'.congr (fun idx => ⟨MemoryRegion.hasPage_of_perm hsame, MemoryRegion.hasPage_of_perm hsame.symm⟩)
    have hsize := Expanders.XmlUtils.calculatePtSize_eq hpages hused hlayout'
    rw [hpages.visitedInMaps_eq hmaps] at hsize
    refine ⟨created ++ mapCmds ++ [.lock object] ++ activate, nextPT, _, ?_, hsize, ?_⟩
    · rw [heq, hcreate, ok_bind]
    · apply consistent_of_commands hl hmaps hfits hne
      · rw [List.filterMap_append, List.filterMap_append, List.filterMap_append, h1, hmap.1, h3]
        simp [Command.created]
      · rw [List.filterMap_append, List.filterMap_append, List.filterMap_append, h2, hmap.2, h4]
        simp [Command.activated]

end Assign

/-- A page at the start of each 512 GB. -/
def pageInEverySlot : List LogicalMemory :=
  (List.range 512).map (fun slot => ⟨BitVec.ofNat 64 (slot * 2 ^ 39), true, false, 0x200000, 0x1000, .wb, "1"⟩)

lemma mem_regions_pageInEverySlot {r : MemoryRegion} : r ∈ regions pageInEverySlot [] ↔
    ∃ slot, slot < 512 ∧ r = ⟨0x200000, BitVec.ofNat 64 (slot * 2 ^ 39), 0x1000, .wb, true, false⟩ := by
  unfold regions pageInEverySlot
  rw [List.flatMap_nil, List.map_nil, List.append_nil, List.map_map, List.mem_map]
  simp only [List.mem_range, Function.comp, LogicalMemory.region, eq_comm]

lemma slot_toNat {slot : Nat} (h : slot < 512) : (BitVec.ofNat 64 (slot * 2 ^ 39)).toNat = slot * 2 ^ 39 := by
  rw [BitVec.toNat_ofNat, Nat.mod_eq_of_lt (by omega)]

lemma pageInEverySlot_fits : ∀ r ∈ regions pageInEverySlot [], r.Fits 4 := by
  intro r hr
  obtain ⟨slot, hslot, rfl⟩ := mem_regions_pageInEverySlot.mp hr
  have hsize : (0x1000 : Unsigned64).toNat = 4096 := rfl
  refine ⟨?_, by rw [hsize], by rw [hsize]; norm_num, ?_⟩
  · rw [slot_toNat hslot]
    omega
  · rw [slot_toNat hslot, hsize]
    omega

lemma pageInEverySlot_disjoint : (regions pageInEverySlot []).Pairwise MemoryRegion.Disjoint := by
  have hsize : (0x1000 : Unsigned64).toNat = 4096 := rfl
  unfold regions pageInEverySlot
  rw [List.flatMap_nil, List.map_nil, List.append_nil, List.map_map, List.pairwise_map]
  apply List.pairwise_lt_range.imp_of_mem
  intro slot slot' hslot hslot' hlt
  rw [List.mem_range] at hslot hslot'
  left
  simp only [Function.comp, LogicalMemory.region, slot_toNat hslot, slot_toNat hslot', hsize]
  omega

/-- No commands for a subject with a page in every 512 GB. -/
theorem assignMemory_consistent_fails :
    (∀ r ∈ regions pageInEverySlot [], r.Fits 4) ∧ (regions pageInEverySlot []).Pairwise MemoryRegion.Disjoint ∧
      assignMemory ⟨"Subject", "subject", "0"⟩ 0 pageInEverySlot [] 0x1000000 0x601000 4 =
        .error .constraintError := by
  refine ⟨pageInEverySlot_fits, pageInEverySlot_disjoint, ?_⟩
  apply assignMemory_full _ _ _ _ (Or.inr rfl) pageInEverySlot_fits pageInEverySlot_disjoint
  intro slot hslot
  refine ⟨slot * 512 ^ 3, ⟨_, mem_regions_pageInEverySlot.mpr ⟨slot, hslot, rfl⟩, ?_⟩, ?_⟩
  · have hsize : (0x1000 : Unsigned64).toNat = 4096 := rfl
    unfold MemoryRegion.HasPage
    rw [slot_toNat hslot, hsize]
    omega
  · exact Nat.mul_div_cancel slot (by norm_num)

/-- A page of memory and one of a device, with three levels. -/
theorem assignMemory_consistent_two : ∃ commands nextPT size,
    assignMemory ⟨"Subject", "subject", "0"⟩ 7 [⟨0x200000, true, false, 0x1000000, 0x1000, .wb, "1"⟩]
      [⟨"2", [⟨0x400000, true, false, 0xfee00000, 0x2000, .uc⟩]⟩] 0x2000000 0x4000 3 = .ok (commands, nextPT) ∧
    Expanders.XmlUtils.calculatePtSize 3 false [⟨0x200000, 0x1000, 0x1000⟩] [⟨0x400000, 0x2000, 0xfee00000⟩] =
      .ok size ∧
    Consistent 3 (regions [⟨0x200000, true, false, 0x1000000, 0x1000, .wb, "1"⟩]
      [⟨"2", [⟨0x400000, true, false, 0xfee00000, 0x2000, .uc⟩]⟩]) 0x2000000 size commands := by
  apply (assignMemory_consistent_iff _ _ _ _ (Or.inl rfl) (by decide) ?_ ?_ ?_).mpr
  · refine ⟨1, by norm_num, ?_⟩
    intro r hr address h1 h2
    simp [regions, LogicalMemory.region, LogicalDeviceMemory.region] at hr
    rcases hr with rfl | rfl
    · simp at h1 h2
      omega
    · simp at h1 h2
      omega
  · intro r hr
    simp [regions, LogicalMemory.region, LogicalDeviceMemory.region] at hr
    rcases hr with rfl | rfl
    · exact ⟨by decide, by decide, by decide, by decide⟩
    · exact ⟨by decide, by decide, by decide, by decide⟩
  · simp [regions, LogicalMemory.region, LogicalDeviceMemory.region, MemoryRegion.Disjoint]
  · exact List.Perm.refl _

end Muen.Tools.Mugentau0cmds
