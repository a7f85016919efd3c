import Muen.Lib.Fallible
import Muen.Tools.AllocMapInsert
import Muen.Tools.Mucfgalloc.Allocator
import Mathlib.Order.CompletePartialOrder

/-!
# The map before the allocation

The memory map from the memory blocks, the device memory and the regions with an address. Where no three free
blocks follow each other without a gap, its free memory and its regions of the policy do not depend on the order
in which they are added.
-/

namespace Muen.Tools.Mucfgalloc
open AllocMap Lib

def MemoryBlock.region (b : MemoryBlock) : Region :=
  ⟨.empty, b.physicalAddress, lastAddress b.physicalAddress b.size, b.name, b.allocatable.getD true⟩

def DeviceMemory.region (devName : String) (m : DeviceMemory) : Region :=
  ⟨.device, m.physicalAddress, lastAddress m.physicalAddress m.size, devName ++ "." ++ m.name, false⟩

def Device.regions (d : Device) : List Region := d.memory.map (DeviceMemory.region d.name)

/-- The regions that the map is built from. -/
def Policy.inserts (policy : Policy) : List Region :=
  policy.memoryBlocks.map MemoryBlock.region ++ policy.devices.flatMap Device.regions

/-- A region of the policy at an address. -/
def MemoryRegion.placed (r : MemoryRegion) (kind : RegionKind) (address : Unsigned64) : Region :=
  ⟨kind, address, lastAddress address r.size, r.name, false⟩

def Policy.fixed (policy : Policy) : List Region :=
  policy.memory.filterMap (fun r => r.physicalAddress.map (r.placed .fixed))

def insert (map : Map) (n : Region) : Except AllocError Map :=
  checked (n.firstAddress < n.lastAddress)
    (insertNewRegion map n.name n.allocatable n.kind n.firstAddress n.lastAddress)

def fix (map : Map) (n : Region) : Except AllocError Map :=
  checked (n.firstAddress < n.lastAddress) (allocateFixed map n.name n.firstAddress n.lastAddress)

lemma checked_eq_ok {pre : Prop} [Decidable pre] {x : Except MapError Map} {map : Map} :
    checked pre x = .ok map ↔ pre ∧ x = .ok map := by
  unfold checked
  by_cases h : pre
  · rw [if_pos h]
    cases x <;> simp [h]
  · rw [if_neg h]
    simp [h]

lemma fixedMap_eq (policy : Policy) (h : policy.memoryBlocks ≠ []) :
    fixedMap policy = (policy.inserts.foldlM insert CursorList.empty >>= policy.fixed.foldlM fix) := by
  have hdevice : ∀ d : Device, ∀ map, d.memory.foldlM (addDeviceRegion d.name) map = d.regions.foldlM insert map := by
    intro d map
    rw [Device.regions, List.foldlM_map]
    rfl
  have hfixed : ∀ map, addFixedRegions policy map = policy.fixed.foldlM fix map := by
    intro map
    rw [Policy.fixed, List.foldlM_filterMap, addFixedRegions]
    congr 1
    funext map r
    unfold addFixedRegion
    cases r.physicalAddress <;> rfl
  unfold fixedMap addEmptyRegions Policy.inserts
  rw [if_neg h, List.foldlM_append, List.foldlM_map, bind_assoc]
  congr 1
  funext map
  rw [foldlM_flatMap, addDeviceRegions]
  simp only [hdevice, hfixed]

lemma ne_nil_of_fixedMap {policy : Policy} {map : Map} (h : fixedMap policy = .ok map) :
    policy.memoryBlocks ≠ [] := by
  intro hnil
  simp [fixedMap, addEmptyRegions, hnil, bind, Except.bind] at h

/-! ### Insertion -/

/-- A free region that passes the check of its bounds. -/
def FreeValid (r : Region) : Prop := r.isFree ∧ r.firstAddress < r.lastAddress

/-- Empty and device regions, no three free ones of which follow each other without a gap. -/
structure Insertable (l : List Region) : Prop where
  kinds : ∀ r ∈ l, r.isOpen
  devices : ∀ r ∈ l, r.kind = .device → r.allocatable = false
  gaps : ∀ a ∈ l, ∀ b ∈ l, ∀ c ∈ l, FreeValid a → FreeValid b → FreeValid c →
    ¬(a.lastAddress.toNat + 1 = b.firstAddress.toNat ∧ b.lastAddress.toNat + 1 = c.firstAddress.toNat)

/-- The map with the regions `done`. -/
structure Built (l done : List Region) : Prop where
  tidy : Tidy l
  valid : ∀ d ∈ done, d.firstAddress < d.lastAddress
  free : free l = free done
  kept : ∀ r, r.isFree = false → (r ∈ l ↔ r ∈ done)
  ends : ∀ r ∈ l, r.isFree → (∃ s ∈ done, s.isFree ∧ r.firstAddress = s.firstAddress) ∧
    ∃ s ∈ done, s.isFree ∧ r.lastAddress = s.lastAddress

lemma Insertable.mono {l m : List Region} (h : Insertable m) (hsub : ∀ r ∈ l, r ∈ m) : Insertable l :=
  ⟨fun r hr => h.kinds r (hsub r hr), fun r hr => h.devices r (hsub r hr),
    fun a ha b hb c hc => h.gaps a (hsub a ha) b (hsub b hb) c (hsub c hc)⟩

lemma apart_iff {r s : Region} (hr : r.firstAddress ≤ r.lastAddress) (hs : s.firstAddress ≤ s.lastAddress) :
    Apart r s ↔ Disjoint r.toSet s.toSet := by
  rw [Set.disjoint_left]
  unfold Apart
  constructor
  · intro h x hxr hxs
    simp only [Region.toSet, Set.mem_ofPred_eq] at hxr hxs
    bv_omega
  · intro h
    by_contra hnot
    have hlow := h (a := r.firstAddress)
    have hhigh := h (a := s.firstAddress)
    simp only [Region.toSet, Set.mem_ofPred_eq] at hlow hhigh
    bv_omega

lemma Apart.symm {r s : Region} (h : Apart r s) : Apart s r := Or.symm h

instance : Std.Symm Apart := ⟨fun _ _ => Apart.symm⟩

section Built

variable {l done : List Region} {n : Region} {map map' : Map}

lemma built_nil : Built [] [] := ⟨tidy_nil, by simp, rfl, by simp, by simp⟩

/-- The regions of the map cover what those it was built from do. -/
lemma Built.mem_iff (h : Built l done) (x : Unsigned64) : (∃ r ∈ l, x ∈ r.toSet) ↔ ∃ r ∈ done, x ∈ r.toSet := by
  have hfree : x ∈ AllocMap.free l ↔ x ∈ AllocMap.free done := by rw [h.free]
  rw [mem_free, mem_free] at hfree
  constructor
  · rintro ⟨r, hr, hx⟩
    by_cases hrfree : r.isFree
    · obtain ⟨s, hs, -, hxs⟩ := hfree.mp ⟨r, hr, hrfree, hx⟩
      exact ⟨s, hs, hxs⟩
    · exact ⟨r, (h.kept r (by simpa using hrfree)).mp hr, hx⟩
  · rintro ⟨r, hr, hx⟩
    by_cases hrfree : r.isFree
    · obtain ⟨s, hs, -, hxs⟩ := hfree.mpr ⟨r, hr, hrfree, hx⟩
      exact ⟨s, hs, hxs⟩
    · exact ⟨r, (h.kept r (by simpa using hrfree)).mpr hr, hx⟩

/-- A new region is apart from the map exactly if it is apart from what the map was built from. -/
lemma Built.apart_iff (h : Built l done) (hn : n.firstAddress < n.lastAddress) :
    (∀ r ∈ l, Apart r n) ↔ ∀ d ∈ done, Apart d n := by
  have hle := BitVec.le_of_lt hn
  have hl : ∀ r ∈ l, (Apart r n ↔ Disjoint r.toSet n.toSet) := fun r hr =>
    Mucfgalloc.apart_iff (h.tidy.sorted.1 r hr) hle
  have hdone : ∀ d ∈ done, (Apart d n ↔ Disjoint d.toSet n.toSet) := fun d hd =>
    Mucfgalloc.apart_iff (BitVec.le_of_lt (h.valid d hd)) hle
  constructor
  · intro hapart d hd
    rw [hdone d hd, Set.disjoint_left]
    intro x hxd hxn
    obtain ⟨r, hr, hxr⟩ := (h.mem_iff x).mpr ⟨d, hd, hxd⟩
    exact Set.disjoint_left.mp ((hl r hr).mp (hapart r hr)) hxr hxn
  · intro hapart r hr
    rw [hl r hr, Set.disjoint_left]
    intro x hxr hxn
    obtain ⟨d, hd, hxd⟩ := (h.mem_iff x).mp ⟨r, hr, hxr⟩
    exact Set.disjoint_left.mp ((hdone d hd).mp (hapart d hd)) hxd hxn

lemma Built.oneSided (h : Built l done) (hins : Insertable (done ++ [n])) (hlt : n.firstAddress < n.lastAddress) :
    OneSided l n := by
  intro r hr s hs hjr hjs hadj
  obtain ⟨hn, hrfree⟩ := isFree_of_joins hjr
  obtain ⟨-, hsfree⟩ := isFree_of_joins hjs
  obtain ⟨-, a, ha, hafree, halast⟩ := h.ends r hr hrfree
  obtain ⟨⟨c, hc, hcfree, hcfirst⟩, -⟩ := h.ends s hs hsfree
  have hgap := hins.gaps a (List.mem_append_left _ ha) n (by simp) c (List.mem_append_left _ hc)
    ⟨hafree, h.valid a ha⟩ ⟨hn, hlt⟩ ⟨hcfree, h.valid c hc⟩
  rw [← halast, ← hcfirst] at hgap
  exact hgap hadj

lemma free_concat : free (done ++ [n]) = free done ∪ if n.isFree then n.toSet else ∅ := by
  rw [free_append, free_cons]
  congr 1
  have hnil : free [] = ∅ := by simp [free]
  rw [hnil, Set.union_empty]

lemma Built.insert (h : Built map.elems done) (hins : Insertable (done ++ [n])) (hrun : insert map n = .ok map') :
    Built map'.elems (done ++ [n]) := by
  obtain ⟨hlt, hrun⟩ := checked_eq_ok.mp hrun
  have hinserts := insertNewRegion_inserts h.tidy hlt (h.oneSided hins hlt) (hins.devices n (by simp)) hrun
  refine ⟨hinserts.tidy, ?_, ?_, ?_, ?_⟩
  · intro d hd
    rcases List.mem_append.mp hd with hd | hd
    · exact h.valid d hd
    · rwa [List.mem_singleton.mp hd]
  · rw [hinserts.free, h.free, free_concat]
  · intro r hr
    rw [hinserts.kept r hr, h.kept r hr, List.mem_append, List.mem_singleton]
  · intro r hr hrfree
    obtain ⟨hfirst, hlast⟩ := hinserts.ends r hr hrfree
    constructor
    · rcases hfirst with ⟨hfirst, hn⟩ | ⟨s, hs, hsfree, hfirst⟩
      · exact ⟨n, by simp, hn, hfirst⟩
      · obtain ⟨⟨d, hd, hdfree, hdfirst⟩, -⟩ := h.ends s hs hsfree
        exact ⟨d, List.mem_append_left _ hd, hdfree, hfirst.trans hdfirst⟩
    · rcases hlast with ⟨hlast, hn⟩ | ⟨s, hs, hsfree, hlast⟩
      · exact ⟨n, by simp, hn, hlast⟩
      · obtain ⟨-, d, hd, hdfree, hdlast⟩ := h.ends s hs hsfree
        exact ⟨d, List.mem_append_left _ hd, hdfree, hlast.trans hdlast⟩

lemma Built.insert_exists (h : Built map.elems done) (hins : Insertable (done ++ [n])) :
    (∃ map', Mucfgalloc.insert map n = .ok map') ↔
      n.firstAddress < n.lastAddress ∧ ∀ d ∈ done, Apart d n := by
  constructor
  · rintro ⟨map', hrun⟩
    obtain ⟨hlt, hrun⟩ := checked_eq_ok.mp hrun
    have hinserts := insertNewRegion_inserts h.tidy hlt (h.oneSided hins hlt) (hins.devices n (by simp)) hrun
    exact ⟨hlt, (h.apart_iff hlt).mp hinserts.apart⟩
  · rintro ⟨hlt, hapart⟩
    obtain ⟨map', hrun⟩ := insertNewRegion_exists h.tidy hlt ((h.apart_iff hlt).mpr hapart)
    exact ⟨map', checked_eq_ok.mpr ⟨hlt, hrun⟩⟩

lemma inserts_built (hins : Insertable l) (hrun : l.foldlM insert CursorList.empty = .ok map) :
    Built map.elems l := by
  refine foldlM_ok (fun (map : Map) done => Insertable done → Built map.elems done) ?_ ?_ hrun hins
  · exact fun _ => built_nil
  intro done n map map' hbuilt hrun hins
  exact (hbuilt (hins.mono (fun r hr => List.mem_append_left _ hr))).insert hins hrun

/-- The regions can be inserted exactly if they are apart from each other. -/
lemma inserts_exists (hins : Insertable l) :
    (∃ map, l.foldlM insert CursorList.empty = .ok map) ↔
      (∀ n ∈ l, n.firstAddress < n.lastAddress) ∧ l.Pairwise Apart := by
  refine foldlM_exists_iff (fun (map : Map) done => Insertable done → Built map.elems done) (fun _ => built_nil) ?_ ?_
  · intro done n map map' hbuilt hrun hins
    exact (hbuilt (hins.mono (fun r hr => List.mem_append_left _ hr))).insert hins hrun
  · intro done n map hmem hbuilt
    have hinsdone : Insertable (done ++ [n]) := hins.mono hmem
    exact (hbuilt (hinsdone.mono (fun r hr => List.mem_append_left _ hr))).insert_exists hinsdone

/-- A row of addresses lies in one region of the map exactly if it does so in one it was built from, or is free. -/
lemma Built.opens (h : Built l done) {f g : Unsigned64} (hfg : f ≤ g) :
    Opens l f g ↔ (∃ r ∈ done, r.isFree = false ∧ r.isOpen ∧ r.firstAddress ≤ f ∧ g ≤ r.lastAddress) ∨
      ∀ x, f ≤ x → x ≤ g → x ∈ AllocMap.free done := by
  constructor
  · rintro ⟨r, hr, hopen, hf, hg⟩
    by_cases hrfree : r.isFree
    · refine Or.inr (fun x hfx hxg => ?_)
      rw [← h.free]
      exact mem_free.mpr ⟨r, hr, hrfree, by bv_omega, by bv_omega⟩
    · have hrfree : r.isFree = false := by simpa using hrfree
      exact Or.inl ⟨r, (h.kept r hrfree).mp hr, hrfree, hopen, hf, hg⟩
  · rintro (⟨r, hr, hrfree, hopen, hf, hg⟩ | hfree)
    · exact ⟨r, (h.kept r hrfree).mpr hr, hopen, hf, hg⟩
    · rw [← h.free] at hfree
      obtain ⟨r, hr, hrfree, hf, hg⟩ := h.tidy.exists_region hfg hfree
      refine ⟨r, hr, ?_, hf, hg⟩
      simp only [Region.isFree, Region.isOpen, decide_eq_true_eq] at hrfree ⊢
      exact Or.inl hrfree.1

end Built

/-! ### Fixed regions -/

/-- The map `l₀` with the fixed regions `done`. -/
structure Fixed (l₀ l done : List Region) : Prop where
  tidy : Tidy l
  free : free l = free l₀ \ covered Region.toSet done
  taken : ∀ r, r.isTaken → (r ∈ l ↔ r ∈ l₀ ∨ r ∈ done)
  opens : ∀ f g, f ≤ g →
    (Opens l f g ↔ Opens l₀ f g ∧ ∀ d ∈ done, g < d.firstAddress ∨ d.lastAddress < f)

/-- The shape of the regions that `Add_Fixed_Regions` allocates. -/
def IsFixed (n : Region) : Prop := n.kind = .fixed ∧ n.allocatable = false

section Fixed

variable {l₀ l done : List Region} {n : Region} {map map' : Map}

lemma fixed_nil (h : Tidy l₀) : Fixed l₀ l₀ [] := by
  refine ⟨h, ?_, by simp, by simp⟩
  rw [covered_nil, Set.sdiff_empty]

lemma Fixed.fix (h : Fixed l₀ map.elems done) (hn : IsFixed n) (hrun : fix map n = .ok map') :
    Fixed l₀ map'.elems (done ++ [n]) := by
  obtain ⟨hlt, hrun⟩ := checked_eq_ok.mp hrun
  have hreserves := allocateFixed_reserves h.tidy hlt hrun
  have hn : (⟨.fixed, n.firstAddress, n.lastAddress, n.name, false⟩ : Region) = n := by
    cases n
    simp [IsFixed] at hn
    simp [hn.1, hn.2]
  rw [hn] at hreserves
  refine ⟨hreserves.tidy, ?_, ?_, ?_⟩
  · rw [hreserves.free, h.free, covered_append, covered_singleton, sdiff_sdiff]
    rfl
  · intro r hr
    rw [hreserves.taken r hr, h.taken r hr, List.mem_append, List.mem_singleton]
    tauto
  · intro f g hfg
    rw [hreserves.opens f g hfg, h.opens f g hfg]
    simp only [List.forall_mem_append, List.forall_mem_singleton]
    tauto

lemma Fixed.fix_exists (h : Fixed l₀ map.elems done) :
    (∃ map', Mucfgalloc.fix map n = .ok map') ↔
      (n.firstAddress < n.lastAddress ∧ Opens l₀ n.firstAddress n.lastAddress) ∧ ∀ d ∈ done, Apart n d := by
  have hopens : n.firstAddress < n.lastAddress →
      (Opens map.elems n.firstAddress n.lastAddress ↔
        Opens l₀ n.firstAddress n.lastAddress ∧ ∀ d ∈ done, Apart n d) := fun hlt =>
    h.opens n.firstAddress n.lastAddress (BitVec.le_of_lt hlt)
  constructor
  · rintro ⟨map', hrun⟩
    obtain ⟨hlt, hrun⟩ := checked_eq_ok.mp hrun
    obtain ⟨hopen, hapart⟩ := (hopens hlt).mp ((allocateFixed_exists _ h.tidy.sorted hlt).mp ⟨map', hrun⟩)
    exact ⟨⟨hlt, hopen⟩, hapart⟩
  · rintro ⟨⟨hlt, hopen⟩, hapart⟩
    obtain ⟨map', hrun⟩ := (allocateFixed_exists _ h.tidy.sorted hlt).mpr ((hopens hlt).mpr ⟨hopen, hapart⟩)
    exact ⟨map', checked_eq_ok.mpr ⟨hlt, hrun⟩⟩

lemma fixed_fold {map₀ : Map} (h : Tidy map₀.elems) (hl : ∀ n ∈ l, IsFixed n) (hrun : l.foldlM fix map₀ = .ok map) :
    Fixed map₀.elems map.elems l := by
  refine foldlM_ok (fun (map : Map) done => (∀ n ∈ done, IsFixed n) → Fixed map₀.elems map.elems done)
    (fun _ => fixed_nil h) ?_ hrun hl
  intro done n map map' hfixed hrun hdone
  rw [List.forall_mem_append] at hdone
  exact (hfixed hdone.1).fix (hdone.2 n (by simp)) hrun

/-- The fixed regions can be allocated exactly if each lies in a region and they are apart from each other. -/
lemma fixed_exists {map₀ : Map} (h : Tidy map₀.elems) (hl : ∀ n ∈ l, IsFixed n) :
    (∃ map, l.foldlM fix map₀ = .ok map) ↔
      (∀ n ∈ l, n.firstAddress < n.lastAddress ∧ Opens map₀.elems n.firstAddress n.lastAddress) ∧
        l.Pairwise (fun d n => Apart n d) := by
  refine foldlM_exists_iff (fun (map : Map) done => (∀ n ∈ done, IsFixed n) → Fixed map₀.elems map.elems done)
    (fun _ => fixed_nil h) ?_ ?_
  · intro done n map map' hfixed hrun hdone
    rw [List.forall_mem_append] at hdone
    exact (hfixed hdone.1).fix (hdone.2 n (by simp)) hrun
  · intro done n map hmem hfixed
    exact (hfixed (fun d hd => hl d (hmem d (List.mem_append_left _ hd)))).fix_exists

end Fixed

/-! ### Order -/

/-- The elements of the policy in another order. -/
structure Policy.Reordered (policy policy' : Policy) : Prop where
  memory : policy.memory.Perm policy'.memory
  memoryBlocks : policy.memoryBlocks.Perm policy'.memoryBlocks
  devices : (policy.devices.flatMap Device.regions).Perm (policy'.devices.flatMap Device.regions)

/-- Maps with the same free memory and the same regions of the policy. -/
structure Same (l l' : List Region) : Prop where
  left : Tidy l
  right : Tidy l'
  free : free l = free l'
  taken : ∀ r, r.isTaken → (r ∈ l ↔ r ∈ l')

lemma isFixed_of_mem {policy : Policy} : ∀ n ∈ policy.fixed, IsFixed n := by
  intro n hn
  obtain ⟨r, -, hr⟩ := List.mem_filterMap.mp hn
  obtain ⟨a, -, rfl⟩ := Option.map_eq_some_iff.mp hr
  exact ⟨rfl, rfl⟩

/-- The map of a policy, before and behind the fixed regions. -/
lemma fixedMap_ok {policy : Policy} {map : Map} (hins : Insertable policy.inserts) (h : fixedMap policy = .ok map) :
    ∃ map₀ : Map, policy.inserts.foldlM insert CursorList.empty = .ok map₀ ∧ policy.fixed.foldlM fix map₀ = .ok map ∧
      Built map₀.elems policy.inserts ∧ Fixed map₀.elems map.elems policy.fixed := by
  rw [fixedMap_eq policy (ne_nil_of_fixedMap h)] at h
  obtain ⟨map₀, h₀, h⟩ := bind_eq_ok h
  have hbuilt := inserts_built hins h₀
  exact ⟨map₀, h₀, h, hbuilt, fixed_fold hbuilt.tidy isFixed_of_mem h⟩

lemma Built.notTaken {l done : List Region} (h : Built l done) (hins : Insertable done) :
    ∀ r ∈ l, r.isTaken = false := by
  intro r hr
  by_contra htaken
  have htaken : r.isTaken := by simpa using htaken
  have hclosed := not_isOpen_of_isTaken htaken
  have hopen := hins.kinds r ((h.kept r (isFree_reserved htaken)).mp hr)
  rw [hclosed] at hopen
  exact Bool.false_ne_true hopen

section Reordered

variable {policy policy' : Policy}

lemma Policy.Reordered.inserts (h : policy.Reordered policy') : policy.inserts.Perm policy'.inserts :=
  (h.memoryBlocks.map _).append h.devices

lemma Policy.Reordered.fixed (h : policy.Reordered policy') : policy.fixed.Perm policy'.fixed :=
  h.memory.filterMap _

lemma free_perm {l l' : List Region} (h : l.Perm l') : free l = free l' := by
  ext x
  simp only [mem_free, h.mem_iff]

/-- The order of the elements does not decide whether the map can be built, nor what it looks like. -/
lemma fixedMap_reordered {map : Map} (hins : Insertable policy.inserts) (hreordered : policy.Reordered policy')
    (h : fixedMap policy = .ok map) : ∃ map', fixedMap policy' = .ok map' ∧ Same map.elems map'.elems := by
  obtain ⟨map₀, hrun₀, hrun, hbuilt, hfixed⟩ := fixedMap_ok hins h
  have hperm := hreordered.inserts
  have hpermfixed := hreordered.fixed
  have hins' : Insertable policy'.inserts := hins.mono (fun r hr => hperm.mem_iff.mpr hr)
  have hne : policy'.memoryBlocks ≠ [] := by
    intro hnil
    have hnil' := hreordered.memoryBlocks
    rw [hnil] at hnil'
    exact ne_nil_of_fixedMap h hnil'.eq_nil
  obtain ⟨map₀', hrun₀'⟩ : ∃ map₀', policy'.inserts.foldlM insert CursorList.empty = .ok map₀' := by
    obtain ⟨hvalid, hpair⟩ := (inserts_exists hins).mp ⟨map₀, hrun₀⟩
    apply (inserts_exists hins').mpr
    exact ⟨fun n hn => hvalid n (hperm.mem_iff.mpr hn), (hperm.pairwise_iff Apart.symm).mp hpair⟩
  have hbuilt' := inserts_built hins' hrun₀'
  have hfree₀ : free map₀.elems = free map₀'.elems := by
    rw [hbuilt.free, hbuilt'.free, free_perm hperm]
  have hopens : ∀ f g, f ≤ g → (Opens map₀.elems f g ↔ Opens map₀'.elems f g) := by
    intro f g hfg
    rw [hbuilt.opens hfg, hbuilt'.opens hfg, free_perm hperm]
    simp only [hperm.mem_iff]
  obtain ⟨map', hrun'⟩ : ∃ map', policy'.fixed.foldlM fix map₀' = .ok map' := by
    obtain ⟨hvalid, hpair⟩ := (fixed_exists hbuilt.tidy isFixed_of_mem).mp ⟨map, hrun⟩
    apply (fixed_exists hbuilt'.tidy isFixed_of_mem).mpr
    refine ⟨?_, (hpermfixed.pairwise_iff Apart.symm).mp hpair⟩
    intro n hn
    obtain ⟨hlt, hopen⟩ := hvalid n (hpermfixed.mem_iff.mpr hn)
    exact ⟨hlt, (hopens _ _ (BitVec.le_of_lt hlt)).mp hopen⟩
  have hfixed' := fixed_fold hbuilt'.tidy isFixed_of_mem hrun'
  refine ⟨map', ?_, hfixed.tidy, hfixed'.tidy, ?_, ?_⟩
  · rw [fixedMap_eq policy' hne, hrun₀']
    exact hrun'
  · rw [hfixed.free, hfixed'.free, hfree₀]
    congr 1
    ext x
    simp only [covered, hpermfixed.mem_iff]
  · intro r hr
    have hnot : r ∉ map₀.elems := fun hmem => by simp [hbuilt.notTaken hins r hmem] at hr
    have hnot' : r ∉ map₀'.elems := fun hmem => by simp [hbuilt'.notTaken hins' r hmem] at hr
    rw [hfixed.taken r hr, hfixed'.taken r hr, hpermfixed.mem_iff]
    tauto

end Reordered

end Muen.Tools.Mucfgalloc
