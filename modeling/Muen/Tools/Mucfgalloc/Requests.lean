import Muen.Tools.Mucfgalloc.FixedMap

/-!
# Variable regions

The passes allocate the regions without an address in one order, which is fixed by the regions: each of them fills
an ordered set with a part of the regions and takes it from its end.
-/

namespace Muen.Tools.Mucfgalloc
open AllocMap Lib

/-! ### The ordered set -/

lemma RegionType.lt_iff {left right : RegionType} :
    left.lt right ↔ left.size < right.size ∨ left.size = right.size ∧
      (left.alignment < right.alignment ∨ left.alignment = right.alignment ∧ right.name < left.name) := by
  unfold RegionType.lt
  split_ifs with h₁ h₂ h₃ h₄
  · simp [h₁]
  · simp [h₂, h₃]
  · simp [h₂, h₄]
  · simp [h₂, h₃, h₄]
  · simp [h₁, h₂]

lemma RegionType.lt_trans {a b c : RegionType} (hab : a.lt b) (hbc : b.lt c) : a.lt c := by
  rw [lt_iff] at hab hbc ⊢
  rcases hab with hab | ⟨hs, hab | ⟨ha, hab⟩⟩ <;> rcases hbc with hbc | ⟨hs', hbc | ⟨ha', hbc⟩⟩
  · exact Or.inl (by bv_omega)
  · exact Or.inl (by bv_omega)
  · exact Or.inl (by bv_omega)
  · exact Or.inl (by bv_omega)
  · exact Or.inr ⟨hs.trans hs', Or.inl (by bv_omega)⟩
  · exact Or.inr ⟨hs.trans hs', Or.inl (by bv_omega)⟩
  · exact Or.inl (by bv_omega)
  · exact Or.inr ⟨hs.trans hs', Or.inl (by bv_omega)⟩
  · exact Or.inr ⟨hs.trans hs', Or.inr ⟨ha.trans ha', hbc.trans hab⟩⟩

lemma RegionType.lt_irrefl (a : RegionType) : ¬a.lt a := by
  rw [lt_iff]
  rintro (h | ⟨-, h | ⟨-, h⟩⟩)
  · bv_omega
  · bv_omega
  · exact (ne_of_lt h) rfl

lemma RegionType.lt_total {a b : RegionType} (hne : a ≠ b) : a.lt b ∨ b.lt a := by
  obtain ⟨al, sz, nm⟩ := a
  obtain ⟨al', sz', nm'⟩ := b
  simp only [lt_iff]
  by_cases hs : sz = sz'
  · by_cases ha : al = al'
    · have hn : nm ≠ nm' := by
        rintro rfl
        exact hne (by rw [hs, ha])
      rcases lt_or_gt_of_ne hn with h | h
      · exact Or.inr (Or.inr ⟨hs.symm, Or.inr ⟨ha.symm, h⟩⟩)
      · exact Or.inl (Or.inr ⟨hs, Or.inr ⟨ha, h⟩⟩)
    · have h : al < al' ∨ al' < al := by bv_omega
      exact h.imp (fun h => Or.inr ⟨hs, Or.inl h⟩) (fun h => Or.inr ⟨hs.symm, Or.inl h⟩)
  · have h : sz < sz' ∨ sz' < sz := by bv_omega
    exact h.imp Or.inl Or.inl

abbrev Increasing (l : List RegionType) : Prop := l.Pairwise (fun a b => a.lt b)

lemma insertOrdered_perm {r : RegionType} {l l' : List RegionType} (h : insertOrdered r l = some l') :
    l'.Perm (r :: l) := by
  induction l generalizing l' with
  | nil =>
    obtain rfl := Option.some.inj h
    exact List.Perm.refl _
  | cons x xs ih =>
    unfold insertOrdered at h
    split_ifs at h with hlt hgt
    · obtain rfl := Option.some.inj h
      exact List.Perm.refl _
    · obtain ⟨ys, hys, rfl⟩ := Option.map_eq_some_iff.mp h
      exact ((ih hys).cons x).trans (List.Perm.swap r x xs)

lemma insertOrdered_increasing {r : RegionType} {l l' : List RegionType} (hl : Increasing l)
    (h : insertOrdered r l = some l') : Increasing l' := by
  induction l generalizing l' with
  | nil =>
    obtain rfl := Option.some.inj h
    exact List.pairwise_singleton _ _
  | cons x xs ih =>
    obtain ⟨hx, hxs⟩ := List.pairwise_cons.mp hl
    unfold insertOrdered at h
    split_ifs at h with hlt hgt
    · obtain rfl := Option.some.inj h
      refine List.Pairwise.cons ?_ hl
      intro y hy
      rcases List.mem_cons.mp hy with rfl | hy
      · exact hlt
      · exact RegionType.lt_trans hlt (hx y hy)
    · obtain ⟨ys, hys, rfl⟩ := Option.map_eq_some_iff.mp h
      refine List.Pairwise.cons ?_ (ih hxs hys)
      intro y hy
      rcases List.mem_cons.mp ((insertOrdered_perm hys).mem_iff.mp hy) with rfl | hy
      · exact hgt
      · exact hx y hy

lemma insertOrdered_exists {r : RegionType} {l : List RegionType} (h : r ∉ l) :
    ∃ l', insertOrdered r l = some l' := by
  induction l with
  | nil => exact ⟨[r], rfl⟩
  | cons x xs ih =>
    rw [List.mem_cons, not_or] at h
    unfold insertOrdered
    by_cases hlt : r.lt x
    · exact ⟨_, if_pos hlt⟩
    · have hgt : x.lt r := (RegionType.lt_total h.1).resolve_left hlt
      obtain ⟨ys, hys⟩ := ih h.2
      refine ⟨x :: ys, ?_⟩
      rw [if_neg hlt, if_pos hgt, hys]
      rfl

/-- The regions of a pass, from the least one on. -/
def Policy.orderedSet (policy : Policy) (path : MemoryRegion → Bool) : List RegionType :=
  match (policy.memory.filter path).foldlM insertRegion [] with
  | .ok set => set
  | .error _ => []

/-- The regions in the order in which the passes allocate them. -/
def Policy.requests (policy : Policy) : List RegionType :=
  paths.flatMap (fun path => (policy.orderedSet path).reverse)

def Policy.UniqueNames (policy : Policy) : Prop := (policy.memory.map MemoryRegion.name).Nodup

lemma insertRegion_ok {r : MemoryRegion} {set set' : List RegionType} :
    insertRegion set r = .ok set' ↔ insertOrdered r.regionType set = some set' := by
  unfold insertRegion
  cases insertOrdered r.regionType set <;> simp

/-- The set of the regions `done`. -/
structure SetOf (set : List RegionType) (done : List MemoryRegion) : Prop where
  increasing : Increasing set
  perm : set.Perm (done.map MemoryRegion.regionType)

lemma setOf_nil : SetOf [] [] := ⟨List.Pairwise.nil, List.Perm.nil⟩

lemma SetOf.insert {r : MemoryRegion} {set set' : List RegionType} {done : List MemoryRegion} (h : SetOf set done)
    (hrun : insertRegion set r = .ok set') : SetOf set' (done ++ [r]) := by
  rw [insertRegion_ok] at hrun
  refine ⟨insertOrdered_increasing h.increasing hrun, ?_⟩
  rw [List.map_append, List.map_singleton]
  exact (insertOrdered_perm hrun).trans ((h.perm.cons _).trans (List.perm_append_singleton _ _).symm)

/-- Only an element of the set is not inserted. -/
lemma SetOf.insert_exists {r : MemoryRegion} {set : List RegionType} {done : List MemoryRegion}
    (h : SetOf set done) : (∃ set', insertRegion set r = .ok set') ↔ ∀ d ∈ done, d.regionType ≠ r.regionType := by
  have hmem : (∀ d ∈ done, d.regionType ≠ r.regionType) ↔ r.regionType ∉ set := by
    rw [h.perm.mem_iff, List.mem_map]
    simp only [not_exists, not_and, ne_eq]
  simp only [hmem, insertRegion_ok]
  constructor
  · rintro ⟨set', hrun⟩ hr
    have hdistinct : set'.Nodup := by
      apply (insertOrdered_increasing h.increasing hrun).imp
      rintro a b hlt rfl
      exact RegionType.lt_irrefl a hlt
    have hnodup := (insertOrdered_perm hrun).nodup hdistinct
    exact (List.nodup_cons.mp hnodup).1 hr
  · exact insertOrdered_exists

section Requests

variable {policy policy' : Policy}

lemma Policy.UniqueNames.eq_of_name (h : policy.UniqueNames) {r s : MemoryRegion} (hr : r ∈ policy.memory)
    (hs : s ∈ policy.memory) (hname : r.name = s.name) : r = s :=
  List.inj_on_of_nodup_map h hr hs hname

/-- No two regions with different names are the same element of the set. -/
lemma Policy.UniqueNames.orderedSet (h : policy.UniqueNames) (path : MemoryRegion → Bool) :
    (policy.memory.filter path).foldlM insertRegion [] = .ok (policy.orderedSet path) := by
  have hnodup : ((policy.memory.filter path).map MemoryRegion.name).Nodup :=
    List.Nodup.sublist (List.filter_sublist.map _) h
  obtain ⟨set, hset⟩ : ∃ set, (policy.memory.filter path).foldlM insertRegion [] = .ok set := by
    apply (foldlM_exists_iff SetOf (P := fun _ => True) (R := fun d r => d.regionType ≠ r.regionType) setOf_nil
      (fun _ _ _ _ => SetOf.insert) ?_).mpr
    · refine ⟨fun _ _ => trivial, ?_⟩
      rw [List.Nodup, List.pairwise_map] at hnodup
      exact hnodup.imp (fun hne heq => hne (congrArg RegionType.name heq))
    · intro done r set _ hset
      rw [true_and]
      exact hset.insert_exists
  rw [Policy.orderedSet, hset]

lemma Policy.UniqueNames.setOf (h : policy.UniqueNames) (path : MemoryRegion → Bool) :
    SetOf (policy.orderedSet path) (policy.memory.filter path) :=
  foldlM_ok SetOf setOf_nil (fun _ _ _ _ => SetOf.insert) (h.orderedSet path)

/-- The passes are one fold over the requests. -/
lemma Policy.UniqueNames.passes (h : policy.UniqueNames) (map : Map) :
    paths.foldlM (fun map path => allocateVariableRegions path policy map) map =
      policy.requests.foldlM allocateRegion map := by
  rw [Policy.requests, foldlM_flatMap]
  congr 1
  funext map path
  rw [allocateVariableRegions, h.orderedSet path]
  rfl

lemma paths_apart : paths.Pairwise (fun p q => ∀ r, ¬(p r ∧ q r)) := by
  simp only [paths, List.pairwise_cons, List.mem_cons, List.not_mem_nil, or_false, forall_eq_or_imp, forall_eq,
    decide_eq_true_eq, IsEmpty.forall_iff, implies_true, List.Pairwise.nil, and_true]
  refine ⟨⟨?_, ?_, ?_⟩, ⟨?_, ?_⟩, ?_⟩ <;> intro r <;> cases r.content <;> cases isSystem r <;> simp

lemma paths_cover (r : MemoryRegion) : (∃ path ∈ paths, path r) ↔ r.physicalAddress = none := by
  simp only [paths, List.mem_cons, List.not_mem_nil, or_false, exists_eq_or_imp, exists_eq_left, decide_eq_true_eq]
  cases r.content <;> cases isSystem r <;> simp

/-- The requests are the regions without an address. -/
lemma Policy.UniqueNames.mem_requests (h : policy.UniqueNames) {t : RegionType} :
    t ∈ policy.requests ↔ ∃ r ∈ policy.memory, r.physicalAddress = none ∧ r.regionType = t := by
  simp only [Policy.requests, List.mem_flatMap, List.mem_reverse, (h.setOf _).perm.mem_iff, List.mem_map,
    List.mem_filter, ← paths_cover]
  constructor
  · rintro ⟨path, hpath, r, ⟨hr, hselect⟩, heq⟩
    exact ⟨r, hr, ⟨path, hpath, hselect⟩, heq⟩
  · rintro ⟨r, hr, ⟨path, hpath, hselect⟩, heq⟩
    exact ⟨path, hpath, r, ⟨hr, hselect⟩, heq⟩

/-- No region is requested twice. -/
lemma Policy.UniqueNames.requests_nodup (h : policy.UniqueNames) :
    (policy.requests.map RegionType.name).Nodup := by
  rw [List.Nodup, List.pairwise_map, Policy.requests, List.pairwise_flatMap]
  constructor
  · intro path _
    have hnodup : ((policy.memory.filter path).map MemoryRegion.name).Nodup :=
      List.Nodup.sublist (List.filter_sublist.map _) h
    have hperm := (h.setOf path).perm.map RegionType.name
    rw [List.map_map] at hperm
    have hset := hperm.symm.nodup hnodup
    rw [← List.nodup_reverse, ← List.map_reverse, List.Nodup, List.pairwise_map] at hset
    exact hset
  · refine paths_apart.imp ?_
    intro path path' hapart t ht t' ht' hname
    rw [List.mem_reverse, (h.setOf _).perm.mem_iff, List.mem_map] at ht ht'
    obtain ⟨r, hr, rfl⟩ := ht
    obtain ⟨r', hr', rfl⟩ := ht'
    obtain ⟨hmem, hselect⟩ := List.mem_filter.mp hr
    obtain ⟨hmem', hselect'⟩ := List.mem_filter.mp hr'
    have heq : r = r' := h.eq_of_name hmem hmem' hname
    exact hapart r ⟨hselect, heq ▸ hselect'⟩

/-- The requests do not depend on the order of the regions. -/
lemma Policy.UniqueNames.requests_perm (h : policy.UniqueNames) (hperm : policy.memory.Perm policy'.memory) :
    policy.requests = policy'.requests := by
  have h' : policy'.UniqueNames := (hperm.map _).nodup h
  have hset : ∀ path, policy.orderedSet path = policy'.orderedSet path := by
    intro path
    apply List.Perm.eq_of_pairwise _ (h.setOf path).increasing (h'.setOf path).increasing
    · have hfilter := (hperm.filter path).map MemoryRegion.regionType
      exact (h.setOf path).perm.trans (hfilter.trans (h'.setOf path).perm.symm)
    · intro a b _ _ hab hba
      exact absurd (RegionType.lt_trans hab hba) (RegionType.lt_irrefl a)
  unfold Policy.requests
  simp only [hset]

end Requests

end Muen.Tools.Mucfgalloc
