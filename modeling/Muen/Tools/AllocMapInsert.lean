import Muen.Tools.AllocMapFree

/-!
# Insertion into a map

An insertion that does not close the gap between two free regions keeps a map tidy, and adds the new region to the
free memory or to the other regions of the map. It only fails when the new region overlaps with one of the map.
-/

namespace Muen.Tools.AllocMap
open Muen.Lib

/-- The new region is merged with a neighbour. -/
def Joins (n e : Region) : Prop :=
  mergeable n.kind n.allocatable e ∧
    (e.lastAddress.toNat + 1 = n.firstAddress.toNat ∨ n.lastAddress.toNat + 1 = e.firstAddress.toNat)

/-- The map behind the insertion of a region between `a` and `b`, where it does not join both neighbours. -/
inductive Inserted (n : Region) : List Region → List Region → List Region → Prop
  | left {a b : List Region} {e : Region} (hjoins : Joins n e) (hright : ∀ r ∈ b.head?, ¬Joins n r) :
    Inserted n (a ++ [e]) b (a ++ { e with lastAddress := n.lastAddress } :: b)
  | right {a b : List Region} {e : Region} (hjoins : Joins n e) (hleft : ∀ r ∈ a.getLast?, ¬Joins n r) :
    Inserted n a (e :: b) (a ++ { e with firstAddress := n.firstAddress } :: b)
  | between {a b : List Region} (hleft : ∀ r ∈ a.getLast?, ¬Joins n r) (hright : ∀ r ∈ b.head?, ¬Joins n r) :
    Inserted n a b (a ++ n :: b)

/-- No two regions lie next to the new one on both sides. -/
def OneSided (l : List Region) (n : Region) : Prop :=
  ∀ r ∈ l, ∀ s ∈ l, Joins n r → Joins n s →
    ¬(r.lastAddress.toNat + 1 = n.firstAddress.toNat ∧ n.lastAddress.toNat + 1 = s.firstAddress.toNat)

lemma insertNewRegion_inserted {map map' : Map} {n : Region} (hsorted : Sorted map.elems)
    (hlt : n.firstAddress < n.lastAddress) (hgap : OneSided map.elems n)
    (hrun : insertNewRegion map n.name n.allocatable n.kind n.firstAddress n.lastAddress = .ok map') :
    ∃ a b, map.elems = a ++ b ∧ (∀ r ∈ a, r.lastAddress < n.firstAddress) ∧
      (∀ r ∈ b, n.lastAddress < r.firstAddress) ∧ Inserted n a b map'.elems := by
  obtain ⟨a, b, hnodes, hloop, hbefore, hafter⟩ := neighbours_split hsorted hlt hrun
  have helems : map.elems = a.map Prod.snd ++ b.map Prod.snd := by simp [CursorList.elems, hnodes]
  refine ⟨a.map Prod.snd, b.map Prod.snd, helems, hbefore, hafter, ?_⟩
  unfold insertNewRegion at hrun
  simp only [hloop, filter_head_none hafter] at hrun
  have hnotleft : adjacentLeft n.kind n.allocatable n.firstAddress a.getLast? = false →
      ∀ r ∈ (a.map Prod.snd).getLast?, ¬Joins n r := by
    intro hadj r hr hjoins
    obtain rfl | ⟨a, ⟨k, e⟩, rfl⟩ := List.eq_nil_or_concat a
    · simp at hr
    · obtain rfl : e = r := by simpa using hr
      have hlow := hbefore e (by simp)
      have hrange := hsorted.1 e (by rw [helems]; simp)
      have hne : ¬(mergeable n.kind n.allocatable e ∧ e.lastAddress + 1 = n.firstAddress) := by
        simpa [adjacentLeft] using hadj
      refine hne ⟨hjoins.1, ?_⟩
      have := hjoins.2
      bv_omega
  have hnotright : adjacentRight n.kind n.allocatable n.lastAddress b.head? = false →
      ∀ r ∈ (b.map Prod.snd).head?, ¬Joins n r := by
    intro hadj r hr hjoins
    cases b with
    | nil => simp at hr
    | cons m b =>
      obtain ⟨k, e⟩ := m
      obtain rfl : e = r := by simpa using hr
      have hhigh := hafter e (by simp)
      have hrange := hsorted.1 e (by rw [helems]; simp)
      have hne : ¬(mergeable n.kind n.allocatable e ∧ n.lastAddress + 1 = e.firstAddress) := by
        simpa [adjacentRight] using hadj
      refine hne ⟨hjoins.1, ?_⟩
      have := hjoins.2
      bv_omega
  by_cases hleft : adjacentLeft n.kind n.allocatable n.firstAddress a.getLast?
  · obtain rfl | ⟨a, ⟨k, e⟩, rfl⟩ := List.eq_nil_or_concat a
    · simp [adjacentLeft] at hleft
    have hnodes' : map.nodes = a ++ (k, e) :: b := by rw [hnodes]; simp
    have hl : mergeable n.kind n.allocatable e ∧ e.lastAddress + 1 = n.firstAddress := by
      simpa [adjacentLeft] using hleft
    have hlow := hbefore e (by simp)
    have hjoins : Joins n e := ⟨hl.1, Or.inl (by have := hl.2; bv_omega)⟩
    have hright : adjacentRight n.kind n.allocatable n.lastAddress b.head? = false := by
      cases b with
      | nil => rfl
      | cons m b =>
        by_contra hr
        have hr : mergeable n.kind n.allocatable m.2 ∧ n.lastAddress + 1 = m.2.firstAddress := by
          simpa [adjacentRight] using hr
        have hhigh := hafter m.2 (by simp)
        have hadj : n.lastAddress.toNat + 1 = m.2.firstAddress.toNat := by
          have := hr.2
          bv_omega
        exact hgap e (by rw [helems]; simp) m.2 (by rw [helems]; simp) hjoins ⟨hr.1, Or.inr hadj⟩
          ⟨by have := hl.2; bv_omega, hadj⟩
    simp only [hleft, hright, Bool.false_eq_true, false_and, if_false, if_true] at hrun
    have hmap : map.updateElement k (fun e => { e with lastAddress := n.lastAddress }) = map' := by
      simpa [updatePosition] using hrun
    have hresult : map'.elems = a.map Prod.snd ++ { e with lastAddress := n.lastAddress } :: b.map Prod.snd := by
      rw [← hmap, CursorList.elems, CursorList.updateElement_nodes hnodes', List.map_append, List.map_cons]
    rw [hresult, List.concat_eq_append, List.map_append, List.map_singleton]
    exact Inserted.left hjoins (hnotright hright)
  · have hleft : adjacentLeft n.kind n.allocatable n.firstAddress a.getLast? = false := by simpa using hleft
    by_cases hright : adjacentRight n.kind n.allocatable n.lastAddress b.head?
    · cases b with
      | nil => simp [adjacentRight] at hright
      | cons m b =>
        obtain ⟨k, e⟩ := m
        have hr : mergeable n.kind n.allocatable e ∧ n.lastAddress + 1 = e.firstAddress := by
          simpa [adjacentRight] using hright
        have hhigh := hafter e (by simp)
        have hjoins : Joins n e := ⟨hr.1, Or.inr (by have := hr.2; bv_omega)⟩
        simp only [hleft, hright, Bool.false_eq_true, and_false, if_false, if_true] at hrun
        have hmap : map.updateElement k (fun e => { e with firstAddress := n.firstAddress }) = map' := by
          simpa [updatePosition] using hrun
        have hresult : map'.elems = a.map Prod.snd ++ { e with firstAddress := n.firstAddress } :: b.map Prod.snd := by
          rw [← hmap, CursorList.elems, CursorList.updateElement_nodes hnodes, List.map_append, List.map_cons]
        rw [hresult, List.map_cons]
        exact Inserted.right hjoins (hnotleft hleft)
    · have hright : adjacentRight n.kind n.allocatable n.lastAddress b.head? = false := by simpa using hright
      simp only [hleft, hright, Bool.false_eq_true, and_self, if_false] at hrun
      have hresult : map'.elems = a.map Prod.snd ++ n :: b.map Prod.snd := by
        rw [← Except.ok.inj hrun, CursorList.elems]
        have hins := CursorList.insertBefore_nodes hnodes n
        have hcursor : Position.cursor b.head? = CursorList.headCursor b := rfl
        rw [hcursor, hins, List.map_append, List.map_cons]
      rw [hresult]
      exact Inserted.between (hnotleft hleft) (hnotright hright)

/-- What an insertion makes free, and the bounds of what is free behind it. -/
structure Inserts (l : List Region) (n : Region) (l' : List Region) : Prop where
  tidy : Tidy l'
  free : free l' = free l ∪ if n.isFree then n.toSet else ∅
  apart : ∀ r ∈ l, Apart r n
  kept : ∀ r, r.isFree = false → (r ∈ l' ↔ r ∈ l ∨ r = n)
  ends : ∀ r ∈ l', r.isFree →
    (r.firstAddress = n.firstAddress ∧ n.isFree ∨ ∃ s ∈ l, s.isFree ∧ r.firstAddress = s.firstAddress) ∧
    (r.lastAddress = n.lastAddress ∧ n.isFree ∨ ∃ s ∈ l, s.isFree ∧ r.lastAddress = s.lastAddress)

section Insert

variable {a b : List Region} {n : Region}

lemma isFree_of_joins {e : Region} (h : Joins n e) : n.isFree ∧ e.isFree := by
  obtain ⟨hmerge, -⟩ := h
  simp only [mergeable, decide_eq_true_eq] at hmerge
  exact ⟨by simp [Region.isFree, hmerge], by simp [Region.isFree, hmerge]⟩

lemma joins_of_isFree {e : Region} (hn : n.isFree) (he : e.isFree)
    (hadj : e.lastAddress.toNat + 1 = n.firstAddress.toNat ∨ n.lastAddress.toNat + 1 = e.firstAddress.toNat) :
    Joins n e := by
  simp only [Region.isFree, decide_eq_true_eq] at hn he
  exact ⟨by simp [mergeable, hn, he], hadj⟩

/-- Only the nearest region above could be next to the new one. -/
lemma apart_right (hb : Sorted b) (hafter : ∀ r ∈ b, n.lastAddress < r.firstAddress)
    (hright : ∀ r ∈ b.head?, ¬Joins n r) (hn : n.isFree) :
    ∀ s ∈ b, s.isFree → n.lastAddress.toNat + 1 ≠ s.firstAddress.toNat := by
  intro s hs hsfree hadj
  cases b with
  | nil => simp at hs
  | cons m b =>
    rcases List.mem_cons.mp hs with rfl | hs
    · exact hright s (by simp) (joins_of_isFree hn hsfree (Or.inr hadj))
    · obtain ⟨hm, hgap, -⟩ := ordered_cons.mp hb
      have h₁ := hafter m List.mem_cons_self
      have h₂ := hgap s hs
      bv_omega

lemma apart_left (ha : Sorted a) (hbefore : ∀ r ∈ a, r.lastAddress < n.firstAddress)
    (hleft : ∀ r ∈ a.getLast?, ¬Joins n r) (hn : n.isFree) :
    ∀ s ∈ a, s.isFree → s.lastAddress.toNat + 1 ≠ n.firstAddress.toNat := by
  intro s hs hsfree hadj
  obtain rfl | ⟨a, m, rfl⟩ := List.eq_nil_or_concat a
  · simp at hs
  · rw [List.concat_eq_append] at ha hbefore hleft hs
    rcases List.mem_append.mp hs with hs | hs
    · obtain ⟨-, hm, hgap⟩ := ordered_append.mp ha
      have h₁ := hbefore m (by simp)
      have h₂ := hgap s hs m (by simp)
      have h₃ := hm.1 m (by simp)
      bv_omega
    · obtain rfl := List.mem_singleton.mp hs
      exact hleft s (by simp) (joins_of_isFree hn hsfree (Or.inl hadj))

/-- A region in a gap of a tidy map that is apart from the free ones around it. -/
lemma Tidy.insert {m : Region} (h : Tidy (a ++ b)) (hm : m.firstAddress ≤ m.lastAddress)
    (hbefore : ∀ r ∈ a, r.lastAddress < m.firstAddress) (hafter : ∀ r ∈ b, m.lastAddress < r.firstAddress)
    (hdevice : m.kind = .device → m.allocatable = false)
    (hleft : m.isFree → ∀ s ∈ a, s.isFree → s.lastAddress.toNat + 1 ≠ m.firstAddress.toNat)
    (hright : m.isFree → ∀ s ∈ b, s.isFree → m.lastAddress.toNat + 1 ≠ s.firstAddress.toNat) :
    Tidy (a ++ m :: b) := by
  have hsorted : Sorted (a ++ ([m] ++ b)) := sorted_insert h.sorted hm hbefore hafter
  have hmem : ∀ {r}, r ∈ a ++ m :: b → r = m ∨ r ∈ a ∨ r ∈ b := by
    intro r hr
    simp only [List.mem_append, List.mem_cons] at hr
    tauto
  have hold : ∀ {r}, r ∈ a ∨ r ∈ b → r ∈ a ++ b ∧ r.firstAddress ≤ r.lastAddress ∧
      (r.lastAddress < m.firstAddress ∧ r ∈ a ∨ m.lastAddress < r.firstAddress ∧ r ∈ b) := by
    intro r hr
    have hl : r ∈ a ++ b := List.mem_append.mpr hr
    exact ⟨hl, h.sorted.1 r hl, hr.imp (fun hr => ⟨hbefore r hr, hr⟩) (fun hr => ⟨hafter r hr, hr⟩)⟩
  refine ⟨hsorted, ?_, ?_⟩
  · intro r hr s hs hrfree hsfree
    rcases hmem hr with rfl | hr' <;> rcases hmem hs with rfl | hs'
    · bv_omega
    · obtain ⟨-, hrange, hs | hs⟩ := hold hs'
      · have := hs.1
        bv_omega
      · exact hright hrfree s hs.2 hsfree
    · obtain ⟨-, hrange, hr | hr⟩ := hold hr'
      · exact hleft hsfree r hr.2 hrfree
      · have := hr.1
        bv_omega
    · exact h.apart r (hold hr').1 s (hold hs').1 hrfree hsfree
  · intro r hr hrdevice
    rcases hmem hr with rfl | hr
    · exact hdevice hrdevice
    · exact h.devices r (hold hr).1 hrdevice

lemma tidy_of_cons {e : Region} (h : Tidy (a ++ e :: b)) : Tidy (a ++ b) := by
  have hsub : ∀ r, r ∈ a ++ b → r ∈ a ++ e :: b := by
    intro r hr
    simp only [List.mem_append, List.mem_cons] at hr ⊢
    tauto
  exact ⟨(sorted_of_cons h.sorted).1, fun r hr s hs => h.apart r (hsub r hr) s (hsub s hs),
    fun r hr => h.devices r (hsub r hr)⟩

lemma free_insert (m : Region) : free (a ++ m :: b) = free (a ++ b) ∪ if m.isFree then m.toSet else ∅ := by
  rw [free_append, free_cons, free_append]
  ext x
  simp only [Set.mem_union]
  tauto

/-- A free region in the place of one that it extends by the new one. -/
lemma Inserted.grown {e m : Region} (hn : n.isFree) (he : e.isFree) (hm : m.isFree)
    (htidy : Tidy (a ++ m :: b)) (hset : m.toSet = e.toSet ∪ n.toSet) (hapart : ∀ r ∈ a ++ e :: b, Apart r n)
    (hfirst : m.firstAddress = n.firstAddress ∨ m.firstAddress = e.firstAddress)
    (hlast : m.lastAddress = n.lastAddress ∨ m.lastAddress = e.lastAddress) :
    Inserts (a ++ e :: b) n (a ++ m :: b) := by
  refine ⟨htidy, ?_, hapart, ?_, ?_⟩
  · rw [free_insert, free_insert, if_pos hm, if_pos he, if_pos hn, hset, Set.union_assoc]
  · intro r hr
    have hne : ∀ s : Region, s.isFree → r ≠ s := by
      rintro s hs rfl
      simp [hs] at hr
    simp [hne m hm, hne e he, hne n hn]
  · intro r hr hrfree
    by_cases hrm : r = m
    · subst hrm
      have hemem : e ∈ a ++ e :: b := by simp
      exact ⟨hfirst.imp (fun h => ⟨h, hn⟩) (fun h => ⟨e, hemem, he, h⟩),
        hlast.imp (fun h => ⟨h, hn⟩) (fun h => ⟨e, hemem, he, h⟩)⟩
    · have hl : r ∈ a ++ e :: b := by
        simp only [List.mem_append, List.mem_cons] at hr ⊢
        tauto
      exact ⟨Or.inr ⟨r, hl, hrfree, rfl⟩, Or.inr ⟨r, hl, hrfree, rfl⟩⟩

lemma Inserted.inserts {l' : List Region} (hins : Inserted n a b l') (h : Tidy (a ++ b))
    (hlt : n.firstAddress < n.lastAddress) (hbefore : ∀ r ∈ a, r.lastAddress < n.firstAddress)
    (hafter : ∀ r ∈ b, n.lastAddress < r.firstAddress) (hdevice : n.kind = .device → n.allocatable = false) :
    Inserts (a ++ b) n l' := by
  have hapart : ∀ r ∈ a ++ b, Apart r n := by
    intro r hr
    exact (List.mem_append.mp hr).imp (hbefore r) (hafter r)
  obtain ⟨ha, hb, -⟩ := ordered_append.mp h.sorted
  cases hins with
  | @left a b e hjoins hright =>
    obtain ⟨hn, he⟩ := isFree_of_joins hjoins
    rw [List.append_assoc, List.singleton_append] at h hapart ⊢
    obtain ⟨-, hbe, hrange, hea⟩ := sorted_of_cons h.sorted
    have hlow := hbefore e (by simp)
    have hadj : e.lastAddress + 1 = n.firstAddress := by
      rcases hjoins.2 with hadj | hadj <;> bv_omega
    have htidy : Tidy (a ++ { e with lastAddress := n.lastAddress } :: b) := by
      refine (tidy_of_cons h).insert (by simp only; bv_omega) hbe hafter (h.devices e (by simp)) ?_ ?_
      · intro _ s hs hsfree
        exact h.apart s (by simp [hs]) e (by simp) hsfree he
      · intro _ s hs hsfree
        exact apart_right hb hafter hright hn s hs hsfree
    exact Inserted.grown hn he he htidy (toSet_growLast hrange hlt hlow hadj) hapart (Or.inr rfl) (Or.inl rfl)
  | @right a b e hjoins hleft =>
    obtain ⟨hn, he⟩ := isFree_of_joins hjoins
    obtain ⟨-, hbe, hrange, hea⟩ := sorted_of_cons h.sorted
    have hhigh := hafter e (by simp)
    have hadj : n.lastAddress + 1 = e.firstAddress := by
      rcases hjoins.2 with hadj | hadj <;> bv_omega
    have htidy : Tidy (a ++ { e with firstAddress := n.firstAddress } :: b) := by
      refine (tidy_of_cons h).insert (by simp only; bv_omega) hbefore hea (h.devices e (by simp)) ?_ ?_
      · intro _ s hs hsfree
        exact apart_left ha hbefore hleft hn s hs hsfree
      · intro _ s hs hsfree
        exact h.apart e (by simp) s (by simp [hs]) he hsfree
    exact Inserted.grown hn he he htidy (toSet_growFirst hrange hlt hhigh hadj) hapart (Or.inl rfl) (Or.inr rfl)
  | between hleft hright =>
    refine ⟨?_, free_insert n, hapart, ?_, ?_⟩
    · exact h.insert (BitVec.le_of_lt hlt) hbefore hafter hdevice (apart_left ha hbefore hleft)
        (apart_right hb hafter hright)
    · intro r _
      simp only [List.mem_append, List.mem_cons]
      tauto
    · intro r hr hrfree
      by_cases hrn : r = n
      · subst hrn
        exact ⟨Or.inl ⟨rfl, hrfree⟩, Or.inl ⟨rfl, hrfree⟩⟩
      · have hl : r ∈ a ++ b := by
          simp only [List.mem_append, List.mem_cons] at hr ⊢
          tauto
        exact ⟨Or.inr ⟨r, hl, hrfree, rfl⟩, Or.inr ⟨r, hl, hrfree, rfl⟩⟩

end Insert

lemma insertNewRegion_inserts {map map' : Map} {n : Region} (h : Tidy map.elems)
    (hlt : n.firstAddress < n.lastAddress) (hgap : OneSided map.elems n)
    (hdevice : n.kind = .device → n.allocatable = false)
    (hrun : insertNewRegion map n.name n.allocatable n.kind n.firstAddress n.lastAddress = .ok map') :
    Inserts map.elems n map'.elems := by
  obtain ⟨a, b, helems, hbefore, hafter, hins⟩ := insertNewRegion_inserted h.sorted hlt hgap hrun
  rw [helems] at h ⊢
  exact hins.inserts h hlt hbefore hafter hdevice

/-- An insertion only fails where the new region overlaps with one of the map. -/
lemma insertNewRegion_exists {map : Map} {n : Region} (h : Tidy map.elems) (hlt : n.firstAddress < n.lastAddress)
    (hapart : ∀ r ∈ map.elems, Apart r n) :
    ∃ map', insertNewRegion map n.name n.allocatable n.kind n.firstAddress n.lastAddress = .ok map' := by
  obtain ⟨a, b, hnodes, hloop, hbefore, hnext⟩ := neighbourLoop_spec hlt map.nodes [] h.sorted (by simp)
  rw [List.nil_append] at hnodes
  rw [List.getLast?_nil] at hloop
  have hright : b.head?.filter (fun r => r.2.firstAddress ≤ n.lastAddress) = none := by
    rw [Option.filter_eq_none_iff]
    intro r hr
    have hmem : r.2 ∈ map.elems := by
      rw [CursorList.elems, hnodes, List.map_append]
      exact List.mem_append_right _ (List.mem_map_of_mem (List.mem_of_mem_head? hr))
    have hge := hnext r hr
    have hdisjoint := hapart r.2 hmem
    unfold Apart at hdisjoint
    simp only [decide_eq_true_eq]
    bv_omega
  unfold insertNewRegion
  simp only [hloop, hright]
  split_ifs
  all_goals exact ⟨_, rfl⟩

end Muen.Tools.AllocMap
