import Muen.Tools.Paging.Layouts

/-!
# Layouts without large pages

When large pages are switched off, every page of a region has an entry on the last level, and the entries of
the levels above are those that lead to these pages. `Exactly` says which entries of the maps are present;
entering regions with disjoint virtual ranges always succeeds and adds exactly the entries for their pages.
-/

namespace Muen.Tools.Paging
open Muen.Lib

variable {a b : MemoryLayout} {levels : Nat} {Q Q' : Nat → Nat → Prop} {r : MemoryRegion}

namespace PageTable

/-- An entry is added where none is, or where it is already. -/
lemma addEntry_exists {table : PageTable} {i : EntryRange} {e : TableEntry}
    (h : table.data i = nullTableEntry ∨ table.data i = e) : ∃ table', table.addEntry i e = .ok table' := by
  unfold addEntry
  by_cases hsame : table.data i = e
  · exact ⟨_, if_pos hsame⟩
  · exact ⟨_, by rw [if_neg hsame, if_neg (not_not.mpr (h.resolve_right hsame))]⟩

end PageTable

namespace PageTableMap

lemma addEntry_exists {map : PageTableMap} {g : Nat} {e : TableEntry}
    (h : map.entryAt g = nullTableEntry ∨ map.entryAt g = e) :
    ∃ map', map.addEntry (g / 512) (entryRange g) e = .ok map' := by
  unfold entryAt at h
  unfold addEntry
  cases hfind : map.find (g / 512) with
  | none =>
    have hnull : nullTable.data (entryRange g) = nullTableEntry ∨ nullTable.data (entryRange g) = e := Or.inl rfl
    obtain ⟨table, htable⟩ := PageTable.addEntry_exists hnull
    exact ⟨_, by rw [htable]; rfl⟩
  | some table =>
    rw [hfind] at h
    have hold : table.data (entryRange g) = nullTableEntry ∨ table.data (entryRange g) = e := h
    obtain ⟨table', htable⟩ := PageTable.addEntry_exists hold
    refine ⟨map.assign (g / 512) table', ?_⟩
    change (table.addEntry (entryRange g) e >>= fun table => .ok (map.assign (g / 512) table)) = _
    rw [htable, ok_bind]

end PageTableMap

/-- The entries of the maps are those of `Q`; above the last level they refer to tables. -/
structure Exactly (levels : Nat) (Q : Nat → Nat → Prop) (a : MemoryLayout) : Prop where
  levels_eq : a.levels = levels
  large_eq : a.useLargePages = false
  wellFormed : a.WellFormed
  entries : ∀ l g, a.entry l g ≠ nullTableEntry ↔ Q l g
  refs : ∀ l g, l ≠ levels → a.entry l g ≠ nullTableEntry → a.entry l g = refEntry g
  tables : ∀ l n, ((a.structures l).find n).isSome ↔ ∃ g, g / 512 = n ∧ Q l g

lemma Exactly.congr (h : Exactly levels Q a) (hQ : ∀ l g, Q l g ↔ Q' l g) : Exactly levels Q' a where
  levels_eq := h.levels_eq
  large_eq := h.large_eq
  wellFormed := h.wellFormed
  entries l g := (h.entries l g).trans (hQ l g)
  refs := h.refs
  tables l n := (h.tables l n).trans (exists_congr fun g => and_congr_right fun _ => hQ l g)

lemma tableRange_of_lt {n : Nat} (h : n < 512 ^ 3) : tableRange n = .ok n := if_pos h

/-- One entry more. -/
lemma Exactly.addAt {l g : Nat} {e : TableEntry} (h : Exactly levels Q a) (he : e ≠ nullTableEntry)
    (hold : a.entry l g = nullTableEntry ∨ a.entry l g = e) (href : l ≠ levels → e = refEntry g)
    (hg : g < 512 ^ 4) (hdst : e.dstTableIndex < 512 ^ 3) :
    ∃ b, Paging.addAt a l (g / 512) g e = .ok b ∧ b.level1Table = a.level1Table ∧
      Exactly levels (fun l' g' => Q l' g' ∨ (l' = l ∧ g' = g)) b := by
  obtain ⟨map, hmap⟩ := PageTableMap.addEntry_exists hold
  have hrun : Paging.addAt a l (g / 512) g e =
      .ok { a with structures := Function.update a.structures l map } := by
    unfold Paging.addAt
    rw [tableRange_of_lt (by omega : g / 512 < 512 ^ 3), ok_bind, tableRange_of_lt hdst, ok_bind, hmap, ok_bind]
  obtain ⟨hadds, hself, -, -⟩ := addAt_spec (S := fun l' g' _ => l' = l ∧ g' = g) h.wellFormed he rfl ⟨rfl, rfl⟩ hrun
  have hfind := (PageTableMap.addEntry_spec (h.wellFormed l) he hmap).2.2.2
  refine ⟨_, hrun, rfl, ?_⟩
  refine ⟨hadds.levels_eq.trans h.levels_eq, hadds.large_eq.trans h.large_eq, hadds.wellFormed, ?_, ?_, ?_⟩
  · intro l' g'
    rw [← h.entries]
    rcases hadds.entries l' g' with hsame | ⟨hnull, rfl, rfl⟩
    · rw [hsame]
      refine ⟨Or.inl, fun hor => hor.elim id ?_⟩
      rintro ⟨rfl, rfl⟩
      rw [← hsame, hself]
      exact he
    · rw [hself]
      exact iff_of_true he (Or.inr ⟨rfl, rfl⟩)
  · intro l' g' hl hne
    rcases hadds.entries l' g' with hsame | ⟨hnull, rfl, rfl⟩
    · rw [hsame] at hne ⊢
      exact h.refs l' g' hl hne
    · rw [hself]
      exact href hl
  · intro l' n
    have hexists : (∃ g', g' / 512 = n ∧ (Q l' g' ∨ (l' = l ∧ g' = g))) ↔
        (l' = l ∧ n = g / 512) ∨ ((a.structures l').find n).isSome := by
      rw [h.tables]
      constructor
      · rintro ⟨g', rfl, hQ | ⟨rfl, rfl⟩⟩
        · exact Or.inr ⟨g', rfl, hQ⟩
        · exact Or.inl ⟨rfl, rfl⟩
      · rintro (⟨rfl, rfl⟩ | ⟨g', rfl, hQ⟩)
        · exact ⟨g, rfl, Or.inr ⟨rfl, rfl⟩⟩
        · exact ⟨g', rfl, Or.inl hQ⟩
    rw [hexists]
    by_cases hl : l' = l
    · subst hl
      simp only [Function.update_self, hfind, true_and]
    · simp only [Function.update_of_ne hl, hl, false_and, false_or]

/-- A reference on the way to a page. -/
lemma Exactly.addRef {l g : Nat} (h : Exactly levels Q a) (hl : l ≠ levels) (hg : g < 512 ^ 3) :
    ∃ b, Paging.addAt a l (g / 512) g (refEntry g) = .ok b ∧ b.level1Table = a.level1Table ∧
      Exactly levels (fun l' g' => Q l' g' ∨ (l' = l ∧ g' = g)) b := by
  apply h.addAt (refEntry_ne_null g) _ (fun _ => rfl) (by omega) hg
  by_cases hnull : a.entry l g = nullTableEntry
  · exact Or.inl hnull
  · exact Or.inr (h.refs l g hl hnull)

section Pages

variable {cur : Nat}

/-- The entries on the way to a page whose range starts with the page. -/
def StartsAt (levels cur l g : Nat) : Prop :=
  2 ≤ l ∧ l ≤ levels ∧ cur % 512 ^ (levels - l) = 0 ∧ g = cur / 512 ^ (levels - l)

lemma startsAt_iff (hl : levels = 3 ∨ levels = 4) (l g : Nat) : StartsAt levels cur l g ↔
    (l = levels ∧ g = cur) ∨ (l = levels - 1 ∧ cur % 512 = 0 ∧ g = cur / 512) ∨
      (levels = 4 ∧ l = levels - 2 ∧ cur % 512 ^ 2 = 0 ∧ g = cur / 512 ^ 2) := by
  unfold StartsAt
  rcases hl with rfl | rfl
  · constructor
    · rintro ⟨h2, hle, hmod, hg⟩
      interval_cases l <;> simp_all
    · rintro (⟨rfl, rfl⟩ | ⟨rfl, hmod, rfl⟩ | ⟨h4, -⟩)
      · simp [Nat.mod_one]
      · simpa using hmod
      · omega
  · constructor
    · rintro ⟨h2, hle, hmod, hg⟩
      interval_cases l <;> simp_all
    · rintro (⟨rfl, rfl⟩ | ⟨rfl, hmod, rfl⟩ | ⟨-, rfl, hmod, rfl⟩)
      · simp [Nat.mod_one]
      · simpa using hmod
      · simpa using hmod

lemma Exactly.addPt (h : Exactly levels Q a) (phys : Unsigned64) (hnew : ¬Q levels cur) (hcur : cur < 512 ^ 4) :
    ∃ b phys', Paging.addPt r a cur phys = .ok (b, cur + 1, phys') ∧ b.level1Table = a.level1Table ∧
      Exactly levels (fun l g => Q l g ∨ (l = levels ∧ g = cur)) b := by
  have hnull : a.entry levels cur = nullTableEntry := by
    by_contra hne
    exact hnew ((h.entries levels cur).mp hne)
  have hdst : (r.pageEntry phys).dstTableIndex < 512 ^ 3 := by
    change 0 < 512 ^ 3
    norm_num
  obtain ⟨b, hrun, hlevel1, hb⟩ := h.addAt (r.pageEntry_ne_null phys) (Or.inl hnull) (fun hne => absurd rfl hne)
    hcur hdst
  refine ⟨b, phys + 2 ^ 12, ?_, hlevel1, hb⟩
  unfold Paging.addPt
  rw [h.levels_eq, hrun, ok_bind]

lemma Exactly.addPd (h : Exactly levels Q a) (phys : Unsigned64) (hlevels : 2 < levels) (hnew : ¬Q levels cur)
    (hcur : cur < 512 ^ 4) :
    ∃ b phys', Paging.addPd r a cur phys = .ok (b, cur + 1, phys') ∧ b.level1Table = a.level1Table ∧
      Exactly levels (fun l g => (Q l g ∨ (l = levels - 1 ∧ g = cur / 512)) ∨ (l = levels ∧ g = cur)) b := by
  have hsmall : ¬(a.useLargePages ∧ r.endIdx - cur + 1 ≥ 512) := by simp [h.large_eq]
  have hdiv : cur / 512 ^ 2 = cur / 512 / 512 := by omega
  obtain ⟨a₁, hrun, hlevel1, ha₁⟩ := h.addRef (l := levels - 1) (g := cur / 512) (by omega) (by omega)
  have hnew₁ : ¬(Q levels cur ∨ (levels = levels - 1 ∧ cur = cur / 512)) := by
    rintro (hQ | ⟨hl, -⟩)
    · exact hnew hQ
    · omega
  obtain ⟨b, phys', hrun', hlevel1', hb⟩ := ha₁.addPt (r := r) phys hnew₁ hcur
  refine ⟨b, phys', ?_, hlevel1'.trans hlevel1, hb⟩
  unfold Paging.addPd
  rw [if_neg hsmall, h.levels_eq, hdiv, hrun, ok_bind, hrun']

lemma Exactly.addPdpt (h : Exactly levels Q a) (phys : Unsigned64) (hlevels : 2 < levels) (hnew : ¬Q levels cur)
    (hcur : cur < 512 ^ 4) :
    ∃ b phys', Paging.addPdpt r a cur phys = .ok (b, cur + 1, phys') ∧ b.level1Table = a.level1Table ∧
      Exactly levels (fun l g => ((Q l g ∨ (l = levels - 2 ∧ g = cur / 512 ^ 2)) ∨
        (l = levels - 1 ∧ g = cur / 512)) ∨ (l = levels ∧ g = cur)) b := by
  have hsmall : ¬((a.useLargePages ∧ a.levels = 4) ∧ r.endIdx - cur + 1 ≥ 512 ^ 2) := by simp [h.large_eq]
  have hdiv : cur / 512 ^ 3 = cur / 512 ^ 2 / 512 := by omega
  obtain ⟨a₁, hrun, hlevel1, ha₁⟩ := h.addRef (l := levels - 2) (g := cur / 512 ^ 2) (by omega) (by omega)
  have hnew₁ : ¬(Q levels cur ∨ (levels = levels - 2 ∧ cur = cur / 512 ^ 2)) := by
    rintro (hQ | ⟨hl, -⟩)
    · exact hnew hQ
    · omega
  obtain ⟨b, phys', hrun', hlevel1', hb⟩ := ha₁.addPd (r := r) phys hlevels hnew₁ hcur
  refine ⟨b, phys', ?_, hlevel1'.trans hlevel1, hb⟩
  unfold Paging.addPdpt
  rw [if_neg hsmall, h.levels_eq, hdiv, hrun, ok_bind, hrun']

/-- One iteration of the page loop enters the next page. -/
lemma Exactly.addPage (hl : levels = 3 ∨ levels = 4) (h : Exactly levels Q a) (phys : Unsigned64)
    (hnew : ¬Q levels cur) (hcur : cur < 512 ^ 4) :
    ∃ b phys', Paging.addPage r a cur phys = .ok (b, cur + 1, phys') ∧ b.level1Table = a.level1Table ∧
      Exactly levels (fun l g => Q l g ∨ StartsAt levels cur l g) b := by
  have hlevels : 2 < levels := by omega
  unfold Paging.addPage
  rw [h.levels_eq]
  by_cases hpd : cur % 512 = 0
  · rw [if_pos hpd]
    by_cases hpdpt : levels > 3 ∧ cur % 512 ^ 2 = 0
    · rw [if_pos hpdpt]
      obtain ⟨b, phys', hrun, hlevel1, hb⟩ := h.addPdpt (r := r) phys hlevels hnew hcur
      refine ⟨b, phys', hrun, hlevel1, hb.congr ?_⟩
      intro l g
      obtain rfl : levels = 4 := by omega
      simp only [startsAt_iff hl, hpd, hpdpt.2, true_and]
      tauto
    · rw [if_neg hpdpt]
      obtain ⟨b, phys', hrun, hlevel1, hb⟩ := h.addPd (r := r) phys hlevels hnew hcur
      refine ⟨b, phys', hrun, hlevel1, hb.congr ?_⟩
      intro l g
      have hnot : ¬(levels = 4 ∧ l = levels - 2 ∧ cur % 512 ^ 2 = 0 ∧ g = cur / 512 ^ 2) := by
        rintro ⟨h4, -, hmod, -⟩
        exact hpdpt ⟨by omega, hmod⟩
      simp only [startsAt_iff hl, hpd, hnot, true_and, or_false]
      tauto
  · rw [if_neg hpd]
    obtain ⟨b, phys', hrun, hlevel1, hb⟩ := h.addPt (r := r) phys hnew hcur
    refine ⟨b, phys', hrun, hlevel1, hb.congr ?_⟩
    intro l g
    have hpdpt : ¬cur % 512 ^ 2 = 0 := by omega
    simp only [startsAt_iff hl, hpd, hpdpt, false_and, and_false, or_false]

/-- The page loop enters all pages from the current one on. -/
lemma Exactly.addPages (hl : levels = 3 ∨ levels = 4) (hend : r.endIdx < 512 ^ 4) (fuel : Nat) :
    ∀ (a : MemoryLayout) (cur : Nat) (phys : Unsigned64) (Q : Nat → Nat → Prop), Exactly levels Q a →
      cur + fuel = r.endIdx + 1 → (∀ c, cur ≤ c → c ≤ r.endIdx → ¬Q levels c) →
      ∃ b, Paging.addPages r fuel a cur phys = .ok b ∧ b.level1Table = a.level1Table ∧
        Exactly levels (fun l g => Q l g ∨ ∃ c, cur ≤ c ∧ c ≤ r.endIdx ∧ StartsAt levels c l g) b := by
  induction fuel with
  | zero =>
    intro a cur phys Q h hfuel _
    refine ⟨a, rfl, rfl, h.congr ?_⟩
    intro l g
    refine ⟨Or.inl, fun hor => hor.elim id ?_⟩
    rintro ⟨c, hle, hlast, -⟩
    omega
  | succ fuel ih =>
    intro a cur phys Q h hfuel hnew
    obtain ⟨a₁, phys₁, hstep, hlevel1, ha₁⟩ := h.addPage (r := r) hl phys
      (hnew cur (le_refl _) (by omega)) (by omega)
    have hnew₁ : ∀ c, cur + 1 ≤ c → c ≤ r.endIdx → ¬(Q levels c ∨ StartsAt levels cur levels c) := by
      rintro c hle hlast (hQ | ⟨-, -, -, hg⟩)
      · exact hnew c (by omega) hlast hQ
      · simp at hg
        omega
    obtain ⟨b, hrest, hlevel1', hb⟩ := ih a₁ (cur + 1) phys₁ _ ha₁ (by omega) hnew₁
    refine ⟨b, ?_, hlevel1'.trans hlevel1, hb.congr ?_⟩
    · rw [Paging.addPages, if_pos (by omega), hstep, ok_bind]
      exact hrest
    · intro l g
      rw [or_assoc]
      apply or_congr_right
      constructor
      · rintro (hc | ⟨c, hle, hlast, hc⟩)
        · exact ⟨cur, le_refl _, by omega, hc⟩
        · exact ⟨c, by omega, hlast, hc⟩
      · rintro ⟨c, hle, hlast, hc⟩
        by_cases heq : c = cur
        · exact Or.inl (heq ▸ hc)
        · exact Or.inr ⟨c, by omega, hlast, hc⟩

end Pages

/-- The references to the pages in the middle of which the region starts. -/
lemma Exactly.addStart (hl : levels = 3 ∨ levels = 4) (h : Exactly levels Q a) (hstart : r.startIdx < 512 ^ 4) :
    ∃ b, Paging.addStart r a = .ok b ∧ b.level1Table = a.level1Table ∧
      Exactly levels (fun l g => Q l g ∨ (2 ≤ l ∧ l < levels ∧ r.startIdx % 512 ^ (levels - l) ≠ 0 ∧
        g = r.startIdx / 512 ^ (levels - l))) b := by
  have hpdpt : ∃ b, addStartPdpt r a = .ok b ∧ b.level1Table = a.level1Table ∧ Exactly levels (fun l g => Q l g ∨
      (levels = 4 ∧ l = levels - 2 ∧ r.startIdx % 512 ^ 2 ≠ 0 ∧ g = r.startIdx / 512 ^ 2)) b := by
    unfold addStartPdpt
    rw [h.levels_eq]
    by_cases hmiddle : levels > 3 ∧ r.startIdx % 512 ^ 2 ≠ 0
    · have hdiv : r.startIdx / 512 ^ 3 = r.startIdx / 512 ^ 2 / 512 := by omega
      have h4 : levels = 4 := by omega
      obtain ⟨b, hrun, hlevel1, hb⟩ := h.addRef (l := levels - 2) (g := r.startIdx / 512 ^ 2) (by omega) (by omega)
      rw [if_pos hmiddle, hdiv]
      refine ⟨b, hrun, hlevel1, hb.congr ?_⟩
      intro l g
      simp only [h4, hmiddle.2, true_and, ne_eq, not_false_eq_true]
    · rw [if_neg hmiddle]
      refine ⟨a, rfl, rfl, h.congr ?_⟩
      intro l g
      refine ⟨Or.inl, fun hor => hor.elim id ?_⟩
      rintro ⟨h4, -, hmod, -⟩
      exact absurd ⟨by omega, hmod⟩ hmiddle
  obtain ⟨a₁, hrun, hlevel1, ha₁⟩ := hpdpt
  have hpd : ∃ b, addStartPd r a₁ = .ok b ∧ b.level1Table = a₁.level1Table ∧ Exactly levels (fun l g => (Q l g ∨
      (levels = 4 ∧ l = levels - 2 ∧ r.startIdx % 512 ^ 2 ≠ 0 ∧ g = r.startIdx / 512 ^ 2)) ∨
      (l = levels - 1 ∧ r.startIdx % 512 ≠ 0 ∧ g = r.startIdx / 512)) b := by
    unfold addStartPd
    rw [ha₁.levels_eq]
    by_cases hmiddle : r.startIdx % 512 ≠ 0
    · have hdiv : r.startIdx / 512 ^ 2 = r.startIdx / 512 / 512 := by omega
      obtain ⟨b, hrun, hlevel1, hb⟩ := ha₁.addRef (l := levels - 1) (g := r.startIdx / 512) (by omega) (by omega)
      rw [← hdiv] at hrun
      rw [if_pos hmiddle]
      refine ⟨b, hrun, hlevel1, hb.congr ?_⟩
      intro l g
      simp only [hmiddle, true_and, ne_eq, not_false_eq_true]
    · rw [if_neg hmiddle]
      refine ⟨a₁, rfl, rfl, ha₁.congr ?_⟩
      intro l g
      simp only [hmiddle, false_and, and_false, or_false]
  obtain ⟨b, hrun', hlevel1', hb⟩ := hpd
  refine ⟨b, ?_, hlevel1'.trans hlevel1, hb.congr ?_⟩
  · unfold Paging.addStart
    rw [hrun, ok_bind, hrun']
  · intro l g
    rw [or_assoc]
    apply or_congr_right
    rcases hl with rfl | rfl
    · constructor
      · rintro (⟨h4, -⟩ | ⟨rfl, hmod, rfl⟩)
        · omega
        · simpa using hmod
      · rintro ⟨h2, hlt, hmod, rfl⟩
        obtain rfl : l = 2 := by omega
        exact Or.inr ⟨rfl, by simpa using hmod, by simp⟩
    · constructor
      · rintro (⟨-, rfl, hmod, rfl⟩ | ⟨rfl, hmod, rfl⟩)
        · simpa using hmod
        · simpa using hmod
      · rintro ⟨h2, hlt, hmod, rfl⟩
        interval_cases l
        · exact Or.inl ⟨rfl, rfl, by simpa using hmod, by simp⟩
        · exact Or.inr ⟨rfl, by simpa using hmod, by simp⟩

/-! ### The level 1 table -/

/-- The entries of the table are those of `Q`, and each refers to the table with its number. -/
structure Slots (Q : Nat → Prop) (table : PageTable) : Prop where
  counted : table.Counted
  entries : ∀ i, table.data i ≠ nullTableEntry ↔ Q i.val
  refs : ∀ i, table.data i ≠ nullTableEntry → table.data i = refEntry i.val

lemma Slots.congr {Q Q' : Nat → Prop} {table : PageTable} (h : Slots Q table) (hQ : ∀ n, n < 512 → (Q n ↔ Q' n)) :
    Slots Q' table := ⟨h.counted, fun i => (h.entries i).trans (hQ i.val i.isLt), h.refs⟩

lemma Slots.addLevel1 {Q : Nat → Prop} {n : Nat} (h : Slots Q a.level1Table) (hn : n < 512) :
    ∃ table, Paging.addLevel1 a n = .ok { a with level1Table := table } ∧
      Slots (fun m => Q m ∨ m = n) table := by
  have hval : (entryRange n).val = n := Nat.mod_eq_of_lt hn
  have hold : a.level1Table.data (entryRange n) = nullTableEntry ∨
      a.level1Table.data (entryRange n) = refEntry n := by
    by_cases hnull : a.level1Table.data (entryRange n) = nullTableEntry
    · exact Or.inl hnull
    · have href := h.refs _ hnull
      rw [hval] at href
      exact Or.inr href
  obtain ⟨table, hadd⟩ := PageTable.addEntry_exists hold
  obtain ⟨-, hdata, hcounted⟩ := PageTable.addEntry_spec (refEntry_ne_null n) hadd
  refine ⟨table, ?_, hcounted h.counted, ?_, ?_⟩
  · unfold Paging.addLevel1
    rw [tableRange_of_lt (by omega), ok_bind, hadd, ok_bind]
  · intro i
    rw [hdata]
    by_cases hi : i = entryRange n
    · rw [hi, Function.update_self, hval]
      exact iff_of_true (refEntry_ne_null n) (Or.inr rfl)
    · rw [Function.update_of_ne hi, h.entries]
      have hne : i.val ≠ n := fun hin => hi (Fin.ext (hin.trans hval.symm))
      simp only [hne, or_false]
  · intro i hne
    rw [hdata] at hne ⊢
    by_cases hi : i = entryRange n
    · rw [hi, Function.update_self, hval]
    · rw [Function.update_of_ne hi] at hne ⊢
      exact h.refs i hne

lemma Slots.addLevel1s {ns : List Nat} (hns : ∀ n ∈ ns, n < 512) :
    ∀ {a : MemoryLayout} {Q : Nat → Prop}, Slots Q a.level1Table →
      ∃ table, ns.foldlM Paging.addLevel1 a = .ok { a with level1Table := table } ∧
        Slots (fun m => Q m ∨ m ∈ ns) table := by
  induction ns with
  | nil =>
    intro a Q h
    refine ⟨a.level1Table, rfl, h.congr ?_⟩
    simp
  | cons n ns ih =>
    intro a Q h
    obtain ⟨table, hrun, htable⟩ := h.addLevel1 (hns n List.mem_cons_self)
    have hrest : Slots (fun m => Q m ∨ m = n) ({ a with level1Table := table } : MemoryLayout).level1Table := htable
    obtain ⟨table', hrun', htable'⟩ := ih (fun m hm => hns m (List.mem_cons_of_mem n hm)) hrest
    refine ⟨table', ?_, htable'.congr ?_⟩
    · rw [List.foldlM_cons, hrun, ok_bind, hrun']
    · intro m _
      rw [List.mem_cons, or_assoc]

/-! ### Regions -/

/-- The layout maps exactly the given pages, each by an entry of the last level. -/
structure MapsPages (levels : Nat) (P : Nat → Prop) (a : MemoryLayout) : Prop where
  exactly : Exactly levels (fun l g => 2 ≤ l ∧ l ≤ levels ∧ ∃ idx, P idx ∧ idx / 512 ^ (levels - l) = g) a
  slots : Slots (fun n => ∃ idx, P idx ∧ idx / 512 ^ 3 = n) a.level1Table

lemma MapsPages.congr {P P' : Nat → Prop} (h : MapsPages levels P a) (hP : ∀ idx, P idx ↔ P' idx) :
    MapsPages levels P' a := by
  obtain rfl : P = P' := funext fun idx => propext (hP idx)
  exact h

lemma mapsPages_empty (levels : Nat) (address : Unsigned64) :
    MapsPages levels (fun _ => False) (setAddress (emptyLayout levels false) address) := by
  refine ⟨⟨rfl, rfl, fun _ => ⟨List.Pairwise.nil, by simp [setAddress, emptyLayout]⟩, ?_, ?_, ?_⟩, ?_, ?_, ?_⟩
  · intro l g
    simp [MemoryLayout.entry, setAddress, emptyLayout, PageTableMap.entryAt, PageTableMap.find]
  · intro l g _ hne
    exact absurd rfl hne
  · intro l n
    simp [setAddress, emptyLayout, PageTableMap.find]
  · exact PageTableMap.nullTable_counted
  · intro i
    simp [setAddress, emptyLayout, nullTable]
  · intro i hne
    exact absurd rfl hne

lemma Exactly.withLevel1Table (h : Exactly levels Q a) (table : PageTable) :
    Exactly levels Q { a with level1Table := table } :=
  ⟨h.levels_eq, h.large_eq, h.wellFormed, h.entries, h.refs, h.tables⟩

/-- The blocks of `d` pages that meet a range of pages. -/
lemma covers_iff {first last d g : Nat} (hd : 0 < d) (hle : first ≤ last) :
    (first / d ≤ g ∧ g < first / d + (last / d + 1 - first / d)) ↔
      ∃ idx, first ≤ idx ∧ idx ≤ last ∧ idx / d = g := by
  have hmono : first / d ≤ last / d := Nat.div_le_div_right hle
  constructor
  · rintro ⟨hfirst, hlast⟩
    by_cases heq : g = first / d
    · exact ⟨first, le_refl _, hle, heq.symm⟩
    · have hg : first ≤ g * d := ((Nat.div_lt_iff_lt_mul hd).mp (by omega : first / d < g)).le
      have hl : g * d ≤ last := (Nat.le_div_iff_mul_le hd).mp (by omega)
      exact ⟨g * d, hg, hl, Nat.mul_div_cancel g hd⟩
  · rintro ⟨idx, hfirst, hlast, rfl⟩
    have h1 : first / d ≤ idx / d := Nat.div_le_div_right hfirst
    have h2 : idx / d ≤ last / d := Nat.div_le_div_right hlast
    omega

/-- The entry in whose middle a region starts and those that start in the region lead to its pages. -/
lemma startsIn_iff {l g : Nat} (hle : r.startIdx ≤ r.endIdx) :
    ((2 ≤ l ∧ l < levels ∧ r.startIdx % 512 ^ (levels - l) ≠ 0 ∧ g = r.startIdx / 512 ^ (levels - l)) ∨
      ∃ c, r.startIdx ≤ c ∧ c ≤ r.endIdx ∧ StartsAt levels c l g) ↔
    2 ≤ l ∧ l ≤ levels ∧ ∃ idx, r.startIdx ≤ idx ∧ idx ≤ r.endIdx ∧ idx / 512 ^ (levels - l) = g := by
  constructor
  · rintro (⟨h2, hlt, -, rfl⟩ | ⟨c, hfirst, hlast, h2, hll, -, rfl⟩)
    · exact ⟨h2, hlt.le, r.startIdx, le_refl _, hle, rfl⟩
    · exact ⟨h2, hll, c, hfirst, hlast, rfl⟩
  · rintro ⟨h2, hll, idx, hfirst, hlast, rfl⟩
    have hd : 0 < 512 ^ (levels - l) := by positivity
    have hidx : idx / 512 ^ (levels - l) * 512 ^ (levels - l) ≤ idx := Nat.div_mul_le_self _ _
    by_cases hstart : r.startIdx ≤ idx / 512 ^ (levels - l) * 512 ^ (levels - l)
    · refine Or.inr ⟨_, hstart, hidx.trans hlast, h2, hll, Nat.mul_mod_left _ _, ?_⟩
      rw [Nat.mul_div_cancel _ hd]
    · push Not at hstart
      have hsame : r.startIdx / 512 ^ (levels - l) = idx / 512 ^ (levels - l) :=
        le_antisymm (Nat.div_le_div_right hfirst) ((Nat.le_div_iff_mul_le hd).mpr hstart.le)
      have hmod : r.startIdx % 512 ^ (levels - l) ≠ 0 := by
        intro hmod
        have hmul := Nat.div_add_mod r.startIdx (512 ^ (levels - l))
        rw [hmod, hsame, Nat.add_zero, Nat.mul_comm] at hmul
        omega
      have hne : l ≠ levels := by
        rintro rfl
        rw [Nat.sub_self, pow_zero, Nat.mod_one] at hmod
        exact hmod rfl
      exact Or.inl ⟨h2, by omega, hmod, hsame.symm⟩

/-- Entering a region of pages that are not mapped yet. -/
lemma MapsPages.addMemoryRegion {P : Nat → Prop} (hl : levels = 3 ∨ levels = 4) (h : MapsPages levels P a)
    (hle : r.startIdx ≤ r.endIdx) (hend : r.endIdx < 512 ^ 4)
    (hnew : ∀ idx, r.startIdx ≤ idx → idx ≤ r.endIdx → ¬P idx) :
    ∃ b, Paging.addMemoryRegion a r = .ok b ∧
      MapsPages levels (fun idx => P idx ∨ (r.startIdx ≤ idx ∧ idx ≤ r.endIdx)) b := by
  obtain ⟨a₁, hstart, hlevel1, ha₁⟩ := h.exactly.addStart (r := r) hl (by omega)
  obtain ⟨a₂, hpages, hlevel1', ha₂⟩ := ha₁.addPages hl hend (r.endIdx + 1 - r.startIdx) a₁ r.startIdx
    (r.physicalAddress &&& MemoryRegion.pageAddressMask) _ (by omega) (by
      rintro c hc hlast (⟨-, -, idx, hP, hidx⟩ | ⟨-, hlt, -⟩)
      · rw [Nat.sub_self, pow_zero, Nat.div_one] at hidx
        exact hnew c hc hlast (hidx ▸ hP)
      · omega)
  have hslots : Slots (fun n => ∃ idx, P idx ∧ idx / 512 ^ 3 = n) a₂.level1Table := by
    rw [hlevel1', hlevel1]
    exact h.slots
  have hns : ∀ n ∈ List.range' (r.startIdx / 512 ^ 3) (r.endIdx / 512 ^ 3 + 1 - r.startIdx / 512 ^ 3), n < 512 := by
    intro n hn
    rw [List.mem_range'_1] at hn
    omega
  obtain ⟨table, htable, hslots⟩ := Slots.addLevel1s hns hslots
  have hrun : addRegionEntries r a = .ok { a₂ with level1Table := table } := by
    unfold addRegionEntries
    rw [hstart, ok_bind, hpages, ok_bind, htable]
  refine ⟨_, ?_, (ha₂.withLevel1Table table).congr ?_, hslots.congr ?_⟩
  · unfold Paging.addMemoryRegion
    rw [hrun]
  · intro l g
    rw [or_assoc, startsIn_iff hle]
    constructor
    · rintro (⟨h2, hll, idx, hP, hidx⟩ | ⟨h2, hll, idx, hfirst, hlast, hidx⟩)
      · exact ⟨h2, hll, idx, Or.inl hP, hidx⟩
      · exact ⟨h2, hll, idx, Or.inr ⟨hfirst, hlast⟩, hidx⟩
    · rintro ⟨h2, hll, idx, hP | ⟨hfirst, hlast⟩, hidx⟩
      · exact Or.inl ⟨h2, hll, idx, hP, hidx⟩
      · exact Or.inr ⟨h2, hll, idx, hfirst, hlast, hidx⟩
  · intro n hn
    rw [List.mem_range'_1, covers_iff (by norm_num) hle]
    constructor
    · rintro (⟨idx, hP, hidx⟩ | ⟨idx, hfirst, hlast, hidx⟩)
      · exact ⟨idx, Or.inl hP, hidx⟩
      · exact ⟨idx, Or.inr ⟨hfirst, hlast⟩, hidx⟩
    · rintro ⟨idx, hP | ⟨hfirst, hlast⟩, hidx⟩
      · exact Or.inl ⟨idx, hP, hidx⟩
      · exact Or.inr ⟨idx, hfirst, hlast, hidx⟩

namespace MemoryRegion

/-- Page aligned, not empty and inside the address space of the levels. -/
structure Fits (levels : Nat) (r : MemoryRegion) : Prop where
  virtual_aligned : r.virtualAddress.toNat % 4096 = 0
  size_aligned : r.size.toNat % 4096 = 0
  size_pos : 0 < r.size.toNat
  virtual_le : r.virtualAddress.toNat + r.size.toNat ≤ 4096 * 512 ^ levels

/-- The virtual ranges have no address in common. -/
def Disjoint (r q : MemoryRegion) : Prop :=
  r.virtualAddress.toNat + r.size.toNat ≤ q.virtualAddress.toNat ∨
    q.virtualAddress.toNat + q.size.toNat ≤ r.virtualAddress.toNat

/-- The numbers of the pages of the region. -/
def HasPage (r : MemoryRegion) (idx : Nat) : Prop :=
  r.virtualAddress.toNat ≤ 4096 * idx ∧ 4096 * idx < r.virtualAddress.toNat + r.size.toNat

lemma Fits.le (hl : levels = 3 ∨ levels = 4) (h : r.Fits levels) :
    r.virtualAddress.toNat + r.size.toNat ≤ 2 ^ 48 := by
  have hle := h.virtual_le
  rcases hl with rfl | rfl <;> omega

/-- The indexes do not depend on the physical address. -/
lemma Fits.valid (hl : levels = 3 ∨ levels = 4) (h : r.Fits levels) :
    ({ r with physicalAddress := 0 } : MemoryRegion).Valid (2 ^ 48) := by
  have hle := h.le hl
  exact ⟨rfl, h.virtual_aligned, h.size_aligned, h.size_pos, hle⟩

lemma Fits.startIdx_eq (hl : levels = 3 ∨ levels = 4) (h : r.Fits levels) :
    r.startIdx = r.virtualAddress.toNat / 4096 := (h.valid hl).startIdx_eq (le_refl _)

lemma Fits.endIdx_eq (hl : levels = 3 ∨ levels = 4) (h : r.Fits levels) :
    r.endIdx + 1 = (r.virtualAddress.toNat + r.size.toNat) / 4096 := (h.valid hl).endIdx_eq (le_refl _)

lemma Fits.startIdx_le (hl : levels = 3 ∨ levels = 4) (h : r.Fits levels) : r.startIdx ≤ r.endIdx :=
  (h.valid hl).startIdx_le (le_refl _)

lemma Fits.hasPage_iff (hl : levels = 3 ∨ levels = 4) (h : r.Fits levels) {idx : Nat} :
    r.HasPage idx ↔ r.startIdx ≤ idx ∧ idx ≤ r.endIdx := by
  have hstart := h.startIdx_eq hl
  have hend := h.endIdx_eq hl
  have hv := h.virtual_aligned
  have hs := h.size_aligned
  unfold HasPage
  omega

end MemoryRegion

/-! ### Regions with the same virtual ranges -/

namespace MemoryRegion

def range (r : MemoryRegion) : Unsigned64 × Unsigned64 := (r.virtualAddress, r.size)

variable {rs qs : List MemoryRegion} {q : MemoryRegion}

lemma exists_of_perm (h : (qs.map range).Perm (rs.map range)) (hq : q ∈ qs) :
    ∃ r ∈ rs, r.virtualAddress = q.virtualAddress ∧ r.size = q.size := by
  obtain ⟨r, hr, heq⟩ := List.mem_map.mp (h.mem_iff.mp (List.mem_map_of_mem hq))
  exact ⟨r, hr, congrArg Prod.fst heq, congrArg Prod.snd heq⟩

lemma fits_of_perm (h : (qs.map range).Perm (rs.map range)) (hrs : ∀ r ∈ rs, r.Fits levels) :
    ∀ q ∈ qs, q.Fits levels := by
  intro q hq
  obtain ⟨r, hr, hv, hs⟩ := exists_of_perm h hq
  obtain ⟨h1, h2, h3, h4⟩ := hrs r hr
  rw [hv] at h1 h4
  rw [hs] at h2 h3 h4
  exact ⟨h1, h2, h3, h4⟩

lemma hasPage_of_perm (h : (qs.map range).Perm (rs.map range)) {idx : Nat} (hq : ∃ q ∈ qs, q.HasPage idx) :
    ∃ r ∈ rs, r.HasPage idx := by
  obtain ⟨q, hq, hpage⟩ := hq
  obtain ⟨r, hr, hv, hs⟩ := exists_of_perm h hq
  refine ⟨r, hr, ?_⟩
  unfold HasPage
  rw [hv, hs]
  exact hpage

lemma disjoint_of_perm (h : (qs.map range).Perm (rs.map range)) (hrs : rs.Pairwise Disjoint) :
    qs.Pairwise Disjoint := by
  have hpair : ∀ ps : List MemoryRegion, ps.Pairwise Disjoint ↔ (ps.map range).Pairwise (fun x y =>
      x.1.toNat + x.2.toNat ≤ y.1.toNat ∨ y.1.toNat + y.2.toNat ≤ x.1.toNat) := by
    intro ps
    rw [List.pairwise_map]
    rfl
  rw [hpair] at hrs ⊢
  exact h.symm.pairwise hrs Or.symm

end MemoryRegion

/-- Regions of small pages with disjoint virtual ranges can always be entered, and the layout then maps exactly
their pages. -/
lemma MapsPages.addMemoryRegions (hl : levels = 3 ∨ levels = 4) {rs : List MemoryRegion} :
    ∀ {a : MemoryLayout} {P : Nat → Prop}, MapsPages levels P a → (∀ r ∈ rs, r.Fits levels) →
      rs.Pairwise MemoryRegion.Disjoint → (∀ r ∈ rs, ∀ idx, r.HasPage idx → ¬P idx) →
      ∃ b, rs.foldlM Paging.addMemoryRegion a = .ok b ∧
        MapsPages levels (fun idx => P idx ∨ ∃ r ∈ rs, r.HasPage idx) b := by
  induction rs with
  | nil =>
    intro a P h _ _ _
    refine ⟨a, rfl, h.congr ?_⟩
    simp
  | cons r rs ih =>
    intro a P h hfits hdisjoint hnew
    have hr := hfits r List.mem_cons_self
    rw [List.pairwise_cons] at hdisjoint
    have hpage : ∀ idx, r.HasPage idx ↔ r.startIdx ≤ idx ∧ idx ≤ r.endIdx := fun idx => hr.hasPage_iff hl
    have hend : r.endIdx < 512 ^ 4 := by
      have heq := hr.endIdx_eq hl
      have hle := hr.le hl
      omega
    obtain ⟨a₁, hrun, ha₁⟩ := h.addMemoryRegion hl (hr.startIdx_le hl) hend
      (fun idx h1 h2 => hnew r List.mem_cons_self idx ((hpage idx).mpr ⟨h1, h2⟩))
    have hnew₁ : ∀ q ∈ rs, ∀ idx, q.HasPage idx → ¬(P idx ∨ (r.startIdx ≤ idx ∧ idx ≤ r.endIdx)) := by
      rintro q hq idx hidx (hP | hrange)
      · exact hnew q (List.mem_cons_of_mem r hq) idx hidx hP
      · have hin := (hpage idx).mpr hrange
        have hsep := hdisjoint.1 q hq
        unfold MemoryRegion.HasPage at hin hidx
        unfold MemoryRegion.Disjoint at hsep
        omega
    obtain ⟨b, hrest, hb⟩ := ih ha₁ (fun q hq => hfits q (List.mem_cons_of_mem r hq)) hdisjoint.2 hnew₁
    refine ⟨b, ?_, hb.congr ?_⟩
    · rw [List.foldlM_cons, hrun, ok_bind, hrest]
    · intro idx
      rw [← hpage, or_assoc, List.exists_mem_cons_iff]

end Muen.Tools.Paging
