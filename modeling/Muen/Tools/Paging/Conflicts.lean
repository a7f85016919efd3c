import Muen.Tools.Paging.PageSizes

/-!
# Conflicting mappings

When `Add_Memory_Region` raises `Mapping_Present`: a page of the region is mapped already, by another address, with
other attributes or by a page of another size.
-/

namespace Muen.Tools.Paging
open Muen.Lib

/-- A call, with large pages switched on or off before it. -/
abbrev AddCall := Bool × MemoryRegion

/-- How a call maps a page. -/
structure Mapping where
  physicalAddress : Unsigned64
  writable : Bool
  executable : Bool
  caching : Caching
  pageSize : Nat
deriving DecidableEq

def mapping (levels : Nat) (call : AddCall) (idx : Nat) : Mapping :=
  ⟨call.2.physAt idx, call.2.writable, call.2.executable, call.2.caching, call.2.pageSize levels call.1 idx⟩

/-- A page is mapped by a call before and would be mapped in another way. -/
def Clashes (levels : Nat) (calls : List AddCall) (call : AddCall) : Prop :=
  ∃ old ∈ calls, ∃ idx, old.2.HasPage idx ∧ call.2.HasPage idx ∧ mapping levels old idx ≠ mapping levels call idx

/-- The call raises `Mapping_Present`. -/
def Rejected (layout : MemoryLayout) (call : AddCall) : Prop :=
  ∃ message, addMemoryRegion (setLargePageSupport layout call.1) call.2 = .error (.mappingPresent message)

namespace MemoryRegion

variable {r q : MemoryRegion} {levels : Nat} {large large' : Bool} {idx idx' k : Nat}

lemma Valid.hasPage_iff (h : r.Valid (2 ^ 48)) : r.HasPage idx ↔ r.startIdx ≤ idx ∧ idx ≤ r.endIdx := by
  have hstart := h.startIdx_eq (le_refl _)
  have hend := h.endIdx_eq (le_refl _)
  have hv := h.virtual_aligned
  have hs := h.size_aligned
  unfold HasPage
  omega

lemma Valid.endIdx_lt (h : r.Valid (2 ^ 48)) : r.endIdx < 512 ^ 4 := by
  have hend := h.endIdx_eq (le_refl _)
  have hle := h.virtual_le
  omega

lemma pageSize_level (hl : levels = 3 ∨ levels = 4) (r : MemoryRegion) (large : Bool) (idx : Nat) :
    r.pageSize levels large idx + 2 ≤ levels := by
  by_cases hpos : 0 < r.pageSize levels large idx
  · have hcases := (pageSize_large hpos).2
    omega
  · omega

/-- The first small page of the page that maps a small page. -/
lemma physAt_first (hstart : r.startIdx ≤ idx / 512 ^ k * 512 ^ k) :
    r.physAt idx = r.physAt (idx / 512 ^ k * 512 ^ k) + BitVec.ofNat 64 (idx % 512 ^ k * 4096) := by
  rw [physAt_add hstart, Nat.div_add_mod']

lemma start_le_first (hstart : r.startIdx ≤ idx) (hend : idx ≤ r.endIdx) (hk : r.pageSize levels large idx = k) :
    r.startIdx ≤ idx / 512 ^ k * 512 ^ k := by
  have hfills := r.fills_pageSize levels large hstart hend
  rw [hk] at hfills
  exact hfills.1

/-- The page that maps a small page of the region lies in the region. -/
lemma mem_of_pageSize (hstart : r.startIdx ≤ idx) (hend : idx ≤ r.endIdx) (hk : r.pageSize levels large idx = k)
    (hblock : idx / 512 ^ k = idx' / 512 ^ k) : r.startIdx ≤ idx' ∧ idx' ≤ r.endIdx := by
  have hfills := r.fills_pageSize levels large hstart hend
  rw [hk] at hfills
  obtain ⟨hfirst, hlast⟩ := hfills
  rw [hblock] at hfirst hlast
  have hdiv := Nat.div_mul_le_self idx' (512 ^ k)
  have hlt := Nat.lt_div_mul_add (a := idx') (b := 512 ^ k) (Nat.pow_pos (by decide))
  omega

lemma pageEntry_inj {p p' : Unsigned64} (h : r.pageEntry p = q.pageEntry p') :
    p = p' ∧ r.writable = q.writable ∧ r.executable = q.executable ∧ r.caching = q.caching := by
  unfold pageEntry at h
  injection h with _ hp _ _ hw hx _ _ hc
  exact ⟨hp, hw, hx, hc⟩

/-- Two regions that map a small page by pages of the same size need the same entry for it if and only if they map it
in the same way. -/
lemma wantEntry_eq_iff (hr : r.startIdx ≤ idx ∧ idx ≤ r.endIdx) (hq : q.startIdx ≤ idx ∧ idx ≤ q.endIdx)
    (hrk : r.pageSize levels large idx = k) (hqk : q.pageSize levels large' idx = k) :
    r.wantEntry levels large idx k = q.wantEntry levels large' idx k ↔
      mapping levels (large, r) idx = mapping levels (large', q) idx := by
  have hrphys := physAt_first (start_le_first hr.1 hr.2 hrk)
  have hqphys := physAt_first (start_le_first hq.1 hq.2 hqk)
  rw [wantEntry, if_pos hrk, wantEntry, if_pos hqk, mapping, mapping]
  simp only [Mapping.mk.injEq, hrk, hqk, and_true]
  constructor
  · intro h
    obtain ⟨hp, hw, hx, hc⟩ := pageEntry_inj h
    exact ⟨by rw [hrphys, hqphys, hp], hw, hx, hc⟩
  · rintro ⟨hp, hw, hx, hc⟩
    rw [hrphys, hqphys] at hp
    have hfirst := (BitVec.add_left_inj _).mp hp
    unfold pageEntry
    rw [hfirst, hw, hx, hc]

end MemoryRegion

/-! ### One call -/

section Call

variable {a b : MemoryLayout} {r : MemoryRegion} {levels : Nat} {calls : List AddCall}

lemma Complete.not_conflict (h : Complete r a b) : ¬Conflict r a := by
  rintro ⟨idx, k, hway, hne, hother⟩
  have hplaced := h.placed _ _ _ ⟨idx, k, hway, rfl, rfl, rfl⟩
  rw [h.filled.adds.keeps hne] at hplaced
  exact hother hplaced

/-- The tables that the level 1 table refers to for a region. -/
def level1Range (r : MemoryRegion) : List Nat :=
  List.range' (r.startIdx / 512 ^ 3) (r.endIdx / 512 ^ 3 + 1 - r.startIdx / 512 ^ 3)

lemma mem_level1Range {n : Nat} : n ∈ level1Range r ↔ r.startIdx / 512 ^ 3 ≤ n ∧ n ≤ r.endIdx / 512 ^ 3 := by
  rw [level1Range, List.mem_range'_1]
  omega

lemma level1Range_lt (hend : r.endIdx < 512 ^ 4) : ∀ n ∈ level1Range r, n < 512 := by
  intro n hn
  rw [mem_level1Range] at hn
  omega

/-- A call that finds no other entry in its way succeeds, and any other one raises `Mapping_Present`. -/
lemma addMemoryRegion_outcome (hl : a.levels = 3 ∨ a.levels = 4) (hwf : a.WellFormed) (hle : r.startIdx ≤ r.endIdx)
    (hend : r.endIdx < 512 ^ 4) {Q : Nat → Prop} (hslots : Slots Q a.level1Table) :
    Outcome (fun b => ∃ c table, enter r a = .ok c ∧ Complete r a c ∧ b = { c with level1Table := table } ∧
        Slots (fun n => Q n ∨ n ∈ level1Range r) table)
      (fun err => (∃ message, err = .mappingPresent message) ∧ Conflict r a) (addMemoryRegion a r) := by
  have houtcome := enter_outcome hl hwf hle
  have heq := addRegionEntries_eq r a
  unfold addMemoryRegion
  cases henter : enter r a with
  | ok c =>
    rw [henter] at houtcome heq
    have hcomplete : Complete r a c := houtcome
    have hslots' : Slots Q c.level1Table := by
      rw [hcomplete.filled.adds.level1_eq]
      exact hslots
    obtain ⟨table, hrun, htable⟩ := Slots.addLevel1s (level1Range_lt hend) hslots'
    rw [ok_bind] at heq
    rw [heq.trans hrun]
    exact ⟨c, table, rfl, hcomplete, rfl, htable⟩
  | error err =>
    rw [henter] at houtcome heq
    obtain ⟨⟨message, rfl⟩, hconflict⟩ := houtcome hend
    have herror : addRegionEntries r a = .error (.duplicateEntry message) := heq
    rw [herror]
    exact ⟨⟨_, rfl⟩, hconflict⟩

lemma rejected_iff {call : AddCall} (hl : a.levels = 3 ∨ a.levels = 4) (hwf : a.WellFormed)
    (hle : call.2.startIdx ≤ call.2.endIdx) (hend : call.2.endIdx < 512 ^ 4) {Q : Nat → Prop}
    (hslots : Slots Q a.level1Table) : Rejected a call ↔ Conflict call.2 (setLargePageSupport a call.1) := by
  have houtcome := addMemoryRegion_outcome (a := setLargePageSupport a call.1) hl hwf hle hend hslots
  unfold Rejected
  cases hrun : addMemoryRegion (setLargePageSupport a call.1) call.2 with
  | ok b =>
    rw [hrun] at houtcome
    obtain ⟨c, -, -, hcomplete, -⟩ := houtcome
    exact iff_of_false (by rintro ⟨message, h⟩; cases h) hcomplete.not_conflict
  | error err =>
    rw [hrun] at houtcome
    obtain ⟨⟨message, rfl⟩, hconflict⟩ := houtcome
    exact iff_of_true ⟨message, rfl⟩ hconflict

/-! ### Layouts after successful calls -/

/-- The entries of the layout are those that the calls need. -/
structure Holds (levels : Nat) (calls : List AddCall) (a : MemoryLayout) : Prop where
  levels_eq : a.levels = levels
  wellFormed : a.WellFormed
  needed : ∀ l g, a.entry l g ≠ nullTableEntry → ∃ call ∈ calls, call.2.Wants levels call.1 l g (a.entry l g)
  placed : ∀ call ∈ calls, ∀ l g e, call.2.Wants levels call.1 l g e → a.entry l g = e
  slots : Slots (fun n => ∃ call ∈ calls, n ∈ level1Range call.2) a.level1Table

lemma holds_empty (levels : Nat) (large : Bool) : Holds levels [] (emptyLayout levels large) where
  levels_eq := rfl
  wellFormed := fun _ => ⟨List.Pairwise.nil, by simp [emptyLayout]⟩
  needed := fun _ _ hne => absurd rfl hne
  placed := by simp
  slots := ⟨PageTableMap.nullTable_counted, fun i => by simp [emptyLayout, nullTable], fun i hne => absurd rfl hne⟩

lemma Holds.add {call : AddCall} (hl : levels = 3 ∨ levels = 4) (h : Holds levels calls a)
    (hvalid : call.2.Valid (2 ^ 48)) (hrun : addMemoryRegion (setLargePageSupport a call.1) call.2 = .ok b) :
    Holds levels (calls ++ [call]) b := by
  have hlevels := h.levels_eq
  have houtcome := addMemoryRegion_outcome (a := setLargePageSupport a call.1) (hlevels ▸ hl) h.wellFormed
    (hvalid.startIdx_le (le_refl _)) hvalid.endIdx_lt h.slots
  rw [hrun] at houtcome
  obtain ⟨c, table, -, hcomplete, rfl, hslots⟩ := houtcome
  have hadds := hcomplete.filled.adds
  have hwants : ∀ {l g e}, call.2.Wants (setLargePageSupport a call.1).levels
      (setLargePageSupport a call.1).useLargePages l g e ↔ call.2.Wants levels call.1 l g e := by
    intro l g e
    rw [← hlevels]
    rfl
  refine ⟨hadds.levels_eq.trans hlevels, hadds.wellFormed, ?_, ?_, hslots.congr ?_⟩
  · intro l g hne
    rcases hadds.entries l g with hold | ⟨-, hnew⟩
    · have hc : ({ c with level1Table := table } : MemoryLayout).entry l g = a.entry l g := hold
      rw [hc] at hne ⊢
      obtain ⟨old, hmem, hneed⟩ := h.needed l g hne
      exact ⟨old, List.mem_append_left _ hmem, hneed⟩
    · exact ⟨call, by simp, hwants.mp hnew⟩
  · intro old hold l g e hneed
    rcases List.mem_append.mp hold with hold | hold
    · have hplaced := h.placed old hold l g e hneed
      obtain ⟨idx, k, -, -, -, he⟩ := hneed
      have hne : e ≠ nullTableEntry := he ▸ old.2.wantEntry_ne_null _ _ _ _
      exact (hadds.keeps (hplaced.symm ▸ hne)).trans hplaced
    · rw [List.mem_singleton.mp hold] at hneed
      exact hcomplete.placed l g e (hwants.mpr hneed)
  · intro n _
    simp only [List.mem_append, List.mem_singleton, or_and_right, exists_or, exists_eq_left]

lemma addMemoryRegions_holds (hl : levels = 3 ∨ levels = 4) {large : Bool}
    (hvalid : ∀ call ∈ calls, call.2.Valid (2 ^ 48)) (h : addMemoryRegions (emptyLayout levels large) calls = .ok a) :
    Holds levels calls a := by
  have hinv := foldlM_ok (fun b done => (∀ call ∈ done, call.2.Valid (2 ^ 48)) → Holds levels done b)
    (fun _ => holds_empty levels large) ?_ h
  · exact hinv hvalid
  · intro done call b b' hb hstep hdone
    exact (hb (fun c hc => hdone c (List.mem_append_left _ hc))).add hl (hdone call (by simp)) hstep

lemma wantEntry_page (r : MemoryRegion) (levels : Nat) (large : Bool) {idx k : Nat} (h : r.pageSize levels large idx = k) :
    (r.wantEntry levels large idx k).mapsPage = true := by
  rw [MemoryRegion.wantEntry, if_pos h]
  rfl

lemma wantEntry_ref {idx k : Nat} {large : Bool} (h : r.pageSize levels large idx ≠ k) :
    r.wantEntry levels large idx k = refEntry (idx / 512 ^ k) := by
  rw [MemoryRegion.wantEntry, if_neg h]

/-- Different entries in the same place are needed only for a page that is mapped in different ways. -/
lemma clash_of_ne {old new : AddCall} {idx idx' k : Nat} (hold : old.2.OnWay levels old.1 idx k)
    (hnew : new.2.OnWay levels new.1 idx' k) (hblock : idx / 512 ^ k = idx' / 512 ^ k)
    (hne : old.2.wantEntry levels old.1 idx k ≠ new.2.wantEntry levels new.1 idx' k) :
    ∃ i, (old.2.startIdx ≤ i ∧ i ≤ old.2.endIdx) ∧ (new.2.startIdx ≤ i ∧ i ≤ new.2.endIdx) ∧
      mapping levels old i ≠ mapping levels new i := by
  by_cases hk : new.2.pageSize levels new.1 idx' = k
  · -- the page of the new region covers that of the old one
    have hmem := MemoryRegion.mem_of_pageSize hnew.start_le hnew.le_end hk hblock.symm
    have hsize := MemoryRegion.pageSize_congr hblock.symm hk
    refine ⟨idx, ⟨hold.start_le, hold.le_end⟩, hmem, fun hsame => ?_⟩
    have hold' : old.2.pageSize levels old.1 idx = k := (congrArg Mapping.pageSize hsame).trans hsize
    rw [MemoryRegion.wantEntry_congr hblock.symm] at hne
    exact hne ((MemoryRegion.wantEntry_eq_iff ⟨hold.start_le, hold.le_end⟩ hmem hold' hsize).mpr hsame)
  · by_cases hk' : old.2.pageSize levels old.1 idx = k
    · have hmem := MemoryRegion.mem_of_pageSize hold.start_le hold.le_end hk' hblock
      have hsize := MemoryRegion.pageSize_congr hblock hk'
      refine ⟨idx', hmem, ⟨hnew.start_le, hnew.le_end⟩, fun hsame => hk ?_⟩
      exact (congrArg Mapping.pageSize hsame).symm.trans hsize
    · rw [wantEntry_ref hk, wantEntry_ref hk', hblock] at hne
      exact absurd rfl hne

/-- A page that is mapped in different ways needs different entries in one place. -/
lemma ne_of_clash (hl : levels = 3 ∨ levels = 4) {old new : AddCall} {idx : Nat}
    (hold : old.2.startIdx ≤ idx ∧ idx ≤ old.2.endIdx) (hnew : new.2.startIdx ≤ idx ∧ idx ≤ new.2.endIdx)
    (hne : mapping levels old idx ≠ mapping levels new idx) :
    ∃ k, old.2.OnWay levels old.1 idx k ∧ new.2.OnWay levels new.1 idx k ∧
      old.2.wantEntry levels old.1 idx k ≠ new.2.wantEntry levels new.1 idx k := by
  have hlevelOld := MemoryRegion.pageSize_level hl old.2 old.1 idx
  have hlevelNew := MemoryRegion.pageSize_level hl new.2 new.1 idx
  rcases Nat.lt_trichotomy (old.2.pageSize levels old.1 idx) (new.2.pageSize levels new.1 idx) with hlt | heq | hgt
  · refine ⟨_, ⟨hold.1, hold.2, hlt.le, hlevelNew⟩, ⟨hnew.1, hnew.2, le_refl _, hlevelNew⟩, fun hsame => ?_⟩
    have hpage := wantEntry_page new.2 levels new.1 (rfl : _ = new.2.pageSize levels new.1 idx)
    rw [← hsame, wantEntry_ref hlt.ne] at hpage
    exact absurd hpage Bool.false_ne_true
  · refine ⟨_, ⟨hold.1, hold.2, heq.le, hlevelNew⟩, ⟨hnew.1, hnew.2, le_refl _, hlevelNew⟩, fun hsame => hne ?_⟩
    exact (MemoryRegion.wantEntry_eq_iff hold hnew heq rfl).mp hsame
  · refine ⟨_, ⟨hold.1, hold.2, le_refl _, hlevelOld⟩, ⟨hnew.1, hnew.2, hgt.le, hlevelOld⟩, fun hsame => ?_⟩
    have hpage := wantEntry_page old.2 levels old.1 (rfl : _ = old.2.pageSize levels old.1 idx)
    rw [hsame, wantEntry_ref hgt.ne] at hpage
    exact absurd hpage Bool.false_ne_true

lemma Holds.conflict_iff (hl : levels = 3 ∨ levels = 4) (h : Holds levels calls a)
    (hvalid : ∀ call ∈ calls, call.2.Valid (2 ^ 48)) {call : AddCall} (hcall : call.2.Valid (2 ^ 48)) :
    Conflict call.2 (setLargePageSupport a call.1) ↔ Clashes levels calls call := by
  have hlevels := h.levels_eq
  subst hlevels
  constructor
  · rintro ⟨idx, k, hway, hne, hother⟩
    obtain ⟨old, hold, idx', k', hway', hl', hg, hentry⟩ := h.needed _ _ hne
    have hk := hway.level
    have hk' := hway'.level
    simp only [setLargePageSupport] at hk hl'
    obtain rfl : k = k' := by omega
    have hentry' : (setLargePageSupport a call.1).entry (a.levels - k) (idx / 512 ^ k) =
        old.2.wantEntry a.levels old.1 idx' k := hentry
    rw [show (setLargePageSupport a call.1).levels = a.levels from rfl, hentry'] at hother
    obtain ⟨i, hi, hi', hmapping⟩ := clash_of_ne hway' hway hg.symm hother
    exact ⟨old, hold, i, (hvalid old hold).hasPage_iff.mpr hi, hcall.hasPage_iff.mpr hi', hmapping⟩
  · rintro ⟨old, hold, idx, hi, hi', hmapping⟩
    obtain ⟨k, hway, hway', hne⟩ := ne_of_clash hl ((hvalid old hold).hasPage_iff.mp hi)
      (hcall.hasPage_iff.mp hi') hmapping
    have hplaced : (setLargePageSupport a call.1).entry (a.levels - k) (idx / 512 ^ k) =
        old.2.wantEntry a.levels old.1 idx k := h.placed old hold _ _ _ ⟨idx, k, hway, rfl, rfl, rfl⟩
    refine ⟨idx, k, hway', ?_, ?_⟩
    · exact hplaced ▸ old.2.wantEntry_ne_null _ _ _ _
    · exact hplaced ▸ hne

lemma addLevel1_same {n : Nat} (hn : n < 512) (h : a.level1Table.data (entryRange n) = refEntry n) :
    addLevel1 a n = .ok a := by
  unfold addLevel1
  rw [tableRange_of_lt (by omega), ok_bind, PageTable.addEntry_same h, ok_bind]

lemma addLevel1s_same {ns : List Nat} (h : ∀ n ∈ ns, n < 512 ∧ a.level1Table.data (entryRange n) = refEntry n) :
    ns.foldlM addLevel1 a = .ok a := by
  induction ns with
  | nil => rfl
  | cons n ns ih =>
    obtain ⟨hn, hdata⟩ := h n List.mem_cons_self
    rw [List.foldlM_cons, addLevel1_same hn hdata, ok_bind]
    exact ih (fun m hm => h m (List.mem_cons_of_mem n hm))

/-- A call that was made before changes nothing. -/
lemma Holds.again (hl : levels = 3 ∨ levels = 4) (h : Holds levels calls a) {call : AddCall} (hmem : call ∈ calls)
    (hcall : call.2.Valid (2 ^ 48)) :
    addMemoryRegion (setLargePageSupport a call.1) call.2 = .ok (setLargePageSupport a call.1) := by
  have hlevels := h.levels_eq
  have hplaced : ∀ {idx k}, call.2.OnWay a.levels call.1 idx k →
      a.entry (a.levels - k) (idx / 512 ^ k) = call.2.wantEntry a.levels call.1 idx k := by
    intro idx k hway
    rw [hlevels] at hway ⊢
    exact h.placed call hmem _ _ _ ⟨idx, k, hway, rfl, rfl, rfl⟩
  have henter := enter_outcome (a := setLargePageSupport a call.1) (r := call.2) (hlevels ▸ hl) h.wellFormed
    (hcall.startIdx_le (le_refl _))
  have heq := addRegionEntries_eq call.2 (setLargePageSupport a call.1)
  cases hrun : enter call.2 (setLargePageSupport a call.1) with
  | error err =>
    rw [hrun] at henter
    obtain ⟨-, idx, k, hway, -, hother⟩ := henter hcall.endIdx_lt
    exact absurd (hplaced hway) hother
  | ok c =>
    rw [hrun] at henter heq
    have hcomplete : Complete call.2 (setLargePageSupport a call.1) c := henter
    obtain rfl : c = setLargePageSupport a call.1 := by
      apply hcomplete.filled.same
      intro l g
      rcases hcomplete.filled.adds.entries l g with hold | ⟨hnull, idx, k, hway, hl', hg, he⟩
      · exact hold
      · have hhere : (setLargePageSupport a call.1).entry l g = call.2.wantEntry a.levels call.1 idx k := by
          rw [hl', hg]
          exact hplaced hway
        rw [hnull] at hhere
        exact absurd hhere.symm (call.2.wantEntry_ne_null _ _ _ _)
    have hlevel1 : (level1Range call.2).foldlM addLevel1 (setLargePageSupport a call.1) =
        .ok (setLargePageSupport a call.1) := by
      apply addLevel1s_same
      intro n hn
      have hlt := level1Range_lt hcall.endIdx_lt n hn
      have hval : (entryRange n).val = n := Nat.mod_eq_of_lt hlt
      have hpresent := (h.slots.entries (entryRange n)).mpr ⟨call, hmem, by rwa [hval]⟩
      have href := h.slots.refs _ hpresent
      rw [hval] at href
      exact ⟨hlt, href⟩
    rw [ok_bind] at heq
    unfold addMemoryRegion
    rw [heq.trans hlevel1]

end Call

/-- In a layout of regions that are not empty and lie in the address space, a further region is rejected if and only if
one of its pages is mapped in another way, and a call that was made before changes nothing. -/
theorem rejected_iff_clashes {levels : Nat} (hl : levels = 3 ∨ levels = 4) {large : Bool} {calls : List AddCall}
    {layout : MemoryLayout} (hvalid : ∀ call ∈ calls, call.2.Valid (2 ^ 48))
    (h : addMemoryRegions (emptyLayout levels large) calls = .ok layout) {call : AddCall}
    (hcall : call.2.Valid (2 ^ 48)) :
    (Rejected layout call ↔ Clashes levels calls call) ∧
      (call ∈ calls →
        addMemoryRegion (setLargePageSupport layout call.1) call.2 = .ok (setLargePageSupport layout call.1)) := by
  have hholds := addMemoryRegions_holds hl hvalid h
  have hlevels : layout.levels = 3 ∨ layout.levels = 4 := hholds.levels_eq ▸ hl
  have hconflict := rejected_iff hlevels hholds.wellFormed (hcall.startIdx_le (le_refl _)) hcall.endIdx_lt hholds.slots
  exact ⟨hconflict.trans (hholds.conflict_iff hl hvalid hcall), fun hmem => hholds.again hl hmem hcall⟩

/-- Two megabytes at the given addresses. -/
def largeRegion (physicalAddress virtualAddress : Unsigned64) : MemoryRegion :=
  ⟨physicalAddress, virtualAddress, 0x200000, .wb, true, false⟩

/-- Small pages are not mapped over a large one, the large page itself may be mapped again, and so may the two
megabytes behind it with pages of either size. -/
theorem rejected_iff_clashes_small : ∃ layout,
    addMemoryRegions (emptyLayout 4 true) [(true, largeRegion 0 0)] = .ok layout ∧
      Clashes 4 [(true, largeRegion 0 0)] (false, largeRegion 0 0) ∧ Rejected layout (false, largeRegion 0 0) ∧
      (∀ large, ¬Clashes 4 [(true, largeRegion 0 0)] (large, largeRegion 0 0x200000) ∧
        ¬Rejected layout (large, largeRegion 0 0x200000)) ∧
      addMemoryRegion (setLargePageSupport layout true) (largeRegion 0 0) = .ok (setLargePageSupport layout true) := by
  have hvalid : (largeRegion 0 0).Valid (2 ^ 48) := by constructor <;> decide
  have hnext : (largeRegion 0 0x200000).Valid (2 ^ 48) := by constructor <;> decide
  have hiff := fun call hcall => @rejected_iff_clashes 4 (Or.inr rfl) true [(true, largeRegion 0 0)] _
    (fun call hcall => by rw [List.mem_singleton.mp hcall]; exact hvalid) rfl call hcall
  have hclashes : Clashes 4 [(true, largeRegion 0 0)] (false, largeRegion 0 0) := by
    have hpage : (largeRegion 0 0).HasPage 0 := by
      change 0 ≤ 4096 * 0 ∧ 4096 * 0 < 0 + 0x200000
      omega
    exact ⟨_, List.mem_singleton_self _, 0, hpage, hpage, by decide⟩
  have happart : ∀ large, ¬Clashes 4 [(true, largeRegion 0 0)] (large, largeRegion 0 0x200000) := by
    rintro large ⟨old, hold, idx, hpage, hpage', -⟩
    rw [List.mem_singleton.mp hold] at hpage
    change 0 ≤ 4096 * idx ∧ 4096 * idx < 0 + 0x200000 at hpage
    change 0x200000 ≤ 4096 * idx ∧ 4096 * idx < 0x200000 + 0x200000 at hpage'
    omega
  refine ⟨_, rfl, hclashes, (hiff (false, largeRegion 0 0) hvalid).1.mpr hclashes, ?_,
    (hiff (true, largeRegion 0 0) hvalid).2 (List.mem_singleton_self _)⟩
  exact fun large => ⟨happart large, fun h => happart large ((hiff (large, _) hnext).1.mp h)⟩

/-- An empty region leaves a reference in the way of a large page, and the level 1 table refers to one of the tables
that a region behind the end of the address space needs and one that its start needs. -/
theorem rejected_without_clash :
    (∃ layout, addMemoryRegions (emptyLayout 4 true) [(true, ⟨0, 0x1000, 0, .wb, true, false⟩)] = .ok layout ∧
      Rejected layout (true, largeRegion 0 0) ∧
      ¬Clashes 4 [(true, ⟨0, 0x1000, 0, .wb, true, false⟩)] (true, largeRegion 0 0)) ∧
    ∃ layout, addMemoryRegions (emptyLayout 4 true) [(true, largeRegion 0 0)] = .ok layout ∧
      Rejected layout (true, ⟨0, 0xffffffe00000, 0x400000, .wb, true, false⟩) ∧
      ¬Clashes 4 [(true, largeRegion 0 0)] (true, ⟨0, 0xffffffe00000, 0x400000, .wb, true, false⟩) := by
  refine ⟨⟨_, rfl, ⟨_, rfl⟩, ?_⟩, ⟨_, rfl, ⟨_, rfl⟩, ?_⟩⟩
  · rintro ⟨old, hold, idx, hpage, -⟩
    rw [List.mem_singleton.mp hold] at hpage
    change 0x1000 ≤ 4096 * idx ∧ 4096 * idx < 0x1000 + 0 at hpage
    omega
  · rintro ⟨old, hold, idx, hpage, hpage', -⟩
    rw [List.mem_singleton.mp hold] at hpage
    change 0 ≤ 4096 * idx ∧ 4096 * idx < 0 + 0x200000 at hpage
    change 0xffffffe00000 ≤ 4096 * idx ∧ 4096 * idx < 0xffffffe00000 + 0x400000 at hpage'
    omega

end Muen.Tools.Paging
