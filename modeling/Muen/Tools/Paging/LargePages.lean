import Muen.Tools.Paging.Conflicts

/-!
# Where large pages are used

Entries that map 2 MB and 1 GB pages. `Add_Memory_Region` takes a large page where the virtual range of a region
contains one; the physical address is not looked at.
-/

namespace Muen.Tools.Paging
open Muen.Lib

/-- The bytes of `512 ^ k` pages. -/
def pageBytes (k : Nat) : Nat := 4096 * 512 ^ k

namespace MemoryRegion

/-- The addresses and the size are multiples of the size of a page. -/
structure PageAligned (r : MemoryRegion) : Prop where
  physical_aligned : r.physicalAddress.toNat % 4096 = 0
  virtual_aligned : r.virtualAddress.toNat % 4096 = 0
  size_aligned : r.size.toNat % 4096 = 0

/-- The virtual range of the region, which starts at an address of 48 bits, contains the given one. -/
def Contains (r : MemoryRegion) (first bytes : Nat) : Prop :=
  r.virtualAddress.toNat % 2 ^ 48 ≤ first ∧ first + bytes ≤ r.virtualAddress.toNat % 2 ^ 48 + r.size.toNat

end MemoryRegion

/-- Whenever the virtual range of the region contains a large page that can be used, the physical address is as far
from such a page as the virtual one. -/
def Congruent (levels : Nat) (call : AddCall) : Prop :=
  ∀ k, k = 1 ∨ k = 2 ∧ levels = 4 → call.1 = true →
    (∃ g, call.2.Contains (g * pageBytes k) (pageBytes k)) →
    call.2.physicalAddress.toNat % pageBytes k = call.2.virtualAddress.toNat % pageBytes k

/-- The entries that map large pages map aligned physical pages, and are those of virtual pages in the regions. With
three levels the level 1 table is the one for 1 GB pages. -/
structure LargePagesFit (levels : Nat) (calls : List AddCall) (layout : MemoryLayout) : Prop where
  level1 : ∀ i, (layout.level1Table.data i).mapsPage = false
  aligned : ∀ k, k = 1 ∨ k = 2 → k + 2 ≤ levels → ∀ g, (layout.entry (levels - k) g).mapsPage = true →
    (layout.entry (levels - k) g).dstAddress.toNat % pageBytes k = 0
  contained : ∀ k, k = 1 ∨ k = 2 → k + 2 ≤ levels → ∀ g, (layout.entry (levels - k) g).mapsPage = true →
    ∃ call ∈ calls, call.2.Contains (g * pageBytes k) (pageBytes k)

section Call

variable {a b : MemoryLayout} {r : MemoryRegion} {levels : Nat} {calls : List AddCall}

/-- The entry maps a page of the region that was taken by the call. -/
def Takes (call : AddCall) (k g : Nat) (e : TableEntry) : Prop :=
  e = call.2.pageEntry (call.2.physAt (g * 512 ^ k)) ∧ (0 < k → call.1 = true) ∧
    call.2.startIdx ≤ g * 512 ^ k ∧ g * 512 ^ k + 512 ^ k ≤ call.2.endIdx + 1

lemma MemoryRegion.Wants.takes {large : Bool} {k g : Nat} {e : TableEntry} (hk : k + 2 ≤ levels)
    (h : r.Wants levels large (levels - k) g e) (hpage : e.mapsPage = true) : Takes (large, r) k g e := by
  obtain ⟨idx, k', hway, hl, rfl, rfl⟩ := h
  have hlevel := hway.level
  obtain rfl : k = k' := by omega
  have hsize : r.pageSize levels large idx = k := by
    by_contra hne
    rw [wantEntry_ref hne] at hpage
    exact absurd hpage Bool.false_ne_true
  have hfills := r.fills_pageSize levels large hway.start_le hway.le_end
  rw [hsize] at hfills
  refine ⟨by rw [MemoryRegion.wantEntry, if_pos hsize], fun hpos => ?_, hfills.1, hfills.2⟩
  exact (MemoryRegion.pageSize_large (hsize ▸ hpos)).1

/-- The references for the start of a region map no pages. -/
lemma addStart_refs (hwf : a.WellFormed) (h : addStart r a = .ok b) :
    Adds (fun _ _ e => e.mapsPage = false) a b := by
  obtain ⟨a₁, h1, h2⟩ := bind_eq_ok h
  have hfirst : Adds (fun _ _ e => e.mapsPage = false) a a₁ := by
    unfold addStartPdpt at h1
    split_ifs at h1 with hmid
    · exact (addAt_spec hwf (refEntry_ne_null _) (by omega) rfl h1).1
    · obtain rfl := Except.ok.inj h1
      exact Adds.refl hwf
  apply hfirst.trans
  unfold addStartPd at h2
  split_ifs at h2 with hmid
  · exact (addAt_spec hfirst.wellFormed (refEntry_ne_null _) (by omega) rfl h2).1
  · obtain rfl := Except.ok.inj h2
    exact Adds.refl hfirst.wellFormed

/-- The pages that a successful call adds. -/
lemma enter_takes {call : AddCall} (hl : a.levels = 3 ∨ a.levels = 4) (hwf : a.WellFormed)
    (hlarge : a.useLargePages = call.1) (h : enter call.2 a = .ok b) :
    b.WellFormed ∧ b.levels = a.levels ∧ b.level1Table = a.level1Table ∧
      ∀ k g, k + 2 ≤ a.levels → (b.entry (a.levels - k) g).mapsPage = true →
        b.entry (a.levels - k) g = a.entry (a.levels - k) g ∨ Takes call k g (b.entry (a.levels - k) g) := by
  by_cases hle : call.2.startIdx ≤ call.2.endIdx
  · have houtcome := enter_outcome hl hwf hle
    rw [h] at houtcome
    have hadds := houtcome.filled.adds
    refine ⟨hadds.wellFormed, hadds.levels_eq, hadds.level1_eq, fun k g hk hpage => ?_⟩
    rcases hadds.entries (a.levels - k) g with hold | ⟨-, hwants⟩
    · exact Or.inl hold
    · rw [hlarge] at hwants
      exact Or.inr (hwants.takes hk hpage)
  · obtain ⟨a₁, hstart, hpages⟩ := bind_eq_ok h
    have hzero : call.2.endIdx + 1 - call.2.startIdx = 0 := by omega
    rw [hzero] at hpages
    obtain rfl := Except.ok.inj hpages
    have hadds := addStart_refs hwf hstart
    refine ⟨hadds.wellFormed, hadds.levels_eq, hadds.level1_eq, fun k g _ hpage => ?_⟩
    rcases hadds.entries (a.levels - k) g with hold | ⟨-, href⟩
    · exact Or.inl hold
    · rw [href] at hpage
      exact absurd hpage Bool.false_ne_true

/-- A successful call refers from the level 1 table to at most 512 tables. -/
lemma Refers.narrow (h : Refers a b (level1Range r)) : r.endIdx / 512 ^ 3 < r.startIdx / 512 ^ 3 + 512 := by
  by_contra hwide
  have h1 := h.refs (r.startIdx / 512 ^ 3) (mem_level1Range.mpr ⟨le_refl _, by omega⟩)
  have h2 := h.refs (r.startIdx / 512 ^ 3 + 512) (mem_level1Range.mpr ⟨by omega, by omega⟩)
  have hsame : entryRange (r.startIdx / 512 ^ 3 + 512) = entryRange (r.startIdx / 512 ^ 3) := by
    apply Fin.ext
    exact Nat.add_mod_right _ 512
  rw [hsame, h1] at h2
  have hdst := congrArg TableEntry.dstTableIndex h2
  simp only [refEntry] at hdst
  omega

/-- What holds of the pages of a layout after successful calls. -/
structure Taken (levels : Nat) (calls : List AddCall) (a : MemoryLayout) : Prop where
  levels_eq : a.levels = levels
  wellFormed : a.WellFormed
  level1 : ∀ i, (a.level1Table.data i).mapsPage = false
  takes : ∀ k g, k + 2 ≤ levels → (a.entry (levels - k) g).mapsPage = true →
    ∃ call ∈ calls, Takes call k g (a.entry (levels - k) g) ∧
      call.2.endIdx / 512 ^ 3 < call.2.startIdx / 512 ^ 3 + 512

lemma taken_empty (levels : Nat) (large : Bool) : Taken levels [] (emptyLayout levels large) where
  levels_eq := rfl
  wellFormed := fun _ => ⟨List.Pairwise.nil, by simp [emptyLayout]⟩
  level1 := fun _ => rfl
  takes := fun _ _ _ hpage => absurd hpage Bool.false_ne_true

lemma Taken.add {call : AddCall} (hl : levels = 3 ∨ levels = 4) (h : Taken levels calls a)
    (hrun : addMemoryRegion (setLargePageSupport a call.1) call.2 = .ok b) : Taken levels (calls ++ [call]) b := by
  have hlevels := h.levels_eq
  subst hlevels
  have hentries : addRegionEntries call.2 (setLargePageSupport a call.1) = .ok b := by
    unfold addMemoryRegion at hrun
    split at hrun
    · cases hrun
    · exact hrun
  rw [addRegionEntries_eq] at hentries
  obtain ⟨c, henter, hlevel1⟩ := bind_eq_ok hentries
  obtain ⟨hwf, hc, htable, htakes⟩ := enter_takes (a := setLargePageSupport a call.1) hl h.wellFormed rfl henter
  have hrefers : Refers c b (level1Range call.2) := foldlM_ok (Refers c)
    ⟨rfl, rfl, fun hcounted => hcounted, fun _ => Or.inl rfl, by simp⟩
    (fun done n s s' hs hstep => addLevel1_spec hs hstep) hlevel1
  have hsame : ∀ l g, b.entry l g = c.entry l g := by
    intro l g
    rw [MemoryLayout.entry, MemoryLayout.entry, hrefers.structures_eq]
  refine ⟨hrefers.levels_eq.trans hc, ?_, ?_, ?_⟩
  · intro l
    rw [hrefers.structures_eq]
    exact hwf l
  · intro i
    rcases hrefers.entries i with hold | ⟨-, n, -, -, href⟩
    · rw [hold, htable]
      exact h.level1 i
    · rw [href]
      rfl
  · intro k g hk hpage
    rw [hsame] at hpage ⊢
    rcases htakes k g hk hpage with hold | htake
    · have hold' : c.entry (a.levels - k) g = a.entry (a.levels - k) g := hold
      rw [hold'] at hpage ⊢
      obtain ⟨old, hmem, htake⟩ := h.takes k g hk hpage
      exact ⟨old, List.mem_append_left _ hmem, htake⟩
    · exact ⟨call, by simp, htake, hrefers.narrow⟩

lemma addMemoryRegions_taken (hl : levels = 3 ∨ levels = 4) {large : Bool}
    (h : addMemoryRegions (emptyLayout levels large) calls = .ok a) : Taken levels calls a :=
  foldlM_ok (fun b done => Taken levels done b) (taken_empty levels large)
    (fun _ _ _ _ hb hstep => hb.add hl hstep) h

end Call

namespace MemoryRegion

variable {r : MemoryRegion} {k g : Nat}

/-- The address masked by `Page_Address_Mask`. -/
lemma masked_toNat {x : Unsigned64} (h : x.toNat % 4096 = 0) : (x &&& pageAddressMask).toNat = x.toNat % 2 ^ 48 := by
  rw [bitVec_and_mask_toNat x pageAddressMask 36 12 (by decide)]
  omega

lemma PageAligned.startIdx_eq (h : r.PageAligned) : 4096 * r.startIdx = r.virtualAddress.toNat % 2 ^ 48 := by
  have hv := h.virtual_aligned
  rw [startIdx, masked_toNat hv]
  omega

/-- The last page of a region that could be entered. -/
lemma PageAligned.endIdx_le (h : r.PageAligned)
    (hnarrow : r.endIdx / 512 ^ 3 < r.startIdx / 512 ^ 3 + 512) :
    4096 * (r.endIdx + 1) ≤ r.virtualAddress.toNat % 2 ^ 48 + r.size.toNat := by
  have hstart := h.startIdx_eq
  have hs := h.size_aligned
  have hlt := r.size.isLt
  have hend : r.endIdx = (r.virtualAddress.toNat % 2 ^ 48 + r.size.toNat + (2 ^ 64 - 1)) % 2 ^ 64 / 4096 := by
    rw [endIdx, BitVec.toNat_sub, BitVec.toNat_add, masked_toNat h.virtual_aligned]
    simp
    omega
  omega

lemma contains_of_takes {call : AddCall} {e : TableEntry} (h : call.2.PageAligned) (htakes : Takes call k g e)
    (hnarrow : call.2.endIdx / 512 ^ 3 < call.2.startIdx / 512 ^ 3 + 512) :
    call.2.Contains (g * pageBytes k) (pageBytes k) := by
  obtain ⟨-, -, hfirst, hlast⟩ := htakes
  have hpos : 0 < 512 ^ k := Nat.pow_pos (by decide)
  have hstart := h.startIdx_eq
  have hend := h.endIdx_le hnarrow
  have hbytes : g * pageBytes k = 4096 * (g * 512 ^ k) := by
    unfold pageBytes
    ring
  rw [Contains, hbytes, pageBytes]
  omega

/-- The address of a page is as far from a larger one as the virtual address is. -/
lemma physAt_mod (h : r.PageAligned) (hk : k = 1 ∨ k = 2) (hfirst : r.startIdx ≤ g * 512 ^ k)
    (hsame : r.physicalAddress.toNat % pageBytes k = r.virtualAddress.toNat % pageBytes k) :
    (r.physAt (g * 512 ^ k)).toNat % pageBytes k = 0 := by
  have hstart := h.startIdx_eq
  unfold pageBytes at hsame ⊢
  rw [physAt, BitVec.toNat_add, masked_toNat h.physical_aligned, BitVec.toNat_ofNat]
  rcases hk with rfl | rfl <;> omega

end MemoryRegion

/-- When large pages are taken only where the physical address allows it, all of them fit. -/
theorem largePages_fit {levels : Nat} (hl : levels = 3 ∨ levels = 4) {large : Bool} {calls : List AddCall}
    {layout : MemoryLayout} (haligned : ∀ call ∈ calls, call.2.PageAligned)
    (hcongruent : ∀ call ∈ calls, Congruent levels call)
    (h : addMemoryRegions (emptyLayout levels large) calls = .ok layout) : LargePagesFit levels calls layout := by
  have htaken := addMemoryRegions_taken hl h
  refine ⟨htaken.level1, fun k hk hlevel g hpage => ?_, fun k hk hlevel g hpage => ?_⟩
  · obtain ⟨call, hcall, htakes, hnarrow⟩ := htaken.takes k g hlevel hpage
    have hcontains := MemoryRegion.contains_of_takes (haligned call hcall) htakes hnarrow
    obtain ⟨hentry, hlarge, hfirst, -⟩ := htakes
    have hsame := hcongruent call hcall k (by omega) (hlarge (by omega)) ⟨g, hcontains⟩
    rw [hentry]
    exact MemoryRegion.physAt_mod (haligned call hcall) hk hfirst hsame
  · obtain ⟨call, hcall, htakes, hnarrow⟩ := htaken.takes k g hlevel hpage
    exact ⟨call, hcall, MemoryRegion.contains_of_takes (haligned call hcall) htakes hnarrow⟩

/-- A region that takes one large page. -/
theorem largePages_fit_one : ∃ layout,
    addMemoryRegions (emptyLayout 4 true) [(true, largeRegion 0x200000 0x40000000)] = .ok layout ∧
      LargePagesFit 4 [(true, largeRegion 0x200000 0x40000000)] layout := by
  refine ⟨_, rfl, ?_⟩
  apply @largePages_fit 4 (Or.inr rfl) true [(true, largeRegion 0x200000 0x40000000)]
  · intro call hcall
    rw [List.mem_singleton.mp hcall]
    constructor <;> decide
  · intro call hcall k hk _ hcontains
    rw [List.mem_singleton.mp hcall] at hcontains ⊢
    obtain ⟨g, hfirst, hlast⟩ := hcontains
    rcases hk with rfl | ⟨rfl, -⟩
    · rfl
    · change 0x40000000 % 2 ^ 48 ≤ g * 0x40000000 at hfirst
      change g * 0x40000000 + 0x40000000 ≤ 0x40000000 % 2 ^ 48 + 0x200000 at hlast
      omega
  · rfl

/-- A region at a page behind the start of a large one. -/
theorem largePages_misaligned : (largeRegion 0x1000 0).PageAligned ∧ ∃ layout,
    addMemoryRegions (emptyLayout 4 true) [(true, largeRegion 0x1000 0)] = .ok layout ∧
      ¬LargePagesFit 4 [(true, largeRegion 0x1000 0)] layout := by
  refine ⟨by constructor <;> decide, _, rfl, fun h => ?_⟩
  have hmod := h.aligned 1 (Or.inl rfl) (by decide) 0 rfl
  exact absurd hmod (by decide)

end Muen.Tools.Paging
