import Muen.Components.Init.Passes

/-!
# The content of the regions

Clearing leaves zeros in the regions that are set up. Setting them up leaves the pattern of a region with one, a copy of
the file with the same hash in a region that has a hash only, and what there was in the others. The hashes that are
checked are those of the content.
-/

namespace Muen.Components.Init
open Muen.Lib Controller

namespace Memregion

def Holds (r : Memregion) (value : Byte) (m : Memory) : Prop := ∀ a ∈ r.addresses, m a = value

/-- The region has the same bytes in both memories. -/
def Kept (r : Memregion) (m m' : Memory) : Prop := ∀ a ∈ r.addresses, m' a = m a

/-- The regions have the same bytes, one after the other. -/
def SameBytes (r src : Memregion) (m : Memory) : Prop :=
  ∀ i < r.size.toNat, m (r.address + BitVec.ofNat 64 i) = m (src.address + BitVec.ofNat 64 i)

lemma addresses_offset (r : Memregion) {i : Nat} (hi : i < r.size.toNat) :
    r.address + BitVec.ofNat 64 i ∈ r.addresses := by
  have hlt := r.size.isLt
  exact AddressSpace.add_mem_range hi (by omega)

lemma SameBytes.kept {r src : Memregion} {m m' : Memory} (h : r.SameBytes src m) (hsize : src.size = r.size)
    (hr : r.Kept m m') (hsrc : src.Kept m m') : r.SameBytes src m' := by
  intro i hi
  rw [hr _ (r.addresses_offset hi), hsrc _ (src.addresses_offset (by rw [hsize]; exact hi))]
  exact h i hi

end Memregion

namespace SubjectInfo

/-- The first region in subject info that is a file with the given hash. -/
def FirstFile (sinfo : SubjectInfo) (hash : Hash) (src : Memregion) : Prop :=
  src.content = .file ∧ src.hash = hash ∧ ∃ before after, sinfo.regions = before ++ src :: after ∧
    ∀ r ∈ before, ¬(r.content = .file ∧ r.hash = hash)

lemma findSome_withHash (resources : List Resource) (hash : Hash) (content : ContentType) :
    resources.findSome? (Resource.withHash hash content) =
      (resources.filterMap Resource.region?).find? (fun m => m.content = content ∧ m.hash = hash) := by
  induction resources with
  | nil => rfl
  | cons resource resources ih =>
    rw [List.findSome?_cons, ih]
    cases resource with
    | memory m =>
      have hcons : (Resource.memory m :: resources).filterMap Resource.region? =
          m :: resources.filterMap Resource.region? := rfl
      rw [hcons, List.find?_cons, Resource.withHash]
      by_cases hcontent : m.content = content
      · by_cases hhash : m.hash = hash
        · simp [hcontent, hhash]
        · simp [hcontent, hhash]
      · simp [hcontent]
    | none | event | vector | device | deviceMemory => rfl

lemma memoryByHash_first {sinfo : SubjectInfo} {hash : Hash} (h : sinfo.memoryByHash hash .file ≠ nullMemregion) :
    sinfo.FirstFile hash (sinfo.memoryByHash hash .file) := by
  unfold memoryByHash at h ⊢
  rw [findSome_withHash] at h ⊢
  cases hfind : (sinfo.resources.filterMap Resource.region?).find?
      (fun m => m.content = .file ∧ m.hash = hash) with
  | none =>
    rw [hfind] at h
    exact absurd rfl h
  | some src =>
    obtain ⟨hsrc, before, after, hsplit, hbefore⟩ := List.find?_eq_some_iff_append.mp hfind
    simp only [decide_eq_true_eq] at hsrc
    refine ⟨hsrc.1, hsrc.2, before, after, hsplit, ?_⟩
    intro r hr hboth
    have hnot := hbefore r hr
    simp [hboth] at hnot

lemma FirstFile.mem {sinfo : SubjectInfo} {hash : Hash} {src : Memregion} (h : sinfo.FirstFile hash src) :
    src ∈ sinfo.regions := by
  obtain ⟨-, -, before, after, hsplit, -⟩ := h
  rw [hsplit]
  simp

end SubjectInfo

namespace Subject

variable (subject : Subject)

/-- A copy of the first file with the hash of the region. The stack and the status page may have changed since. -/
def CopyOfFile (r : Memregion) (m : Memory) : Prop :=
  ∃ src, subject.sinfo.FirstFile r.hash src ∧ src.size = r.size ∧
    (subject.shouldProcess src → r.SameBytes src m)

/-- What a region holds that has been set up, where the other memory is the one before. -/
def Prepared (m : Memory) (r : Memregion) (m' : Memory) : Prop :=
  match r.content with
  | .fill => r.Holds (BitVec.ofNat 8 r.pattern.val) m'
  | .file => r.Kept m m'
  | .uninitialized => if r.hash = noHash then r.Kept m m' else subject.CopyOfFile r m'

/-- The region has its reference hash, if it has one that is checked. -/
def Validated (r : Memregion) (m : Memory) : Prop :=
  r.kind ≠ .subjectChannel → r.hash ≠ noHash → 0 < r.size.toNat →
    subject.sha256 (m.read r.address r.size.toNat) = r.hash

variable {subject}

/-- Processed regions are not changed by what is done to the status page. -/
lemma Separate.kept_same (hsep : subject.Separate) {r : Memregion} (hr : r ∈ subject.sinfo.regions)
    (hprocess : subject.shouldProcess r) {m m' : Memory} (h : subject.SameOff m m') : r.Kept m m' :=
  fun _ ha => h _ (hsep.off_status hr hprocess ha)

lemma Separate.kept_processed (hsep : subject.Separate) {r : Memregion} (hr : r ∈ subject.processed) {m m' : Memory}
    (h : subject.SameOff m m') : r.Kept m m' :=
  hsep.kept_same (subject.processed_sublist.subset hr) (List.mem_filter.mp hr).2 h

/-! ### Clearing -/

lemma clearWritable_spec (hsep : subject.Separate) (m : Memory) :
    subject.Unchanged subject.processed m (subject.clearWritable m) ∧
      ∀ r ∈ subject.processed, r.isSetUp → r.Holds 0 (subject.clearWritable m) := by
  have hsuccess : subject.forMemregions
      (fun region m => (if region.isSetUp then memset region 0 m else m, true)) m = (subject.clearWritable m, true) :=
    Prod.ext rfl (forMemregions_success (fun _ _ => rfl) m)
  apply forMemregions_ok (fun m' done => subject.Unchanged done m m' ∧ ∀ r ∈ done, r.isSetUp → r.Holds 0 m') _ _ _
    hsuccess
  · exact ⟨fun _ _ _ => rfl, by simp⟩
  · rintro m' done value hmem ⟨hunchanged, hzero⟩
    have hsame := setDiagnostics_same subject value m'
    refine ⟨hunchanged.same hsame, ?_⟩
    intro r hr hsetUp a ha
    rw [hsep.kept_processed (hmem r hr) hsame a ha]
    exact hzero r hr hsetUp a ha
  · rintro done r rest m' m'' hsplit ⟨hunchanged, hzero⟩ hrun
    obtain rfl : (if r.isSetUp then memset r 0 m' else m') = m'' := congrArg Prod.fst hrun
    obtain ⟨hframe, hset⟩ := memset_spec r (by decide : (0 : Fin 257) ≠ noPattern) m'
    have hkeep : ∀ a, (r.isSetUp → a ∉ r.addresses) → (if r.isSetUp then memset r 0 m' else m') a = m' a := by
      intro a ha
      by_cases hsetUp : r.isSetUp
      · rw [if_pos hsetUp]
        exact hframe a (ha hsetUp)
      · rw [if_neg hsetUp]
    refine ⟨hunchanged.add hkeep, ?_⟩
    intro d hd hsetUp a ha
    rcases List.mem_append.mp hd with hd | hd
    · rw [hkeep a (fun _ hr => Set.disjoint_left.mp (hsep.disjoint_done hsplit d hd) ha hr)]
      exact hzero d hd hsetUp a ha
    · rw [List.mem_singleton.mp hd] at hsetUp ha
      rw [if_pos hsetUp]
      exact hset a ha

/-! ### Setting up -/

/-- A region stays set up when neither it nor the file that it is a copy of changes. -/
lemma Prepared.kept {r : Memregion} {m m' m'' : Memory} (h : subject.Prepared m r m') (hr : r.Kept m' m'')
    (hfile : ∀ src ∈ subject.sinfo.regions, src.content = .file → subject.shouldProcess src → src.Kept m' m'') :
    subject.Prepared m r m'' := by
  unfold Prepared at h ⊢
  cases hcontent : r.content with
  | fill =>
    simp only [hcontent] at h
    intro a ha
    rw [hr a ha]
    exact h a ha
  | file =>
    simp only [hcontent] at h
    intro a ha
    rw [hr a ha]
    exact h a ha
  | uninitialized =>
    simp only [hcontent] at h
    by_cases hhash : r.hash = noHash
    · rw [if_pos hhash] at h
      simp only [if_pos hhash]
      intro a ha
      rw [hr a ha]
      exact h a ha
    · rw [if_neg hhash] at h
      simp only [if_neg hhash]
      obtain ⟨src, hfirst, hsize, hsame⟩ := h
      exact ⟨src, hfirst, hsize, fun hprocess =>
        (hsame hprocess).kept hsize hr (hfile src hfirst.mem hfirst.1 hprocess)⟩

/-- A region that is set up is the only one that changes, and not when it is a file. -/
lemma initRegionContent_spec (hsep : subject.Separate) {r : Memregion} (hr : r ∈ subject.sinfo.regions) {m m' : Memory}
    (h : subject.initRegionContent r m = (m', true)) :
    (∀ a, (r.content ≠ .file → a ∉ r.addresses) → m' a = m a) ∧ subject.Prepared m r m' := by
  unfold initRegionContent at h
  unfold Prepared
  cases hcontent : r.content with
  | file =>
    simp only [hcontent] at h
    obtain rfl := congrArg Prod.fst h
    exact ⟨fun _ _ => rfl, fun _ _ => rfl⟩
  | fill =>
    simp only [hcontent] at h
    obtain rfl := congrArg Prod.fst h
    obtain ⟨hframe, hset⟩ := memset_spec r (r.pattern_iff.mpr hcontent) m
    exact ⟨fun a ha => hframe a (ha (by decide)), hset⟩
  | uninitialized =>
    simp only [hcontent] at h
    by_cases hhash : r.hash = noHash
    · rw [if_neg (not_not.mpr hhash)] at h
      obtain rfl := congrArg Prod.fst h
      refine ⟨fun _ _ => rfl, ?_⟩
      simp only [if_pos hhash]
      exact fun _ _ => rfl
    · rw [if_pos hhash] at h
      by_cases hfail : subject.sinfo.memoryByHash r.hash .file = nullMemregion ∨
          (subject.sinfo.memoryByHash r.hash .file).size ≠ r.size
      · rw [if_pos hfail] at h
        cases congrArg Prod.snd h
      · rw [if_neg hfail] at h
        obtain rfl := congrArg Prod.fst h
        obtain ⟨hnull, hsize⟩ := not_or.mp hfail
        have hfirst := SubjectInfo.memoryByHash_first hnull
        have hsize := not_not.mp hsize
        have hne : subject.sinfo.memoryByHash r.hash .file ≠ r := by
          intro heq
          have hfile := hfirst.1
          rw [heq, hcontent] at hfile
          cases hfile
        obtain ⟨hframe, hcopy⟩ := memcopy_spec hsize (hsep.disjoint hfirst.mem hr hne) m
        simp only [if_neg hhash]
        refine ⟨fun a ha => hframe a (ha (by decide)), _, hfirst, hsize, ?_⟩
        intro _ i hi
        rw [hcopy i hi, hframe]
        have hsrc := Memregion.addresses_offset (subject.sinfo.memoryByHash r.hash .file) (i := i) (by rw [hsize]; exact hi)
        exact Set.disjoint_left.mp (hsep.disjoint hfirst.mem hr hne) hsrc

/-- What a region was before its round it was before the pass. -/
lemma Prepared.of_kept {r : Memregion} {m m' m'' : Memory} (h : subject.Prepared m' r m'') (hr : r.Kept m m') :
    subject.Prepared m r m'' := by
  unfold Prepared at h ⊢
  cases hcontent : r.content with
  | fill =>
    simp only [hcontent] at h
    exact h
  | file =>
    simp only [hcontent] at h
    exact fun a ha => (h a ha).trans (hr a ha)
  | uninitialized =>
    simp only [hcontent] at h
    by_cases hhash : r.hash = noHash
    · rw [if_pos hhash] at h
      simp only [if_pos hhash]
      exact fun a ha => (h a ha).trans (hr a ha)
    · rw [if_neg hhash] at h
      simp only [if_neg hhash]
      exact h

lemma setupWritable_spec (hsep : subject.Separate) {m m' : Memory} (h : subject.setupWritable m = (m', true)) :
    subject.Unchanged subject.processed m m' ∧ ∀ r ∈ subject.processed, r.isSetUp → subject.Prepared m r m' := by
  apply forMemregions_ok (fun m' done => subject.Unchanged done m m' ∧
    ∀ r ∈ done, r.isSetUp → subject.Prepared m r m') _ _ _ h
  · exact ⟨fun _ _ _ => rfl, by simp⟩
  · rintro m' done value hmem ⟨hunchanged, hprepared⟩
    have hsame := setDiagnostics_same subject value m'
    exact ⟨hunchanged.same hsame, fun r hr hsetUp => (hprepared r hr hsetUp).kept
      (hsep.kept_processed (hmem r hr) hsame) (fun src hsrc _ hprocess => hsep.kept_same hsrc hprocess hsame)⟩
  · rintro done r rest m' m'' hsplit ⟨hunchanged, hprepared⟩ hrun
    have hr := (mem_of_split hsplit).1
    by_cases hsetUp : r.isSetUp
    · rw [if_pos hsetUp] at hrun
      obtain ⟨hkeep, hnew⟩ := initRegionContent_spec hsep hr hrun
      refine ⟨hunchanged.add (fun a ha => hkeep a (fun _ => ha hsetUp)), ?_⟩
      intro d hd hdSetUp
      rcases List.mem_append.mp hd with hd | hd
      · apply (hprepared d hd hdSetUp).kept
        · exact fun a ha => hkeep a (fun _ => Set.disjoint_left.mp (hsep.disjoint_done hsplit d hd) ha)
        · intro src hsrc hfile _ a ha
          apply hkeep a
          intro hcontent
          have hne : src ≠ r := fun heq => hcontent (heq ▸ hfile)
          exact Set.disjoint_left.mp (hsep.disjoint hsrc hr hne) ha
      · rw [List.mem_singleton.mp hd]
        exact hnew.of_kept (fun a ha => hsep.fresh hsplit hunchanged ha)
    · rw [if_neg hsetUp] at hrun
      obtain rfl := congrArg Prod.fst hrun
      refine ⟨hunchanged.add (fun _ _ => rfl), ?_⟩
      intro d hd hdSetUp
      rcases List.mem_append.mp hd with hd | hd
      · exact hprepared d hd hdSetUp
      · rw [List.mem_singleton.mp hd] at hdSetUp
        exact absurd hdSetUp hsetUp

/-! ### Checking -/

lemma Validated.kept {r : Memregion} {m m' : Memory} (h : subject.Validated r m) (hr : r.Kept m m') :
    subject.Validated r m' := by
  intro hkind hhash hsize
  rw [← h hkind hhash hsize, AddressSpace.read_congr r.size_le hr]

lemma checkHashes_spec (hsep : subject.Separate) {m m' : Memory} (h : subject.checkHashes m = (m', true)) :
    subject.SameOff m m' ∧ ∀ r ∈ subject.processed, subject.Validated r m' := by
  apply forMemregions_ok (fun m' done => subject.SameOff m m' ∧ ∀ r ∈ done, subject.Validated r m') _ _ _ h
  · exact ⟨SameOff.refl m, by simp⟩
  · rintro m' done value hmem ⟨hsame, hvalid⟩
    have hnext := setDiagnostics_same subject value m'
    exact ⟨hsame.trans hnext, fun r hr => (hvalid r hr).kept (hsep.kept_processed (hmem r hr) hnext)⟩
  · rintro done r rest m' m'' hsplit ⟨hsame, hvalid⟩ hrun
    obtain rfl := congrArg Prod.fst hrun
    have hmatch : subject.hashMatches r m' = true := congrArg Prod.snd hrun
    refine ⟨hsame, ?_⟩
    intro d hd
    rcases List.mem_append.mp hd with hd | hd
    · exact hvalid d hd
    · rw [List.mem_singleton.mp hd]
      intro hkind hhash hsize
      unfold hashMatches at hmatch
      rw [if_pos ⟨hkind, hhash⟩, calculateHash_eq _ hsize] at hmatch
      simpa using hmatch

end Subject

end Muen.Components.Init
