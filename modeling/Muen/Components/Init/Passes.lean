import Muen.Components.Init.Memory

/-!
# What the passes do

Each pass goes over the regions that the iterator yields, but for the stack and the status page. With regions that are
disjoint, a pass changes only the regions that it sets up and the status page.
-/

namespace Muen.Components.Init
open Muen.Lib Controller

namespace Memregion

def addresses (r : Memregion) : Set Unsigned64 := AddressSpace.range r.address r.size.toNat

lemma size_le (r : Memregion) : r.size.toNat ≤ 2 ^ 64 := r.size.isLt.le

lemma size_eq (r : Memregion) : 8 * (r.size.toNat / 8) = r.size.toNat := by
  have hsize := r.size_mod
  omega

end Memregion

/-! ### Operations on regions -/

section Operations

open AddressSpace

/-- A word of one byte repeated. -/
lemma leBytes_pattern (pattern : Fin 257) (h : pattern ≠ noPattern) :
    let p : Unsigned64 := BitVec.ofNat 64 pattern.val
    leBytes 8 (p <<< 56 + p <<< 48 + p <<< 40 + p <<< 32 + p <<< 24 + p <<< 16 + p <<< 8 + p).toNat =
      List.replicate 8 (BitVec.ofNat 8 pattern.val) := by
  revert pattern
  decide +kernel

lemma memset_spec (r : Memregion) {pattern : Fin 257} (h : pattern ≠ noPattern) (m : Memory) :
    (∀ a ∉ r.addresses, memset r pattern m a = m a) ∧
      ∀ a ∈ r.addresses, memset r pattern m a = BitVec.ofNat 8 pattern.val := by
  have hfits : 8 * (r.size.toNat / 8) ≤ 2 ^ 64 := r.size_eq.trans_le r.size_le
  have hblocks := foldl_write_blocks (k := 8) (n := r.size.toNat / 8) r.address
    (fun _ _ => List.replicate 8 (BitVec.ofNat 8 pattern.val)) (fun _ _ => List.length_replicate) hfits m
    (fun _ _ _ _ => rfl) (r.size.toNat / 8) (le_refl _)
  rw [r.size_eq] at hblocks
  unfold memset writeLe
  simp only [leBytes_pattern pattern h]
  refine ⟨hblocks.1, ?_⟩
  intro a ha
  obtain ⟨i, hi, -, rfl⟩ := exists_of_mem_range ha
  have hall := r.size_eq
  have hvalue := hblocks.2 (i / 8) (by omega) (i % 8) (Nat.mod_lt _ (by decide))
  rw [Nat.div_add_mod, List.getD_replicate _ (Nat.mod_lt _ (by decide))] at hvalue
  exact hvalue

lemma memcopy_spec {source destination : Memregion} (hsize : source.size = destination.size)
    (hdisjoint : Disjoint source.addresses destination.addresses) (m : Memory) :
    (∀ a ∉ destination.addresses, memcopy source destination m a = m a) ∧
      ∀ i < destination.size.toNat, memcopy source destination m (destination.address + BitVec.ofNat 64 i) =
        m (source.address + BitVec.ofNat 64 i) := by
  have hfits : 8 * (destination.size.toNat / 8) ≤ 2 ^ 64 := destination.size_eq.trans_le destination.size_le
  have hblocks := foldl_write_blocks (k := 8) (n := destination.size.toNat / 8) destination.address
    (fun m i => m.read (source.address + BitVec.ofNat 64 (8 * i)) 8) (fun _ _ => read_length 8) hfits m
    (by
      intro m' i hi hsame
      apply read_congr (by decide)
      intro a ha
      apply hsame
      rw [destination.size_eq]
      obtain ⟨j, hj, hjw, rfl⟩ := exists_of_mem_range ha
      have hsource : source.address + BitVec.ofNat 64 (8 * i + j) ∈ source.addresses := by
        apply add_mem_range
        · rw [hsize]
          omega
        · have hlt := destination.size.isLt
          omega
      rw [BitVec.ofNat_add, ← add_assoc] at hsource
      exact Set.disjoint_left.mp hdisjoint hsource)
    (destination.size.toNat / 8) (le_refl _)
  rw [destination.size_eq] at hblocks
  unfold memcopy writeLe
  simp only [hsize, leBytes_readLe]
  refine ⟨hblocks.1, ?_⟩
  intro i hi
  have hall := destination.size_eq
  have hvalue := hblocks.2 (i / 8) (by omega) (i % 8) (Nat.mod_lt _ (by decide))
  rw [Nat.div_add_mod, read_getD (Nat.mod_lt _ (by decide)), add_assoc, ← BitVec.ofNat_add, Nat.div_add_mod] at hvalue
  exact hvalue

lemma calculateHash_eq (sha256 : List Byte → Hash) {r : Memregion} (hsize : 0 < r.size.toNat) (m : Memory) :
    calculateHash sha256 r m = sha256 (m.read r.address r.size.toNat) := by
  have hmod := r.size_mod
  have hblocks : (r.size / 64 - 1).toNat + 1 = r.size.toNat / 64 := by
    have hdiv : (r.size / 64).toNat = r.size.toNat / 64 := BitVec.toNat_udiv
    rw [BitVec.toNat_sub_of_le]
    · rw [hdiv]
      change r.size.toNat / 64 - 1 + 1 = _
      omega
    · rw [BitVec.le_def, hdiv]
      change 1 ≤ _
      omega
  have hall : 64 * (r.size.toNat / 64) = r.size.toNat := by omega
  unfold calculateHash
  simp only
  rw [hblocks, read_blocks, hall]

end Operations

/-! ### The regions of a pass -/

def Resource.region? : Resource → Option Memregion
  | memory memData => some memData
  | _ => Option.none

namespace SubjectInfo

/-- The resources that the iterator yields. They end with the first empty one, and for a subject without a name with the
first one. -/
def visited (sinfo : SubjectInfo) : List Resource :=
  (if sinfo.name = nullName then sinfo.resources.take 1 else sinfo.resources).takeWhile (fun r => r ≠ .none)

def regions (sinfo : SubjectInfo) : List Memregion := sinfo.resources.filterMap Resource.region?

lemma visited_sublist (sinfo : SubjectInfo) : sinfo.visited.Sublist sinfo.resources := by
  apply (List.takeWhile_sublist _).trans
  split_ifs
  · exact List.take_sublist 1 _
  · exact List.Sublist.refl _

end SubjectInfo

namespace Subject

variable (subject : Subject)

/-- The regions that a pass processes. -/
def processed : List Memregion :=
  (subject.sinfo.visited.filterMap Resource.region?).filter subject.shouldProcess

lemma processed_sublist : subject.processed.Sublist subject.sinfo.regions :=
  List.filter_sublist.trans (subject.sinfo.visited_sublist.filterMap _)

/-- What is left to yield for an iterator at the given place. -/
def remaining (k : Nat) : List (Resource × Nat) :=
  ((if subject.sinfo.name = nullName then (subject.sinfo.resources.drop k).take 1
    else subject.sinfo.resources.drop k).takeWhile (fun r => r ≠ .none)).zipIdx (k + 1)

variable {subject} {body : Memregion → Memory → Memory × Bool}

lemma processMemregions_done (left : Nat) {iter : ResourceIterator} (h : iter.done = true) (m : Memory) :
    subject.processMemregions body left iter m = (m, true) := by
  cases left with
  | zero => rfl
  | succ left =>
    unfold processMemregions
    rw [if_neg (by simp [ResourceIterator.hasElement, h])]

/-- The loop goes over the list of what the iterator yields. -/
lemma processMemregions_eq (left : Nat) : ∀ (k : Fin 255) (m : Memory), 255 ≤ left + k.val →
    subject.processMemregions body left ⟨k, subject.sinfo.name, false⟩ m =
      foldWhile (subject.visit body) m (subject.remaining k.val) := by
  induction left with
  | zero =>
    intro k m hleft
    have hk := k.isLt
    omega
  | succ left ih =>
    intro k m hleft
    have hk : k.val < subject.sinfo.resources.length := by
      rw [subject.sinfo.resources_length]
      exact k.isLt
    have helement : ResourceIterator.element subject.sinfo ⟨k, subject.sinfo.name, false⟩ =
        subject.sinfo.resources[k.val] := List.getD_eq_getElem _ _ hk
    have hdrop := List.drop_eq_getElem_cons hk
    by_cases hnone : subject.sinfo.resources[k.val] = .none
    · have hempty : subject.remaining k.val = [] := by
        unfold remaining
        rw [hdrop]
        split_ifs <;> simp [hnone]
      unfold processMemregions
      rw [hempty, if_neg (by simp [ResourceIterator.hasElement, helement, hnone])]
      rfl
    · have hrest : ∀ m, subject.processMemregions body left
          (ResourceIterator.next ⟨k, subject.sinfo.name, false⟩) m =
          foldWhile (subject.visit body) m (if subject.sinfo.name = nullName then [] else subject.remaining (k.val + 1)) := by
        intro m
        unfold ResourceIterator.next
        by_cases hname : subject.sinfo.name = nullName
        · rw [if_pos hname, dif_neg (by simp [hname]), processMemregions_done left rfl]
          rfl
        · rw [if_neg hname]
          by_cases hlast : k.val < 254
          · rw [dif_pos ⟨hname, hlast⟩]
            exact ih ⟨k.val + 1, by omega⟩ m (by simp only; omega)
          · have hempty : subject.remaining (k.val + 1) = [] := by
              unfold remaining
              rw [if_neg hname, List.drop_eq_nil_of_le (by rw [subject.sinfo.resources_length]; omega)]
              rfl
            rw [dif_neg (by simp [hlast]), processMemregions_done left rfl, hempty]
            rfl
      have hlist : subject.remaining k.val = (subject.sinfo.resources[k.val], k.val + 1) ::
          (if subject.sinfo.name = nullName then [] else subject.remaining (k.val + 1)) := by
        unfold remaining
        rw [hdrop]
        by_cases hname : subject.sinfo.name = nullName
        · simp only [if_pos hname]
          rw [List.take_succ_cons, List.take_zero, List.takeWhile_cons_of_pos (by simpa using hnone)]
          rfl
        · simp only [if_neg hname]
          rw [List.takeWhile_cons_of_pos (by simpa using hnone), List.zipIdx_cons]
      have hindex : ResourceIterator.index ⟨k, subject.sinfo.name, false⟩ = k.val + 1 := rfl
      unfold processMemregions
      rw [hlist, if_pos (by simp [ResourceIterator.hasElement, helement, hnone]), helement, hindex]
      simp only [foldWhile, hrest]

variable (subject) in
/-- The regions to process among resources with their indexes. -/
def processedIn (l : List (Resource × Nat)) : List Memregion :=
  ((l.map Prod.fst).filterMap Resource.region?).filter subject.shouldProcess

lemma processedIn_append (l l' : List (Resource × Nat)) :
    subject.processedIn (l ++ l') = subject.processedIn l ++ subject.processedIn l' := by
  unfold processedIn
  rw [List.map_append, List.filterMap_append, List.filter_append]

lemma processedIn_remaining : subject.processedIn (subject.remaining 0) = subject.processed := by
  unfold processedIn processed remaining SubjectInfo.visited
  rw [List.zipIdx_map_fst, List.drop_zero]

/-- A round either passes a resource over or runs the body for its region. -/
lemma visit_cases {x : Resource × Nat} {m m' : Memory} (h : subject.visit body m x = (m', true)) :
    (subject.processedIn [x] = [] ∧ m' = subject.setDiagnostics x.2 m) ∨
      ∃ r, subject.processedIn [x] = [r] ∧ body r (subject.setDiagnostics x.2 m) = (m', true) := by
  obtain ⟨resource, index⟩ := x
  cases resource with
  | memory r =>
    simp only [visit] at h
    by_cases hr : subject.shouldProcess r
    · rw [if_pos hr] at h
      exact Or.inr ⟨r, by simp [processedIn, Resource.region?, hr], h⟩
    · rw [if_neg hr] at h
      exact Or.inl ⟨by simp [processedIn, Resource.region?, hr], (congrArg Prod.fst h).symm⟩
  | none | event | vector | device | deviceMemory => exact Or.inl ⟨rfl, (congrArg Prod.fst h).symm⟩

/-- What the rounds of a pass keep that does not fail. -/
lemma forMemregions_ok (inv : Memory → List Memregion → Prop) {m m' : Memory} (hinit : inv m [])
    (hdiagnostics : ∀ m done value, (∀ r ∈ done, r ∈ subject.processed) → inv m done →
      inv (subject.setDiagnostics value m) done)
    (hbody : ∀ done r rest m m', subject.processed = done ++ r :: rest → inv m done → body r m = (m', true) →
      inv m' (done ++ [r])) (h : subject.forMemregions body m = (m', true)) : inv m' subject.processed := by
  have hloop : foldWhile (subject.visit body) m (subject.remaining 0) = (m', true) := by
    rw [← h]
    exact (processMemregions_eq 256 0 m (by decide)).symm
  rw [← processedIn_remaining]
  apply foldWhile_ok (fun m done => inv m (subject.processedIn done)) hinit _ hloop
  intro done x rest s s' hsplit hs hvisit
  have hdone : ∀ r ∈ subject.processedIn done, r ∈ subject.processed := by
    intro r hr
    rw [← processedIn_remaining, hsplit, processedIn_append]
    exact List.mem_append_left _ hr
  have hnext := hdiagnostics s _ x.2 hdone hs
  rw [processedIn_append]
  rcases visit_cases hvisit with ⟨hnone, rfl⟩ | ⟨r, hr, hrun⟩
  · rw [hnone, List.append_nil]
    exact hnext
  · rw [hr]
    apply hbody _ r (subject.processedIn rest) _ s' _ hnext hrun
    rw [← processedIn_remaining, hsplit, processedIn_append]
    exact congrArg _ ((processedIn_append [x] rest).trans (congrArg (· ++ _) hr))

lemma forMemregions_success (hbody : ∀ r m, (body r m).2 = true) (m : Memory) :
    (subject.forMemregions body m).2 = true := by
  have hloop : subject.forMemregions body m = foldWhile (subject.visit body) m (subject.remaining 0) :=
    processMemregions_eq 256 0 m (by decide)
  rw [hloop]
  apply foldWhile_success
  rintro m ⟨resource, index⟩
  cases resource with
  | memory r =>
    simp only [visit]
    by_cases hr : subject.shouldProcess r
    · rw [if_pos hr]
      exact hbody r _
    · rw [if_neg hr]
  | none | event | vector | device | deviceMemory => rfl

end Subject

/-! ### What a pass leaves alone -/

namespace Subject

variable (subject : Subject)

def statusPage : Set Unsigned64 := AddressSpace.range subject.statusAddress 4096

/-- The regions are disjoint from each other, and from the status page but for the region that it is. -/
structure Separate : Prop where
  regions : subject.sinfo.regions.Pairwise (fun r r' => Disjoint r.addresses r'.addresses)
  status : ∀ r ∈ subject.sinfo.regions, subject.isStatus r = false → Disjoint r.addresses subject.statusPage

/-- Two memories differ on the status page at most. -/
def SameOff (m m' : Memory) : Prop := ∀ a ∉ subject.statusPage, m' a = m a

/-- Nothing but the status page and regions that are set up has changed. -/
def Unchanged (done : List Memregion) (m m' : Memory) : Prop :=
  ∀ a ∉ subject.statusPage, (∀ r ∈ done, r.isSetUp → a ∉ r.addresses) → m' a = m a

variable {subject}

lemma SameOff.refl (m : Memory) : subject.SameOff m m := fun _ _ => rfl

lemma SameOff.trans {m m' m'' : Memory} (h : subject.SameOff m m') (h' : subject.SameOff m' m'') :
    subject.SameOff m m'' := fun a ha => (h' a ha).trans (h a ha)

variable (subject) in
lemma setDiagnostics_same (value : Nat) (m : Memory) : subject.SameOff m (subject.setDiagnostics value m) := by
  intro a ha
  apply AddressSpace.write_of_notMem
  rw [leBytes_length]
  exact fun hmem => ha (AddressSpace.range_add_subset (x := 16) (by decide) (by decide) hmem)

variable (subject) in
lemma setState_same (state : SubjectState) (m : Memory) : subject.SameOff m (subject.setState state m) := by
  intro a ha
  apply AddressSpace.write_of_notMem
  rw [leBytes_length]
  exact fun hmem => ha (AddressSpace.range_mono (by decide) hmem)

variable (subject) in
/-- The status page has zeros in all of its fields at first. -/
lemma initializeStatus_eq (m : Memory) : subject.initializeStatus m =
    fun a => if a ∈ AddressSpace.range subject.statusAddress 4096 then 0 else m a := by
  have hbytes : leBytes 8 SubjectState.initial.toNat ++ leBytes 8 0 ++ leBytes 8 0 ++ List.replicate 4072 (0 : Byte) =
      List.replicate 4096 0 := by
    have hfield : leBytes 8 0 = List.replicate 8 (0 : Byte) := by decide
    have hinitial : SubjectState.initial.toNat = 0 := rfl
    rw [hinitial, hfield, List.replicate_append_replicate, List.replicate_append_replicate,
      List.replicate_append_replicate]
  funext a
  unfold initializeStatus AddressSpace.write
  rw [hbytes]
  by_cases ha : a ∈ AddressSpace.range subject.statusAddress 4096
  · rw [if_pos ha, List.getD_replicate _ ha]
  · rw [if_neg ha, List.getD_eq_default]
    rw [List.length_replicate]
    exact Nat.le_of_not_lt ha

variable (subject) in
lemma initializeStatus_same (m : Memory) : subject.SameOff m (subject.initializeStatus m) := by
  intro a ha
  rw [initializeStatus_eq]
  exact if_neg ha

lemma Unchanged.same {done : List Memregion} {m m' m'' : Memory} (h : subject.Unchanged done m m')
    (hsame : subject.SameOff m' m'') : subject.Unchanged done m m'' :=
  fun a ha hdone => (hsame a ha).trans (h a ha hdone)

/-- One more region, which is the only one that changes, and only if it is set up. -/
lemma Unchanged.add {done : List Memregion} {r : Memregion} {m m' m'' : Memory} (h : subject.Unchanged done m m')
    (hr : ∀ a, (r.isSetUp → a ∉ r.addresses) → m'' a = m' a) : subject.Unchanged (done ++ [r]) m m'' := by
  intro a ha hdone
  have hlast := hdone r (by simp)
  have hbefore : ∀ d ∈ done, d.isSetUp → a ∉ d.addresses := fun d hd => hdone d (List.mem_append_left _ hd)
  rw [hr a hlast, h a ha hbefore]

section Separate

variable (hsep : subject.Separate) {done rest : List Memregion} {r : Memregion}

include hsep

lemma Separate.disjoint {r r' : Memregion} (hr : r ∈ subject.sinfo.regions) (hr' : r' ∈ subject.sinfo.regions)
    (hne : r ≠ r') : Disjoint r.addresses r'.addresses := by
  have hsymm : Std.Symm (fun r r' : Memregion => Disjoint r.addresses r'.addresses) := ⟨fun _ _ h => h.symm⟩
  exact hsep.regions.forall hr hr' hne

lemma Separate.off_status (hr : r ∈ subject.sinfo.regions) (hprocess : subject.shouldProcess r) {a : Unsigned64}
    (ha : a ∈ r.addresses) : a ∉ subject.statusPage := by
  have hstatus : subject.isStatus r = false := by
    simp only [shouldProcess, Bool.and_eq_true, Bool.not_eq_true'] at hprocess
    exact hprocess.2
  exact Set.disjoint_left.mp (hsep.status r hr hstatus) ha

omit hsep in
lemma mem_of_split (hsplit : subject.processed = done ++ r :: rest) :
    r ∈ subject.sinfo.regions ∧ subject.shouldProcess r := by
  have hmem : r ∈ subject.processed := by simp [hsplit]
  exact ⟨subject.processed_sublist.subset hmem, (List.mem_filter.mp hmem).2⟩

/-- The region of a round is disjoint from the ones of earlier rounds. -/
lemma Separate.disjoint_done (hsplit : subject.processed = done ++ r :: rest) : ∀ d ∈ done, Disjoint d.addresses r.addresses := by
  have hpairwise := hsep.regions.sublist subject.processed_sublist
  rw [hsplit] at hpairwise
  exact fun d hd => (List.pairwise_append.mp hpairwise).2.2 d hd r (by simp)

/-- The region of a round is as it was before the pass. -/
lemma Separate.fresh (hsplit : subject.processed = done ++ r :: rest) {m m' : Memory} (h : subject.Unchanged done m m') {a : Unsigned64} (ha : a ∈ r.addresses) :
    m' a = m a := by
  obtain ⟨hr, hprocess⟩ := mem_of_split hsplit
  apply h a (hsep.off_status hr hprocess ha)
  intro d hd _ hmem
  exact Set.disjoint_left.mp (hsep.disjoint_done hsplit d hd) hmem ha

end Separate

end Subject

end Muen.Components.Init
