import Muen.Tools.AllocMapFree

/-!
# Addresses of a map

What the two allocations make of each single address: a fixed one is exact and local, and a variable one takes the
first block that fits, as long as the bounds that it computes do not wrap around.
-/

namespace Muen.Tools.AllocMap
open Muen.Lib

def Region.holds (r : Region) (x : Unsigned64) : Bool := r.firstAddress ≤ x ∧ x ≤ r.lastAddress

/-- The region of an address. -/
def regionAt (l : List Region) (x : Unsigned64) : Option Region := l.find? (fun r => r.holds x)

def kindAt (map : Map) (x : Unsigned64) : Option RegionKind := (regionAt map.elems x).map Region.kind

def nameAt (map : Map) (x : Unsigned64) : Option String := (regionAt map.elems x).map Region.name

def allocatableAt (map : Map) (x : Unsigned64) : Option Bool := (regionAt map.elems x).map Region.allocatable

inductive CallError where
  | assertionError
  | raised (e : MapError)
deriving DecidableEq

/-- A call with the check of its precondition. -/
def Call.call (map : Map) (c : Call) : Except CallError Map :=
  if c.Pre then
    match c.run map with
    | .ok map' => .ok map'
    | .error e => .error (.raised e)
  else .error .assertionError

lemma Call.call_of_ok {map map' : Map} {c : Call} (hpre : c.Pre) (h : c.run map = .ok map') :
    c.call map = .ok map' := by
  rw [Call.call, if_pos hpre, h]

lemma Call.call_of_error {map : Map} {c : Call} {e : MapError} (hpre : c.Pre) (h : c.run map = .error e) :
    c.call map = .error (.raised e) := by
  rw [Call.call, if_pos hpre, h]

lemma Call.run_of_ok {map map' : Map} {c : Call} (h : c.call map = .ok map') : c.run map = .ok map' := by
  unfold Call.call at h
  by_cases hpre : c.Pre
  · rw [if_pos hpre] at h
    cases hrun : c.run map with
    | ok map₁ =>
      rw [hrun] at h
      rw [Except.ok.inj h]
    | error e =>
      rw [hrun] at h
      cases h
  · rw [if_neg hpre] at h
    cases h

lemma holds_iff {r : Region} {x : Unsigned64} : r.holds x ↔ r.firstAddress ≤ x ∧ x ≤ r.lastAddress := by
  simp [Region.holds]

/-- In a sorted list the region of an address is the only one that holds it. -/
lemma regionAt_eq_some {l : List Region} (h : Sorted l) {r : Region} {x : Unsigned64} :
    regionAt l x = some r ↔ r ∈ l ∧ r.holds x := by
  constructor
  · intro hfind
    exact ⟨List.mem_of_find?_eq_some hfind, List.find?_some (p := fun r : Region => r.holds x) hfind⟩
  · rintro ⟨hr, hx⟩
    obtain ⟨s, hs⟩ : ∃ s, regionAt l x = some s :=
      Option.isSome_iff_exists.mp (List.find?_isSome.mpr ⟨r, hr, hx⟩)
    have hsx : s.holds x := List.find?_some (p := fun r : Region => r.holds x) hs
    rw [holds_iff] at hx hsx
    rcases h.compare hr (List.mem_of_find?_eq_some hs) with rfl | hlt | hlt
    · exact hs
    · bv_omega
    · bv_omega

lemma regionAt_congr {l l' : List Region} (h : Sorted l) (h' : Sorted l') {x : Unsigned64}
    (hiff : ∀ r, r.holds x → (r ∈ l' ↔ r ∈ l)) : regionAt l' x = regionAt l x := by
  apply Option.ext
  intro r
  rw [regionAt_eq_some h, regionAt_eq_some h']
  constructor
  · rintro ⟨hr, hx⟩
    exact ⟨(hiff r hx).mp hr, hx⟩
  · rintro ⟨hr, hx⟩
    exact ⟨(hiff r hx).mpr hr, hx⟩

/-- What a reservation in `e` makes of the addresses. -/
structure Splits (l l' : List Region) (e reserved : Region) : Prop where
  current : ∀ x, e.holds x → regionAt l x = some e
  inside : ∀ x, reserved.holds x → regionAt l' x = some reserved
  below : ∀ x, e.holds x → x < reserved.firstAddress →
    regionAt l' x = some ⟨.empty, e.firstAddress, reserved.firstAddress - 1, e.name, e.allocatable⟩
  above : ∀ x, e.holds x → reserved.lastAddress < x →
    regionAt l' x = some { e with firstAddress := reserved.lastAddress + 1 }
  others : ∀ x, e.holds x = false → regionAt l' x = regionAt l x

section Splits

variable {pre post : List Region} {e reserved : Region}

lemma splits (h : Sorted (pre ++ e :: post)) (h₁ : e.firstAddress ≤ reserved.firstAddress)
    (h₂ : reserved.firstAddress ≤ reserved.lastAddress) (h₃ : reserved.lastAddress ≤ e.lastAddress) :
    Splits (pre ++ e :: post) (pre ++ (reservePieces e reserved ++ post)) e reserved := by
  have hpieces := pieces_reserve h₁ h₂ h₃
  have hsorted : Sorted (pre ++ (reservePieces e reserved ++ post)) := by
    apply h.replace hpieces.sorted
    · intro d hd c hc
      have := (hpieces.bounds d hd).1
      bv_omega
    · intro d hd c hc
      have := (hpieces.bounds d hd).2
      bv_omega
  have hmem : ∀ {r}, r ∈ reservePieces e reserved → r ∈ pre ++ (reservePieces e reserved ++ post) := by
    intro r hr
    simp only [List.mem_append]
    tauto
  refine ⟨?_, ?_, ?_, ?_, ?_⟩
  · intro x hx
    exact (regionAt_eq_some h).mpr ⟨by simp, hx⟩
  · intro x hx
    exact (regionAt_eq_some hsorted).mpr ⟨hmem (reserved_mem e reserved), hx⟩
  · intro x hx hlow
    rw [holds_iff] at hx
    have hne : e.firstAddress ≠ reserved.firstAddress := by bv_omega
    apply (regionAt_eq_some hsorted).mpr
    refine ⟨hmem (by simp [reservePieces, hne]), holds_iff.mpr ⟨hx.1, ?_⟩⟩
    simp only
    bv_omega
  · intro x hx hhigh
    rw [holds_iff] at hx
    have hne : e.lastAddress ≠ reserved.lastAddress := by bv_omega
    apply (regionAt_eq_some hsorted).mpr
    refine ⟨hmem (by simp [reservePieces, hne]), holds_iff.mpr ⟨?_, hx.2⟩⟩
    simp only
    bv_omega
  · intro x hx
    apply regionAt_congr h hsorted
    intro r hrx
    have hne : r ≠ e := by
      rintro rfl
      rw [hx] at hrx
      cases hrx
    have hpiece : r ∉ reservePieces e reserved := by
      intro hr
      have hbounds := hpieces.bounds r hr
      rw [holds_iff] at hrx
      have hex : e.holds x := holds_iff.mpr (by bv_omega)
      rw [hx] at hex
      cases hex
    simp [hne, hpiece]

end Splits

/-! ### Fixed allocation -/

section Fixed

variable {map map' : Map} {name : String} {first last : Unsigned64}

/-- The region that a fixed allocation is taken from. -/
lemma allocateFixed_splits (h : Sorted map.elems) (hlt : first < last)
    (hrun : allocateFixed map name first last = .ok map') :
    ∃ e ∈ map.elems, e.isOpen ∧ e.firstAddress ≤ first ∧ last ≤ e.lastAddress ∧
      Splits map.elems map'.elems e ⟨.fixed, first, last, name, false⟩ := by
  obtain ⟨pre, k, e, post, hnodes, hmap, hkind, h₁, h₃⟩ := allocateFixed_pieces hrun
  have helems := elems_of_nodes hnodes
  refine ⟨e, by rw [helems]; simp, by simpa [Region.isOpen] using hkind, h₁, h₃, ?_⟩
  rw [← hmap, reserve_pieces hnodes, helems]
  rw [helems] at h
  exact splits h h₁ (BitVec.le_of_lt hlt) h₃

/-- What a fixed allocation does; below the reserved addresses only the kind of a device region may change. -/
structure FixedExact (map : Map) (name : String) (first last : Unsigned64) : Prop where
  succeeds : (∃ map', (Call.allocateFixed name first last).call map = .ok map') ↔ Opens map.elems first last
  raises : ¬Opens map.elems first last → ∃ message,
    (Call.allocateFixed name first last).call map = .error (.raised (.invalidFixedAllocation message))
  inside : ∀ map', (Call.allocateFixed name first last).call map = .ok map' → ∀ x, first ≤ x → x ≤ last →
    regionAt map'.elems x = some ⟨.fixed, first, last, name, false⟩
  outside : ∀ map', (Call.allocateFixed name first last).call map = .ok map' → ∀ x, x < first ∨ last < x →
    nameAt map' x = nameAt map x ∧ allocatableAt map' x = allocatableAt map x ∧
      (kindAt map' x = kindAt map x ∨ x < first ∧ regionAt map.elems x = regionAt map.elems first ∧
        kindAt map x = some .device)

lemma fixedLoop_error {ns : List (Nat × Region)} {err : MapError} (h : fixedLoop name first last ns = .error err) :
    ∃ message, err = .invalidFixedAllocation message := by
  induction ns with
  | nil => cases h
  | cons n ns ih =>
    obtain ⟨k, e⟩ := n
    unfold fixedLoop at h
    split_ifs at h with habove
    · exact ⟨_, (Except.error.inj h).symm⟩
    · exact ih h

lemma allocateFixed_error {err : MapError} (h : allocateFixed map name first last = .error err) :
    ∃ message, err = .invalidFixedAllocation message := by
  unfold allocateFixed at h
  cases hloop : fixedLoop name first last map.nodes with
  | error err' =>
    obtain ⟨message, rfl⟩ := fixedLoop_error hloop
    rw [hloop] at h
    exact ⟨message, (Except.error.inj h).symm⟩
  | ok curr =>
    cases curr with
    | none =>
      rw [hloop] at h
      exact ⟨_, (Except.error.inj h).symm⟩
    | some curr =>
      rw [hloop] at h
      cases h

lemma Splits.attributes {l l' : List Region} {e reserved : Region} (h : Splits l l' e reserved)
    (he : e.isOpen) {x : Unsigned64} (hx : x < reserved.firstAddress ∨ reserved.lastAddress < x) :
    (regionAt l' x).map Region.name = (regionAt l x).map Region.name ∧
      (regionAt l' x).map Region.allocatable = (regionAt l x).map Region.allocatable ∧
      ((regionAt l' x).map Region.kind = (regionAt l x).map Region.kind ∨
        x < reserved.firstAddress ∧ regionAt l x = some e ∧ e.kind = .device) := by
  by_cases hex : e.holds x
  · rw [h.current x hex]
    rcases hx with hlow | hhigh
    · rw [h.below x hex hlow]
      refine ⟨rfl, rfl, ?_⟩
      simp only [Region.isOpen, decide_eq_true_eq] at he
      rcases he with hkind | hkind
      · exact Or.inl (by simp [hkind])
      · exact Or.inr ⟨hlow, rfl, hkind⟩
    · rw [h.above x hex hhigh]
      exact ⟨rfl, rfl, Or.inl rfl⟩
  · rw [h.others x (by simpa using hex)]
    exact ⟨rfl, rfl, Or.inl rfl⟩

theorem allocateFixed_exact (h : Sorted map.elems) (hlt : first < last) : FixedExact map name first last := by
  have hpre : (Call.allocateFixed name first last).Pre := hlt
  have hexists := allocateFixed_exists name h hlt
  constructor
  · rw [← hexists]
    constructor
    · rintro ⟨map', hcall⟩
      exact ⟨map', Call.run_of_ok hcall⟩
    · rintro ⟨map', hrun⟩
      exact ⟨map', Call.call_of_ok hpre hrun⟩
  · intro hclosed
    cases hrun : allocateFixed map name first last with
    | ok map' => exact absurd (hexists.mp ⟨map', hrun⟩) hclosed
    | error err =>
      obtain ⟨message, rfl⟩ := allocateFixed_error hrun
      exact ⟨message, Call.call_of_error hpre hrun⟩
  · intro map' hcall x hfirst hlast
    obtain ⟨e, -, -, -, -, hsplits⟩ := allocateFixed_splits h hlt (Call.run_of_ok hcall)
    exact hsplits.inside x (holds_iff.mpr ⟨hfirst, hlast⟩)
  · intro map' hcall x hx
    obtain ⟨e, -, hopen, hfirst, hlast, hsplits⟩ := allocateFixed_splits h hlt (Call.run_of_ok hcall)
    obtain ⟨hname, hallocatable, hkind⟩ := hsplits.attributes hopen hx
    refine ⟨hname, hallocatable, hkind.imp_right ?_⟩
    rintro ⟨hlow, hregion, hdevice⟩
    refine ⟨hlow, ?_, by rw [kindAt, hregion, Option.map_some, hdevice]⟩
    rw [hregion, hsplits.current first (holds_iff.mpr (by bv_omega))]

/-- A device region of three pages. -/
def deviceMap : Map := runCalls CursorList.empty [.insertDeviceRegion "vga" 0x1000 0x3fff]

lemma deviceMap_sorted : Sorted deviceMap.elems := by
  have helems : deviceMap.elems = [⟨.device, 0x1000, 0x3fff, "vga", false⟩] := rfl
  rw [helems]
  exact ordered_cons.mpr ⟨by decide, by simp, ordered_nil⟩

theorem allocateFixed_exact_device : FixedExact deviceMap "mmio" 0x2000 0x2fff :=
  allocateFixed_exact deviceMap_sorted (by decide)

/-- A single address is refused, and the addresses below a fixed region lose the kind of the device. -/
theorem allocateFixed_not_local :
    Sorted deviceMap.elems ∧ (Opens deviceMap.elems 0x2000 0x2000 ∧
      (Call.allocateFixed "byte" 0x2000 0x2000).call deviceMap = .error .assertionError) ∧
    ∃ map', (Call.allocateFixed "mmio" 0x2000 0x2fff).call deviceMap = .ok map' ∧
      kindAt deviceMap 0x1000 = some .device ∧ kindAt map' 0x1000 = some .empty := by
  refine ⟨deviceMap_sorted, ⟨⟨⟨.device, 0x1000, 0x3fff, "vga", false⟩, ?_, rfl, by decide, by decide⟩, rfl⟩, _, rfl, rfl, rfl⟩
  have helems : deviceMap.elems = [⟨.device, 0x1000, 0x3fff, "vga", false⟩] := rfl
  rw [helems]
  exact List.mem_singleton_self _

end Fixed

/-! ### Variable allocation -/

/-- The region contains a block of `size` bytes at a multiple of the alignment. -/
def Region.Fits (size alignment : Unsigned64) (e : Region) : Prop :=
  e.isFree ∧ ∃ m : ℕ, alignment.toNat ∣ m ∧ e.firstAddress.toNat ≤ m ∧ m + size.toNat ≤ e.lastAddress.toNat + 1

/-- The allocation of the first block in the lowest region that contains one. -/
structure FirstFit (map : Map) (name : String) (size alignment : Unsigned64) : Prop where
  allocates : ∀ e ∈ map.elems, e.Fits size alignment →
    (∀ r ∈ map.elems, r.Fits size alignment → e.firstAddress ≤ r.firstAddress) →
    ∃ map' address, (Call.allocateVariable name size alignment).call map = .ok map' ∧
      IsLeast {m : ℕ | alignment.toNat ∣ m ∧ e.firstAddress.toNat ≤ m} address.toNat ∧
      address.toNat + size.toNat ≤ e.lastAddress.toNat + 1 ∧
      (∀ x : Unsigned64, address.toNat ≤ x.toNat → x.toNat < address.toNat + size.toNat →
        regionAt map'.elems x = some ⟨.allocated, address, address + size - 1, name, false⟩) ∧
      ∀ x : Unsigned64, x.toNat < address.toNat ∨ address.toNat + size.toNat ≤ x.toNat →
        kindAt map' x = kindAt map x ∧ allocatableAt map' x = allocatableAt map x
  raises : (∀ e ∈ map.elems, ¬e.Fits size alignment) →
    ∃ message, (Call.allocateVariable name size alignment).call map = .error (.raised (.outOfMemory message))

section Variable

variable {map map' : Map} {name : String} {size alignment : Unsigned64} {e : Region}

lemma alignedFirst_isLeast (ha : 0 < alignment) :
    IsLeast {m : ℕ | alignment.toNat ∣ m ∧ e.firstAddress.toNat ≤ m} (alignedFirst alignment e) := by
  have hpos : 0 < alignment.toNat := by bv_omega
  refine ⟨⟨Nat.dvd_mul_left _ _, le_alignedFirst ha⟩, ?_⟩
  rintro m ⟨⟨k, rfl⟩, hm⟩
  unfold alignedFirst
  rw [Nat.mul_comm]
  apply Nat.mul_le_mul_left
  have hlt : e.firstAddress.toNat + alignment.toNat - 1 < (k + 1) * alignment.toNat := by
    rw [Nat.add_mul, Nat.mul_comm k]
    omega
  have hdiv := (Nat.div_lt_iff_lt_mul hpos).mpr hlt
  omega

lemma fits_iff (ha : 0 < alignment) :
    e.Fits size alignment ↔ e.isFree ∧ alignedFirst alignment e + size.toNat ≤ e.lastAddress.toNat + 1 := by
  have hleast := alignedFirst_isLeast (e := e) ha
  constructor
  · rintro ⟨hfree, m, hdvd, hm, hend⟩
    have := hleast.2 ⟨hdvd, hm⟩
    exact ⟨hfree, by omega⟩
  · rintro ⟨hfree, hend⟩
    exact ⟨hfree, _, hleast.1.1, hleast.1.2, hend⟩

/-- An alignment that leads past the end of the address space rounds to its start. -/
lemma firstMultiple_wrap (h : 2 ^ 64 < e.firstAddress.toNat + alignment.toNat) : firstMultiple alignment e = 0 := by
  have hlt : (e.firstAddress + alignment - 1).toNat < alignment.toNat := by bv_omega
  apply BitVec.eq_of_toNat_eq
  rw [firstMultiple, BitVec.toNat_mul, BitVec.toNat_udiv, Nat.div_eq_of_lt hlt]
  simp

/-- The test of the code admits every region that contains a block. -/
lemma Region.Fits.variableFits (h : e.Fits size alignment) (hs : 0 < size) (ha : 0 < alignment) :
    AllocMap.variableFits size alignment e := by
  obtain ⟨hfree, hend⟩ := (fits_iff ha).mp h
  have hle := le_alignedFirst (e := e) ha
  simp only [Region.isFree, decide_eq_true_eq] at hfree
  simp only [AllocMap.variableFits, decide_eq_true_eq]
  refine ⟨hfree.2, hfree.1, ?_⟩
  by_cases hwrap : e.firstAddress.toNat + alignment.toNat ≤ 2 ^ 64
  · have hmult := firstMultiple_toNat ha hwrap
    bv_omega
  · rw [firstMultiple_wrap (by omega)]
    bv_omega

lemma fits_of_variableFits (ha : 0 < alignment) (h : variableFits size alignment e)
    (hwrap : e.firstAddress.toNat + alignment.toNat ≤ 2 ^ 64)
    (hroom : alignedFirst alignment e + size.toNat ≤ 2 ^ 64) : e.Fits size alignment := by
  obtain ⟨hfree, hend⟩ := isFree_of_variableFits h
  have hmult := firstMultiple_toNat ha hwrap
  exact (fits_iff ha).mpr ⟨hfree, by bv_omega⟩

/-- The code takes a region that is not above any that contains a block. -/
lemma find?_le (hsorted : Sorted map.elems) (hs : 0 < size) (ha : 0 < alignment)
    (hfind : map.elems.find? (variableFits size alignment) = some e) {r : Region} (hr : r ∈ map.elems)
    (hfits : r.Fits size alignment) : r = e ∨ e.lastAddress < r.firstAddress :=
  find?_first hsorted hfind hr (hfits.variableFits hs ha)

lemma allocateVariable_of_find? (name : String) (hfind : map.elems.find? (variableFits size alignment) = some e) :
    ∃ pre post, map.elems = pre ++ e :: post ∧ ∃ map', allocateVariable map name size alignment = .ok map' ∧
      map'.elems = pre ++ (reservePieces e
        ⟨.allocated, firstMultiple alignment e, firstMultiple alignment e + size - 1, name, false⟩ ++ post) := by
  obtain ⟨map', hrun⟩ := allocateVariable_exists name hfind
  have hrun' := hrun
  unfold allocateVariable at hrun'
  cases hloop : variableLoop size alignment map.nodes with
  | none =>
    rw [hloop] at hrun'
    cases hrun'
  | some curr =>
    obtain ⟨k, e'⟩ := curr
    obtain ⟨⟨pre, post, hnodes⟩, -, hfind'⟩ := variableLoop_some hloop
    obtain rfl : e = e' := Option.some.inj (hfind.symm.trans hfind')
    rw [hloop] at hrun'
    refine ⟨pre.map Prod.snd, post.map Prod.snd, elems_of_nodes hnodes, map', hrun, ?_⟩
    rw [← Except.ok.inj hrun', reserve_pieces hnodes]

lemma allocateVariable_none (name : String) (hfind : map.elems.find? (variableFits size alignment) = none) :
    ∃ message, allocateVariable map name size alignment = .error (.outOfMemory message) := by
  unfold allocateVariable
  cases hloop : variableLoop size alignment map.nodes with
  | none => exact ⟨_, rfl⟩
  | some curr =>
    obtain ⟨-, -, hfind'⟩ := variableLoop_some (k := curr.1) (e := curr.2) hloop
    cases hfind.symm.trans hfind'

lemma firstFit_of_fits (hsorted : Sorted map.elems) (hs : 0 < size) (ha : 0 < alignment)
    (h : (Call.allocateVariable name size alignment).Fits map) : FirstFit map name size alignment := by
  have hpre : (Call.allocateVariable name size alignment).Pre := ⟨hs, ha⟩
  cases hfind : map.elems.find? (variableFits size alignment) with
  | none =>
    have hnone : ∀ e ∈ map.elems, ¬e.Fits size alignment := by
      intro e he hfits
      exact List.find?_eq_none.mp hfind e he (hfits.variableFits hs ha)
    refine ⟨fun e he hfits => absurd hfits (hnone e he), fun _ => ?_⟩
    obtain ⟨message, hrun⟩ := allocateVariable_none name hfind
    exact ⟨message, Call.call_of_error hpre hrun⟩
  | some e =>
    obtain ⟨hwrap, hroom⟩ := h e hfind
    have htest : variableFits size alignment e := List.find?_some hfind
    have hfits := fits_of_variableFits ha htest hwrap hroom
    have hmem := List.mem_of_find?_eq_some hfind
    have hmult := firstMultiple_toNat ha hwrap
    have hle := le_alignedFirst (e := e) ha
    obtain ⟨hfree, hend⟩ := (fits_iff ha).mp hfits
    refine ⟨?_, fun hnone => absurd hfits (hnone e hmem)⟩
    intro e' he' hfits' hlowest
    obtain rfl : e' = e := by
      rcases find?_le hsorted hs ha hfind he' hfits' with heq | hlt
      · exact heq
      · have hfirst := hlowest e hmem hfits
        have hrange := hsorted.1 e hmem
        bv_omega
    obtain ⟨pre, post, helems, map', hrun, helems'⟩ := allocateVariable_of_find? name hfind
    have hsplits := @splits pre post e'
      ⟨.allocated, firstMultiple alignment e', firstMultiple alignment e' + size - 1, name, false⟩
      (helems ▸ hsorted) (by simp only; bv_omega) (by simp only; bv_omega) (by simp only; bv_omega)
    rw [← helems, ← helems'] at hsplits
    refine ⟨map', firstMultiple alignment e', Call.call_of_ok hpre hrun, ?_, by omega, ?_, ?_⟩
    · rw [hmult]
      exact alignedFirst_isLeast ha
    · intro x hfirst hlast
      exact hsplits.inside x (holds_iff.mpr (by simp only; bv_omega))
    · intro x hx
      have hopen : e'.isOpen := by
        simp only [Region.isFree, Region.isOpen, decide_eq_true_eq] at hfree ⊢
        exact Or.inl hfree.1
      obtain ⟨-, hallocatable, hkind⟩ := hsplits.attributes hopen (x := x) (by simp only; bv_omega)
      refine ⟨hkind.resolve_right ?_, hallocatable⟩
      rintro ⟨-, -, hdevice⟩
      simp [Region.isFree, hdevice] at hfree

/-- An allocated region of the new map that was not there before starts at the computed multiple. -/
lemma allocated_eq {pre post : List Region} {first last : Unsigned64} (he : e.kind = .empty) {r : Region}
    (hkind : r.kind = .allocated) (hnew : r ∉ pre ++ e :: post)
    (hr : r ∈ pre ++ (reservePieces e ⟨.allocated, first, last, name, false⟩ ++ post)) : r.firstAddress = first := by
  have hpiece : r ∈ reservePieces e ⟨.allocated, first, last, name, false⟩ := by
    simp only [List.mem_append, List.mem_cons, not_or] at hr hnew
    tauto
  rcases mem_reservePieces hpiece with ⟨-, rfl⟩ | rfl | ⟨-, rfl⟩
  · cases hkind
  · rfl
  · cases he.symm.trans hkind

lemma exists_lowest (hsorted : Sorted map.elems) (h : ∃ e ∈ map.elems, e.Fits size alignment) :
    ∃ e ∈ map.elems, e.Fits size alignment ∧
      ∀ r ∈ map.elems, r.Fits size alignment → e.firstAddress ≤ r.firstAddress := by
  classical
  obtain ⟨e, he⟩ : ∃ e, map.elems.find? (fun e => e.Fits size alignment) = some e := by
    obtain ⟨e, he, hfits⟩ := h
    exact Option.isSome_iff_exists.mp (List.find?_isSome.mpr ⟨e, he, by simpa using hfits⟩)
  have hmem := List.mem_of_find?_eq_some he
  refine ⟨e, hmem, by simpa using List.find?_some he, ?_⟩
  intro r hr hfits
  rcases find?_first hsorted he hr (by simpa using hfits) with rfl | hlt
  · exact BitVec.le_refl _
  · have hrange := hsorted.1 e hmem
    bv_omega

lemma fits_of_firstFit (hsorted : Sorted map.elems) (hs : 0 < size) (ha : 0 < alignment)
    (h : FirstFit map name size alignment) : (Call.allocateVariable name size alignment).Fits map := by
  intro e hfind
  have hpre : (Call.allocateVariable name size alignment).Pre := ⟨hs, ha⟩
  obtain ⟨pre, post, helems, map', hrun, helems'⟩ := allocateVariable_of_find? name hfind
  have hcall := Call.call_of_ok hpre hrun
  have htest : variableFits size alignment e := List.find?_some hfind
  have hempty : e.kind = .empty := by
    have hfree := (isFree_of_variableFits htest).1
    simp only [Region.isFree, decide_eq_true_eq] at hfree
    exact hfree.1
  obtain ⟨e', he', hfits', hlowest⟩ : ∃ e ∈ map.elems, e.Fits size alignment ∧
      ∀ r ∈ map.elems, r.Fits size alignment → e.firstAddress ≤ r.firstAddress := by
    apply exists_lowest hsorted
    by_contra hnone
    obtain ⟨message, hraised⟩ := h.raises (fun r hr hfits => hnone ⟨r, hr, hfits⟩)
    cases hcall.symm.trans hraised
  obtain ⟨map'', address, hcall', hleast, hend, hinside, -⟩ := h.allocates e' he' hfits' hlowest
  obtain rfl : map' = map'' := Except.ok.inj (hcall.symm.trans hcall')
  have haddress : address.toNat = alignedFirst alignment e' := hleast.unique (alignedFirst_isLeast ha)
  have hle := le_alignedFirst (e := e') ha
  have hregion := hinside address le_rfl (by bv_omega)
  have hmem : (⟨.allocated, address, address + size - 1, name, false⟩ : Region) ∈ map'.elems :=
    List.mem_of_find?_eq_some hregion
  -- The block lies in a free region of the old map, so that it is no region of it.
  have hnew : (⟨.allocated, address, address + size - 1, name, false⟩ : Region) ∉ map.elems := by
    intro hold
    have hhold : e'.holds address := holds_iff.mpr (by bv_omega)
    have hholds : Region.holds ⟨.allocated, address, address + size - 1, name, false⟩ address :=
      holds_iff.mpr ⟨BitVec.le_refl _, by simp only; bv_omega⟩
    have hsame := ((regionAt_eq_some hsorted).mpr ⟨he', hhold⟩).symm.trans
      ((regionAt_eq_some hsorted).mpr ⟨hold, hholds⟩)
    have hfree := hfits'.1
    rw [Option.some.inj hsame] at hfree
    cases hfree
  rw [helems'] at hmem
  rw [helems] at hnew
  have hfirst : address = firstMultiple alignment e := allocated_eq hempty rfl hnew hmem
  have hnotBelow := find?_le hsorted hs ha hfind he' hfits'
  have hrange := hsorted.1 e (List.mem_of_find?_eq_some hfind)
  have hwrap : e.firstAddress.toNat + alignment.toNat ≤ 2 ^ 64 := by
    by_contra hwrap
    have hzero : firstMultiple alignment e = 0 := firstMultiple_wrap (by omega)
    rw [hzero] at hfirst
    rcases hnotBelow with rfl | hlt
    · bv_omega
    · bv_omega
  refine ⟨hwrap, ?_⟩
  have hmult := firstMultiple_toNat ha hwrap
  rw [← hmult, ← hfirst]
  bv_omega

/-- The allocation is the first fit exactly if the bounds of the block are computed without a wrap-around. -/
theorem allocateVariable_firstFit (hsorted : Sorted map.elems) (hpre : 0 < size ∧ 0 < alignment) :
    FirstFit map name size alignment ↔ (Call.allocateVariable name size alignment).Fits map :=
  ⟨fits_of_firstFit hsorted hpre.1 hpre.2, firstFit_of_fits hsorted hpre.1 hpre.2⟩

def pageMap : Map := runCalls CursorList.empty [.insertEmptyRegion "page" true 0x1000 0x1fff]

lemma pageMap_sorted : Sorted pageMap.elems := by
  have helems : pageMap.elems = [⟨.empty, 0x1000, 0x1fff, "page", true⟩] := rfl
  rw [helems]
  exact ordered_cons.mpr ⟨by decide, by simp, ordered_nil⟩

theorem allocateVariable_firstFit_page : FirstFit pageMap "stack" 0x800 0x400 := by
  apply (allocateVariable_firstFit pageMap_sorted (by decide)).mpr
  intro e he
  have hfind : pageMap.elems.find? (variableFits 0x800 0x400) = some ⟨.empty, 0x1000, 0x1fff, "page", true⟩ := rfl
  rw [hfind, Option.some.injEq] at he
  subst he
  decide

/-- A size whose last address wraps around is allocated although no region contains a block of it. -/
theorem allocateVariable_not_firstFit :
    Sorted pageMap.elems ∧ ¬FirstFit pageMap "huge" 0xffff_ffff_ffff_f800 1 := by
  refine ⟨pageMap_sorted, ?_⟩
  intro h
  have helems : pageMap.elems = [⟨.empty, 0x1000, 0x1fff, "page", true⟩] := rfl
  obtain ⟨message, hraised⟩ := h.raises (by
    intro e he
    rw [helems, List.mem_singleton] at he
    subst he
    rintro ⟨-, m, -, -, hend⟩
    have hsize : (0xffff_ffff_ffff_f800 : Unsigned64).toNat = 0xffff_ffff_ffff_f800 := rfl
    have hlast : (0x1fff : Unsigned64).toNat = 0x1fff := rfl
    simp only [hsize, hlast] at hend
    omega)
  have hcall : (Call.allocateVariable "huge" 0xffff_ffff_ffff_f800 1).call pageMap =
      .ok (reserve pageMap .allocated (0, ⟨.empty, 0x1000, 0x1fff, "page", true⟩) "huge" 0x1000 0x7ff) := rfl
  cases hcall.symm.trans hraised

end Variable

end Muen.Tools.AllocMap
