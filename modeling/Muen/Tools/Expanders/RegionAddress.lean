import Muen.Tools.Expanders.FreeToMap
import Muen.Tools.AllocMapAddresses
import Muen.Tools.Mucfgalloc.FixedMap

/-!
# Expanders.XML_Utils: the address of a new region

`Calculate_Region_Address` enters the mappings of a subject into a memory map and allocates a region of the given size
in it. The last address of the map is the size of the address space, and the region may start at any address; for
mappings of whole pages both make no difference.
-/

namespace Muen.Tools.Expanders.XmlUtils
open Lib AllocMap
open Mucfgcheck (InSpace Share)

inductive RegionError
  | constraintError
  | alloc (e : CallError)
  | noRegion (message : String)
deriving DecidableEq

/-- A mapping with the size of its physical memory. -/
structure Mapping where
  logical : String
  address : Unsigned64
  size : Unsigned64

def LogicalMemory.mapping (physMem : List PhysicalMemory) (m : LogicalMemory) : Option Mapping := do
  let address ← m.virtualAddress
  let size ← memorySize physMem m.physical
  return ⟨m.logical, address, size⟩

def LogicalDeviceMemory.mapping (physDevs : List PhysicalDevice) (m : LogicalDeviceMemory) : Option Mapping := do
  let size ← deviceMemorySize physDevs m.device m.physical
  return ⟨m.logical, m.virtualAddress, size⟩

def call (map : Map) (c : Call) : Except RegionError Map :=
  match c.call map with
  | .ok map => .ok map
  | .error e => .error (.alloc e)

/-- The allocation of a mapping, whose values raise if they are missing. -/
def allocateMapping (map : Map) : Option Mapping → Except RegionError Map
  | none => .error .constraintError
  | some m => call map (.allocateFixed m.logical m.address (m.address + m.size - 1))

def getRegion (map : Map) (name : String) : Except RegionError Region :=
  match map.elems.find? (fun r => r.name = name) with
  | some r => .ok r
  | none => .error (.noRegion ("Unable to find region with name '" ++ name ++ "'"))

def calculateRegionAddress (physMem : List PhysicalMemory) (physDevs : List PhysicalDevice)
    (fixedMemory : List LogicalMemory) (deviceMemory : List LogicalDeviceMemory)
    (addressSpaceSize regionSize : Unsigned64) : Except RegionError Unsigned64 := do
  let map ← call CursorList.empty (.insertEmptyRegion "Mem" true 0 addressSpaceSize)
  let map ← fixedMemory.foldlM (fun map m => allocateMapping map (m.mapping physMem)) map
  let map ← deviceMemory.foldlM (fun map m => allocateMapping map (m.mapping physDevs)) map
  let map ← call map (.allocateVariable "New_Region" regionSize 1)
  let r ← getRegion map "New_Region"
  return r.firstAddress

/-- The mappings in the order of their allocation. -/
def mappings (physMem : List PhysicalMemory) (physDevs : List PhysicalDevice) (fixedMemory : List LogicalMemory)
    (deviceMemory : List LogicalDeviceMemory) : List (Option Mapping) :=
  fixedMemory.map (LogicalMemory.mapping physMem) ++ deviceMemory.map (LogicalDeviceMemory.mapping physDevs)

def Mapping.region (m : Mapping) : Region := ⟨.fixed, m.address, m.address + m.size - 1, m.logical, false⟩

/-! ### The calls -/

lemma call_eq_ok {map map' : Map} {c : Call} : call map c = .ok map' ↔ c.Pre ∧ c.run map = .ok map' := by
  unfold call Call.call
  by_cases hpre : c.Pre
  · rw [if_pos hpre]
    cases hrun : c.run map <;> simp [hpre]
  · rw [if_neg hpre]
    simp [hpre]

lemma allocateMapping_eq_ok {map map' : Map} {m : Mapping} :
    allocateMapping map (some m) = .ok map' ↔ Mucfgalloc.fix map m.region = .ok map' :=
  call_eq_ok.trans Mucfgalloc.checked_eq_ok.symm

lemma foldlM_allocateMapping {l : List (Option Mapping)} {map map' : Map} :
    l.foldlM allocateMapping map = .ok map' ↔
      ∃ ms : List Mapping, l = ms.map some ∧ (ms.map Mapping.region).foldlM Mucfgalloc.fix map = .ok map' := by
  induction l generalizing map with
  | nil =>
    constructor
    · exact fun h => ⟨[], rfl, congrArg Except.ok (Except.ok.inj h)⟩
    · rintro ⟨ms, hms, h⟩
      obtain rfl := List.map_eq_nil_iff.mp hms.symm
      exact congrArg Except.ok (Except.ok.inj h)
  | cons m l ih =>
    rw [List.foldlM_cons]
    constructor
    · intro h
      obtain ⟨map₁, hm, hl⟩ := bind_eq_ok h
      obtain ⟨ms, rfl, hms⟩ := ih.mp hl
      cases m with
      | none => cases hm
      | some m =>
        refine ⟨m :: ms, rfl, ?_⟩
        rw [List.map_cons, List.foldlM_cons, allocateMapping_eq_ok.mp hm]
        exact hms
    · rintro ⟨ms, hms, h⟩
      cases ms with
      | nil => cases hms
      | cons m' ms =>
        obtain ⟨rfl, rfl⟩ := List.cons.inj hms
        rw [List.map_cons, List.foldlM_cons] at h
        obtain ⟨map₁, hm, hl⟩ := bind_eq_ok h
        rw [allocateMapping_eq_ok.mpr hm]
        exact ih.mpr ⟨ms, rfl, hl⟩

/-- The only region before the mappings are allocated. -/
def memRegion (addressSpaceSize : Unsigned64) : Region := ⟨.empty, 0, addressSpaceSize, "Mem", true⟩

lemma insertMem (addressSpaceSize : Unsigned64) :
    ∃ map, (Call.insertEmptyRegion "Mem" true 0 addressSpaceSize).run CursorList.empty = .ok map ∧
      map.elems = [memRegion addressSpaceSize] := ⟨_, rfl, rfl⟩

section Address

variable {physMem : List PhysicalMemory} {physDevs : List PhysicalDevice} {fixedMemory : List LogicalMemory}
  {deviceMemory : List LogicalDeviceMemory} {addressSpaceSize regionSize address : Unsigned64}

/-- The steps of a calculation that returns an address. -/
lemma calculateRegionAddress_eq_ok {map₀ : Map}
    (hmap₀ : (Call.insertEmptyRegion "Mem" true 0 addressSpaceSize).run CursorList.empty = .ok map₀) :
    calculateRegionAddress physMem physDevs fixedMemory deviceMemory addressSpaceSize regionSize = .ok address ↔
      0 < addressSpaceSize ∧ 0 < regionSize ∧ ∃ (ms : List Mapping) (map map' : Map) (r : Region),
        mappings physMem physDevs fixedMemory deviceMemory = ms.map some ∧
        (ms.map Mapping.region).foldlM Mucfgalloc.fix map₀ = .ok map ∧
        allocateVariable map "New_Region" regionSize 1 = .ok map' ∧
        map'.elems.find? (fun r => r.name = "New_Region") = some r ∧ r.firstAddress = address := by
  have hfold : ∀ map, (fixedMemory.foldlM (fun map m => allocateMapping map (m.mapping physMem)) map >>= fun map =>
      deviceMemory.foldlM (fun map m => allocateMapping map (m.mapping physDevs)) map) =
      (mappings physMem physDevs fixedMemory deviceMemory).foldlM allocateMapping map := by
    intro map
    rw [mappings, List.foldlM_append, List.foldlM_map]
    congr 1
    funext map
    rw [List.foldlM_map]
  have hrun : calculateRegionAddress physMem physDevs fixedMemory deviceMemory addressSpaceSize regionSize = (do
      let map ← call CursorList.empty (.insertEmptyRegion "Mem" true 0 addressSpaceSize)
      let map ← (mappings physMem physDevs fixedMemory deviceMemory).foldlM allocateMapping map
      let map ← call map (.allocateVariable "New_Region" regionSize 1)
      let r ← getRegion map "New_Region"
      return r.firstAddress) := by
    unfold calculateRegionAddress
    congr 1
    funext map
    rw [← hfold, bind_assoc]
  rw [hrun]
  constructor
  · intro h
    obtain ⟨map₁, hinsert, h⟩ := bind_eq_ok h
    obtain ⟨hspace, hinsert⟩ := call_eq_ok.mp hinsert
    obtain rfl := Except.ok.inj (hinsert.symm.trans hmap₀)
    obtain ⟨map, hfold, h⟩ := bind_eq_ok h
    obtain ⟨ms, hms, hfix⟩ := foldlM_allocateMapping.mp hfold
    obtain ⟨map', hvariable, h⟩ := bind_eq_ok h
    obtain ⟨hsize, hvariable⟩ := call_eq_ok.mp hvariable
    obtain ⟨r, hr, h⟩ := bind_eq_ok h
    unfold getRegion at hr
    cases hfind : map'.elems.find? (fun r => r.name = "New_Region") with
    | none =>
      rw [hfind] at hr
      cases hr
    | some r' =>
      rw [hfind] at hr
      obtain rfl := Except.ok.inj hr
      exact ⟨hspace, hsize.1, ms, map, map', r', hms, hfix, hvariable, hfind, Except.ok.inj h⟩
  · rintro ⟨hspace, hsize, ms, map, map', r, hms, hfix, hvariable, hfind, haddress⟩
    have hinsert : call CursorList.empty (.insertEmptyRegion "Mem" true 0 addressSpaceSize) = .ok map₀ :=
      call_eq_ok.mpr ⟨hspace, hmap₀⟩
    have hallocate : call map (.allocateVariable "New_Region" regionSize 1) = .ok map' :=
      call_eq_ok.mpr ⟨⟨hsize, by decide⟩, hvariable⟩
    rw [hinsert, ok_bind, foldlM_allocateMapping.mpr ⟨ms, hms, hfix⟩, ok_bind, hallocate, ok_bind]
    unfold getRegion
    rw [hfind, ← haddress]
    rfl

/-! ### Whole pages -/

/-- A region that is not the new one and starts at a page. -/
def Regular (r : Region) : Prop := r.name ≠ "New_Region" ∧ 4096 ∣ r.firstAddress.toNat

lemma firstMultiple_one (e : Region) : firstMultiple 1 e = e.firstAddress := by
  unfold firstMultiple
  rw [BitVec.add_sub_cancel]
  change e.firstAddress / 1#64 * 1#64 = e.firstAddress
  rw [BitVec.udiv_one, BitVec.mul_one]

/-- Fixed regions of whole pages leave regions that start at pages. -/
lemma fix_regular {map map' : Map} {n : Region} (hmap : ∀ r ∈ map.elems, Regular r) (hn : Regular n)
    (hlast : 4096 ∣ (n.lastAddress + 1).toNat) (h : Mucfgalloc.fix map n = .ok map') :
    ∀ r ∈ map'.elems, Regular r := by
  obtain ⟨-, hrun⟩ := Mucfgalloc.checked_eq_ok.mp h
  obtain ⟨pre, k, e, post, hnodes, hreserve, -⟩ := allocateFixed_pieces hrun
  have helems := elems_of_nodes hnodes
  rw [helems] at hmap
  intro r hr
  rw [← hreserve, reserve_pieces hnodes] at hr
  have he : Regular e := hmap e (List.mem_append_right _ List.mem_cons_self)
  rcases List.mem_append.mp hr with hr | hr
  · exact hmap r (List.mem_append_left _ hr)
  · rcases List.mem_append.mp hr with hr | hr
    · rcases mem_reservePieces hr with ⟨-, rfl⟩ | rfl | ⟨-, rfl⟩
      · exact he
      · exact hn
      · exact ⟨he.1, hlast⟩
    · exact hmap r (List.mem_append_right _ (List.mem_cons_of_mem e hr))

lemma fold_regular {map₀ map : Map} {l : List Region} (hmap₀ : ∀ r ∈ map₀.elems, Regular r)
    (hl : ∀ n ∈ l, Regular n ∧ 4096 ∣ (n.lastAddress + 1).toNat) (h : l.foldlM Mucfgalloc.fix map₀ = .ok map) :
    ∀ r ∈ map.elems, Regular r := by
  refine foldlM_ok (fun (map : Map) done => (∀ n ∈ done, Regular n ∧ 4096 ∣ (n.lastAddress + 1).toNat) →
    ∀ r ∈ map.elems, Regular r) (fun _ => hmap₀) ?_ h hl
  intro done n map map' hregular hfix hdone
  rw [List.forall_mem_append] at hdone
  obtain ⟨hn, hlast⟩ := hdone.2 n (List.mem_singleton_self n)
  exact fix_regular (hregular hdone.1) hn hlast hfix

/-- The new region is found by its name. -/
lemma find?_newRegion {pre post : List Region} {e : Region} (h : ∀ r ∈ pre ++ e :: post, Regular r) (last : Unsigned64) :
    (pre ++ (reservePieces e ⟨.allocated, e.firstAddress, last, "New_Region", false⟩ ++ post)).find?
      (fun r => r.name = "New_Region") = some ⟨.allocated, e.firstAddress, last, "New_Region", false⟩ := by
  have hpre : pre.find? (fun r => r.name = "New_Region") = none := by
    rw [List.find?_eq_none]
    intro r hr
    simpa using (h r (List.mem_append_left _ hr)).1
  rw [List.find?_append, hpre, Option.none_or]
  unfold reservePieces
  rw [if_pos rfl, List.nil_append, List.cons_append]
  exact List.find?_cons_of_pos (by simp)

/-- The addresses of a mapping that passes the check of its bounds. -/
lemma Mapping.mem_region {m : Mapping} (h : m.region.firstAddress < m.region.lastAddress) {x : Nat}
    (hx : m.address.toNat ≤ x ∧ x < m.address.toNat + m.size.toNat) :
    x < 2 ^ 64 ∧ BitVec.ofNat 64 x ∈ m.region.toSet := by
  have hspace : InSpace m.address m.size := by
    refine ⟨by omega, ?_⟩
    simp only [region, BitVec.lt_def, BitVec.toNat_sub, BitVec.toNat_add] at h
    have hone : (1 : Unsigned64).toNat = 1 := rfl
    rw [hone] at h
    have hlt := m.address.isLt
    have hlt' := m.size.isLt
    omega
  have hlast := last_toNat hspace
  have hend := hspace.2
  refine ⟨by omega, ?_⟩
  simp only [Region.toSet, Set.mem_ofPred_eq, BitVec.le_def, BitVec.toNat_ofNat, region, hlast]
  rw [Nat.mod_eq_of_lt (by omega)]
  omega

/-- A mapping of whole pages. -/
def Mapping.Pages (m : Mapping) : Prop := 4096 ∣ m.address.toNat ∧ 4096 ∣ m.size.toNat

lemma Mapping.Pages.region {m : Mapping} (h : m.Pages) (hname : m.logical ≠ "New_Region") :
    Regular m.region ∧ 4096 ∣ (m.region.lastAddress + 1).toNat := by
  obtain ⟨haddress, hsize⟩ := h
  refine ⟨⟨hname, haddress⟩, ?_⟩
  simp only [Mapping.region, BitVec.sub_add_cancel, BitVec.toNat_add]
  omega

lemma memRegion_tidy (addressSpaceSize : Unsigned64) : Tidy [memRegion addressSpaceSize] := by
  refine ⟨ordered_cons.mpr ⟨Nat.zero_le _, nofun, ordered_nil⟩, ?_, ?_⟩
  · intro r hr s hs _ _
    rw [List.mem_singleton.mp hr, List.mem_singleton.mp hs]
    exact Nat.succ_ne_zero _
  · intro r hr hdevice
    rw [List.mem_singleton.mp hr] at hdevice
    cases hdevice

lemma mem_free_memRegion {x : Unsigned64} : x ∈ free [memRegion addressSpaceSize] ↔ x ≤ addressSpaceSize := by
  rw [mem_free]
  constructor
  · rintro ⟨r, hr, -, -, hx⟩
    rw [List.mem_singleton.mp hr] at hx
    exact hx
  · intro hx
    exact ⟨_, List.mem_singleton_self _, rfl, Nat.zero_le _, hx⟩

lemma isFixed_of_mem {ms : List Mapping} : ∀ n ∈ ms.map Mapping.region, Mucfgalloc.IsFixed n := by
  intro n hn
  obtain ⟨m, -, rfl⟩ := List.mem_map.mp hn
  exact ⟨rfl, rfl⟩

/-- An address is free behind the mappings if it is in the space and in none of them. -/
lemma mem_free_mappings {map₀ map : Map} {ms : List Mapping} (hmap₀ : map₀.elems = [memRegion addressSpaceSize])
    (h : (ms.map Mapping.region).foldlM Mucfgalloc.fix map₀ = .ok map) {x : Unsigned64} :
    Tidy map.elems ∧ (x ∈ free map.elems ↔ x ≤ addressSpaceSize ∧ ∀ m ∈ ms, x ∉ m.region.toSet) := by
  have htidy : Tidy map₀.elems := by
    rw [hmap₀]
    exact memRegion_tidy addressSpaceSize
  have hfixed := Mucfgalloc.fixed_fold htidy isFixed_of_mem h
  refine ⟨hfixed.tidy, ?_⟩
  rw [hfixed.free, Set.mem_sdiff, hmap₀, mem_free_memRegion]
  simp only [covered, Set.mem_ofPred_eq, List.mem_map, exists_exists_and_eq_and, not_exists, not_and]

lemma share_addresses {m : Mapping} {x : Nat} (hx : x < 2 ^ 64) (hmem : BitVec.ofNat 64 x ∈ m.region.toSet)
    (hspace : InSpace m.address m.size) : m.address.toNat ≤ x ∧ x < m.address.toNat + m.size.toNat := by
  have hsize := hspace.1
  simp only [Region.toSet, Set.mem_ofPred_eq, BitVec.le_def, BitVec.toNat_ofNat, Mapping.region,
    last_toNat hspace, Nat.mod_eq_of_lt hx] at hmem
  omega

/-- An address that is returned is that of whole pages inside the space and apart from the mappings. -/
lemma calculateRegionAddress_sound (hspace : 4096 ∣ addressSpaceSize.toNat) (hsize : 4096 ∣ regionSize.toNat)
    (hpages : ∀ m, some m ∈ mappings physMem physDevs fixedMemory deviceMemory → m.Pages)
    (hnames : ∀ m, some m ∈ mappings physMem physDevs fixedMemory deviceMemory → m.logical ≠ "New_Region")
    (h : calculateRegionAddress physMem physDevs fixedMemory deviceMemory addressSpaceSize regionSize = .ok address)
    (hend : address.toNat + regionSize.toNat ≤ 2 ^ 64) :
    4096 ∣ address.toNat ∧ address.toNat + regionSize.toNat ≤ addressSpaceSize.toNat ∧
      ∀ m, some m ∈ mappings physMem physDevs fixedMemory deviceMemory →
        ¬Share address regionSize m.address m.size := by
  obtain ⟨map₀, hmap₀, helems₀⟩ := insertMem addressSpaceSize
  obtain ⟨-, hpos, ms, map, map', r, hms, hfix, hvariable, hfind, haddress⟩ :=
    (calculateRegionAddress_eq_ok hmap₀).mp h
  have hmem : ∀ m, some m ∈ mappings physMem physDevs fixedMemory deviceMemory ↔ m ∈ ms := by
    intro m
    rw [hms]
    simp
  have hregular : ∀ r ∈ map.elems, Regular r := by
    apply fold_regular _ _ hfix
    · intro r hr
      rw [helems₀] at hr
      rw [List.mem_singleton.mp hr]
      exact ⟨by simp [memRegion], Nat.dvd_zero _⟩
    · intro n hn
      obtain ⟨m, hm, rfl⟩ := List.mem_map.mp hn
      exact (hpages m ((hmem m).mpr hm)).region (hnames m ((hmem m).mpr hm))
  have hvalid : ∀ m ∈ ms, m.region.firstAddress < m.region.lastAddress := by
    have hexists := (Mucfgalloc.fixed_exists (by rw [helems₀]; exact memRegion_tidy addressSpaceSize)
      isFixed_of_mem).mp ⟨map, hfix⟩
    exact fun m hm => (hexists.1 _ (List.mem_map_of_mem hm)).1
  cases hfit : map.elems.find? (variableFits regionSize 1) with
  | none =>
    obtain ⟨message, hnone⟩ := allocateVariable_none "New_Region" hfit
    cases hnone.symm.trans hvariable
  | some e =>
    obtain ⟨pre, post, hmapElems, map₁, hrun, hmap₁⟩ := allocateVariable_of_find? "New_Region" hfit
    obtain rfl := Except.ok.inj (hrun.symm.trans hvariable)
    rw [firstMultiple_one] at hmap₁
    rw [hmapElems] at hregular
    rw [hmap₁, find?_newRegion hregular] at hfind
    obtain rfl := Option.some.inj hfind
    simp only at haddress
    obtain ⟨hfree, hlast⟩ := isFree_of_variableFits (List.find?_some hfit)
    rw [firstMultiple_one, haddress] at hlast
    have hfreeAddresses : ∀ x : Unsigned64, address ≤ x → x ≤ address + regionSize - 1 → x ∈ free map.elems := by
      intro x hlow hhigh
      exact mem_free.mpr ⟨e, List.mem_of_find?_eq_some hfit, hfree, haddress ▸ hlow, BitVec.le_trans hhigh hlast⟩
    have hsizePos : 0 < regionSize.toNat := hpos
    have hlastNat : (address + regionSize - 1).toNat = address.toNat + regionSize.toNat - 1 :=
      last_toNat ⟨hpos, hend⟩
    have hpage : 4096 ∣ address.toNat := by
      rw [← haddress]
      exact (hregular e (List.mem_append_right _ List.mem_cons_self)).2
    refine ⟨hpage, ?_, ?_⟩
    · have hinside := ((mem_free_mappings helems₀ hfix).2.mp (hfreeAddresses (address + regionSize - 1)
        (by rw [BitVec.le_def, hlastNat]; omega) (BitVec.le_refl _))).1
      rw [BitVec.le_def, hlastNat] at hinside
      omega
    · rintro m hm ⟨x, hx, hxm⟩
      have hm := (hmem m).mp hm
      obtain ⟨hlt, hset⟩ := Mapping.mem_region (hvalid m hm) hxm
      have hxNat : (BitVec.ofNat 64 x).toNat = x := by rw [BitVec.toNat_ofNat, Nat.mod_eq_of_lt hlt]
      have hxfree := hfreeAddresses (BitVec.ofNat 64 x) (by rw [BitVec.le_def, hxNat]; exact hx.1)
        (by rw [BitVec.le_def, hlastNat, hxNat]; omega)
      exact ((mem_free_mappings helems₀ hfix).2.mp hxfree).2 m hm hset

lemma exists_map_some {α : Type} {l : List (Option α)} (h : ∀ m ∈ l, ∃ a, m = some a) :
    ∃ as : List α, l = as.map some := by
  induction l with
  | nil => exact ⟨[], rfl⟩
  | cons m l ih =>
    obtain ⟨a, rfl⟩ := h m List.mem_cons_self
    obtain ⟨as, rfl⟩ := ih fun m' hm' => h m' (List.mem_cons_of_mem _ hm')
    exact ⟨a :: as, rfl⟩

lemma Mapping.apart_of_not_share {m m' : Mapping} (h : InSpace m.address m.size) (h' : InSpace m'.address m'.size)
    (hshare : ¬Share m.address m.size m'.address m'.size) : Apart m'.region m.region := by
  have hpos := h.1
  have hpos' := h'.1
  rw [Mucfgcheck.share_iff hpos hpos'] at hshare
  simp only [Apart, Mapping.region, BitVec.lt_def, last_toNat h, last_toNat h']
  omega

/-- A mapping of whole pages inside the space. -/
structure Mapping.Inside (m : Mapping) (addressSpaceSize : Unsigned64) : Prop where
  pages : m.Pages
  size_pos : 0 < m.size.toNat
  end_le : m.address.toNat + m.size.toNat ≤ addressSpaceSize.toNat

lemma Mapping.Inside.inSpace {m : Mapping} (h : m.Inside addressSpaceSize) : InSpace m.address m.size :=
  ⟨h.size_pos, h.end_le.trans (Nat.le_of_lt addressSpaceSize.isLt)⟩

/-- The mappings can be allocated if they are inside the space and apart from each other. -/
lemma mappings_allocated {map₀ : Map} {ms : List Mapping} (hmap₀ : map₀.elems = [memRegion addressSpaceSize])
    (hinside : ∀ m ∈ ms, m.Inside addressSpaceSize)
    (happart : ms.Pairwise fun m m' => ¬Share m.address m.size m'.address m'.size) :
    ∃ map, (ms.map Mapping.region).foldlM Mucfgalloc.fix map₀ = .ok map := by
  have htidy : Tidy map₀.elems := by
    rw [hmap₀]
    exact memRegion_tidy addressSpaceSize
  rw [Mucfgalloc.fixed_exists htidy isFixed_of_mem]
  constructor
  · intro n hn
    obtain ⟨m, hm, rfl⟩ := List.mem_map.mp hn
    have hm := hinside m hm
    have hlast := last_toNat hm.inSpace
    obtain ⟨⟨-, hpages⟩, hpos, hend⟩ := hm
    refine ⟨?_, memRegion addressSpaceSize, by rw [hmap₀]; exact List.mem_singleton_self _, rfl, Nat.zero_le _, ?_⟩
    · rw [BitVec.lt_def]
      simp only [Mapping.region, hlast]
      omega
    · rw [BitVec.le_def]
      simp only [Mapping.region, memRegion, hlast]
      omega
  · rw [List.pairwise_map]
    apply happart.imp_of_mem
    intro m m' hm hm' hshare
    exact Mapping.apart_of_not_share (hinside m hm).inSpace (hinside m' hm').inSpace hshare

/-- A block that is apart from the mappings is enough for an address to be returned. -/
lemma calculateRegionAddress_complete (hsize : 0 < regionSize.toNat)
    (hgiven : ∀ o ∈ mappings physMem physDevs fixedMemory deviceMemory, ∃ m, o = some m ∧ m.Inside addressSpaceSize)
    (happart : (mappings physMem physDevs fixedMemory deviceMemory).Pairwise fun o o' =>
      ∀ m m', o = some m → o' = some m' → ¬Share m.address m.size m'.address m'.size)
    (hblock : address.toNat + regionSize.toNat ≤ addressSpaceSize.toNat)
    (hfreeBlock : ∀ m, some m ∈ mappings physMem physDevs fixedMemory deviceMemory →
      ¬Share address regionSize m.address m.size) :
    ∃ a, calculateRegionAddress physMem physDevs fixedMemory deviceMemory addressSpaceSize regionSize = .ok a := by
  obtain ⟨map₀, hmap₀, helems₀⟩ := insertMem addressSpaceSize
  obtain ⟨ms, hms⟩ := exists_map_some fun o ho => (hgiven o ho).imp fun _ h => h.1
  rw [hms] at hgiven happart hfreeBlock
  have hinside : ∀ m ∈ ms, m.Inside addressSpaceSize := by
    intro m hm
    obtain ⟨m', heq, hm'⟩ := hgiven (some m) (List.mem_map_of_mem hm)
    rwa [Option.some.inj heq]
  have happart : ms.Pairwise fun m m' => ¬Share m.address m.size m'.address m'.size :=
    (List.pairwise_map.mp happart).imp fun h => h _ _ rfl rfl
  obtain ⟨map, hfix⟩ := mappings_allocated helems₀ hinside happart
  have hspace : InSpace address regionSize := ⟨hsize, hblock.trans (Nat.le_of_lt addressSpaceSize.isLt)⟩
  have hlast := last_toNat hspace
  have hfreeAddresses : ∀ x, address ≤ x → x ≤ address + regionSize - 1 → x ∈ free map.elems := by
    intro x hlow hhigh
    rw [BitVec.le_def] at hlow
    rw [BitVec.le_def, hlast] at hhigh
    apply (mem_free_mappings helems₀ hfix).2.mpr
    constructor
    · rw [BitVec.le_def]
      omega
    · intro m hm hset
      apply hfreeBlock m (List.mem_map_of_mem hm)
      have hx : BitVec.ofNat 64 x.toNat ∈ m.region.toSet := by rwa [BitVec.ofNat_toNat, BitVec.setWidth_eq]
      exact ⟨x.toNat, ⟨hlow, by omega⟩, share_addresses x.isLt hx (hinside m hm).inSpace⟩
  obtain ⟨e, he, hefree, hfirst, hend⟩ := (mem_free_mappings (x := 0) helems₀ hfix).1.exists_region
    (by rw [BitVec.le_def, hlast]; omega) hfreeAddresses
  have hfits : variableFits regionSize 1 e = true := by
    simp only [Region.isFree, decide_eq_true_eq] at hefree
    simp only [variableFits, decide_eq_true_eq, firstMultiple_one]
    refine ⟨hefree.2, hefree.1, ?_⟩
    rw [BitVec.le_def] at hfirst hend ⊢
    rw [hlast] at hend
    rw [last_toNat ⟨hsize, by have := hspace.2; omega⟩]
    omega
  obtain ⟨e', hfind⟩ := Option.isSome_iff_exists.mp (List.find?_isSome.mpr ⟨e, he, hfits⟩)
  obtain ⟨pre, post, -, map', hvariable, helems⟩ := allocateVariable_of_find? "New_Region" hfind
  have hnew : ∃ r ∈ map'.elems, decide (r.name = "New_Region") = true := by
    refine ⟨⟨.allocated, firstMultiple 1 e', firstMultiple 1 e' + regionSize - 1, "New_Region", false⟩, ?_, rfl⟩
    rw [helems]
    exact List.mem_append_right _ (List.mem_append_left _ (reserved_mem e' _))
  obtain ⟨r, hr⟩ := Option.isSome_iff_exists.mp (List.find?_isSome.mpr hnew)
  refine ⟨r.firstAddress, (calculateRegionAddress_eq_ok hmap₀).mpr ⟨?_, hsize, ms, map, map', r, hms, hfix,
    hvariable, hr, rfl⟩⟩
  rw [BitVec.lt_def]
  exact Nat.lt_of_lt_of_le hsize ((Nat.le_add_left _ _).trans hblock)

/-- For mappings of whole pages the new region fits next to them if no address wraps around and no mapping has its
name; if they are inside the space and apart from each other, an address is returned whenever a block fits. -/
theorem calculateRegionAddress_fits (hspace : 4096 ∣ addressSpaceSize.toNat)
    (hsize : 4096 ∣ regionSize.toNat ∧ 0 < regionSize.toNat)
    (hpages : ∀ m, some m ∈ mappings physMem physDevs fixedMemory deviceMemory → m.Pages) :
    ((∀ m, some m ∈ mappings physMem physDevs fixedMemory deviceMemory → m.logical ≠ "New_Region") →
      ∀ a, calculateRegionAddress physMem physDevs fixedMemory deviceMemory addressSpaceSize regionSize = .ok a →
        a.toNat + regionSize.toNat ≤ 2 ^ 64 →
        4096 ∣ a.toNat ∧ a.toNat + regionSize.toNat ≤ addressSpaceSize.toNat ∧
          ∀ m, some m ∈ mappings physMem physDevs fixedMemory deviceMemory →
            ¬Share a regionSize m.address m.size) ∧
    ((∀ o ∈ mappings physMem physDevs fixedMemory deviceMemory, ∃ m, o = some m ∧ m.Inside addressSpaceSize) →
      ((mappings physMem physDevs fixedMemory deviceMemory).Pairwise fun o o' =>
        ∀ m m', o = some m → o' = some m' → ¬Share m.address m.size m'.address m'.size) →
      (∃ a : Unsigned64, 4096 ∣ a.toNat ∧ a.toNat + regionSize.toNat ≤ addressSpaceSize.toNat ∧
        ∀ m, some m ∈ mappings physMem physDevs fixedMemory deviceMemory →
          ¬Share a regionSize m.address m.size) →
      ∃ a, calculateRegionAddress physMem physDevs fixedMemory deviceMemory addressSpaceSize regionSize = .ok a) := by
  constructor
  · intro hnames a hrun hend
    exact calculateRegionAddress_sound hspace hsize.1 hpages hnames hrun hend
  · rintro hgiven happart ⟨a, -, hblock, hfree⟩
    exact calculateRegionAddress_complete hsize.2 hgiven happart hblock hfree

/-- Memory of one page and one byte. -/
def oddMemory : List PhysicalMemory := [⟨"odd", 0x1001⟩, ⟨"page", 0x1000⟩]

/-- A page at each end of a space of three pages. -/
def outerPages : List LogicalMemory := [⟨"low", "page", some 0⟩, ⟨"high", "page", some 0x2000⟩]

/-- An address is returned, and it is that of the page between the two. -/
theorem calculateRegionAddress_fits_page :
    (∃ a, calculateRegionAddress oddMemory [] outerPages [] 0x3000 0x1000 = .ok a) ∧
      calculateRegionAddress oddMemory [] outerPages [] 0x3000 0x1000 = .ok 0x1000 ∧
      4096 ∣ (0x1000 : Unsigned64).toNat ∧ (0x1000 : Unsigned64).toNat + (0x1000 : Unsigned64).toNat ≤
        (0x3000 : Unsigned64).toNat ∧
      ∀ m, some m ∈ mappings oddMemory [] outerPages [] → ¬Share 0x1000 0x1000 m.address m.size := by
  have hmappings : mappings oddMemory [] outerPages [] =
      [some ⟨"low", 0, 0x1000⟩, some ⟨"high", 0x2000, 0x1000⟩] := rfl
  have hmem : ∀ m, some m ∈ mappings oddMemory [] outerPages [] →
      m = ⟨"low", 0, 0x1000⟩ ∨ m = ⟨"high", 0x2000, 0x1000⟩ := by
    intro m hm
    simpa [hmappings] using hm
  have hpages : ∀ m, some m ∈ mappings oddMemory [] outerPages [] → m.Pages := by
    intro m hm
    rcases hmem m hm with rfl | rfl <;> exact ⟨by decide, by decide⟩
  have hname : ∀ m, some m ∈ mappings oddMemory [] outerPages [] → m.logical ≠ "New_Region" := by
    intro m hm
    rcases hmem m hm with rfl | rfl <;> decide
  obtain ⟨hsound, hcomplete⟩ :=
    @calculateRegionAddress_fits oddMemory [] outerPages [] 0x3000 0x1000 (by decide) (by decide) hpages
  refine ⟨hcomplete ?_ ?_ ⟨0x1000, by decide, by decide, ?_⟩, rfl, hsound hname 0x1000 rfl (by decide)⟩
  · intro o ho
    rcases (by simpa [hmappings] using ho : o = some _ ∨ o = some _) with rfl | rfl
    · exact ⟨_, rfl, ⟨by decide, by decide⟩, by decide, by decide⟩
    · exact ⟨_, rfl, ⟨by decide, by decide⟩, by decide, by decide⟩
  · rw [hmappings]
    simp [Mucfgcheck.share_iff]
  · intro m hm
    rcases hmem m hm with rfl | rfl
    · rw [Mucfgcheck.share_iff (by decide) (by decide)]
      decide
    · rw [Mucfgcheck.share_iff (by decide) (by decide)]
      decide

/-- Behind memory that does not end at a page the region does not start at one and goes beyond the space; and nothing
is returned next to memory outside the space, although the first page is free. -/
theorem calculateRegionAddress_not_fits :
    (calculateRegionAddress oddMemory [] [⟨"low", "odd", some 0⟩] [] 0x2000 0x1000 = .ok 0x1001 ∧
      ¬4096 ∣ (0x1001 : Unsigned64).toNat) ∧
    (∃ message, calculateRegionAddress oddMemory [] [⟨"high", "page", some 0x3000⟩] [] 0x2000 0x1000 =
        .error (.alloc (.raised (.invalidFixedAllocation message)))) ∧
      ∀ m, some m ∈ mappings oddMemory [] [⟨"high", "page", some 0x3000⟩] [] → ¬Share 0 0x1000 m.address m.size := by
  refine ⟨⟨by rfl, by decide⟩, ⟨_, rfl⟩, ?_⟩
  intro m hm
  obtain rfl : m = ⟨"high", 0x3000, 0x1000⟩ := Option.some.inj (List.mem_singleton.mp hm)
  rw [Mucfgcheck.share_iff (by decide) (by decide)]
  decide

end Address

end Muen.Tools.Expanders.XmlUtils
