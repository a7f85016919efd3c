import Muen.Tools.Mucfgalloc.Requests
import Mathlib.Order.CompletePartialOrder

/-!
# Assigned addresses

Where no variable allocation wraps around and no three allocatable memory blocks follow each other without a gap,
the addresses that `Write` assigns are sound, and they are the same for all orders of the elements of the policy.
-/

namespace Muen.Tools.Mucfgalloc
open AllocMap Lib

/-- The addresses of `size` bytes from `address` on. -/
def extent (address size : Unsigned64) : Set ℕ := {x | address.toNat ≤ x ∧ x < address.toNat + size.toNat}

def MemoryRegion.extent (r : MemoryRegion) : Set ℕ :=
  {x | ∃ address, r.physicalAddress = some address ∧ x ∈ Mucfgalloc.extent address r.size}

def MemoryBlock.isAllocatable (b : MemoryBlock) : Bool := b.allocatable.getD true

/-- What the output says about a region of the policy. -/
structure Assigned (policy : Policy) (r out : MemoryRegion) : Prop where
  address : ∃ a, out = { r with physicalAddress := some a }
  given : ∀ a, r.physicalAddress = some a → out.physicalAddress = some a
  aligned : r.physicalAddress = none → ∀ a, out.physicalAddress = some a → r.align.toNat ∣ a.toNat
  inside : r.physicalAddress = none → ∀ x ∈ out.extent,
    ∃ b ∈ policy.memoryBlocks, b.isAllocatable ∧ x ∈ extent b.physicalAddress b.size
  devices : r.physicalAddress = none → ∀ x ∈ out.extent,
    ∀ d ∈ policy.devices, ∀ m ∈ d.memory, x ∉ extent m.physicalAddress m.size

structure Sound (policy : Policy) (out : List MemoryRegion) : Prop where
  assigned : List.Forall₂ (Assigned policy) policy.memory out
  disjoint : out.Pairwise (fun r s => Disjoint r.extent s.extent)

instance (map : Map) (name : String) (size alignment : Unsigned64) :
    Decidable ((Call.allocateVariable name size alignment).Fits map) :=
  match h : map.elems.find? (variableFits size alignment) with
  | none => isTrue (by intro e he; rw [h] at he; cases he)
  | some e =>
    decidable_of_iff (e.firstAddress.toNat + alignment.toNat ≤ 2 ^ 64 ∧ alignedFirst alignment e + size.toNat ≤ 2 ^ 64)
      (by simp [Call.Fits, h])

/-- The bounds of every variable allocation of the run are computed without a wrap-around. -/
def Policy.Unwrapped (policy : Policy) : Prop :=
  match fixedMap policy with
  | .ok map =>
    Along allocateRegion (fun map r => (Call.allocateVariable r.name r.size r.alignment).Fits map) map policy.requests
  | .error _ => True

instance (policy : Policy) : Decidable policy.Unwrapped :=
  match h : fixedMap policy with
  | .ok map =>
    decidable_of_iff (Along allocateRegion (fun map r => (Call.allocateVariable r.name r.size r.alignment).Fits map)
      map policy.requests) (by simp only [Policy.Unwrapped, h])
  | .error _ => isTrue (by simp only [Policy.Unwrapped, h])

/-- An allocatable memory block that is followed by another one without a gap. -/
def MemoryBlock.Precedes (b c : MemoryBlock) : Prop :=
  b.isAllocatable ∧ c.isAllocatable ∧ 0 < b.size ∧ 0 < c.size ∧
    b.physicalAddress.toNat + b.size.toNat = c.physicalAddress.toNat

instance (b c : MemoryBlock) : Decidable (b.Precedes c) :=
  inferInstanceAs (Decidable (b.isAllocatable ∧ c.isAllocatable ∧ 0 < b.size ∧ 0 < c.size ∧
    b.physicalAddress.toNat + b.size.toNat = c.physicalAddress.toNat))

structure Policy.Regular (policy : Policy) : Prop where
  unwrapped : policy.Unwrapped
  blocks : ∀ a ∈ policy.memoryBlocks, ∀ b ∈ policy.memoryBlocks, ∀ c ∈ policy.memoryBlocks,
    ¬(a.Precedes b ∧ b.Precedes c)
  sizes : ∀ b ∈ policy.memoryBlocks, b.isAllocatable → b.size = 0 → b.physicalAddress ≠ 0

/-! ### The map -/

lemma lastAddress_toNat {address size : Unsigned64} (h : address ≤ lastAddress address size) (hsize : 0 < size) :
    (lastAddress address size).toNat + 1 = address.toNat + size.toNat := by
  unfold lastAddress at h ⊢
  bv_omega

/-- A number in an extent is an address between its bounds. -/
lemma exists_of_mem_extent {address size : Unsigned64} (h : address ≤ lastAddress address size) {x : ℕ}
    (hx : x ∈ extent address size) :
    ∃ y : Unsigned64, y.toNat = x ∧ address ≤ y ∧ y ≤ lastAddress address size := by
  simp only [extent, Set.mem_ofPred_eq] at hx
  have hsize : 0 < size := by bv_omega
  have hlast := lastAddress_toNat h hsize
  refine ⟨BitVec.ofNat 64 x, ?_, ?_, ?_⟩
  · rw [BitVec.toNat_ofNat]
    apply Nat.mod_eq_of_lt
    bv_omega
  · bv_omega
  · bv_omega

lemma mem_inserts {policy : Policy} {n : Region} (hn : n ∈ policy.inserts) :
    (∃ b ∈ policy.memoryBlocks, b.region = n) ∨
      ∃ d ∈ policy.devices, ∃ m ∈ d.memory, m.region d.name = n := by
  rcases List.mem_append.mp hn with hn | hn
  · exact Or.inl (List.mem_map.mp hn)
  · obtain ⟨d, hd, hn⟩ := List.mem_flatMap.mp hn
    exact Or.inr ⟨d, hd, List.mem_map.mp hn⟩

/-- A free region that is inserted is an allocatable memory block. -/
lemma exists_block {policy : Policy} {n : Region} (hregular : policy.Regular) (hn : n ∈ policy.inserts)
    (hfree : FreeValid n) :
    ∃ b ∈ policy.memoryBlocks, b.region = n ∧ b.isAllocatable ∧ 0 < b.size := by
  obtain ⟨hfree, hlt⟩ := hfree
  rcases mem_inserts hn with ⟨b, hb, rfl⟩ | ⟨d, -, m, -, rfl⟩
  · have halloc : b.isAllocatable := by
      simp only [Region.isFree, MemoryBlock.region, decide_eq_true_eq] at hfree
      exact hfree.2
    refine ⟨b, hb, rfl, halloc, ?_⟩
    by_contra hsize
    have hsize : b.size = 0 := by bv_omega
    have hne := hregular.sizes b hb halloc hsize
    simp only [MemoryBlock.region, lastAddress, hsize] at hlt
    bv_omega
  · simp [Region.isFree, DeviceMemory.region] at hfree

lemma Policy.Regular.insertable {policy : Policy} (h : policy.Regular) : Insertable policy.inserts := by
  refine ⟨?_, ?_, ?_⟩
  · intro r hr
    rcases mem_inserts hr with ⟨b, -, rfl⟩ | ⟨d, -, m, -, rfl⟩ <;> rfl
  · intro r hr hkind
    rcases mem_inserts hr with ⟨b, -, rfl⟩ | ⟨d, -, m, -, rfl⟩
    · simp [MemoryBlock.region] at hkind
    · rfl
  · intro r hr s hs t ht hrfree hsfree htfree hgaps
    obtain ⟨a, ha, rfl, haalloc, hasize⟩ := exists_block h hr hrfree
    obtain ⟨b, hb, rfl, hballoc, hbsize⟩ := exists_block h hs hsfree
    obtain ⟨c, hc, rfl, hcalloc, hcsize⟩ := exists_block h ht htfree
    have halast : (lastAddress a.physicalAddress a.size).toNat + 1 = a.physicalAddress.toNat + a.size.toNat :=
      lastAddress_toNat (BitVec.le_of_lt hrfree.2) hasize
    have hblast : (lastAddress b.physicalAddress b.size).toNat + 1 = b.physicalAddress.toNat + b.size.toNat :=
      lastAddress_toNat (BitVec.le_of_lt hsfree.2) hbsize
    simp only [MemoryBlock.region] at hgaps
    exact h.blocks a ha b hb c hc
      ⟨⟨haalloc, hballoc, hasize, hbsize, by omega⟩, ⟨hballoc, hcalloc, hbsize, hcsize, by omega⟩⟩

/-! ### Allocation -/

def RegionType.placed (t : RegionType) (address : Unsigned64) : Region :=
  ⟨.allocated, address, lastAddress address t.size, t.name, false⟩

/-- The map `l₀` with the requests `done` allocated in its free memory. -/
structure Placed (l₀ l : List Region) (done : List RegionType) : Prop where
  tidy : Tidy l
  free : free l ⊆ free l₀
  kept : ∀ r, r.isTaken → r ∈ l₀ → r ∈ l
  placed : ∀ t ∈ done, ∃ a, t.placed a ∈ l ∧ t.alignment.toNat ∣ a.toNat ∧
    ∀ x, a ≤ x → x ≤ lastAddress a t.size → x ∈ AllocMap.free l₀
  only : ∀ r ∈ l, r.kind = .allocated → ∃ t ∈ done, t.name = r.name
  unique : ∀ r ∈ l, ∀ s ∈ l, r.kind = .allocated → s.kind = .allocated → r.name = s.name → r = s

lemma isTaken_of_allocated {r : Region} (h : r.kind = .allocated) : r.isTaken := by
  simp [Region.isTaken, h]

section Placed

variable {l₀ : List Region} {map map' : Map} {t : RegionType} {done : List RegionType}

lemma placed_nil {l : List Region} (h : Tidy l) (hnone : ∀ r ∈ l, r.kind ≠ .allocated) : Placed l l [] :=
  ⟨h, subset_rfl, fun _ _ hr => hr, by simp, fun r hr hkind => absurd hkind (hnone r hr),
    fun r hr _ _ hkind => absurd hkind (hnone r hr)⟩

lemma allocateRegion_allocates (h : Tidy map.elems)
    (hfits : (Call.allocateVariable t.name t.size t.alignment).Fits map) (hrun : allocateRegion map t = .ok map') :
    ∃ a, Allocates map.elems t.name t.size t.alignment a map'.elems := by
  obtain ⟨hpre, hrun⟩ := checked_eq_ok.mp hrun
  exact allocateVariable_allocates h hpre hfits hrun

lemma Placed.allocate (h : Placed l₀ map.elems done)
    (hfits : (Call.allocateVariable t.name t.size t.alignment).Fits map) (hnew : ∀ d ∈ done, d.name ≠ t.name)
    (hrun : allocateRegion map t = .ok map') : Placed l₀ map'.elems (done ++ [t]) := by
  obtain ⟨a, hallocates⟩ := allocateRegion_allocates h.tidy hfits hrun
  have hreserves := hallocates.reserves
  have htaken : ∀ r, r.isTaken → (r ∈ map'.elems ↔ r ∈ map.elems ∨ r = t.placed a) := hreserves.taken
  have hname : ∀ r ∈ map.elems, r.kind = .allocated → r.name ≠ t.name := by
    intro r hr hkind heq
    obtain ⟨d, hd, hdname⟩ := h.only r hr hkind
    exact hnew d hd (hdname.trans heq)
  have hmem : ∀ r ∈ map'.elems, r.kind = .allocated → r ∈ map.elems ∨ r = t.placed a := fun r hr hkind =>
    (htaken r (isTaken_of_allocated hkind)).mp hr
  refine ⟨hreserves.tidy, ?_, ?_, ?_, ?_, ?_⟩
  · rw [hreserves.free]
    exact Set.sdiff_subset.trans h.free
  · intro r hr hr₀
    exact (htaken r hr).mpr (Or.inl (h.kept r hr hr₀))
  · intro d hd
    rcases List.mem_append.mp hd with hd | hd
    · obtain ⟨b, hb, haligned, hfree⟩ := h.placed d hd
      exact ⟨b, (htaken _ rfl).mpr (Or.inl hb), haligned, hfree⟩
    · rw [List.mem_singleton.mp hd]
      exact ⟨a, (htaken _ rfl).mpr (Or.inr rfl), hallocates.aligned, fun x hx₁ hx₂ => h.free (hallocates.free x hx₁ hx₂)⟩
  · intro r hr hkind
    rcases hmem r hr hkind with hr | rfl
    · obtain ⟨d, hd, hdname⟩ := h.only r hr hkind
      exact ⟨d, List.mem_append_left _ hd, hdname⟩
    · exact ⟨t, by simp, rfl⟩
  · intro r hr s hs hrkind hskind heq
    rcases hmem r hr hrkind with hr | rfl <;> rcases hmem s hs hskind with hs | rfl
    · exact h.unique r hr s hs hrkind hskind heq
    · exact absurd heq (hname r hr hrkind)
    · exact absurd heq.symm (hname s hs hskind)
    · rfl

lemma requests_placed {ts : List RegionType} (h : Tidy map.elems) (hnone : ∀ r ∈ map.elems, r.kind ≠ .allocated)
    (hnodup : (ts.map RegionType.name).Nodup)
    (halong : Along allocateRegion (fun map r => (Call.allocateVariable r.name r.size r.alignment).Fits map) map ts)
    (hrun : ts.foldlM allocateRegion map = .ok map') : Placed map.elems map'.elems ts := by
  refine halong.foldlM_ok (fun (s : Map) done => (done.map RegionType.name).Nodup → Placed map.elems s.elems done)
    (fun _ => placed_nil h hnone) ?_ hrun hnodup
  intro done t s s' hplaced hfits hrun hdone
  rw [List.map_append, List.map_singleton, List.nodup_append] at hdone
  obtain ⟨hprev, -, hnew⟩ := hdone
  exact (hplaced hprev).allocate hfits (fun d hd => hnew d.name (List.mem_map_of_mem hd) t.name (by simp)) hrun

/-- In maps with the same free memory a request is allocated at the same address. -/
lemma Same.allocate {other : Map} (h : Same map.elems other.elems)
    (hfits : (Call.allocateVariable t.name t.size t.alignment).Fits map) (hrun : allocateRegion map t = .ok map') :
    ∃ other', allocateRegion other t = .ok other' ∧ Same map'.elems other'.elems := by
  obtain ⟨a, hallocates⟩ := allocateRegion_allocates h.left hfits hrun
  obtain ⟨e, hfind, rfl⟩ := hallocates.address_eq
  obtain ⟨e', hfind', hfirst, hlast⟩ := h.left.find?_congr h.right h.free hfind
  obtain ⟨hpre, -⟩ := checked_eq_ok.mp hrun
  obtain ⟨other', hrun'⟩ := allocateVariable_exists t.name hfind'
  have hfits' : (Call.allocateVariable t.name t.size t.alignment).Fits other := by
    intro d hd
    rw [hfind', Option.some.injEq] at hd
    obtain ⟨hwrap, hroom⟩ := hfits e hfind
    rw [← hd]
    unfold alignedFirst at hroom ⊢
    rw [hfirst]
    exact ⟨hwrap, hroom⟩
  have hrun' : allocateRegion other t = .ok other' := checked_eq_ok.mpr ⟨hpre, hrun'⟩
  obtain ⟨a', hallocates'⟩ := allocateRegion_allocates h.right hfits' hrun'
  obtain ⟨d, hd, rfl⟩ := hallocates'.address_eq
  rw [hfind', Option.some.injEq] at hd
  have haddress : firstMultiple t.alignment d = firstMultiple t.alignment e := by
    rw [← hd, firstMultiple, hfirst, firstMultiple]
  rw [haddress] at hallocates'
  refine ⟨other', hrun', hallocates.reserves.tidy, hallocates'.reserves.tidy, ?_, ?_⟩
  · rw [hallocates.reserves.free, hallocates'.reserves.free, h.free]
  · intro r hr
    rw [hallocates.reserves.taken r hr, hallocates'.reserves.taken r hr, h.taken r hr]

end Placed

/-! ### The policy -/

/-- A region of the policy behind the updates for the regions `allocated`. -/
def place (allocated : List Region) (r : MemoryRegion) : MemoryRegion :=
  allocated.foldl (fun r a => if r.name = a.name then { r with physicalAddress := some a.firstAddress } else r) r

lemma setAddress_eq {name : String} {address : Unsigned64} {l : List MemoryRegion}
    (h : name ∈ l.map MemoryRegion.name) (hnodup : (l.map MemoryRegion.name).Nodup) :
    setAddress name address l =
      some (l.map (fun r => if r.name = name then { r with physicalAddress := some address } else r)) := by
  induction l with
  | nil => simp at h
  | cons r rs ih =>
    rw [List.map_cons, List.nodup_cons] at hnodup
    unfold setAddress
    by_cases hr : r.name = name
    · have hrest : rs.map (fun r => if r.name = name then { r with physicalAddress := some address } else r) =
          rs.map id := by
        apply List.map_congr_left
        intro s hs
        apply if_neg
        intro heq
        apply hnodup.1
        rw [hr, ← heq]
        exact List.mem_map_of_mem hs
      rw [if_pos hr, List.map_cons, if_pos hr, hrest, List.map_id]
    · have hrest : name ∈ rs.map MemoryRegion.name := by
        rw [List.map_cons, List.mem_cons] at h
        exact h.resolve_left (fun heq => hr heq.symm)
      rw [if_neg hr, ih hrest hnodup.2, List.map_cons, if_neg hr]
      rfl

lemma updateDOM_fold {as : List Region} {memory : List MemoryRegion} (hnodup : (memory.map MemoryRegion.name).Nodup)
    (hnames : ∀ a ∈ as, a.name ∈ memory.map MemoryRegion.name) :
    as.foldlM updateDOM memory = .ok (memory.map (place as)) := by
  induction as generalizing memory with
  | nil =>
    have hid : memory.map (place []) = memory := List.map_id memory
    rw [hid]
    rfl
  | cons a as ih =>
    let update (r : MemoryRegion) : MemoryRegion :=
      if r.name = a.name then { r with physicalAddress := some a.firstAddress } else r
    have hname : (memory.map update).map MemoryRegion.name = memory.map MemoryRegion.name := by
      rw [List.map_map]
      congr 1
      funext r
      simp only [Function.comp, update]
      split_ifs <;> rfl
    have hfirst : updateDOM memory a = .ok (memory.map update) := by
      rw [updateDOM, setAddress_eq (hnames a (by simp)) hnodup]
    rw [List.foldlM_cons, hfirst, ok_bind, ih (by rwa [hname])
      (fun b hb => by rw [hname]; exact hnames b (List.mem_cons_of_mem a hb)), List.map_map]
    rfl

/-- The regions with the name of `r` all start at one address. -/
lemma place_eq {as : List Region} {r : MemoryRegion} (address : Unsigned64)
    (h : ∀ a ∈ as, a.name = r.name → a.firstAddress = address) :
    place as r = if ∃ a ∈ as, a.name = r.name then { r with physicalAddress := some address } else r := by
  induction as generalizing r with
  | nil => simp [place]
  | cons a as ih =>
    have hplace : place (a :: as) r =
        place as (if r.name = a.name then { r with physicalAddress := some a.firstAddress } else r) := rfl
    have hrest : ∀ b ∈ as, b.name = r.name → b.firstAddress = address := fun b hb =>
      h b (List.mem_cons_of_mem a hb)
    rw [hplace]
    by_cases ha : r.name = a.name
    · have hmem : ∃ b ∈ a :: as, b.name = r.name := ⟨a, by simp, ha.symm⟩
      have hplaced := ih (r := { r with physicalAddress := some address }) hrest
      rw [if_pos ha, if_pos hmem, h a (by simp) ha.symm, hplaced]
      split_ifs <;> rfl
    · have hiff : (∃ b ∈ a :: as, b.name = r.name) ↔ ∃ b ∈ as, b.name = r.name := by simp [Ne.symm ha]
      rw [if_neg ha, ih hrest]
      simp only [hiff]

lemma place_congr {as as' : List Region} {r : MemoryRegion} (h : ∀ a, a ∈ as' ↔ a ∈ as)
    (hunique : ∀ a ∈ as, ∀ b ∈ as, a.name = b.name → a = b) : place as' r = place as r := by
  by_cases hmem : ∃ a ∈ as, a.name = r.name
  · obtain ⟨a, ha, hname⟩ := hmem
    have haddress : ∀ b ∈ as, b.name = r.name → b.firstAddress = a.firstAddress := by
      intro b hb hbname
      rw [hunique b hb a ha (hbname.trans hname.symm)]
    rw [place_eq a.firstAddress haddress, place_eq a.firstAddress (fun b hb => haddress b ((h b).mp hb))]
    simp only [h]
  · have hnone : ∀ b ∈ as, b.name = r.name → b.firstAddress = 0 := fun b hb hname => absurd ⟨b, hb, hname⟩ hmem
    rw [place_eq 0 hnone, place_eq 0 (fun b hb => hnone b ((h b).mp hb))]
    simp only [h]

/-! ### Write -/

section Write

variable {policy policy' : Policy}

lemma Policy.UniqueNames.allocate (h : policy.UniqueNames) :
    allocate policy = (fixedMap policy >>= fun map => policy.requests.foldlM allocateRegion map >>= fun map =>
      (map.elems.filter (fun r => r.kind = .allocated)).foldlM updateDOM policy.memory) := by
  unfold Mucfgalloc.allocate
  congr 1
  funext map
  rw [h.passes]

lemma write_eq_ok {out : List MemoryRegion} (h : write policy = .ok out) : Mucfgalloc.allocate policy = .ok out := by
  unfold write at h
  split at h
  · cases h
  · exact h

lemma write_of_ok {out : List MemoryRegion} (h : Mucfgalloc.allocate policy = .ok out) : write policy = .ok out := by
  unfold write
  rw [h]

/-- The maps of a run, and what is in them. -/
structure Run (policy : Policy) (map map' : Map) : Prop where
  fixedMap : Mucfgalloc.fixedMap policy = .ok map
  requests : policy.requests.foldlM allocateRegion map = .ok map'
  placed : Placed map.elems map'.elems policy.requests

lemma fixed_notAllocated {map : Map} (hregular : policy.Regular) (h : fixedMap policy = .ok map) :
    ∀ r ∈ map.elems, r.kind ≠ .allocated := by
  obtain ⟨map₀, -, -, hbuilt, hfixed⟩ := fixedMap_ok hregular.insertable h
  intro r hr hkind
  have htaken := isTaken_of_allocated hkind
  rcases (hfixed.taken r htaken).mp hr with hr | hr
  · simp [hbuilt.notTaken hregular.insertable r hr] at htaken
  · simp [(isFixed_of_mem r hr).1] at hkind

/-- The output is the policy with the addresses of the allocated regions. -/
lemma exists_run {out : List MemoryRegion} (hnames : policy.UniqueNames) (hregular : policy.Regular)
    (h : write policy = .ok out) :
    ∃ map map', Run policy map map' ∧
      out = policy.memory.map (place (map'.elems.filter (fun r => r.kind = .allocated))) := by
  have h := write_eq_ok h
  rw [hnames.allocate] at h
  obtain ⟨map, hfixed, h⟩ := bind_eq_ok h
  obtain ⟨map', hrequests, h⟩ := bind_eq_ok h
  obtain ⟨map₀, -, -, -, hfixed₀⟩ := fixedMap_ok hregular.insertable hfixed
  have halong := hregular.unwrapped
  simp only [Policy.Unwrapped, hfixed] at halong
  have hplaced := requests_placed hfixed₀.tidy (fixed_notAllocated hregular hfixed) hnames.requests_nodup halong
    hrequests
  refine ⟨map, map', ⟨hfixed, hrequests, hplaced⟩, ?_⟩
  rw [updateDOM_fold hnames] at h
  · exact (Except.ok.inj h).symm
  · intro a ha
    obtain ⟨ha, hkind⟩ := List.mem_filter.mp ha
    obtain ⟨t, ht, hname⟩ := hplaced.only a ha (by simpa using hkind)
    obtain ⟨r, hr, -, rfl⟩ := hnames.mem_requests.mp ht
    exact List.mem_map.mpr ⟨r, hr, hname⟩

/-- The output for a region of the policy, and the region of the map that is reserved for it. -/
structure Run.Places (map map' : Map) (r : MemoryRegion) (a : Unsigned64) : Prop where
  eq : place (map'.elems.filter (fun r => r.kind = .allocated)) r = { r with physicalAddress := some a }
  reserved : ∃ kind, r.placed kind a ∈ map'.elems
  given : ∀ b, r.physicalAddress = some b → a = b
  aligned : r.physicalAddress = none → r.align.toNat ∣ a.toNat
  free : r.physicalAddress = none → ∀ x, a ≤ x → x ≤ lastAddress a r.size → x ∈ AllocMap.free map.elems

lemma Run.places {map map' : Map} (hrun : Run policy map map') (hnames : policy.UniqueNames)
    (hregular : policy.Regular) {r : MemoryRegion} (hr : r ∈ policy.memory) : ∃ a, Run.Places map map' r a := by
  obtain ⟨map₀, -, -, hbuilt, hfixed⟩ := fixedMap_ok hregular.insertable hrun.fixedMap
  have hplaced := hrun.placed
  cases hphys : r.physicalAddress with
  | some b =>
    have hmem : r.placed .fixed b ∈ policy.fixed :=
      List.mem_filterMap.mpr ⟨r, hr, by rw [hphys]; rfl⟩
    have hreserved := hplaced.kept _ rfl ((hfixed.taken _ rfl).mpr (Or.inr hmem))
    refine ⟨b, ?_, ⟨.fixed, hreserved⟩, fun c hc => Option.some.inj (hphys.symm.trans hc), ?_, ?_⟩
    · have hnone : ¬∃ a ∈ map'.elems.filter (fun r => r.kind = .allocated), a.name = r.name := by
        rintro ⟨a, ha, hname⟩
        obtain ⟨ha, hkind⟩ := List.mem_filter.mp ha
        obtain ⟨t, ht, htname⟩ := hplaced.only a ha (by simpa using hkind)
        obtain ⟨s, hs, hsphys, rfl⟩ := hnames.mem_requests.mp ht
        have heq : s = r := hnames.eq_of_name hs hr (htname.trans hname)
        rw [heq, hphys] at hsphys
        cases hsphys
      rw [place_eq b (fun a ha hname => absurd ⟨a, ha, hname⟩ hnone), if_neg hnone, ← hphys]
    · intro hnone
      cases hphys.symm.trans hnone
    · intro hnone
      cases hphys.symm.trans hnone
  | none =>
    have ht : r.regionType ∈ policy.requests := hnames.mem_requests.mpr ⟨r, hr, hphys, rfl⟩
    obtain ⟨a, hmem, haligned, hfree⟩ := hplaced.placed _ ht
    refine ⟨a, ?_, ⟨.allocated, hmem⟩, fun b hb => (by cases hphys.symm.trans hb), fun _ => haligned, fun _ => hfree⟩
    have hfilter : r.regionType.placed a ∈ map'.elems.filter (fun r => r.kind = .allocated) :=
      List.mem_filter.mpr ⟨hmem, rfl⟩
    rw [place_eq a, if_pos ⟨_, hfilter, rfl⟩]
    intro b hb hname
    obtain ⟨hb, hkind⟩ := List.mem_filter.mp hb
    rw [hplaced.unique b hb _ hmem (by simpa using hkind) rfl hname]
    rfl

lemma mem_extent_iff {r : MemoryRegion} {a : Unsigned64} {x : ℕ} :
    x ∈ ({ r with physicalAddress := some a } : MemoryRegion).extent ↔ x ∈ extent a r.size := by
  simp [MemoryRegion.extent]

/-- Free memory behind the fixed regions lies in an allocatable block, apart from the device memory. -/
lemma free_inside {map : Map} (hregular : policy.Regular) (h : fixedMap policy = .ok map) {y : Unsigned64}
    (hy : y ∈ free map.elems) :
    (∃ b ∈ policy.memoryBlocks, b.isAllocatable ∧ y.toNat ∈ extent b.physicalAddress b.size) ∧
      ∀ d ∈ policy.devices, ∀ m ∈ d.memory, y.toNat ∉ extent m.physicalAddress m.size := by
  obtain ⟨map₀, hrun₀, -, hbuilt, hfixed⟩ := fixedMap_ok hregular.insertable h
  obtain ⟨hvalid, hpair⟩ := (inserts_exists hregular.insertable).mp ⟨map₀, hrun₀⟩
  rw [hfixed.free, hbuilt.free] at hy
  obtain ⟨n, hn, hnfree, hfirst, hlast⟩ := mem_free.mp hy.1
  obtain ⟨b, hb, rfl, halloc, hsize⟩ := exists_block hregular hn ⟨hnfree, hvalid n hn⟩
  constructor
  · refine ⟨b, hb, halloc, ?_⟩
    have hend : (lastAddress b.physicalAddress b.size).toNat + 1 = b.physicalAddress.toNat + b.size.toNat :=
      lastAddress_toNat (BitVec.le_of_lt (hvalid _ hn)) hsize
    simp only [MemoryBlock.region] at hfirst hlast
    simp only [extent, Set.mem_ofPred_eq]
    bv_omega
  · intro d hd m hm hmem
    have hdevice : m.region d.name ∈ policy.inserts :=
      List.mem_append_right _ (List.mem_flatMap.mpr ⟨d, hd, List.mem_map_of_mem hm⟩)
    have hbounds : m.physicalAddress ≤ lastAddress m.physicalAddress m.size := BitVec.le_of_lt (hvalid _ hdevice)
    obtain ⟨z, hz, hzfirst, hzlast⟩ := exists_of_mem_extent hbounds hmem
    obtain rfl : z = y := BitVec.eq_of_toNat_eq hz
    have hne : b.region ≠ m.region d.name := by
      intro heq
      have hkind := congrArg Region.kind heq
      cases hkind
    have hapart : Apart b.region (m.region d.name) :=
      hpair.forall hn hdevice hne
    simp only [Apart, DeviceMemory.region] at hapart
    bv_omega

lemma Run.assigned {map map' : Map} (hrun : Run policy map map') (hregular : policy.Regular) {r : MemoryRegion}
    {a : Unsigned64} (h : Run.Places map map' r a) :
    Assigned policy r { r with physicalAddress := some a } := by
  obtain ⟨kind, hreserved⟩ := h.reserved
  have hbounds : a ≤ lastAddress a r.size := hrun.placed.tidy.sorted.1 _ hreserved
  have hinside : r.physicalAddress = none → ∀ x ∈ extent a r.size,
      (∃ b ∈ policy.memoryBlocks, b.isAllocatable ∧ x ∈ extent b.physicalAddress b.size) ∧
        ∀ d ∈ policy.devices, ∀ m ∈ d.memory, x ∉ extent m.physicalAddress m.size := by
    intro hnone x hx
    obtain ⟨y, rfl, hyfirst, hylast⟩ := exists_of_mem_extent hbounds hx
    exact free_inside hregular hrun.fixedMap (h.free hnone y hyfirst hylast)
  refine ⟨⟨a, rfl⟩, ?_, ?_, ?_, ?_⟩
  · intro b hb
    rw [h.given b hb]
  · intro hnone b hb
    rw [← Option.some.inj hb]
    exact h.aligned hnone
  · intro hnone x hx
    exact (hinside hnone x (mem_extent_iff.mp hx)).1
  · intro hnone x hx
    exact (hinside hnone x (mem_extent_iff.mp hx)).2

lemma Run.sound {map map' : Map} (hrun : Run policy map map') (hnames : policy.UniqueNames)
    (hregular : policy.Regular) :
    Sound policy (policy.memory.map (place (map'.elems.filter (fun r => r.kind = .allocated)))) := by
  constructor
  · rw [List.forall₂_map_right_iff, List.forall₂_same]
    intro r hr
    obtain ⟨a, hplaces⟩ := hrun.places hnames hregular hr
    rw [hplaces.eq]
    exact hrun.assigned hregular hplaces
  · have hdistinct : policy.memory.Pairwise (fun r s => r.name ≠ s.name) := List.pairwise_map.mp hnames
    rw [List.pairwise_map]
    refine hdistinct.imp_of_mem ?_
    intro r s hr hs hne
    obtain ⟨a, hr⟩ := hrun.places hnames hregular hr
    obtain ⟨b, hs⟩ := hrun.places hnames hregular hs
    rw [hr.eq, hs.eq, Set.disjoint_left]
    intro x hxr hxs
    rw [mem_extent_iff] at hxr hxs
    obtain ⟨kr, hrmem⟩ := hr.reserved
    obtain ⟨ks, hsmem⟩ := hs.reserved
    have hsorted := hrun.placed.tidy.sorted.1
    obtain ⟨y, hy, hyr⟩ := exists_of_mem_extent (hsorted _ hrmem) hxr
    obtain ⟨z, hz, hzs⟩ := exists_of_mem_extent (hsorted _ hsmem) hxs
    obtain rfl : y = z := BitVec.eq_of_toNat_eq (hy.trans hz.symm)
    have heq := hrun.placed.tidy.eq_of_mem hrmem hsmem hyr hzs
    exact hne (congrArg Region.name heq)

/-- What `Write` assigns, in this and in every other order of the elements. -/
def Policy.WellAssigned (policy : Policy) (out : List MemoryRegion) : Prop :=
  Sound policy out ∧
    ∀ policy', policy.Reordered policy' → ∃ out', write policy' = .ok out' ∧ out.Perm out'

lemma Run.reordered {map map' : Map} (hrun : Run policy map map') (hnames : policy.UniqueNames)
    (hregular : policy.Regular) (hreordered : policy.Reordered policy') :
    write policy' = .ok (policy'.memory.map (place (map'.elems.filter (fun r => r.kind = .allocated)))) := by
  have hnames' : policy'.UniqueNames := (hreordered.memory.map _).nodup hnames
  obtain ⟨other, hother, hsame⟩ := fixedMap_reordered hregular.insertable hreordered hrun.fixedMap
  have halong := hregular.unwrapped
  simp only [Policy.Unwrapped, hrun.fixedMap] at halong
  obtain ⟨other', hrequests, hsame'⟩ := halong.lockstep
    (R := fun map other : Map => Same map.elems other.elems)
    (fun t s s' o hsame hfits hstep => hsame.allocate hfits hstep) hsame hrun.requests
  have hallocated : ∀ a, a ∈ other'.elems.filter (fun r => r.kind = .allocated) ↔
      a ∈ map'.elems.filter (fun r => r.kind = .allocated) := by
    intro a
    simp only [List.mem_filter, decide_eq_true_eq, and_congr_left_iff]
    exact fun hkind => (hsame'.taken a (isTaken_of_allocated hkind)).symm
  apply write_of_ok
  rw [hnames'.allocate, hother, ok_bind, ← hnames.requests_perm hreordered.memory, hrequests, ok_bind,
    updateDOM_fold hnames']
  · congr 1
    apply List.map_congr_left
    intro r _
    apply place_congr hallocated
    intro a ha b hb hname
    obtain ⟨ha, hakind⟩ := List.mem_filter.mp ha
    obtain ⟨hb, hbkind⟩ := List.mem_filter.mp hb
    exact hrun.placed.unique a ha b hb (by simpa using hakind) (by simpa using hbkind) hname
  · intro a ha
    obtain ⟨ha, hkind⟩ := List.mem_filter.mp ((hallocated a).mp ha)
    obtain ⟨t, ht, hname⟩ := hrun.placed.only a ha (by simpa using hkind)
    obtain ⟨r, hr, -, rfl⟩ := hnames.mem_requests.mp ht
    exact List.mem_map.mpr ⟨r, hreordered.memory.mem_iff.mp hr, hname⟩

/-- Where `Write` succeeds on a regular policy, the addresses are sound and do not depend on the order. -/
theorem write_assigns {out : List MemoryRegion} (hnames : policy.UniqueNames) (hregular : policy.Regular)
    (h : write policy = .ok out) : policy.WellAssigned out := by
  obtain ⟨map, map', hrun, rfl⟩ := exists_run hnames hregular h
  refine ⟨hrun.sound hnames hregular, ?_⟩
  intro policy' hreordered
  exact ⟨_, hrun.reordered hnames hregular hreordered, hreordered.memory.map _⟩

end Write

/-! ### Concrete policies -/

def block (name : String) (address size : Unsigned64) : MemoryBlock := ⟨name, address, size, none⟩

def emptyRegion (name : String) (size : Unsigned64) (address : Option Unsigned64) : MemoryRegion :=
  ⟨name, "subject", size, some 4096, address, .none⟩

/-- A fixed region in device memory, and regions of two passes in two blocks next to each other. -/
def mixedPolicy : Policy where
  memory := [emptyRegion "mmio" 0x1000 (some 0xf000_0000), emptyRegion "stack" 0x1000 none,
    { emptyRegion "code" 0x2000 none with content := .file }, emptyRegion "vmxon" 0x1000 (some 0x1000)]
  memoryBlocks := [block "low" 0x1000 0x2000, block "high" 0x3000 0x3000]
  devices := [⟨"vga", [⟨"mmio", 0xf000_0000, 0x2000⟩]⟩]

theorem write_assigns_mixed :
    mixedPolicy.WellAssigned [emptyRegion "mmio" 0x1000 (some 0xf000_0000), emptyRegion "stack" 0x1000 (some 0x4000),
      { emptyRegion "code" 0x2000 (some 0x2000) with content := .file }, emptyRegion "vmxon" 0x1000 (some 0x1000)] :=
  write_assigns (by unfold Policy.UniqueNames; decide) ⟨by decide, by decide, by decide⟩ rfl

/-- A region whose last address wraps around. -/
def wrappingPolicy : Policy where
  memory := [emptyRegion "ram" 0xffff_ffff_ffff_f000 none]
  memoryBlocks := [block "low" 0x2000 0x1000]
  devices := []

def lowBlock : MemoryBlock := block "low" 0x1000 0x1000
def middleBlock : MemoryBlock := block "middle" 0x2000 0x1000
def highBlock : MemoryBlock := block "high" 0x3000 0x1000

/-- Three blocks without a gap between them, and one apart from them. -/
def adjacentPolicy (first second third : MemoryBlock) : Policy where
  memory := [emptyRegion "ram" 0x3000 none]
  memoryBlocks := [first, second, third, block "top" 0x1_0000 0x4000]
  devices := []

def PageSized (policy : Policy) : Prop := ∀ r ∈ policy.memory, 0 < r.size ∧ 4096 ∣ r.size.toNat ∧ 0 < r.align

/-- A region is assigned an address outside of all memory blocks, and the order of the blocks decides an address. -/
theorem write_not_assigns :
    (¬∀ policy out, policy.UniqueNames → PageSized policy → write policy = .ok out → Sound policy out) ∧
      ¬∀ policy policy' out out', policy.UniqueNames → PageSized policy → policy.Reordered policy' →
        write policy = .ok out → write policy' = .ok out' → out.Perm out' := by
  constructor
  · intro hclaim
    have hsound := hclaim wrappingPolicy [emptyRegion "ram" 0xffff_ffff_ffff_f000 (some 0x2000)]
      (by unfold Policy.UniqueNames; decide) (by unfold PageSized; decide) rfl
    have hassigned := List.forall₂_cons.mp hsound.assigned
    obtain ⟨b, hb, -, hx⟩ := hassigned.1.inside rfl 0x3000
      ⟨0x2000, rfl, Nat.le_of_ble_eq_true rfl, Nat.le_of_ble_eq_true rfl⟩
    obtain rfl := List.mem_singleton.mp hb
    simp [extent, block] at hx
  · intro hclaim
    have hreordered : (adjacentPolicy lowBlock middleBlock highBlock).Reordered
        (adjacentPolicy lowBlock highBlock middleBlock) :=
      ⟨List.Perm.refl _, (List.Perm.swap highBlock middleBlock _).cons lowBlock, List.Perm.refl _⟩
    have hwrite : write (adjacentPolicy lowBlock middleBlock highBlock) =
        .ok [emptyRegion "ram" 0x3000 (some 0x1000)] := by rfl
    have hwrite' : write (adjacentPolicy lowBlock highBlock middleBlock) =
        .ok [emptyRegion "ram" 0x3000 (some 0x1_0000)] := by rfl
    have hperm := hclaim _ _ _ _ (by unfold Policy.UniqueNames; decide) (by unfold PageSized; decide) hreordered hwrite
      hwrite'
    have heq := List.singleton_perm_singleton.mp hperm
    simp [emptyRegion] at heq

end Muen.Tools.Mucfgalloc
