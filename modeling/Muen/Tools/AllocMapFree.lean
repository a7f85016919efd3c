import Muen.Tools.AllocMap

/-!
# Free memory of a map

The addresses that a variable allocation can be taken from, and what the operations of the memory map make of
them. In a map in which no two free regions lie next to each other, what is allocated only depends on them.
-/

namespace Muen.Tools.AllocMap
open Muen.Lib

/-- A region from which `Allocate_Variable` takes memory. -/
def Region.isFree (r : Region) : Bool := r.kind = .empty ∧ r.allocatable

/-- A region of the policy, taken out of the free and of the device memory. -/
def Region.isTaken (r : Region) : Bool := r.kind = .fixed ∨ r.kind = .allocated

/-- A region in which `Allocate_Fixed` reserves memory. -/
def Region.isOpen (r : Region) : Bool := r.kind = .empty ∨ r.kind = .device

/-- Two regions that share no address. -/
def Apart (r s : Region) : Prop := r.lastAddress < s.firstAddress ∨ s.lastAddress < r.firstAddress

def free (l : List Region) : Set Unsigned64 := covered Region.toSet (l.filter Region.isFree)

/-- The addresses from `first` to `last` lie in one region that is open. -/
def Opens (l : List Region) (first last : Unsigned64) : Prop :=
  ∃ r ∈ l, r.isOpen ∧ r.firstAddress ≤ first ∧ last ≤ r.lastAddress

/-- A sorted map with no two free regions next to each other. -/
structure Tidy (l : List Region) : Prop where
  sorted : Sorted l
  apart : ∀ r ∈ l, ∀ s ∈ l, r.isFree → s.isFree → r.lastAddress.toNat + 1 ≠ s.firstAddress.toNat
  devices : ∀ r ∈ l, r.kind = .device → r.allocatable = false

lemma mem_free {l : List Region} {x : Unsigned64} :
    x ∈ free l ↔ ∃ r ∈ l, r.isFree ∧ r.firstAddress ≤ x ∧ x ≤ r.lastAddress := by
  constructor
  · rintro ⟨r, hr, hx⟩
    obtain ⟨hmem, hfree⟩ := List.mem_filter.mp hr
    exact ⟨r, hmem, hfree, hx⟩
  · rintro ⟨r, hmem, hfree, hx⟩
    exact ⟨r, List.mem_filter.mpr ⟨hmem, hfree⟩, hx⟩

lemma free_append (l m : List Region) : free (l ++ m) = free l ∪ free m := by
  simp only [free, List.filter_append, covered_append]

lemma free_cons (r : Region) (l : List Region) : free (r :: l) = (if r.isFree then r.toSet else ∅) ∪ free l := by
  unfold free
  by_cases h : r.isFree
  · rw [List.filter_cons_of_pos h, covered_cons, if_pos h]
  · rw [List.filter_cons_of_neg h, if_neg h, Set.empty_union]

lemma tidy_nil : Tidy [] := ⟨ordered_nil, by simp, by simp⟩

section Tidy

variable {l l' : List Region}

/-- Two members of a map that share an address are the same. -/
lemma Tidy.eq_of_mem (h : Tidy l) {r s : Region} (hr : r ∈ l) (hs : s ∈ l) {x : Unsigned64}
    (hrx : r.firstAddress ≤ x ∧ x ≤ r.lastAddress) (hsx : s.firstAddress ≤ x ∧ x ≤ s.lastAddress) : r = s := by
  rcases h.sorted.compare hr hs with heq | hlt | hlt
  · exact heq
  · bv_omega
  · bv_omega

/-- Free addresses in a row lie in one region. -/
lemma Tidy.exists_region (h : Tidy l) {a b : Unsigned64} (hab : a ≤ b) (hfree : ∀ x, a ≤ x → x ≤ b → x ∈ free l) :
    ∃ r ∈ l, r.isFree ∧ r.firstAddress ≤ a ∧ b ≤ r.lastAddress := by
  obtain ⟨r, hr, hrfree, hfirst, hlast⟩ := mem_free.mp (hfree a (BitVec.le_refl a) hab)
  refine ⟨r, hr, hrfree, hfirst, ?_⟩
  by_contra hend
  have hnext : r.lastAddress + 1 ≤ b ∧ r.lastAddress < r.lastAddress + 1 := by bv_omega
  obtain ⟨s, hs, hsfree, hsfirst, hslast⟩ := mem_free.mp (hfree (r.lastAddress + 1) (by bv_omega) hnext.1)
  rcases h.sorted.compare hr hs with rfl | hlt | hlt
  · bv_omega
  · exact h.apart r hr s hs hrfree hsfree (by bv_omega)
  · bv_omega

/-- The free regions are fixed by the free addresses. -/
lemma Tidy.same_region (h : Tidy l) (h' : Tidy l') (hfree : free l = free l') {r : Region} (hr : r ∈ l)
    (hrfree : r.isFree) :
    ∃ r' ∈ l', r'.isFree ∧ r'.firstAddress = r.firstAddress ∧ r'.lastAddress = r.lastAddress := by
  have hrange := h.sorted.1 r hr
  obtain ⟨r', hr', hrfree', hfirst, hlast⟩ := h'.exists_region hrange
    (fun x hx₁ hx₂ => hfree ▸ mem_free.mpr ⟨r, hr, hrfree, hx₁, hx₂⟩)
  have hrange' := h'.sorted.1 r' hr'
  obtain ⟨s, hs, -, hsfirst, hslast⟩ := h.exists_region hrange'
    (fun x hx₁ hx₂ => hfree ▸ mem_free.mpr ⟨r', hr', hrfree', hx₁, hx₂⟩)
  have heq : s = r := h.eq_of_mem hs hr (x := r.firstAddress) (by bv_omega) ⟨BitVec.le_refl _, hrange⟩
  subst heq
  exact ⟨r', hr', hrfree', by bv_omega, by bv_omega⟩

lemma isFree_of_variableFits {size alignment : Unsigned64} {e : Region} (h : variableFits size alignment e) :
    e.isFree ∧ firstMultiple alignment e + size - 1 ≤ e.lastAddress := by
  simp only [variableFits, decide_eq_true_eq] at h
  exact ⟨by simp [Region.isFree, h.1, h.2.1], h.2.2⟩

lemma variableFits_congr {size alignment : Unsigned64} {e e' : Region} (hfree : e'.isFree)
    (hfirst : e'.firstAddress = e.firstAddress) (hlast : e'.lastAddress = e.lastAddress)
    (h : variableFits size alignment e) : variableFits size alignment e' := by
  simp only [Region.isFree, decide_eq_true_eq] at hfree
  have hfits := (isFree_of_variableFits h).2
  simp only [variableFits, decide_eq_true_eq, firstMultiple, hfirst, hlast] at hfits ⊢
  exact ⟨hfree.2, hfree.1, hfits⟩

/-- The first region that passes a test lies below all others that pass it. -/
lemma find?_first {p : Region → Bool} (hsorted : Sorted l) {e r : Region} (hfind : l.find? p = some e) (hr : r ∈ l)
    (hp : p r) : r = e ∨ e.lastAddress < r.firstAddress := by
  obtain ⟨-, as, bs, rfl, has⟩ := List.find?_eq_some_iff_append.mp hfind
  rcases List.mem_append.mp hr with hr | hr
  · exact absurd hp (by simpa using has r hr)
  · rcases List.mem_cons.mp hr with rfl | hr
    · exact Or.inl rfl
    · exact Or.inr ((sorted_of_cons hsorted).2.2.2 r hr)

/-- The region that a variable allocation is taken from has the same bounds in maps with the same free memory. -/
lemma Tidy.find?_congr (h : Tidy l) (h' : Tidy l') (hfree : free l = free l') {size alignment : Unsigned64}
    {e : Region} (hfind : l.find? (variableFits size alignment) = some e) :
    ∃ e', l'.find? (variableFits size alignment) = some e' ∧ e'.firstAddress = e.firstAddress ∧
      e'.lastAddress = e.lastAddress := by
  have hmem := List.mem_of_find?_eq_some hfind
  have hfits : variableFits size alignment e := List.find?_some hfind
  obtain ⟨r', hr', hrfree', hrfirst, hrlast⟩ := h.same_region h' hfree hmem (isFree_of_variableFits hfits).1
  have hrfits := variableFits_congr hrfree' hrfirst hrlast hfits
  obtain ⟨e', hfind'⟩ : ∃ e', l'.find? (variableFits size alignment) = some e' :=
    Option.isSome_iff_exists.mp (List.find?_isSome.mpr ⟨r', hr', hrfits⟩)
  have hmem' := List.mem_of_find?_eq_some hfind'
  have hfits' : variableFits size alignment e' := List.find?_some hfind'
  obtain ⟨r, hr, hrfree, hfirst, hlast⟩ := h'.same_region h hfree.symm hmem' (isFree_of_variableFits hfits').1
  have hrange := h.sorted.1 e hmem
  have hrange' := h'.sorted.1 e' hmem'
  refine ⟨e', hfind', ?_⟩
  rcases find?_first h.sorted hfind hr (variableFits_congr hrfree hfirst hlast hfits') with rfl | hlt
  · exact ⟨hfirst.symm, hlast.symm⟩
  · rcases find?_first h'.sorted hfind' hr' hrfits with rfl | hlt'
    · exact ⟨hrfirst, hrlast⟩
    · bv_omega

end Tidy

/-! ### Reservation -/

section Pieces

variable {e reserved : Region}

lemma mem_reservePieces {r : Region} (h : r ∈ reservePieces e reserved) :
    (e.firstAddress ≠ reserved.firstAddress ∧
      r = ⟨.empty, e.firstAddress, reserved.firstAddress - 1, e.name, e.allocatable⟩) ∨ r = reserved ∨
    (e.lastAddress ≠ reserved.lastAddress ∧ r = { e with firstAddress := reserved.lastAddress + 1 }) := by
  unfold reservePieces at h
  split_ifs at h <;> simp_all

lemma reserved_mem (e reserved : Region) : reserved ∈ reservePieces e reserved := by
  simp [reservePieces]

/-- The pieces are apart from each other, and only those of a free region are free. -/
lemma pieces_apart (h₁ : e.firstAddress ≤ reserved.firstAddress) (h₂ : reserved.firstAddress ≤ reserved.lastAddress)
    (h₃ : reserved.lastAddress ≤ e.lastAddress) (htaken : reserved.isTaken) {r s : Region}
    (hr : r ∈ reservePieces e reserved) (hs : s ∈ reservePieces e reserved) (hrfree : r.isFree) (hsfree : s.isFree) :
    r.lastAddress.toNat + 1 ≠ s.firstAddress.toNat := by
  have hnot : reserved.isFree = false := by
    simp only [Region.isTaken, Region.isFree, decide_eq_true_eq, decide_eq_false_iff_not] at htaken ⊢
    rcases htaken with h | h <;> simp [h]
  rcases mem_reservePieces hr with ⟨hr', rfl⟩ | rfl | ⟨hr', rfl⟩ <;>
    rcases mem_reservePieces hs with ⟨hs', rfl⟩ | rfl | ⟨hs', rfl⟩ <;>
    simp_all <;> bv_omega

end Pieces

/-- What a reservation in a region leaves free, and what it takes. -/
structure Reserves (l : List Region) (reserved : Region) (l' : List Region) : Prop where
  tidy : Tidy l'
  free : free l' = free l \ reserved.toSet
  taken : ∀ r, r.isTaken → (r ∈ l' ↔ r ∈ l ∨ r = reserved)
  opens : ∀ f g, f ≤ g → (Opens l' f g ↔ Opens l f g ∧ (g < reserved.firstAddress ∨ reserved.lastAddress < f))

section Reserve

variable {pre post : List Region} {e reserved : Region}

lemma isFree_reserved (htaken : reserved.isTaken) : reserved.isFree = false := by
  simp only [Region.isTaken, Region.isFree, decide_eq_true_eq, decide_eq_false_iff_not] at htaken ⊢
  rcases htaken with h | h <;> simp [h]

lemma not_isOpen_of_isTaken {r : Region} (htaken : r.isTaken) : r.isOpen = false := by
  simp only [Region.isTaken, Region.isOpen, decide_eq_true_eq, decide_eq_false_iff_not] at htaken ⊢
  rcases htaken with h | h <;> simp [h]

lemma not_isTaken_of_current (hkind : e.kind = .empty ∨ e.kind = .device) : e.isTaken = false := by
  simp only [Region.isTaken, decide_eq_false_iff_not]
  rcases hkind with h | h <;> simp [h]

/-- A free region loses what is reserved in it; the pieces of any other one are not free. -/
lemma free_reservePieces (h₁ : e.firstAddress ≤ reserved.firstAddress)
    (h₂ : reserved.firstAddress ≤ reserved.lastAddress) (h₃ : reserved.lastAddress ≤ e.lastAddress)
    (hdevice : e.kind = .device → e.allocatable = false) (hkind : e.kind = .empty ∨ e.kind = .device)
    (htaken : reserved.isTaken) :
    free (reservePieces e reserved) = (if e.isFree then e.toSet else ∅) \ reserved.toSet := by
  have hnot := isFree_reserved htaken
  have hfree : e.isFree = e.allocatable := by
    rcases hkind with h | h
    · simp [Region.isFree, h]
    · simp [Region.isFree, h, hdevice h]
  ext x
  rw [mem_free]
  constructor
  · rintro ⟨r, hr, hrfree, hx⟩
    rcases mem_reservePieces hr with ⟨hr, rfl⟩ | rfl | ⟨hr, rfl⟩
    · have halloc : e.allocatable := by simpa [Region.isFree] using hrfree
      rw [if_pos (hfree.trans halloc)]
      simp only [Region.toSet, Set.mem_sdiff, Set.mem_ofPred_eq] at hx ⊢
      bv_omega
    · simp [hnot] at hrfree
    · have halloc : e.allocatable := by
        simp only [Region.isFree, decide_eq_true_eq] at hrfree
        exact hrfree.2
      rw [if_pos (hfree.trans halloc)]
      simp only [Region.toSet, Set.mem_sdiff, Set.mem_ofPred_eq] at hx ⊢
      bv_omega
  · rintro ⟨hxe, hxr⟩
    by_cases halloc : e.isFree
    · rw [if_pos halloc] at hxe
      simp only [Region.toSet, Set.mem_ofPred_eq] at hxe hxr
      have hkind' : e.kind = .empty ∧ e.allocatable := by simpa [Region.isFree] using halloc
      by_cases hlow : x < reserved.firstAddress
      · have hne : e.firstAddress ≠ reserved.firstAddress := by bv_omega
        refine ⟨⟨.empty, e.firstAddress, reserved.firstAddress - 1, e.name, e.allocatable⟩, ?_, ?_, ?_, ?_⟩
        · simp [reservePieces, hne]
        · simp [Region.isFree, hkind'.2]
        · exact hxe.1
        · simp only
          bv_omega
      · have hne : e.lastAddress ≠ reserved.lastAddress := by bv_omega
        refine ⟨{ e with firstAddress := reserved.lastAddress + 1 }, ?_, halloc, ?_, hxe.2⟩
        · simp [reservePieces, hne]
        · simp only
          bv_omega
    · rw [if_neg halloc] at hxe
      exact absurd hxe (Set.notMem_empty x)

lemma Tidy.reserve (h : Tidy (pre ++ e :: post)) (h₁ : e.firstAddress ≤ reserved.firstAddress)
    (h₂ : reserved.firstAddress ≤ reserved.lastAddress) (h₃ : reserved.lastAddress ≤ e.lastAddress)
    (hkind : e.kind = .empty ∨ e.kind = .device) (htaken : reserved.isTaken) :
    Reserves (pre ++ e :: post) reserved (pre ++ (reservePieces e reserved ++ post)) := by
  have hpieces := pieces_reserve h₁ h₂ h₃
  have hdevice := h.devices e (by simp)
  have hfree := free_reservePieces h₁ h₂ h₃ hdevice hkind htaken
  have hsorted : Sorted (pre ++ (reservePieces e reserved ++ post)) := by
    refine h.sorted.replace hpieces.sorted ?_ ?_
    · intro d hd c hc
      have := (hpieces.bounds d hd).1
      bv_omega
    · intro d hd c hc
      have := (hpieces.bounds d hd).2
      bv_omega
  obtain ⟨-, hbefore, he, hafter⟩ := sorted_of_cons h.sorted
  have hmem : ∀ {r}, r ∈ pre ++ (reservePieces e reserved ++ post) ↔
      (r ∈ pre ∨ r ∈ post) ∨ r ∈ reservePieces e reserved := by
    intro r
    simp only [List.mem_append]
    tauto
  have hold : ∀ {r}, r ∈ pre ∨ r ∈ post → r ∈ pre ++ e :: post ∧
      (r.lastAddress < e.firstAddress ∨ e.lastAddress < r.firstAddress) ∧ r.firstAddress ≤ r.lastAddress := by
    intro r hr
    have hl : r ∈ pre ++ e :: post := by
      simp only [List.mem_append, List.mem_cons]
      tauto
    exact ⟨hl, hr.imp (hbefore r) (hafter r), h.sorted.1 r hl⟩
  have hpiece : ∀ {r}, r ∈ reservePieces e reserved → r.isFree → e.isFree ∧ e.firstAddress ≤ r.firstAddress ∧
      r.firstAddress ≤ r.lastAddress ∧ r.lastAddress ≤ e.lastAddress := by
    intro r hr hrfree
    have hx : r.firstAddress ∈ free (reservePieces e reserved) :=
      mem_free.mpr ⟨r, hr, hrfree, BitVec.le_refl _, hpieces.sorted.1 r hr⟩
    rw [hfree] at hx
    refine ⟨?_, (hpieces.bounds r hr).1, hpieces.sorted.1 r hr, (hpieces.bounds r hr).2⟩
    by_contra hnot
    rw [if_neg hnot] at hx
    exact absurd hx.1 (Set.notMem_empty _)
  refine ⟨⟨hsorted, ?_, ?_⟩, ?_, ?_, ?_⟩
  · intro r hr s hs hrfree hsfree
    rcases hmem.mp hr with hr | hr <;> rcases hmem.mp hs with hs | hs
    · exact h.apart r (hold hr).1 s (hold hs).1 hrfree hsfree
    · obtain ⟨hefree, hs₁, hs₂, hs₃⟩ := hpiece hs hsfree
      obtain ⟨hrl, hrange, hr₁⟩ := hold hr
      have hne := h.apart r hrl e (by simp) hrfree hefree
      bv_omega
    · obtain ⟨hefree, hr₁, hr₂, hr₃⟩ := hpiece hr hrfree
      obtain ⟨hsl, hrange, hs₁⟩ := hold hs
      have hne := h.apart e (by simp) s hsl hefree hsfree
      bv_omega
    · exact pieces_apart h₁ h₂ h₃ htaken hr hs hrfree hsfree
  · intro r hr hrdevice
    rcases hmem.mp hr with hr | hr
    · exact h.devices r (hold hr).1 hrdevice
    · rcases mem_reservePieces hr with ⟨-, rfl⟩ | rfl | ⟨-, rfl⟩
      · simp at hrdevice
      · simp [Region.isTaken, hrdevice] at htaken
      · exact hdevice hrdevice
  · have hapart : ∀ m : List Region, (∀ r ∈ m, r ∈ pre ∨ r ∈ post) → free m \ reserved.toSet = free m := by
      intro m hm
      refine sdiff_eq_left.mpr (Set.disjoint_left.mpr ?_)
      intro x hx hxr
      obtain ⟨r, hr, -, hxfirst, hxlast⟩ := mem_free.mp hx
      obtain ⟨-, hrange, -⟩ := hold (hm r hr)
      simp only [Region.toSet, Set.mem_ofPred_eq] at hxr
      bv_omega
    rw [free_append, free_append, hfree, free_append, free_cons, Set.union_sdiff_distrib, Set.union_sdiff_distrib,
      hapart pre (fun r hr => Or.inl hr), hapart post (fun r hr => Or.inr hr)]
  · intro r hrtaken
    have hne : r ≠ e := by
      rintro rfl
      simp [not_isTaken_of_current hkind] at hrtaken
    have hpieces : r ∈ reservePieces e reserved ↔ r = reserved := by
      refine ⟨fun hr => ?_, fun hr => hr ▸ reserved_mem e reserved⟩
      rcases mem_reservePieces hr with ⟨-, rfl⟩ | hr | ⟨-, rfl⟩
      · simp [Region.isTaken] at hrtaken
      · exact hr
      · rcases hkind with hk | hk <;> simp [Region.isTaken, hk] at hrtaken
    rw [hmem, hpieces]
    simp only [List.mem_append, List.mem_cons]
    tauto
  · intro f g hfg
    have hclosed := not_isOpen_of_isTaken htaken
    constructor
    · rintro ⟨r, hr, hopen, hf, hg⟩
      rcases hmem.mp hr with hr | hr
      · obtain ⟨hl, hrange, -⟩ := hold hr
        refine ⟨⟨r, hl, hopen, hf, hg⟩, ?_⟩
        bv_omega
      · have heopen : e.isOpen := by simpa [Region.isOpen] using hkind
        have hbounds := hpieces.bounds r hr
        refine ⟨⟨e, by simp, heopen, by bv_omega, by bv_omega⟩, ?_⟩
        rcases mem_reservePieces hr with ⟨hne, rfl⟩ | rfl | ⟨hne, rfl⟩
        · simp only at hg
          bv_omega
        · simp [hclosed] at hopen
        · simp only at hf
          bv_omega
    · rintro ⟨⟨r, hr, hopen, hf, hg⟩, hapart⟩
      by_cases hre : r = e
      · subst hre
        rcases hapart with hlow | hhigh
        · have hne : r.firstAddress ≠ reserved.firstAddress := by bv_omega
          refine ⟨⟨.empty, r.firstAddress, reserved.firstAddress - 1, r.name, r.allocatable⟩, ?_, rfl, hf, ?_⟩
          · exact hmem.mpr (Or.inr (by simp [reservePieces, hne]))
          · simp only
            bv_omega
        · have hne : r.lastAddress ≠ reserved.lastAddress := by bv_omega
          refine ⟨{ r with firstAddress := reserved.lastAddress + 1 }, ?_, hopen, ?_, hg⟩
          · exact hmem.mpr (Or.inr (by simp [reservePieces, hne]))
          · simp only
            bv_omega
      · refine ⟨r, hmem.mpr (Or.inl ?_), hopen, hf, hg⟩
        simp only [List.mem_append, List.mem_cons] at hr
        tauto

end Reserve

lemma elems_of_nodes {map : Map} {pre post : List (Nat × Region)} {k : Nat} {e : Region}
    (h : map.nodes = pre ++ (k, e) :: post) : map.elems = pre.map Prod.snd ++ e :: post.map Prod.snd := by
  simp [CursorList.elems, h]

lemma allocateFixed_reserves {map map' : Map} {name : String} {first last : Unsigned64} (h : Tidy map.elems)
    (hlt : first < last) (hrun : allocateFixed map name first last = .ok map') :
    Reserves map.elems ⟨.fixed, first, last, name, false⟩ map'.elems := by
  obtain ⟨pre, k, e, post, hnodes, hmap, hkind, h₁, h₃⟩ := allocateFixed_pieces hrun
  have helems := elems_of_nodes hnodes
  rw [← hmap, reserve_pieces hnodes, helems]
  rw [helems] at h
  exact h.reserve h₁ (BitVec.le_of_lt hlt) h₃ hkind rfl

lemma fixedLoop_exists (name : String) {first last : Unsigned64} (hlt : first < last)
    (nodes : List (Nat × Region)) (hsorted : Sorted (nodes.map Prod.snd)) :
    (∃ k e, fixedLoop name first last nodes = .ok (some (k, e))) ↔ Opens (nodes.map Prod.snd) first last := by
  induction nodes with
  | nil => simp [fixedLoop, Opens]
  | cons n nodes ih =>
    obtain ⟨k, e⟩ := n
    obtain ⟨he, hgap, hrest⟩ := ordered_cons.mp hsorted
    unfold fixedLoop
    split_ifs with habove hfits
    · simp only [exists_false, false_iff]
      rintro ⟨r, hr, -, hf, hg⟩
      rcases List.mem_cons.mp hr with rfl | hr
      · bv_omega
      · have hr' := hgap r hr
        simp only at hr' he
        bv_omega
    · refine iff_of_true ⟨k, e, rfl⟩ ⟨e, by simp, ?_, hfits.2⟩
      simpa [Region.isOpen] using hfits.1
    · rw [ih hrest]
      constructor
      · rintro ⟨r, hr, hopen, hf, hg⟩
        exact ⟨r, List.mem_cons_of_mem _ hr, hopen, hf, hg⟩
      · rintro ⟨r, hr, hopen, hf, hg⟩
        rcases List.mem_cons.mp hr with rfl | hr
        · exact absurd ⟨by simpa [Region.isOpen] using hopen, hf, hg⟩ hfits
        · exact ⟨r, hr, hopen, hf, hg⟩

/-- A fixed allocation only fails where no region holds it. -/
lemma allocateFixed_exists {map : Map} (name : String) {first last : Unsigned64} (h : Sorted map.elems)
    (hlt : first < last) :
    (∃ map', allocateFixed map name first last = .ok map') ↔ Opens map.elems first last := by
  have hloop := fixedLoop_exists name hlt map.nodes h
  unfold allocateFixed CursorList.elems
  rw [← hloop]
  cases fixedLoop name first last map.nodes with
  | error err => simp [bind, Except.bind]
  | ok curr =>
    cases curr with
    | none => simp [bind, Except.bind]
    | some curr => exact iff_of_true ⟨_, rfl⟩ ⟨curr.1, curr.2, rfl⟩

/-- A variable allocation whose bounds do not wrap around. -/
structure Allocates (l : List Region) (name : String) (size alignment address : Unsigned64) (l' : List Region) :
    Prop where
  reserves : Reserves l ⟨.allocated, address, address + size - 1, name, false⟩ l'
  address_eq : ∃ e, l.find? (variableFits size alignment) = some e ∧ address = firstMultiple alignment e
  aligned : alignment.toNat ∣ address.toNat
  fits : address.toNat + size.toNat ≤ 2 ^ 64
  free : ∀ x, address ≤ x → x ≤ address + size - 1 → x ∈ free l

lemma allocateVariable_allocates {map map' : Map} {name : String} {size alignment : Unsigned64}
    (h : Tidy map.elems) (hpre : 0 < size ∧ 0 < alignment) (hfits : (Call.allocateVariable name size alignment).Fits map)
    (hrun : allocateVariable map name size alignment = .ok map') :
    ∃ address, Allocates map.elems name size alignment address map'.elems := by
  unfold allocateVariable at hrun
  cases hloop : variableLoop size alignment map.nodes with
  | none => simp [hloop] at hrun
  | some curr =>
    obtain ⟨k, e⟩ := curr
    obtain ⟨⟨pre, post, hnodes⟩, htest, hfind⟩ := variableLoop_some hloop
    obtain ⟨hwrap, hroom⟩ := hfits e hfind
    simp only [hloop] at hrun
    have hmult := firstMultiple_toNat hpre.2 hwrap
    have hle := le_alignedFirst (e := e) hpre.2
    obtain ⟨hefree, hend⟩ := isFree_of_variableFits htest
    have hkind : e.kind = .empty := by
      simp only [Region.isFree, decide_eq_true_eq] at hefree
      exact hefree.1
    have hsize := hpre.1
    have h₁ : e.firstAddress ≤ firstMultiple alignment e := by bv_omega
    have h₂ : firstMultiple alignment e ≤ firstMultiple alignment e + size - 1 := by bv_omega
    have helems := elems_of_nodes hnodes
    refine ⟨firstMultiple alignment e, ?_, ⟨e, hfind, rfl⟩, ?_, ?_, ?_⟩
    · rw [← Except.ok.inj hrun, reserve_pieces hnodes, helems]
      rw [helems] at h
      exact h.reserve h₁ h₂ hend (Or.inl hkind) rfl
    · rw [hmult]
      exact Nat.dvd_mul_left _ _
    · rw [hmult]
      exact hroom
    · intro x hx₁ hx₂
      exact mem_free.mpr ⟨e, by rw [helems]; simp, hefree, by bv_omega, by bv_omega⟩

lemma variableLoop_none {size alignment : Unsigned64} {ns : List (Nat × Region)}
    (h : variableLoop size alignment ns = none) : (ns.map Prod.snd).find? (variableFits size alignment) = none := by
  induction ns with
  | nil => rfl
  | cons n ns ih =>
    obtain ⟨k, e⟩ := n
    unfold variableLoop at h
    by_cases hfits : variableFits size alignment e
    · rw [if_pos hfits] at h
      cases h
    · rw [if_neg hfits] at h
      rw [List.map_cons, List.find?_cons_of_neg hfits]
      exact ih h

/-- A variable allocation only fails where no region passes its test. -/
lemma allocateVariable_exists {map : Map} {size alignment : Unsigned64} {e : Region} (name : String)
    (h : map.elems.find? (variableFits size alignment) = some e) :
    ∃ map', allocateVariable map name size alignment = .ok map' := by
  unfold allocateVariable
  cases hloop : variableLoop size alignment map.nodes with
  | none =>
    rw [CursorList.elems, variableLoop_none hloop] at h
    cases h
  | some curr => exact ⟨_, rfl⟩

end Muen.Tools.AllocMap
