import Muen.Lib.Bytes
import Mathlib.Data.BitVec
import Mathlib.Data.List.GetD
import Mathlib.Order.CompletePartialOrder

/-!
# Address spaces

The bytes of an address space with addresses of some width, and ranges of addresses that may wrap around. A range that
is written block by block holds the blocks afterwards, and nothing else has changed.
-/

namespace Muen.Lib

abbrev AddressSpace (w : Nat) := BitVec w → Byte

namespace AddressSpace

variable {w : Nat}

/-- The given number of addresses from the first one on. -/
def range (first : BitVec w) (length : Nat) : Set (BitVec w) := {a | (a - first).toNat < length}

def read (m : AddressSpace w) (first : BitVec w) (length : Nat) : List Byte :=
  (List.range length).map (fun i => m (first + BitVec.ofNat w i))

def write (m : AddressSpace w) (first : BitVec w) (bytes : List Byte) : AddressSpace w :=
  fun a => bytes.getD (a - first).toNat (m a)

/-- The number in the given number of bytes, the lowest one first. -/
def readLe (m : AddressSpace w) (first : BitVec w) (k : Nat) : Nat := ofLeBytes (m.read first k)

def writeLe (m : AddressSpace w) (first : BitVec w) (k n : Nat) : AddressSpace w := m.write first (leBytes k n)

section Ranges

variable {first : BitVec w} {n : Nat}

instance (a first : BitVec w) (n : Nat) : Decidable (a ∈ range first n) :=
  inferInstanceAs (Decidable ((a - first).toNat < n))

lemma mem_range {a : BitVec w} : a ∈ range first n ↔ (a - first).toNat < n := Iff.rfl

lemma offset_toNat {i : Nat} (hi : i < 2 ^ w) : (first + BitVec.ofNat w i - first).toNat = i := by
  rw [add_sub_cancel_left, BitVec.toNat_ofNat, Nat.mod_eq_of_lt hi]

lemma add_mem_range {i : Nat} (hi : i < n) (hw : i < 2 ^ w) : first + BitVec.ofNat w i ∈ range first n := by
  rw [mem_range, offset_toNat hw]
  exact hi

lemma exists_of_mem_range {a : BitVec w} (h : a ∈ range first n) :
    ∃ i < n, i < 2 ^ w ∧ a = first + BitVec.ofNat w i := by
  refine ⟨(a - first).toNat, h, (a - first).isLt, ?_⟩
  rw [BitVec.ofNat_toNat, BitVec.setWidth_eq, add_sub_cancel]

/-- The distance of an address from one at or before it in a range. -/
lemma offset_ge {x y : Nat} (hx : x < 2 ^ w) (h : y ≤ x) :
    (first + BitVec.ofNat w x - (first + BitVec.ofNat w y)).toNat = x - y := by
  rw [add_sub_add_left_eq_sub, BitVec.toNat_sub_of_le]
  · rw [BitVec.toNat_ofNat, BitVec.toNat_ofNat, Nat.mod_eq_of_lt hx, Nat.mod_eq_of_lt (h.trans_lt hx)]
  · rw [BitVec.le_def, BitVec.toNat_ofNat, BitVec.toNat_ofNat, Nat.mod_eq_of_lt hx, Nat.mod_eq_of_lt (h.trans_lt hx)]
    exact h

/-- An address before a range that ends before the addresses wrap around is not in it. -/
lemma offset_lt {x y k : Nat} (h : x < y) (hk : y + k ≤ 2 ^ w) (hy : y < 2 ^ w) :
    first + BitVec.ofNat w x ∉ range (first + BitVec.ofNat w y) k := by
  rw [mem_range, add_sub_add_left_eq_sub, BitVec.toNat_sub, BitVec.toNat_ofNat, BitVec.toNat_ofNat,
    Nat.mod_eq_of_lt hy, Nat.mod_eq_of_lt (h.trans hy), Nat.mod_eq_of_lt (by omega)]
  omega

lemma range_mono {k : Nat} (h : n ≤ k) : range first n ⊆ range first k := fun _ ha => ha.trans_le h

lemma range_add_subset {x k : Nat} (h : x + n ≤ k) (hk : k ≤ 2 ^ w) :
    range (first + BitVec.ofNat w x) n ⊆ range first k := by
  intro a ha
  obtain ⟨i, hi, -, rfl⟩ := exists_of_mem_range ha
  rw [add_assoc, ← BitVec.ofNat_add]
  exact add_mem_range (by omega) (by omega)

lemma range_disjoint {b : BitVec w} {k : Nat} (h : first.toNat + n ≤ b.toNat) (hb : b.toNat + k ≤ 2 ^ w) :
    Disjoint (range first n) (range b k) := by
  rw [Set.disjoint_left]
  intro a ha hmem
  rw [mem_range, BitVec.toNat_sub] at ha hmem
  have hfirst := first.isLt
  have hlt := a.isLt
  have hge : b.toNat ≤ a.toNat := by
    by_contra hge
    rw [Nat.mod_eq_of_lt (by omega)] at hmem
    omega
  have hmod : (2 ^ w - first.toNat + a.toNat) % 2 ^ w = a.toNat - first.toNat := by
    rw [show 2 ^ w - first.toNat + a.toNat = a.toNat - first.toNat + 2 ^ w by omega, Nat.add_mod_right,
      Nat.mod_eq_of_lt (by omega)]
  rw [hmod] at ha
  have hmod' : (2 ^ w - b.toNat + a.toNat) % 2 ^ w = a.toNat - b.toNat := by
    rw [show 2 ^ w - b.toNat + a.toNat = a.toNat - b.toNat + 2 ^ w by omega, Nat.add_mod_right,
      Nat.mod_eq_of_lt (by omega)]
  omega

end Ranges

section Access

variable {m m' : AddressSpace w} {first : BitVec w}

lemma write_of_notMem {bytes : List Byte} {a : BitVec w} (h : a ∉ range first bytes.length) :
    m.write first bytes a = m a := by
  unfold write
  exact List.getD_eq_default _ _ (not_lt.mp h)

lemma write_of_mem {bytes : List Byte} {a : BitVec w} (h : a ∈ range first bytes.length) :
    m.write first bytes a = bytes.getD (a - first).toNat 0 := by
  unfold write
  rw [List.getD_eq_getElem _ _ h, List.getD_eq_getElem _ _ h]

@[simp] lemma read_length (n : Nat) : (m.read first n).length = n := by
  simp [read]

lemma read_getD {n i : Nat} (hi : i < n) : (m.read first n).getD i 0 = m (first + BitVec.ofNat w i) := by
  rw [List.getD_eq_getElem _ _ (by simpa using hi)]
  simp [read]

lemma read_congr {n : Nat} (hn : n ≤ 2 ^ w) (h : ∀ a ∈ range first n, m a = m' a) :
    m.read first n = m'.read first n := by
  apply List.map_congr_left
  intro i hi
  have hlt := List.mem_range.mp hi
  exact h _ (add_mem_range hlt (hlt.trans_le hn))

/-- What has been written is read. -/
lemma read_write (m : AddressSpace w) (first : BitVec w) {bytes : List Byte} (h : bytes.length ≤ 2 ^ w) :
    (m.write first bytes).read first bytes.length = bytes := by
  apply List.ext_getElem (read_length _)
  intro i hi hi'
  have hw : i < 2 ^ w := hi'.trans_le h
  have hmem : first + BitVec.ofNat w i ∈ range first bytes.length := add_mem_range hi' hw
  simp only [read, List.getElem_map, List.getElem_range]
  rw [write_of_mem hmem, offset_toNat hw, List.getD_eq_getElem _ _ hi']

lemma readLe_writeLe {k n : Nat} (hk : k ≤ 2 ^ w) (hn : n < 256 ^ k) : (m.writeLe first k n).readLe first k = n := by
  have h := read_write m first (by rw [leBytes_length]; exact hk : (leBytes k n).length ≤ 2 ^ w)
  rw [leBytes_length] at h
  unfold readLe writeLe
  rw [h, ofLeBytes_leBytes k n hn]

lemma leBytes_readLe (m : AddressSpace w) (first : BitVec w) (k : Nat) : leBytes k (m.readLe first k) = m.read first k := by
  have h := leBytes_ofLeBytes (m.read first k)
  rwa [read_length] at h

/-- The blocks of a range one after the other. -/
lemma read_blocks (m : AddressSpace w) (first : BitVec w) (k n : Nat) :
    (List.range n).flatMap (fun i => m.read (first + BitVec.ofNat w (k * i)) k) = m.read first (k * n) := by
  induction n with
  | zero => rfl
  | succ n ih =>
    rw [List.range_succ, List.flatMap_append, ih, Nat.mul_succ]
    unfold read
    rw [List.range_add, List.map_append, List.map_map, List.flatMap_singleton]
    congr 1
    apply List.map_congr_left
    intro j _
    simp only [Function.comp]
    rw [BitVec.ofNat_add, add_assoc]

end Access

section Blocks

variable {k n : Nat}

/-- A range written block by block, with blocks that may be read from elsewhere. -/
lemma foldl_write_blocks (first : BitVec w) (block : AddressSpace w → Nat → List Byte) (hlength : ∀ m i, (block m i).length = k)
    (hfits : k * n ≤ 2 ^ w) (m : AddressSpace w)
    (hblock : ∀ m' i, i < n → (∀ a ∉ range first (k * n), m' a = m a) → block m' i = block m i) :
    ∀ l ≤ n,
      (∀ a ∉ range first (k * n), (List.range l).foldl
        (fun m i => m.write (first + BitVec.ofNat w (k * i)) (block m i)) m a = m a) ∧
      ∀ i < l, ∀ j < k, (List.range l).foldl
        (fun m i => m.write (first + BitVec.ofNat w (k * i)) (block m i)) m (first + BitVec.ofNat w (k * i + j)) =
          (block m i).getD j 0 := by
  intro l
  induction l with
  | zero => exact fun _ => ⟨fun _ _ => rfl, fun i hi => absurd hi (Nat.not_lt_zero i)⟩
  | succ l ih =>
    intro hl
    obtain ⟨houtside, hwritten⟩ := ih (by omega)
    generalize hm' : (List.range l).foldl (fun m i => m.write (first + BitVec.ofNat w (k * i)) (block m i)) m = m'
      at houtside hwritten
    have hsame := hblock m' l (by omega) houtside
    have hnext : k * (l + 1) ≤ k * n := Nat.mul_le_mul_left k hl
    rw [Nat.mul_succ] at hnext
    rw [List.range_succ, List.foldl_append, hm', List.foldl_cons, List.foldl_nil, hsame]
    constructor
    · intro a ha
      rw [write_of_notMem, houtside a ha]
      intro hmem
      obtain ⟨j, hj, hjw, rfl⟩ := exists_of_mem_range hmem
      rw [hlength] at hj
      apply ha
      rw [add_assoc, ← BitVec.ofNat_add]
      exact add_mem_range (by omega) (by omega)
    · intro i hi j hj
      by_cases heq : i = l
      · subst heq
        have hoffset : (first + BitVec.ofNat w (k * i + j) - (first + BitVec.ofNat w (k * i))).toNat = j := by
          rw [offset_ge (by omega) (by omega)]
          omega
        rw [write_of_mem]
        · rw [hoffset]
        · rw [mem_range, hoffset, hlength]
          exact hj
      · have hlt : k * i + j < k * l := by
          have hle := Nat.mul_le_mul_left k (by omega : i + 1 ≤ l)
          rw [Nat.mul_succ] at hle
          omega
        rw [write_of_notMem, hwritten i (by omega) j hj]
        rw [hlength]
        exact offset_lt hlt (by omega) (by omega)

end Blocks

end AddressSpace

end Muen.Lib
