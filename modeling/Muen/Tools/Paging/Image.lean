import Muen.Tools.Paging.Ept
import Muen.Tools.Paging.References

/-!
# The serialized image of a layout

`Serialize` writes the tables in the order in which `Update_References` gives them their addresses.
So the table at an address stands in the image at the distance of the address from the beginning.
-/

namespace Muen.Tools.Paging
open Muen.Lib

def serializeLevels (layout : MemoryLayout) (serializers : Nat → PageTable → List Byte) : Nat → List Byte
  | 0 => []
  | 1 => []
  | level + 2 =>
    (layout.structures (level + 2)).flatMap (fun p => serializers (level + 2) p.2) ++
      serializeLevels layout serializers (level + 1)

def serialize (layout : MemoryLayout) (serializers : Nat → PageTable → List Byte) :
    Except PagingError (List Byte) := do
  let count ← layout.level1Table.count
  if count = 0 then .ok []
  else .ok (serializers 1 layout.level1Table ++ serializeLevels layout serializers layout.levels)

/-- The EPT serializers in ascending order of their levels. -/
def eptSerializers : Nat → PageTable → List Byte
  | 1 => Ept.serializePml4
  | 2 => Ept.serializePdpt
  | 3 => Ept.serializePd
  | _ => Ept.serializePt

/-- The raw form of the entries of a level. -/
def eptRaw : Nat → TableEntry → Unsigned64
  | 1 => Ept.rawPml4
  | 2 => Ept.rawDir
  | 3 => Ept.rawDir
  | _ => Ept.rawPt

lemma eptSerializers_eq (level : Nat) (table : PageTable) :
    eptSerializers level table = Ept.serializeTable (eptRaw level) table := by
  unfold eptSerializers eptRaw
  split <;> rfl

/-! ### The order of the tables -/

/-- The tables of the levels from the given one down to two, with their levels. -/
def tablesFrom (layout : MemoryLayout) : Nat → List (Nat × PageTable)
  | 0 => []
  | 1 => []
  | level + 2 => (layout.structures (level + 2)).map (fun p => (level + 2, p.2)) ++ tablesFrom layout (level + 1)

def tableList (layout : MemoryLayout) : List (Nat × PageTable) :=
  (1, layout.level1Table) :: tablesFrom layout layout.levels

lemma serializeLevels_eq (layout : MemoryLayout) (serializers : Nat → PageTable → List Byte) (level : Nat) :
    serializeLevels layout serializers level = (tablesFrom layout level).flatMap (fun p => serializers p.1 p.2) := by
  induction level with
  | zero => rfl
  | succ level ih =>
    cases level with
    | zero => rfl
    | succ level => rw [serializeLevels, tablesFrom, ih, List.flatMap_append, List.flatMap_map]

/-- The image of the EPT tables. -/
def eptImage (layout : MemoryLayout) : List Byte := (tableList layout).flatMap (fun p => eptSerializers p.1 p.2)

lemma serialize_eq {layout : MemoryLayout} (hpos : 0 < layout.level1Table.length)
    (hlt : layout.level1Table.length < 512) : serialize layout eptSerializers = .ok (eptImage layout) := by
  have hne : (⟨layout.level1Table.length, hlt⟩ : EntryRange) ≠ 0 := by
    intro h
    have hval := congrArg Fin.val h
    simp at hval
    omega
  rw [serialize, PageTable.count, dif_pos hlt, ok_bind, if_neg hne, serializeLevels_eq, eptImage, tableList,
    List.flatMap_cons]

lemma mem_tablesFrom {layout : MemoryLayout} {l : Nat} {p : Nat × PageTable} (level : Nat) (hl2 : 2 ≤ l)
    (hl : l ≤ level) (hp : p ∈ layout.structures l) : (l, p.2) ∈ tablesFrom layout level := by
  induction level with
  | zero => omega
  | succ level ih =>
    cases level with
    | zero => omega
    | succ level =>
      rw [tablesFrom, List.mem_append]
      by_cases heq : l = level + 2
      · subst heq
        exact Or.inl (List.mem_map.mpr ⟨p, hp, rfl⟩)
      · exact Or.inr (ih (by omega))

/-! ### The placed tables -/

lemma length_placed (next map : PageTableMap) : ∀ physAddr, (placed next map physAddr).length = map.length := by
  induction map with
  | nil => exact fun _ => rfl
  | cons p map ih =>
    intro physAddr
    rw [placed, List.length_cons, ih, List.length_cons]

lemma placed_address (next map : PageTableMap) : ∀ physAddr {k : Nat} {p : Nat × PageTable},
    (placed next map physAddr)[k]? = some p → p.2.address = physAddr + BitVec.ofNat 64 (k * 4096) := by
  induction map with
  | nil =>
    intro physAddr k p h
    simp [placed] at h
  | cons q map ih =>
    intro physAddr k p h
    rw [placed] at h
    cases k with
    | zero =>
      have hp := Option.some.inj h
      rw [← hp]
      simp
    | succ k =>
      rw [List.getElem?_cons_succ] at h
      rw [ih _ h, Nat.succ_mul, Nat.add_comm, BitVec.ofNat_add, BitVec.add_assoc]
      rfl

/-- What became of a table. -/
lemma find_placed_some (next : PageTableMap) {map : PageTableMap} {n : Nat} {table : PageTable} :
    ∀ physAddr : Unsigned64, map.find n = some table → ∃ table',
      (placed next map physAddr).find n = some table' ∧ table'.length = table.length ∧
        table'.data = fun i => resolve next (table.data i) := by
  induction map with
  | nil =>
    intro physAddr h
    simp [PageTableMap.find] at h
  | cons q map ih =>
    intro physAddr h
    rw [PageTableMap.find] at h
    rw [placed, PageTableMap.find]
    by_cases hq : q.1 = n
    · rw [if_pos hq] at h ⊢
      obtain rfl := Option.some.inj h
      exact ⟨_, rfl, rfl, rfl⟩
    · rw [if_neg hq] at h ⊢
      exact ih _ h

lemma placedLevels_above (curLevel : Nat) {l : Nat} (hl : curLevel < l) :
    ∀ (layout : MemoryLayout) (physAddr : Unsigned64),
      (placedLevels curLevel layout physAddr).structures l = layout.structures l := by
  induction curLevel with
  | zero => exact fun _ _ => rfl
  | succ curLevel ih =>
    intro layout physAddr
    cases curLevel with
    | zero => rfl
    | succ curLevel =>
      rw [placedLevels, ih (by omega), placeLevel_of_ne _ _ (by omega)]

/-- Every level is placed, with the references to the placed tables of the next level. -/
lemma placedLevels_structures (curLevel : Nat) {l : Nat} (hl2 : 2 ≤ l) : ∀ (layout : MemoryLayout)
    (physAddr : Unsigned64), l ≤ curLevel → ∃ address, (placedLevels curLevel layout physAddr).structures l =
      placed ((placedLevels curLevel layout physAddr).structures (l + 1)) (layout.structures l) address := by
  induction curLevel with
  | zero =>
    intro layout physAddr hl
    omega
  | succ curLevel ih =>
    intro layout physAddr hl
    cases curLevel with
    | zero => omega
    | succ curLevel =>
      rw [placedLevels]
      by_cases heq : l = curLevel + 2
      · subst heq
        refine ⟨physAddr, ?_⟩
        rw [placedLevels_above _ (by omega), placedLevels_above _ (by omega), placeLevel_self,
          placeLevel_of_ne _ _ (by omega)]
      · obtain ⟨address, haddress⟩ := ih (placeLevel layout (curLevel + 2) physAddr) _ (by omega)
        refine ⟨address, haddress.trans ?_⟩
        rw [placeLevel_of_ne _ _ heq]

/-- The tables have their addresses in the order in which they are written. -/
lemma placedLevels_address (curLevel : Nat) : ∀ (layout : MemoryLayout) (physAddr : Unsigned64) {k : Nat}
    {p : Nat × PageTable}, (tablesFrom (placedLevels curLevel layout physAddr) curLevel)[k]? = some p →
      p.2.address = physAddr + BitVec.ofNat 64 (k * 4096) := by
  induction curLevel with
  | zero =>
    intro layout physAddr k p h
    simp [tablesFrom] at h
  | succ curLevel ih =>
    intro layout physAddr k p h
    cases curLevel with
    | zero => simp [tablesFrom] at h
    | succ curLevel =>
      rw [placedLevels, tablesFrom, placedLevels_above _ (by omega), placeLevel_self] at h
      by_cases hk : k < (layout.structures (curLevel + 2)).length
      · rw [List.getElem?_append_left (by simpa [length_placed] using hk), List.getElem?_map] at h
        obtain ⟨q, hq, rfl⟩ := Option.map_eq_some_iff.mp h
        have hq' := placed_address _ _ _ hq
        exact hq'
      · rw [List.getElem?_append_right (by simpa [length_placed] using hk), List.length_map, length_placed] at h
        have hsum : k * 4096 = (layout.structures (curLevel + 2)).length * 4096 +
            (k - (layout.structures (curLevel + 2)).length) * 4096 := by omega
        rw [ih _ _ h, hsum, BitVec.ofNat_add, BitVec.add_assoc]

lemma length_tablesFrom_congr {a b : MemoryLayout} (level : Nat) :
    (∀ l, 2 ≤ l → l ≤ level → (a.structures l).length = (b.structures l).length) →
      (tablesFrom a level).length = (tablesFrom b level).length := by
  induction level with
  | zero => exact fun _ => rfl
  | succ level ih =>
    intro h
    cases level with
    | zero => rfl
    | succ level =>
      rw [tablesFrom, tablesFrom, List.length_append, List.length_append, List.length_map, List.length_map,
        h (level + 2) (by omega) (by omega), ih (fun l h2 hl => h l h2 (by omega))]

/-! ### The image of a layout with references -/

section Image

variable {layout : MemoryLayout}

lemma placedLevels_levels (curLevel : Nat) : ∀ (layout : MemoryLayout) (physAddr : Unsigned64),
    (placedLevels curLevel layout physAddr).levels = layout.levels := by
  induction curLevel with
  | zero => exact fun _ _ => rfl
  | succ curLevel ih =>
    intro layout physAddr
    cases curLevel with
    | zero => rfl
    | succ curLevel => exact ih _ _

lemma referenced_levels (layout : MemoryLayout) : (referenced layout).levels = layout.levels :=
  placedLevels_levels ..

lemma referenced_level1 (layout : MemoryLayout) : (referenced layout).level1Table =
    { layout.level1Table with
      data := fun i => resolve ((referenced layout).structures 2) (layout.level1Table.data i) } := by
  simp only [referenced, placedLevels_level1Table]

/-- The tables of a level before and after `Update_References`. -/
lemma referenced_structures (layout : MemoryLayout) {l : Nat} (hl2 : 2 ≤ l) (hl : l ≤ layout.levels) : ∃ address,
    (referenced layout).structures l =
      placed ((referenced layout).structures (l + 1)) (layout.structures l) address :=
  placedLevels_structures layout.levels hl2 layout _ hl

lemma length_tablesFrom_referenced (layout : MemoryLayout) :
    (tablesFrom (referenced layout) layout.levels).length = (tablesFrom layout layout.levels).length := by
  apply length_tablesFrom_congr
  intro l hl2 hl
  obtain ⟨address, haddress⟩ := referenced_structures layout hl2 hl
  rw [haddress, length_placed]

lemma tablesFrom_congr {a b : MemoryLayout} (h : a.structures = b.structures) (level : Nat) :
    tablesFrom a level = tablesFrom b level := by
  induction level with
  | zero => rfl
  | succ level ih =>
    cases level with
    | zero => rfl
    | succ level => rw [tablesFrom, tablesFrom, ih, h]

/-- The address of a table of the image is its distance from the level 1 table. -/
lemma referenced_address {k : Nat} {p : Nat × PageTable} (h : (tableList (referenced layout))[k]? = some p) :
    p.2.address = layout.level1Table.address + BitVec.ofNat 64 (k * 4096) := by
  rw [tableList] at h
  cases k with
  | zero =>
    obtain rfl := Option.some.inj h
    rw [referenced_level1]
    simp
  | succ k =>
    have hlist : tablesFrom (referenced layout) layout.levels = tablesFrom (placedLevels layout.levels layout
      (layout.level1Table.address + 2 ^ 12)) layout.levels := by
      apply tablesFrom_congr
      rfl
    rw [List.getElem?_cons_succ, referenced_levels, hlist] at h
    rw [placedLevels_address _ _ _ h, Nat.succ_mul, Nat.add_comm (k * 4096), BitVec.ofNat_add, BitVec.add_assoc]
    rfl

/-- The word at the place of an entry of a table of the image. -/
lemma take_drop_eptImage {k : Nat} {p : Nat × PageTable} (h : (tableList layout)[k]? = some p) (i : EntryRange) :
    ((eptImage layout).drop (4096 * k + 8 * i.val)).take 8 =
      leBytes 8 (Ept.rawTable (eptRaw p.1) p.2 i).toNat := by
  have hblock := take_drop_flatMap (fun p => eptSerializers p.1 p.2) 4096
    (fun p => by rw [eptSerializers_eq, Ept.serializeTable_length]) _ h
  have hmin : min 8 (4096 - 8 * i.val) = 8 := by omega
  rw [← Ept.take_drop_serializeTable, ← eptSerializers_eq, ← hblock, List.drop_take, List.take_take, hmin,
    List.drop_drop, eptImage]

lemma eptImage_length (layout : MemoryLayout) : (eptImage layout).length = 4096 * (tableList layout).length := by
  rw [eptImage, length_flatMap_const _ 4096 (fun p => by rw [eptSerializers_eq, Ept.serializeTable_length])]

end Image

end Muen.Tools.Paging
