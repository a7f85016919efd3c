import Muen.Tools.Mugentau0cmds.Memory

/-!
# The page tables of memory regions

The tables created for a region are those of the ranges that meet the region, on each level below the one that the
region has itself. They are created from the top down and activated from the bottom up.
-/

namespace Muen.Tools.Mugentau0cmds
open Muen.Lib

/-- What the stream does with a page table. -/
inductive TableEvent
  | created (t : TableKey)
  | activated (t : TableKey)
deriving DecidableEq

/-- The page table of the given region that a command creates or activates. -/
def MemoryCommand.tableEvent (region : Nat) : MemoryCommand → Option TableEvent
  | createPageTableMR _ r level virtualAddress => if r = region then some (.created ⟨level, virtualAddress⟩) else none
  | activatePageTableMR r level virtualAddress => if r = region then some (.activated ⟨level, virtualAddress⟩) else none
  | _ => none

def tableEvents (region : Nat) (commands : List MemoryCommand) : List TableEvent :=
  commands.filterMap (MemoryCommand.tableEvent region)

section Events

variable {region : Nat}

@[simp] lemma tableEvents_nil : tableEvents region [] = [] := rfl

@[simp] lemma tableEvents_append (commands rest : List MemoryCommand) :
    tableEvents region (commands ++ rest) = tableEvents region commands ++ tableEvents region rest :=
  List.filterMap_append

@[simp] lemma tableEvents_clearPage (page : Unsigned64) (rest : List MemoryCommand) :
    tableEvents region (.clearPage page :: rest) = tableEvents region rest := rfl

@[simp] lemma tableEvents_create (page : Unsigned64) (level : Nat) (virtualAddress : Unsigned64)
    (rest : List MemoryCommand) :
    tableEvents region (.createPageTableMR page region level virtualAddress :: rest) =
      .created ⟨level, virtualAddress⟩ :: tableEvents region rest := by
  simp [tableEvents, MemoryCommand.tableEvent]

@[simp] lemma tableEvents_activate (level : Nat) (virtualAddress : Unsigned64) (rest : List MemoryCommand) :
    tableEvents region (.activatePageTableMR region level virtualAddress :: rest) =
      .activated ⟨level, virtualAddress⟩ :: tableEvents region rest := by
  simp [tableEvents, MemoryCommand.tableEvent]

/-- Commands that append pages do nothing with page tables. -/
lemma tableEvents_appends {commands : List MemoryCommand} (h : ∀ c ∈ commands, c.Appends region) :
    tableEvents region commands = [] := by
  apply List.filterMap_eq_nil_iff.mpr
  intro c hc
  cases h c hc <;> rfl

/-- The page tables of a region are those of the commands for it. -/
lemma tableEvents_filter (commands : List MemoryCommand) :
    tableEvents region (commands.filter (fun c => c.region = some region)) = tableEvents region commands := by
  unfold tableEvents
  rw [List.filterMap_filter]
  congr 1
  funext c
  by_cases h : c.region = some region
  · rw [if_pos (by simpa using h)]
  · rw [if_neg (by simpa using h)]
    cases c with
    | createPageTableMR page r level virtualAddress =>
      have hne : r ≠ region := fun heq => h (congrArg some heq)
      exact (if_neg hne).symm
    | activatePageTableMR r level virtualAddress =>
      have hne : r ≠ region := fun heq => h (congrArg some heq)
      exact (if_neg hne).symm
    | _ => rfl

end Events

/-- One of the ranges into which a level divides the addresses meets the region, and the tables of the next lower level,
or a single page, do not cover all of the region. -/
def TableKey.NeededBy (size : Nat) (t : TableKey) : Prop :=
  1 ≤ t.level ∧ 4096 * 512 ^ (t.level - 1) < size ∧ t.virtualAddress.toNat % (4096 * 512 ^ t.level) = 0 ∧
    ∃ address, t.Covers address ∧ address < size

/-- The tables created and activated for a region of the given size. -/
structure CoversRegion (size : Nat) (created activated : List TableKey) : Prop where
  created_once : created.Nodup
  created_iff : ∀ t, t ∈ created ↔ t.NeededBy size
  top_down : created.Pairwise (fun t t' => t'.level ≤ t.level)
  activated_once : activated.Nodup
  activated_iff : ∀ t, t ∈ activated ↔ t ∈ created
  bottom_up : activated.Pairwise (fun t t' => t.level ≤ t'.level)

/-! ### The tables of a level -/

/-- The tables of a level with the given numbers. -/
def levelKeys (lvl first count : Nat) : List TableKey :=
  (List.range' first count).map (fun k => ⟨lvl, BitVec.ofNat 64 (4096 * 512 ^ lvl * k)⟩)

/-- The number of tables of a level. -/
def tableCount (size lvl : Nat) : Nat := (size + 4096 * 512 ^ lvl - 1) / (4096 * 512 ^ lvl)

def keysDown (size : Nat) : Nat → List TableKey
  | 0 => []
  | lvl + 1 => levelKeys (lvl + 1) 0 (tableCount size (lvl + 1)) ++ keysDown size lvl

def keysUp (size : Nat) : Nat → List TableKey
  | 0 => []
  | lvl + 1 => keysUp size lvl ++ levelKeys (lvl + 1) 0 (tableCount size (lvl + 1))

lemma levelKeys_succ (lvl first count : Nat) : levelKeys lvl first (count + 1) =
    ⟨lvl, BitVec.ofNat 64 (4096 * 512 ^ lvl * first)⟩ :: levelKeys lvl (first + 1) count := rfl

section Keys

variable {size lvl : Nat}

lemma mapSize_le {lvl : Nat} (hlvl : lvl ≤ 4) : 4096 * 512 ^ lvl ≤ 2 ^ 48 := by
  have hpow := Nat.pow_le_pow_right (by decide : 0 < 512) hlvl
  omega

lemma lt_tableCount (size lvl k : Nat) : k < tableCount size lvl ↔ 4096 * 512 ^ lvl * k < size := by
  have hpos : 0 < 4096 * 512 ^ lvl := by positivity
  unfold tableCount
  rw [Nat.lt_iff_add_one_le, Nat.le_div_iff_mul_le hpos, Nat.add_mul, Nat.mul_comm k]
  omega

lemma address_toNat (hsize : size ≤ 2 ^ 48) {k : Nat} (hk : 4096 * 512 ^ lvl * k < size) :
    (BitVec.ofNat 64 (4096 * 512 ^ lvl * k)).toNat = 4096 * 512 ^ lvl * k := by
  have hlt : 4096 * 512 ^ lvl * k < 2 ^ 64 := hk.trans_le (hsize.trans (by decide))
  rw [BitVec.toNat_ofNat, Nat.mod_eq_of_lt hlt]

lemma mem_levelKeys (hsize : size ≤ 2 ^ 48) (t : TableKey) :
    t ∈ levelKeys lvl 0 (tableCount size lvl) ↔ t.level = lvl ∧ t.virtualAddress.toNat % (4096 * 512 ^ lvl) = 0 ∧
      t.virtualAddress.toNat < size := by
  unfold levelKeys
  rw [List.mem_map]
  constructor
  · rintro ⟨k, hk, rfl⟩
    have hlt := (lt_tableCount size lvl k).mp (by simpa using hk)
    refine ⟨rfl, ?_⟩
    rw [address_toNat hsize hlt]
    exact ⟨Nat.mul_mod_right _ _, hlt⟩
  · rintro ⟨hlevel, haligned, hlt⟩
    have hmul := Nat.mul_div_cancel' (Nat.dvd_of_mod_eq_zero haligned)
    refine ⟨t.virtualAddress.toNat / (4096 * 512 ^ lvl), ?_, ?_⟩
    · have hcount := (lt_tableCount size lvl (t.virtualAddress.toNat / (4096 * 512 ^ lvl))).mpr (by rw [hmul]; exact hlt)
      simpa using hcount
    · rw [hmul, BitVec.ofNat_toNat, BitVec.setWidth_eq, ← hlevel]

lemma levelKeys_nodup (hsize : size ≤ 2 ^ 48) : (levelKeys lvl 0 (tableCount size lvl)).Nodup := by
  apply List.Nodup.map_on _ List.nodup_range'
  intro j hj k hk heq
  have hj' := (lt_tableCount size lvl j).mp (by simpa using hj)
  have hk' := (lt_tableCount size lvl k).mp (by simpa using hk)
  have haddress := congrArg (fun t => t.virtualAddress.toNat) heq
  simp only [address_toNat hsize hj', address_toNat hsize hk'] at haddress
  exact Nat.eq_of_mul_eq_mul_left (by positivity) haddress

lemma levelKeys_pairwise {R : TableKey → TableKey → Prop} (hsize : size ≤ 2 ^ 48)
    (hR : ∀ t t' : TableKey, t.level = lvl → t'.level = lvl → R t t') :
    (levelKeys lvl 0 (tableCount size lvl)).Pairwise R := by
  apply List.pairwise_iff_forall_sublist.mpr
  intro t t' hsub
  have ht := ((mem_levelKeys hsize t).mp (hsub.subset (by simp))).1
  have ht' := ((mem_levelKeys hsize t').mp (hsub.subset (by simp))).1
  exact hR t t' ht ht'

lemma mem_keysDown (hsize : size ≤ 2 ^ 48) (t : TableKey) : t ∈ keysDown size lvl ↔
    (1 ≤ t.level ∧ t.level ≤ lvl) ∧ t.virtualAddress.toNat % (4096 * 512 ^ t.level) = 0 ∧
      t.virtualAddress.toNat < size := by
  induction lvl with
  | zero =>
    constructor
    · intro h
      cases h
    · rintro ⟨⟨h1, h0⟩, -⟩
      omega
  | succ lvl ih =>
    rw [keysDown, List.mem_append, mem_levelKeys hsize, ih]
    constructor
    · rintro (⟨hlevel, haligned, hlt⟩ | ⟨⟨h1, hle⟩, hrest⟩)
      · rw [hlevel]
        exact ⟨by omega, haligned, hlt⟩
      · exact ⟨by omega, hrest⟩
    · rintro ⟨⟨h1, hle⟩, hrest⟩
      by_cases hlevel : t.level = lvl + 1
      · rw [hlevel] at hrest
        exact Or.inl ⟨hlevel, hrest⟩
      · exact Or.inr ⟨by omega, hrest⟩

lemma keysDown_ordered (lvl : Nat) (hsize : size ≤ 2 ^ 48) :
    (keysDown size lvl).Nodup ∧ (keysDown size lvl).Pairwise (fun t t' => t'.level ≤ t.level) := by
  induction lvl with
  | zero => exact ⟨List.nodup_nil, List.Pairwise.nil⟩
  | succ lvl ih =>
    have hbelow : ∀ t ∈ levelKeys (lvl + 1) 0 (tableCount size (lvl + 1)), ∀ t' ∈ keysDown size lvl,
        t'.level < t.level := by
      intro t ht t' ht'
      have hlevel := ((mem_levelKeys hsize t).mp ht).1
      have hle := ((mem_keysDown hsize t').mp ht').1.2
      omega
    rw [keysDown, List.nodup_append, List.pairwise_append]
    refine ⟨⟨levelKeys_nodup hsize, ih.1, ?_⟩, ?_, ih.2, fun t ht t' ht' => (hbelow t ht t' ht').le⟩
    · intro t ht t' ht' heq
      subst heq
      exact lt_irrefl _ (hbelow t ht t ht')
    · exact levelKeys_pairwise hsize (fun t t' ht ht' => (ht'.trans ht.symm).le)

lemma keysUp_perm (size lvl : Nat) : (keysUp size lvl).Perm (keysDown size lvl) := by
  induction lvl with
  | zero => exact List.Perm.refl []
  | succ lvl ih => exact List.perm_append_comm.trans (ih.append_left _)

lemma keysUp_pairwise (hsize : size ≤ 2 ^ 48) :
    (keysUp size lvl).Pairwise (fun t t' => t.level ≤ t'.level) := by
  induction lvl with
  | zero => exact List.Pairwise.nil
  | succ lvl ih =>
    rw [keysUp, List.pairwise_append]
    refine ⟨ih, levelKeys_pairwise hsize (fun t t' ht ht' => (ht.trans ht'.symm).le), ?_⟩
    intro t ht t' ht'
    have hle := ((mem_keysDown hsize t).mp ((keysUp_perm size lvl).subset ht)).1.2
    have hlevel := ((mem_levelKeys hsize t').mp ht').1
    omega

/-- The tables of the levels below the one of the region. -/
lemma coversRegion_keys {level : Nat} (hsize : size ≤ 2 ^ 48)
    (hlevel : ∀ lvl, 1 ≤ lvl → (lvl < level ↔ 4096 * 512 ^ (lvl - 1) < size)) :
    CoversRegion size (keysDown size (level - 1)) (keysUp size (level - 1)) := by
  have hiff : ∀ t : TableKey, t ∈ keysDown size (level - 1) ↔ t.NeededBy size := by
    intro t
    rw [mem_keysDown hsize]
    unfold TableKey.NeededBy TableKey.Covers
    constructor
    · rintro ⟨⟨h1, hle⟩, haligned, hlt⟩
      have hpos : 0 < 4096 * 512 ^ t.level := by positivity
      exact ⟨h1, (hlevel t.level h1).mp (by omega), haligned, t.virtualAddress.toNat, ⟨le_refl _, by omega⟩, hlt⟩
    · rintro ⟨h1, hneeded, haligned, address, ⟨hlow, -⟩, hlt⟩
      have hle := (hlevel t.level h1).mpr hneeded
      exact ⟨⟨h1, by omega⟩, haligned, hlow.trans_lt hlt⟩
  have hordered := keysDown_ordered (level - 1) hsize
  have hperm := keysUp_perm size (level - 1)
  exact ⟨hordered.1, hiff, hordered.2, hperm.nodup_iff.mpr hordered.1, fun t => hperm.mem_iff, keysUp_pairwise hsize⟩

end Keys

/-! ### The loops -/

section Loops

variable {region lvl : Nat} {size : Unsigned64}

lemma mapSize_toNat (hlvl : lvl ≤ 4) : ((4096 * 512 ^ lvl : Unsigned64)).toNat = 4096 * 512 ^ lvl := by
  interval_cases lvl <;> rfl

lemma address_succ (curMapSize : Unsigned64) (hmap : curMapSize.toNat = 4096 * 512 ^ lvl) (k : Nat) :
    BitVec.ofNat 64 (4096 * 512 ^ lvl * k) + curMapSize = BitVec.ofNat 64 (4096 * 512 ^ lvl * (k + 1)) := by
  apply BitVec.eq_of_toNat_eq
  rw [BitVec.toNat_add, BitVec.toNat_ofNat, BitVec.toNat_ofNat, hmap, Nat.mod_add_mod, Nat.mul_add, Nat.mul_one]

lemma createLevel_events {curMapSize : Unsigned64} (hmap : curMapSize.toNat = 4096 * 512 ^ lvl) (ptCount : Nat) :
    ∀ k nextPrivPage, tableEvents region
      (createLevel region lvl curMapSize ptCount (BitVec.ofNat 64 (4096 * 512 ^ lvl * k)) nextPrivPage).1 =
        (levelKeys lvl k ptCount).map .created := by
  induction ptCount with
  | zero => exact fun _ _ => rfl
  | succ ptCount ih =>
    intro k nextPrivPage
    simp only [createLevel, tableEvents_clearPage, tableEvents_create]
    rw [address_succ curMapSize hmap, ih, levelKeys_succ, List.map_cons]

lemma createLevels_events (hsize : size.toNat ≤ 2 ^ 48) {levels : Nat} (hlevels : levels ≤ 4) :
    ∀ {curMapSize : Unsigned64} (nextPrivPage), curMapSize.toNat = 4096 * 512 ^ levels →
      ∃ commands last, createLevels region size levels curMapSize nextPrivPage = .ok (commands, last) ∧
        tableEvents region commands = (keysDown size.toNat levels).map .created := by
  induction levels with
  | zero => exact fun nextPrivPage _ => ⟨[], nextPrivPage, rfl, rfl⟩
  | succ levels ih =>
    intro curMapSize nextPrivPage hmap
    have hle := mapSize_le hlevels
    have hpos : 0 < 4096 * 512 ^ (levels + 1) := by positivity
    have hne : curMapSize ≠ 0 := by
      intro hzero
      rw [hzero] at hmap
      change 0 = _ at hmap
      omega
    have hcount : ((size + curMapSize - 1) / curMapSize).toNat = tableCount size.toNat (levels + 1) := by
      have hadd : (size + curMapSize).toNat = size.toNat + curMapSize.toNat := by
        rw [BitVec.toNat_add, Nat.mod_eq_of_lt (by omega)]
      have hsub : (size + curMapSize - 1).toNat = size.toNat + curMapSize.toNat - 1 := by
        rw [BitVec.toNat_sub_of_le, hadd]
        · rfl
        · rw [BitVec.le_def, hadd]
          change 1 ≤ _
          omega
      rw [BitVec.toNat_udiv, hsub, hmap]
      rfl
    have hnext : (curMapSize / 512).toNat = 4096 * 512 ^ levels := by
      rw [BitVec.toNat_udiv, hmap, pow_succ, ← Nat.mul_assoc]
      exact Nat.mul_div_cancel _ (by decide)
    obtain ⟨rest, last, hrest, hevents⟩ := ih (by omega) (createLevel region (levels + 1) curMapSize
      (tableCount size.toNat (levels + 1)) 0 nextPrivPage).2 hnext
    refine ⟨(createLevel region (levels + 1) curMapSize (tableCount size.toNat (levels + 1)) 0 nextPrivPage).1 ++ rest,
      last, ?_, ?_⟩
    · unfold createLevels
      rw [if_neg hne]
      simp only [hcount, hrest]
      rfl
    · rw [tableEvents_append, keysDown, List.map_append, hevents]
      exact congrArg (· ++ _) (createLevel_events hmap _ 0 nextPrivPage)

/-- The loop that activates the tables of a level ends. -/
lemma activateLevel_events (region : Nat) (hsize : size.toNat ≤ 2 ^ 48) (hlvl : lvl ≤ 4) (count : Nat) :
    ∀ k left, k + count = tableCount size.toNat lvl → count < left →
      ∃ commands, activateLevel region lvl size left (BitVec.ofNat 64 (4096 * 512 ^ lvl * k)) = .ok commands ∧
        tableEvents region commands = (levelKeys lvl k count).map .activated := by
  have hmap : ((4096 * 512 ^ lvl : Unsigned64)).toNat = 4096 * 512 ^ lvl := mapSize_toNat hlvl
  induction count with
  | zero =>
    intro k left hk hleft
    obtain ⟨left, rfl⟩ := Nat.exists_eq_succ_of_ne_zero (Nat.ne_of_gt hleft)
    have hend : ¬BitVec.ofNat 64 (4096 * 512 ^ lvl * k) < size := by
      have hle : 4096 * 512 ^ lvl * k ≤ size.toNat + 4096 * 512 ^ lvl - 1 := by
        rw [Nat.add_zero] at hk
        rw [hk]
        exact Nat.mul_div_le _ _
      have hlt : 4096 * 512 ^ lvl * k < 2 ^ 64 := by
        have hmapSize := mapSize_le hlvl
        exact lt_of_le_of_lt hle (by omega)
      rw [BitVec.lt_def, BitVec.toNat_ofNat, Nat.mod_eq_of_lt hlt, ← lt_tableCount, ← hk]
      exact lt_irrefl _
    refine ⟨[], ?_, rfl⟩
    unfold activateLevel
    rw [if_neg hend]
  | succ count ih =>
    intro k left hk hleft
    obtain ⟨left, rfl⟩ := Nat.exists_eq_succ_of_ne_zero (Nat.ne_of_gt (Nat.zero_lt_of_lt hleft))
    obtain ⟨rest, hrest, hevents⟩ := ih (k + 1) left (by omega) (by omega)
    have hlt : 4096 * 512 ^ lvl * k < size.toNat := (lt_tableCount size.toNat lvl k).mp (by omega)
    have hmore : BitVec.ofNat 64 (4096 * 512 ^ lvl * k) < size := by
      rw [BitVec.lt_def, address_toNat hsize hlt]
      exact hlt
    refine ⟨.activatePageTableMR region lvl (BitVec.ofNat 64 (4096 * 512 ^ lvl * k)) :: rest, ?_, ?_⟩
    · unfold activateLevel
      rw [if_pos hmore, address_succ _ hmap, hrest]
      rfl
    · rw [tableEvents_activate, hevents, levelKeys_succ, List.map_cons]

lemma activateLevels_events (region : Nat) (hsize : size.toNat ≤ 2 ^ 48) {levels : Nat} (hlevels : levels ≤ 4) :
    ∃ commands, activateLevels region size levels = .ok commands ∧
      tableEvents region commands = (keysUp size.toNat levels).map .activated := by
  induction levels with
  | zero => exact ⟨[], rfl, rfl⟩
  | succ levels ih =>
    obtain ⟨before, hbefore, hevents⟩ := ih (by omega)
    have hcount : tableCount size.toNat (levels + 1) < 2 ^ 64 := by
      have hle := mapSize_le hlevels
      exact lt_of_le_of_lt (Nat.div_le_self _ _) (by omega)
    obtain ⟨level, hlevel, hlevelEvents⟩ := activateLevel_events region hsize hlevels
      (tableCount size.toNat (levels + 1)) 0 (2 ^ 64) (Nat.zero_add _) hcount
    refine ⟨before ++ level, ?_, ?_⟩
    · unfold activateLevels
      rw [hbefore, ok_bind]
      exact congrArg (· >>= _) hlevel
    · rw [tableEvents_append, hevents, hlevelEvents, keysUp, List.map_append]

/-- A level below which something is left has a range that does not cover the region. -/
lemma least_level {level : Nat} (hlvl : 1 ≤ lvl) {n : Nat} (hcover : n ≤ 4096 * 512 ^ (level - 1))
    (h : 4096 * 512 ^ (lvl - 1) < n) : lvl < level := by
  by_contra hle
  have hpow := Nat.pow_le_pow_right (by decide : 0 < 512) (by omega : level - 1 ≤ lvl - 1)
  omega

/-- The least level whose range covers the region. -/
lemma mapLevel_spec (hsize : size.toNat ≤ 2 ^ 48) (k : Nat) :
    ∀ level left curMapSize, level + k = 5 → k < left → 1 ≤ level → curMapSize.toNat = 4096 * 512 ^ (level - 1) →
      (∀ lvl, 1 ≤ lvl → lvl < level → 4096 * 512 ^ (lvl - 1) < size.toNat) →
      ∃ result, mapLevel size left level curMapSize = .ok result ∧ result ≤ 5 ∧
        ∀ lvl, 1 ≤ lvl → (lvl < result ↔ 4096 * 512 ^ (lvl - 1) < size.toNat) := by
  induction k with
  | zero =>
    intro level left curMapSize hk hleft h1 hmap hbelow
    obtain ⟨left, rfl⟩ := Nat.exists_eq_succ_of_ne_zero (Nat.ne_of_gt hleft)
    obtain rfl : level = 5 := hk
    have hend : ¬size > curMapSize := by
      rw [gt_iff_lt, BitVec.lt_def, hmap]
      omega
    refine ⟨5, ?_, le_refl _, fun lvl hlvl => ⟨hbelow lvl hlvl, least_level hlvl ?_⟩⟩
    · unfold mapLevel
      rw [if_neg hend]
    · omega
  | succ k ih =>
    intro level left curMapSize hk hleft h1 hmap hbelow
    obtain ⟨left, rfl⟩ := Nat.exists_eq_succ_of_ne_zero (Nat.ne_of_gt (Nat.zero_lt_of_lt hleft))
    unfold mapLevel
    by_cases hmore : size > curMapSize
    · rw [if_pos hmore]
      have hnext : (curMapSize * 512).toNat = 4096 * 512 ^ (level + 1 - 1) := by
        have hle := mapSize_le (by omega : level ≤ 4)
        have hpow : 4096 * 512 ^ level = 4096 * 512 ^ (level - 1) * 512 := by
          rw [Nat.mul_assoc, ← pow_succ, Nat.sub_add_cancel h1]
        rw [Nat.add_sub_cancel, BitVec.toNat_mul, hmap, hpow]
        exact Nat.mod_eq_of_lt (lt_of_le_of_lt (hpow ▸ hle) (by decide))
      apply ih (level + 1) left (curMapSize * 512) (by omega) (by omega) (by omega) hnext
      intro lvl hlvl hlt
      by_cases heq : lvl = level
      · rw [gt_iff_lt, BitVec.lt_def, hmap] at hmore
        rw [heq]
        exact hmore
      · exact hbelow lvl hlvl (by omega)
    · rw [if_neg hmore]
      rw [gt_iff_lt, BitVec.lt_def, hmap, not_lt] at hmore
      exact ⟨level, rfl, by omega, fun lvl hlvl => ⟨hbelow lvl hlvl, least_level hlvl hmore⟩⟩

lemma regionPTs_events (region : Nat) (hsize : size.toNat ≤ 2 ^ 48) {level : Nat} (hle : level ≤ 5)
    (hlevel : ∀ lvl, 1 ≤ lvl → (lvl < level ↔ 4096 * 512 ^ (lvl - 1) < size.toNat)) (nextPrivPage : Unsigned64) :
    ∃ commands last, regionPTs region level size nextPrivPage = .ok (commands, last) ∧
      tableEvents region commands = (keysDown size.toNat (level - 1)).map .created := by
  unfold regionPTs
  by_cases hlarge : size > 4096
  · rw [if_pos hlarge]
    apply createLevels_events hsize (by omega)
    rw [BitVec.mul_comm]
    exact mapSize_toNat (by omega)
  · rw [if_neg hlarge]
    have hone : level - 1 = 0 := by
      by_contra hne
      have hlt := (hlevel 1 (le_refl 1)).mp (by omega)
      exact hlarge (BitVec.lt_def.mpr hlt)
    rw [hone]
    exact ⟨[], nextPrivPage, rfl, rfl⟩

end Loops

lemma mapLevel_ok {size : Unsigned64} (hsize : size.toNat ≤ 2 ^ 48) :
    ∃ level, mapLevel size naturalLast 1 4096 = .ok level ∧ level ≤ 5 ∧
      ∀ lvl, 1 ≤ lvl → (lvl < level ↔ 4096 * 512 ^ (lvl - 1) < size.toNat) :=
  mapLevel_spec hsize 4 1 naturalLast 4096 rfl (by decide) (le_refl 1) rfl (fun lvl h1 hlt => absurd hlt (by omega))

/-- In every run over the memory regions of a system: the page tables that are created and activated for a region. -/
theorem region_tables {r : PhysicalRegion} (hkind : r.kind.isSystem = false) (hsize : r.size.toNat ≤ 2 ^ 48) :
    ∃ created activated, CoversRegion r.size.toNat created activated ∧
      (∀ region nextPrivPage pages, r.pageCommands region = .ok pages →
        ∃ result, regionCommands region r nextPrivPage = .ok result) ∧
      ∀ s s' before after, s.Fresh → createMemoryRegions s (before ++ r :: after) = .ok s' →
        ∃ region, { r with tau0RootId := some region } ∈ s'.regions ∧
          tableEvents region s'.stream = created.map .created ++ activated.map .activated := by
  obtain ⟨level, hmapLevel, hle, hlevel⟩ := mapLevel_ok hsize
  refine ⟨keysDown r.size.toNat (level - 1), keysUp r.size.toNat (level - 1), coversRegion_keys hsize hlevel, ?_, ?_⟩
  · intro region nextPrivPage pages hpages
    obtain ⟨pts, last, hpts, -⟩ := regionPTs_events region hsize hle hlevel nextPrivPage
    obtain ⟨activate, hactivate, -⟩ := activateLevels_events region hsize (by omega : level - 1 ≤ 4)
    unfold regionCommands
    rw [hmapLevel, ok_bind]
    simp only
    rw [hpts, ok_bind]
    simp only
    rw [hpages, ok_bind, hactivate, ok_bind]
    exact ⟨_, rfl⟩
  · intro s s' before after hs hrun
    obtain ⟨region, nextPrivPage, commands, last, hcommands, hmem, -, hfor⟩ :=
      StreamState.commandsFor_run hs hkind hrun
    obtain ⟨parts⟩ := regionCommands_parts hcommands
    obtain ⟨hash, hcommandsEq⟩ := parts.commands_eq
    have hpartsLevel : parts.level = level := Except.ok.inj (parts.level_eq.symm.trans hmapLevel)
    obtain ⟨pts, last', hpts, hcreated⟩ := regionPTs_events region hsize hle hlevel nextPrivPage
    obtain ⟨activate, hactivate, hactivated⟩ :=
      activateLevels_events region hsize (by omega : level - 1 ≤ 4)
    have hptsEq : parts.pts = pts := by
      have hsame := parts.pts_eq.symm.trans (hpartsLevel ▸ hpts)
      exact (Prod.mk.inj (Except.ok.inj hsame)).1
    have hactivateEq : parts.activate = activate :=
      Except.ok.inj (parts.activate_eq.symm.trans (hpartsLevel ▸ hactivate))
    have hpages := tableEvents_appends (pageCommands_appends parts.pages_eq)
    refine ⟨region, hmem, ?_⟩
    rw [← tableEvents_filter s'.stream]
    change tableEvents region (s'.commandsFor region) = _
    rw [hfor, tableEvents_filter, hcommandsEq, hptsEq, hactivateEq]
    have hcreate : tableEvents region [.createMemoryRegion region parts.level r.caching hash] = [] := rfl
    have hlock : tableEvents region [.lockMemoryRegion region, .activatePagesMR region 0 (r.size / 4096)] = [] := rfl
    have hend : tableEvents region [.activateMemoryRegion region] = [] := rfl
    simp only [tableEvents_append, hcreated, hactivated, hpages, hcreate, hlock, hend, List.nil_append, List.append_nil]

/-- A region of two megabytes and one page, which needs tables on two levels. -/
theorem region_tables_small :
    let r : PhysicalRegion := ⟨"ram", .subject, "WB", 0x201000, 0x100000, none, "none", none⟩
    ∃ created activated, CoversRegion 0x201000 created activated ∧ ∃ s',
      createMemoryRegions noRegions [r] = .ok s' ∧ ∃ region, { r with tau0RootId := some region } ∈ s'.regions ∧
        tableEvents region s'.stream = created.map .created ++ activated.map .activated := by
  intro r
  obtain ⟨created, activated, hcovers, -, hrun⟩ := region_tables (r := r) rfl (by decide)
  have hfresh : noRegions.Fresh := fun c hc => absurd hc (by simp [noRegions])
  have hok : ∃ s', createMemoryRegions noRegions [r] = .ok s' := ⟨_, rfl⟩
  obtain ⟨s', hs'⟩ := hok
  exact ⟨created, activated, hcovers, s', hs', hrun noRegions s' [] [] hfresh hs'⟩

end Muen.Tools.Mugentau0cmds
