import Muen.Components.Ahci.Device

/-!
# Partition tables

`Mbr.Parse`: the walk over the master boot record and the extended boot records of a disk, and the table of
partitions it leaves behind. The disk and the outcome of every read are arbitrary.
-/

namespace Muen.Components.Ahci.Mbr

open Muenblock

abbrev Unsigned8 := BitVec 8

def partitionTypeEmpty : Unsigned8 := 0x00

def ebrPartitionTypes : List Unsigned8 := [0x05, 0x0f, 0x85]

/-- `Partition_Entry_Type` without the status byte and the CHS addresses. -/
structure PartitionEntry where
  partitionType : Unsigned8
  lbaFirstSector : Unsigned32
  sectorCnt : Unsigned32

/-- `MBR_Type` without the bootstrap code. -/
structure MbrType where
  partition14 : Vector PartitionEntry 4
  bootSignature : Unsigned16

/-- `Partitions.Partition_Element_Type`. -/
structure PartitionElement where
  startLba : Unsigned64
  sectorCnt : Unsigned64
  partitionType : Unsigned8
  deriving DecidableEq

def nullPartitionElement : PartitionElement := ⟨0, 0, 0⟩

/-- `Partition_Table_Type`. -/
structure PartitionTable where
  count : ℕ
  entries : Vector PartitionElement 128

def nullPartitionTable : PartitionTable := ⟨0, Vector.replicate 128 nullPartitionElement⟩

/-- The valid entries of a table. -/
def PartitionTable.valid (t : PartitionTable) : List PartitionElement := t.entries.toList.take t.count

def isEbr (t : Unsigned8) : Bool := ebrPartitionTypes.any fun ebr => t == ebr

/-- What tells `Parse` the table that comes next: its sector, the first sector of the extended partition and
the number of entries to look at. -/
structure Cursor where
  sector : Unsigned64
  ebrBase : Unsigned32
  maxEntries : ℕ

/-- The variables of `Parse`. -/
structure Variables extends Cursor where
  partTable : PartitionTable
  found : ℕ
  stopParsing : Bool

/-- The position in the table and the entry that is written there. -/
def Variables.setEntry (s : Variables) (h : s.partTable.count + s.found < 128) (e : PartitionElement) :
    Variables :=
  { s with
    partTable := { s.partTable with entries := s.partTable.entries.set (s.partTable.count + s.found) e h }
    found := s.found + 1 }

/-- The loop body of `Parse` for one entry; `none` when the table has no room. -/
def examine (s : Variables) (partition : PartitionEntry) : Option Variables :=
  if partition.partitionType = partitionTypeEmpty then some s
  else
    let (s, startLba, addEntry) :=
      if ¬isEbr partition.partitionType then
        (s, partition.lbaFirstSector.setWidth 64 + s.sector, true)
      else
        let startLba := (partition.lbaFirstSector + s.ebrBase).setWidth 64
        if s.ebrBase = 0 then
          ({ s with ebrBase := partition.lbaFirstSector, maxEntries := 2, sector := startLba, stopParsing := false },
            startLba, true)
        else ({ s with sector := startLba, stopParsing := false }, startLba, false)
    if h : s.partTable.count + s.found < 128 then
      some (if addEntry then s.setEntry h ⟨startLba, partition.sectorCnt.setWidth 64, partition.partitionType⟩ else s)
    else none

/-- The loop of `Parse` over the entries of one table. -/
def examineEntries : Variables → List PartitionEntry → Option Variables
  | s, [] => some s
  | s, p :: ps => (examine s p).bind fun s => examineEntries s ps

abbrev Disk := Unsigned64 → MbrType

def MbrType.first (t : MbrType) (maxEntries : ℕ) : List PartitionEntry := t.partition14.toList.take maxEntries

/-- `Parse_Loop`, cut off after `fuel` tables; `ret` is the outcome of the `n`th read. -/
def parseLoop (disk : Disk) (ret : ℕ → Unsigned64 → Status) : ℕ → ℕ → Variables → Option PartitionTable
  | 0, _, _ => none
  | fuel + 1, n, s =>
    if ret n s.sector ≠ .ok ∨ (disk s.sector).bootSignature ≠ 0xaa55 then some { s.partTable with count := 0 }
    else
      match examineEntries { s with found := 0, stopParsing := true } ((disk s.sector).first s.maxEntries) with
      | none => some nullPartitionTable
      | some s =>
        let partTable := { s.partTable with count := s.partTable.count + s.found }
        if s.stopParsing then some partTable else parseLoop disk ret fuel (n + 1) { s with partTable := partTable }

def start : Cursor := ⟨0, 0, 4⟩

def initial : Variables := { start with partTable := nullPartitionTable, found := 0, stopParsing := false }

def parse (disk : Disk) (ret : ℕ → Unsigned64 → Status) (fuel : ℕ) : Option PartitionTable :=
  parseLoop disk ret fuel 0 initial

/-! ### One table -/

section Examine

variable {s s' : Variables} {p : PartitionEntry} {ps : List PartitionEntry}

/-- Where the entry leaves the cursor. -/
def Cursor.pass (c : Cursor) (p : PartitionEntry) : Cursor :=
  if isEbr p.partitionType then
    ⟨(p.lbaFirstSector + c.ebrBase).setWidth 64, if c.ebrBase = 0 then p.lbaFirstSector else c.ebrBase,
      if c.ebrBase = 0 then 2 else c.maxEntries⟩
  else c

def PartitionEntry.element (p : PartitionEntry) (sector : Unsigned64) : PartitionElement :=
  ⟨p.lbaFirstSector.setWidth 64 + sector, p.sectorCnt.setWidth 64, p.partitionType⟩

/-- What is added to the table for the entry. -/
def Cursor.adds (c : Cursor) (p : PartitionEntry) : List PartitionElement :=
  if p.partitionType = partitionTypeEmpty then []
  else if ¬isEbr p.partitionType then [p.element c.sector]
  else if c.ebrBase = 0 then [p.element 0]
  else []

def Cursor.passAll (c : Cursor) (ps : List PartitionEntry) : Cursor := ps.foldl Cursor.pass c

/-- What is added to the table for the entries. -/
def Cursor.addsAll : Cursor → List PartitionEntry → List PartitionElement
  | _, [] => []
  | c, p :: ps => c.adds p ++ (c.pass p).addsAll ps

/-- An entry is only examined while the table has a place, `n` being taken before the first one. -/
def Cursor.Room : ℕ → Cursor → List PartitionEntry → Prop
  | _, _, [] => True
  | n, c, p :: ps => (p.partitionType ≠ partitionTypeEmpty → n < 128) ∧ Room (n + (c.adds p).length) (c.pass p) ps

/-- The entries that are in the table while the loop runs. -/
def Variables.added (s : Variables) : List PartitionElement :=
  s.partTable.entries.toList.take (s.partTable.count + s.found)

lemma isEbr_empty : isEbr partitionTypeEmpty = false := by decide

lemma Variables.added_setEntry (h : s.partTable.count + s.found < 128) (e : PartitionElement) :
    (s.setEntry h e).added = s.added ++ [e] := by
  unfold Variables.added Variables.setEntry
  simp only [Vector.toList_set, ← Nat.add_assoc]
  rw [List.take_succ_eq_append_getElem (by simpa using h), List.getElem_set_self, List.take_set_of_le le_rfl]

/-- What is done for one entry. -/
structure Examined (s s' : Variables) (c : Cursor) (more : List PartitionElement) (stop : Bool) : Prop where
  cursor : s'.toCursor = c
  added : s'.added = s.added ++ more
  count : s'.partTable.count = s.partTable.count
  found : s'.found = s.found + more.length
  stopParsing : s'.stopParsing = (s.stopParsing && stop)
  room : s.partTable.count + s.found ≤ 128 → s'.partTable.count + s'.found ≤ 128

lemma examine_room (h : p.partitionType ≠ partitionTypeEmpty → s.partTable.count + s.found < 128) :
    ∃ s', examine s p = some s' ∧
      Examined s s' (s.toCursor.pass p) (s.toCursor.adds p) (!isEbr p.partitionType) := by
  unfold examine Cursor.pass Cursor.adds
  by_cases hempty : p.partitionType = partitionTypeEmpty
  · rw [if_pos hempty, if_pos hempty, hempty, isEbr_empty]
    refine ⟨s, rfl, rfl, (List.append_nil _).symm, rfl, rfl, ?_, id⟩
    simp
  · have hroom := h hempty
    rw [if_neg hempty, if_neg hempty]
    cases hebr : isEbr p.partitionType with
    | false =>
      simp only [Bool.false_eq_true, not_false_eq_true, if_true, if_false, dif_pos hroom]
      refine ⟨_, rfl, rfl, Variables.added_setEntry hroom _, rfl, rfl, ?_, fun _ => ?_⟩
      · simp [Variables.setEntry]
      · exact hroom
    | true =>
      by_cases hbase : s.ebrBase = 0
      · simp only [not_true_eq_false, if_false, if_true, if_pos hbase, dif_pos hroom]
        refine ⟨_, rfl, ?_, ?_, rfl, rfl, ?_, fun _ => ?_⟩
        · simp [Variables.setEntry, hbase]
        · rw [Variables.added_setEntry, hbase]
          simp [Variables.added, PartitionEntry.element]
        · simp [Variables.setEntry]
        · exact hroom
      · simp only [not_true_eq_false, if_false, if_true, if_neg hbase, dif_pos hroom]
        refine ⟨_, rfl, ?_, ?_, rfl, rfl, ?_, id⟩
        · simp
        · simp [Variables.added]
        · simp

lemma examine_full (h : p.partitionType ≠ partitionTypeEmpty) (hfull : ¬s.partTable.count + s.found < 128) :
    examine s p = none := by
  unfold examine
  rw [if_neg h]
  cases hebr : isEbr p.partitionType with
  | false => simp [dif_neg hfull]
  | true =>
    by_cases hbase : s.ebrBase = 0
    · simp only [not_true_eq_false, if_false, if_pos hbase, dif_neg hfull]
    · simp only [not_true_eq_false, if_false, if_neg hbase, dif_neg hfull]

lemma Examined.length_adds (h : Examined s s' (s.toCursor.pass p) (s.toCursor.adds p) (!isEbr p.partitionType)) :
    s'.partTable.count + s'.found = s.partTable.count + s.found + (s.toCursor.adds p).length := by
  rw [h.count, h.found, Nat.add_assoc]

/-- The loop over the entries adds what is in them as long as there is a place, and stops otherwise. -/
theorem examineEntries_room (h : s.toCursor.Room (s.partTable.count + s.found) ps) :
    ∃ s', examineEntries s ps = some s' ∧
      Examined s s' (s.toCursor.passAll ps) (s.toCursor.addsAll ps) (ps.all fun p => !isEbr p.partitionType) := by
  induction ps generalizing s with
  | nil => exact ⟨s, rfl, rfl, (List.append_nil _).symm, rfl, rfl, (Bool.and_true _).symm, id⟩
  | cons p ps ih =>
    obtain ⟨s₁, hs₁, hx⟩ := examine_room h.1
    have hrest := h.2
    rw [← hx.length_adds, ← hx.cursor] at hrest
    obtain ⟨s', hs', hy⟩ := ih hrest
    have hc := hx.cursor
    refine ⟨s', ?_, ?_, ?_, hy.count.trans hx.count, ?_, ?_, fun hle => hy.room (hx.room hle)⟩
    · rw [examineEntries, hs₁, Option.bind_some, hs']
    · rw [hy.cursor, hc]
      rfl
    · rw [hy.added, hx.added, hc, List.append_assoc]
      rfl
    · rw [hy.found, hx.found, hc, Cursor.addsAll, List.length_append, Nat.add_assoc]
    · rw [hy.stopParsing, hx.stopParsing, List.all_cons, Bool.and_assoc]

theorem examineEntries_full (h : ¬s.toCursor.Room (s.partTable.count + s.found) ps) : examineEntries s ps = none := by
  induction ps generalizing s with
  | nil => exact absurd trivial h
  | cons p ps ih =>
    rw [examineEntries]
    by_cases hp : p.partitionType ≠ partitionTypeEmpty → s.partTable.count + s.found < 128
    · obtain ⟨s₁, hs₁, hx⟩ := examine_room hp
      have hrest : ¬s₁.toCursor.Room (s₁.partTable.count + s₁.found) ps := by
        rw [hx.length_adds, hx.cursor]
        exact fun hr => h ⟨hp, hr⟩
      rw [hs₁, Option.bind_some, ih hrest]
    · push Not at hp
      rw [examine_full hp.1 (by omega), Option.bind_none]

end Examine

/-! ### Tables with at most one extended entry -/

section Tables

variable {c : Cursor} {n : ℕ} {p : PartitionEntry} {es before after : List PartitionEntry}

def PartitionEntry.IsNormal (p : PartitionEntry) : Prop :=
  p.partitionType ≠ partitionTypeEmpty ∧ ¬isEbr p.partitionType

instance : DecidablePred PartitionEntry.IsNormal := fun p => by unfold PartitionEntry.IsNormal; infer_instance

/-- The entries for an extended boot record. -/
def extended (es : List PartitionEntry) : List PartitionEntry := es.filter fun p => isEbr p.partitionType

/-- The partitions of the entries that are not for an extended boot record. -/
def normals (sector : Unsigned64) (es : List PartitionEntry) : List PartitionElement :=
  (es.filter fun p => p.IsNormal).map fun p => p.element sector

/-- No partition stands after the entry for an extended boot record. -/
def LinkLast (es : List PartitionEntry) : Prop :=
  es.Pairwise fun p q => isEbr p.partitionType → ¬q.IsNormal

lemma isEbr_ne_empty (h : isEbr p.partitionType = true) : p.partitionType ≠ partitionTypeEmpty := by
  intro he
  rw [he, isEbr_empty] at h
  exact Bool.false_ne_true h

lemma Cursor.passAll_append : c.passAll (before ++ after) = (c.passAll before).passAll after := List.foldl_append

lemma Cursor.addsAll_append : c.addsAll (before ++ after) = c.addsAll before ++ (c.passAll before).addsAll after := by
  induction before generalizing c with
  | nil => rfl
  | cons p ps ih => rw [List.cons_append, addsAll, ih, addsAll, List.append_assoc, passAll, passAll, List.foldl_cons]

lemma Cursor.room_append : c.Room n (before ++ after) ↔
    c.Room n before ∧ (c.passAll before).Room (n + (c.addsAll before).length) after := by
  induction before generalizing c n with
  | nil => exact ⟨fun h => ⟨trivial, h⟩, fun h => h.2⟩
  | cons p ps ih =>
    rw [List.cons_append, Room, ih, Room, addsAll, List.length_append, and_assoc, Nat.add_assoc, passAll, passAll,
      List.foldl_cons]

lemma extended_eq_nil : extended es = [] ↔ (es.all fun p => !isEbr p.partitionType) = true := by
  simp [extended]

lemma Cursor.passAll_of_extended_nil (h : extended es = []) : c.passAll es = c := by
  induction es with
  | nil => rfl
  | cons p ps ih =>
    rw [extended_eq_nil, List.all_cons, Bool.and_eq_true, Bool.not_eq_true'] at h
    have hp : c.pass p = c := by rw [pass, if_neg (by simp [h.1])]
    rw [passAll, List.foldl_cons, hp]
    exact ih (extended_eq_nil.mpr h.2)

lemma Cursor.addsAll_of_extended_nil (h : extended es = []) : c.addsAll es = es.flatMap c.adds := by
  induction es with
  | nil => rfl
  | cons p ps ih =>
    rw [extended_eq_nil, List.all_cons, Bool.and_eq_true, Bool.not_eq_true'] at h
    have hp : c.pass p = c := by rw [pass, if_neg (by simp [h.1])]
    rw [addsAll, hp, ih (extended_eq_nil.mpr h.2), List.flatMap_cons]

lemma flatMap_if {α β : Type} (P : α → Prop) [DecidablePred P] (f : α → β) (l : List α) :
    (l.flatMap fun a => if P a then [f a] else []) = (l.filter fun a => P a).map f := by
  induction l with
  | nil => rfl
  | cons a l ih =>
    rw [List.flatMap_cons, ih, List.filter_cons]
    by_cases ha : P a
    · rw [if_pos ha, if_pos (decide_eq_true ha), List.map_cons, List.singleton_append]
    · rw [if_neg ha, if_neg (by simpa using ha), List.nil_append]

lemma Cursor.adds_of_normal (h : isEbr p.partitionType = false) :
    c.adds p = if p.IsNormal then [p.element c.sector] else [] := by
  unfold adds PartitionEntry.IsNormal
  by_cases hempty : p.partitionType = partitionTypeEmpty
  · simp [hempty]
  · simp [hempty, h]

lemma Cursor.flatMap_adds_of_extended_nil (h : extended es = []) : es.flatMap c.adds = normals c.sector es := by
  rw [normals, ← flatMap_if PartitionEntry.IsNormal]
  apply List.flatMap_congr
  intro p hp
  exact adds_of_normal (by simpa using List.filter_eq_nil_iff.mp h p hp)

lemma extended_eq_singleton (h : extended es = [p]) : isEbr p.partitionType = true ∧ ∃ before after,
    es = before ++ p :: after ∧ extended before = [] ∧ extended after = [] := by
  obtain ⟨before, after, rfl, hbefore, hp, hafter⟩ := List.filter_eq_cons_iff.mp h
  exact ⟨hp, before, after, rfl, List.filter_eq_nil_iff.mpr hbefore, hafter⟩

lemma Cursor.passAll_link (hbefore : extended before = [])
    (hafter : extended after = []) : c.passAll (before ++ p :: after) = c.pass p := by
  rw [passAll_append, passAll_of_extended_nil hbefore, passAll, List.foldl_cons]
  exact passAll_of_extended_nil hafter

lemma Cursor.addsAll_link (hbefore : extended before = []) (hafter : extended after = []) :
    c.addsAll (before ++ p :: after) = before.flatMap c.adds ++ (c.adds p ++ normals (c.pass p).sector after) := by
  rw [addsAll_append, passAll_of_extended_nil hbefore, addsAll_of_extended_nil hbefore, addsAll,
    addsAll_of_extended_nil hafter, flatMap_adds_of_extended_nil hafter]

lemma Cursor.flatMap_adds_link (hafter : extended after = []) :
    (before ++ p :: after).flatMap c.adds = before.flatMap c.adds ++ (c.adds p ++ normals c.sector after) := by
  rw [List.flatMap_append, List.flatMap_cons, flatMap_adds_of_extended_nil hafter]

lemma normals_length (sector sector' : Unsigned64) (es : List PartitionEntry) :
    (normals sector es).length = (normals sector' es).length := by
  rw [normals, List.length_map, normals, List.length_map]

lemma normals_inj {sector sector' : Unsigned64} (hne : sector ≠ sector') :
    normals sector es = normals sector' es ↔ normals sector' es = [] := by
  constructor
  · intro h
    unfold normals at h ⊢
    cases hes : es.filter fun p => p.IsNormal with
    | nil => rfl
    | cons p ps =>
      rw [hes, List.map_cons, List.map_cons, List.cons.injEq, PartitionEntry.element, PartitionEntry.element,
        PartitionElement.mk.injEq, BitVec.add_right_inj] at h
      exact absurd h.1.1 hne
  · intro h
    rw [h, ← List.length_eq_zero_iff, normals_length sector sector', h, List.length_nil]

lemma linkLast_of_extended_nil (h : extended es = []) : LinkLast es := by
  apply List.Pairwise.imp_of_mem _ (List.pairwise_of_forall (R := fun _ _ => True) fun _ _ => trivial)
  intro p q hp _ _ hebr
  exact absurd hebr (List.filter_eq_nil_iff.mp h p hp)

lemma linkLast_link (sector : Unsigned64) (hp : isEbr p.partitionType = true) (hbefore : extended before = [])
    (hafter : extended after = []) : LinkLast (before ++ p :: after) ↔ normals sector after = [] := by
  have hnone : ∀ q ∈ before, ¬isEbr q.partitionType := fun q hq => List.filter_eq_nil_iff.mp hbefore q hq
  rw [LinkLast, List.pairwise_append, List.pairwise_cons, normals, List.map_eq_nil_iff, List.filter_eq_nil_iff]
  constructor
  · intro h q hq hnormal
    exact h.2.1.1 q hq hp (of_decide_eq_true hnormal)
  · intro h
    refine ⟨linkLast_of_extended_nil hbefore, ⟨fun q hq _ hnormal => ?_, linkLast_of_extended_nil hafter⟩, ?_⟩
    · exact h q hq (decide_eq_true hnormal)
    · intro q hq _ _ hebr
      exact absurd hebr (hnone q hq)

/-- An entry for an extended boot record does not change how many partitions are added. -/
lemma Cursor.addsAll_length (h : extended es = [p]) : (c.addsAll es).length = (es.flatMap c.adds).length := by
  obtain ⟨-, before, after, rfl, hbefore, hafter⟩ := extended_eq_singleton h
  rw [addsAll_link hbefore hafter, flatMap_adds_link hafter, List.length_append, List.length_append,
    List.length_append, List.length_append, normals_length]

/-- The partitions are those of the table exactly when none of them stands after the link. -/
lemma Cursor.addsAll_eq_iff (h : extended es = [p]) (hne : (c.pass p).sector ≠ c.sector) :
    c.addsAll es = es.flatMap c.adds ↔ LinkLast es := by
  obtain ⟨hp, before, after, rfl, hbefore, hafter⟩ := extended_eq_singleton h
  rw [addsAll_link hbefore hafter, flatMap_adds_link hafter, List.append_cancel_left_eq,
    List.append_cancel_left_eq, normals_inj hne, linkLast_link c.sector hp hbefore hafter]

lemma Cursor.passAll_of_extended (h : extended es = [p]) : c.passAll es = c.pass p := by
  obtain ⟨-, before, after, rfl, hbefore, hafter⟩ := extended_eq_singleton h
  exact passAll_link hbefore hafter

/-- The link itself is only examined while the table has a place. -/
lemma Cursor.room_linkLast (h : extended es = [p]) (hlast : LinkLast es) (hroom : c.Room n es) :
    n + (es.flatMap c.adds).length < 128 + (c.adds p).length := by
  obtain ⟨hp, before, after, rfl, hbefore, hafter⟩ := extended_eq_singleton h
  have hlink := (room_append.mp hroom).2.1 (isEbr_ne_empty hp)
  rw [flatMap_adds_link hafter, (linkLast_link c.sector hp hbefore hafter).mp hlast, List.append_nil,
    List.length_append]
  rw [addsAll_of_extended_nil hbefore] at hlink
  omega

lemma Cursor.room_of_extended_nil (h : extended es = []) (hle : n + (es.flatMap c.adds).length ≤ 128) :
    c.Room n es := by
  induction es generalizing n with
  | nil => trivial
  | cons p ps ih =>
    rw [extended_eq_nil, List.all_cons, Bool.and_eq_true, Bool.not_eq_true'] at h
    have hp : c.pass p = c := by rw [pass, if_neg (by simp [h.1])]
    rw [List.flatMap_cons, List.length_append] at hle
    refine ⟨fun hne => ?_, ?_⟩
    · have hone : (c.adds p).length = 1 := by
        rw [adds_of_normal h.1, if_pos ⟨hne, by simp [h.1]⟩, List.length_singleton]
      omega
    · rw [hp]
      exact ih (extended_eq_nil.mpr h.2) (by omega)

end Tables

/-! ### The loop over the tables -/

section Loop

variable {disk : Disk} {ret : ℕ → Unsigned64 → Status} {n k fuel : ℕ} {s : Variables} {t : PartitionTable}

def Readable (disk : Disk) (ret : ℕ → Unsigned64 → Status) (n : ℕ) (sector : Unsigned64) : Prop :=
  ret n sector = .ok ∧ (disk sector).bootSignature = 0xaa55

/-- The entries that are looked at. -/
def Cursor.entries (c : Cursor) (disk : Disk) : List PartitionEntry := (disk c.sector).first c.maxEntries

/-- The tables from the cursor on come to an end, or to one that cannot be read, or they fill the table:
`n` of them have been read and hold `k` partitions. -/
inductive Ends (disk : Disk) (ret : ℕ → Unsigned64 → Status) : ℕ → ℕ → Cursor → Prop
  | unreadable {n k : ℕ} {c : Cursor} : ¬Readable disk ret n c.sector → Ends disk ret n k c
  | full {n k : ℕ} {c : Cursor} : 128 ≤ k → Ends disk ret n k c
  | last {n k : ℕ} {c : Cursor} : extended (c.entries disk) = [] → Ends disk ret n k c
  | next {n k : ℕ} {c : Cursor} : Ends disk ret (n + 1) (k + (c.addsAll (c.entries disk)).length)
      (c.passAll (c.entries disk)) → Ends disk ret n k c

lemma PartitionTable.valid_length (h : t.count ≤ 128) : t.valid.length = t.count := by
  simp [valid, h]

lemma parseLoop_unreadable (h : ¬Readable disk ret n s.sector) :
    parseLoop disk ret (fuel + 1) n s = some { s.partTable with count := 0 } := by
  have hor : ret n s.sector ≠ .ok ∨ (disk s.sector).bootSignature ≠ 0xaa55 := by
    by_contra hno
    push Not at hno
    exact h hno
  rw [parseLoop, if_pos hor]

/-- The variables after a table whose entries have been added. -/
structure Scanned (disk : Disk) (s s' : Variables) : Prop where
  cursor : s'.toCursor = s.toCursor.passAll (s.entries disk)
  valid : s'.partTable.valid = s.partTable.valid ++ s.toCursor.addsAll (s.entries disk)
  count : s'.partTable.count = s.partTable.count + (s.toCursor.addsAll (s.entries disk)).length
  le : s.partTable.count ≤ 128 → s'.partTable.count ≤ 128

lemma parseLoop_full (h : Readable disk ret n s.sector)
    (hfull : ¬s.toCursor.Room s.partTable.count (s.entries disk)) :
    parseLoop disk ret (fuel + 1) n s = some nullPartitionTable := by
  have hnone : examineEntries { s with found := 0, stopParsing := true } ((disk s.sector).first s.maxEntries) =
      none := examineEntries_full hfull
  rw [parseLoop, if_neg (by simp [h.1, h.2]), hnone]

lemma parseLoop_room (h : Readable disk ret n s.sector) (hroom : s.toCursor.Room s.partTable.count (s.entries disk)) :
    ∃ s', Scanned disk s s' ∧ ∀ fuel, parseLoop disk ret (fuel + 1) n s =
      if extended (s.entries disk) = [] then some s'.partTable else parseLoop disk ret fuel (n + 1) s' := by
  obtain ⟨s₁, hs₁, hx⟩ := examineEntries_room (s := { s with found := 0, stopParsing := true }) hroom
  refine ⟨{ s₁ with partTable := { s₁.partTable with count := s₁.partTable.count + s₁.found } }, ?_, fun fuel => ?_⟩
  · have hcount : s₁.partTable.count + s₁.found =
        s.partTable.count + (s.toCursor.addsAll (s.entries disk)).length := by
      rw [hx.count, hx.found, Nat.zero_add]
    exact ⟨hx.cursor, hx.added, hcount, fun hle => hx.room hle⟩
  · have hs₁' : examineEntries { s with found := 0, stopParsing := true } ((disk s.sector).first s.maxEntries) =
        some s₁ := hs₁
    have hstop := hx.stopParsing
    rw [Bool.true_and] at hstop
    rw [parseLoop, if_neg (by simp [h.1, h.2]), hs₁']
    simp only [hstop, ← extended_eq_nil]

/-- What holds of every way in which the loop comes to an end holds of its result. -/
theorem parseLoop_induction {P : ℕ → Variables → PartitionTable → Prop}
    (unreadable : ∀ n s, ¬Readable disk ret n s.sector → P n s { s.partTable with count := 0 })
    (full : ∀ n s, Readable disk ret n s.sector → ¬s.toCursor.Room s.partTable.count (s.entries disk) →
      P n s nullPartitionTable)
    (last : ∀ n s s', Readable disk ret n s.sector → s.toCursor.Room s.partTable.count (s.entries disk) →
      Scanned disk s s' → extended (s.entries disk) = [] → P n s s'.partTable)
    (next : ∀ n s s' t, Readable disk ret n s.sector → s.toCursor.Room s.partTable.count (s.entries disk) →
      Scanned disk s s' → extended (s.entries disk) ≠ [] → P (n + 1) s' t → P n s t)
    (h : parseLoop disk ret fuel n s = some t) : P n s t := by
  induction fuel generalizing n s with
  | zero => cases h
  | succ fuel ih =>
    by_cases hread : Readable disk ret n s.sector
    · by_cases hroom : s.toCursor.Room s.partTable.count (s.entries disk)
      · obtain ⟨s', hs', hloop⟩ := parseLoop_room hread hroom
        rw [hloop] at h
        by_cases hlast : extended (s.entries disk) = []
        · rw [if_pos hlast, Option.some_inj] at h
          exact h ▸ last n s s' hread hroom hs' hlast
        · rw [if_neg hlast] at h
          exact next n s s' t hread hroom hs' hlast (ih h)
      · rw [parseLoop_full hread hroom, Option.some_inj] at h
        exact h ▸ full n s hread hroom
    · rw [parseLoop_unreadable hread, Option.some_inj] at h
      exact h ▸ unreadable n s hread

/-- The table never holds more entries than it has places. -/
theorem parseLoop_count (hs : s.partTable.count ≤ 128) (h : parseLoop disk ret fuel n s = some t) :
    t.count ≤ 128 := by
  refine parseLoop_induction (P := fun _ s t => s.partTable.count ≤ 128 → t.count ≤ 128) ?_ ?_ ?_ ?_ h hs
  · exact fun _ _ _ _ => Nat.zero_le 128
  · exact fun _ _ _ _ _ => Nat.zero_le 128
  · exact fun _ _ _ _ _ hx _ hle => hx.le hle
  · exact fun _ _ _ _ _ _ hx _ ih hle => ih (hx.le hle)

/-- The result is the empty table or starts with what is in the table already. -/
lemma parseLoop_valid (h : parseLoop disk ret fuel n s = some t) :
    t.valid = [] ∨ s.partTable.valid <+: t.valid := by
  refine parseLoop_induction (P := fun _ s t => t.valid = [] ∨ s.partTable.valid <+: t.valid) ?_ ?_ ?_ ?_ h
  · exact fun _ _ _ => Or.inl rfl
  · exact fun _ _ _ _ => Or.inl rfl
  · exact fun _ _ _ _ _ hx _ => Or.inr (hx.valid ▸ List.prefix_append _ _)
  · exact fun _ _ _ _ _ _ hx _ ih => ih.imp_right fun hpre => (hx.valid ▸ List.prefix_append _ _).trans hpre

lemma Cursor.room_of_lt {c : Cursor} {es : List PartitionEntry} (h : k + (c.addsAll es).length < 128) :
    c.Room k es := by
  induction es generalizing c k with
  | nil => trivial
  | cons p ps ih =>
    rw [addsAll, List.length_append, ← Nat.add_assoc] at h
    exact ⟨fun _ => by omega, ih h⟩

lemma Cursor.room_lt {c : Cursor} {es : List PartitionEntry} (h : extended es ≠ []) (hroom : c.Room k es) :
    k < 128 := by
  induction es generalizing c k with
  | nil => exact absurd rfl h
  | cons p ps ih =>
    cases hp : isEbr p.partitionType with
    | true => exact hroom.1 (isEbr_ne_empty hp)
    | false =>
      have hrest : extended ps ≠ [] := by
        intro hnil
        exact h (extended_eq_nil.mpr (by rw [List.all_cons, hp, extended_eq_nil.mp hnil]; rfl))
      have := ih hrest hroom.2
      omega

/-- The loop goes on to the next table. -/
structure Turn (disk : Disk) (ret : ℕ → Unsigned64 → Status) (n : ℕ) (s : Variables) : Prop where
  readable : Readable disk ret n s.sector
  room : s.toCursor.Room s.partTable.count (s.entries disk)
  linked : extended (s.entries disk) ≠ []
  next : ∃ s', Scanned disk s s' ∧ ∀ fuel, parseLoop disk ret (fuel + 1) n s = parseLoop disk ret fuel (n + 1) s'

lemma parseLoop_turn (disk : Disk) (ret : ℕ → Unsigned64 → Status) (n : ℕ) (s : Variables) :
    (∃ t, parseLoop disk ret 1 n s = some t) ∨ Turn disk ret n s := by
  by_cases hread : Readable disk ret n s.sector
  · by_cases hroom : s.toCursor.Room s.partTable.count (s.entries disk)
    · obtain ⟨s', hx, hloop⟩ := parseLoop_room hread hroom
      by_cases hlast : extended (s.entries disk) = []
      · exact Or.inl ⟨_, (hloop 0).trans (if_pos hlast)⟩
      · exact Or.inr ⟨hread, hroom, hlast, s', hx, fun fuel => (hloop fuel).trans (if_neg hlast)⟩
    · exact Or.inl ⟨_, parseLoop_full hread hroom⟩
  · exact Or.inl ⟨_, parseLoop_unreadable hread⟩

/-- `Parse` terminates exactly when the walk over the tables ends. -/
theorem parseLoop_terminates (hs : s.partTable.count ≤ 128) :
    (∃ fuel t, parseLoop disk ret fuel n s = some t) ↔ Ends disk ret n s.partTable.count s.toCursor := by
  constructor
  · rintro ⟨fuel, t, h⟩
    refine parseLoop_induction
      (P := fun n s _ => Ends disk ret n s.partTable.count s.toCursor) ?_ ?_ ?_ ?_ h
    · exact fun _ _ hread => Ends.unreadable hread
    · intro n s _ hfull
      apply Ends.next
      apply Ends.full
      by_contra hlt
      exact hfull (Cursor.room_of_lt (by omega))
    · exact fun _ _ _ _ _ _ hlast => Ends.last hlast
    · intro n s s' t _ _ hx _ ih
      rw [hx.count, hx.cursor] at ih
      exact Ends.next ih
  · intro h
    generalize hk : s.partTable.count = k at h
    generalize hc : s.toCursor = c at h
    induction h generalizing s with
    | unreadable hread => exact ⟨1, _, parseLoop_unreadable (hc ▸ hread)⟩
    | full hfull =>
      rcases parseLoop_turn disk ret _ s with ⟨t, ht⟩ | hturn
      · exact ⟨1, t, ht⟩
      · have := Cursor.room_lt hturn.linked hturn.room
        omega
    | last hlast =>
      rcases parseLoop_turn disk ret _ s with ⟨t, ht⟩ | hturn
      · exact ⟨1, t, ht⟩
      · exact absurd (hc ▸ hlast) hturn.linked
    | next _ ih =>
      rcases parseLoop_turn disk ret _ s with ⟨t, ht⟩ | hturn
      · exact ⟨1, t, ht⟩
      · obtain ⟨s', hx, hloop⟩ := hturn.next
        subst hk hc
        obtain ⟨fuel, t, ht⟩ := ih (hx.le hs) hx.count hx.cursor
        exact ⟨fuel + 1, t, (hloop fuel).trans ht⟩

end Loop

/-! ### The chain of extended boot records -/

section Chain

variable {disk : Disk} {ret : ℕ → Unsigned64 → Status} {n fuel : ℕ} {s : Variables} {t : PartitionTable}
variable {base : Unsigned32} {sector : Unsigned64} {ebrs : List Unsigned64} {acc : List PartitionElement}

/-- The entries of an extended boot record that have a meaning. -/
def ebrEntries (disk : Disk) (sector : Unsigned64) : List PartitionEntry := (disk sector).first 2

def mbrEntries (disk : Disk) : List PartitionEntry := (disk 0).first 4

/-- The chain of extended boot records from a sector on; links count from `base`. -/
inductive EbrChain (disk : Disk) (base : Unsigned32) : Unsigned64 → List Unsigned64 → Prop
  | last {sector : Unsigned64} : extended (ebrEntries disk sector) = [] → EbrChain disk base sector [sector]
  | next {sector : Unsigned64} {p : PartitionEntry} {ebrs : List Unsigned64} :
      extended (ebrEntries disk sector) = [p] →
      EbrChain disk base ((p.lbaFirstSector + base).setWidth 64) ebrs → EbrChain disk base sector (sector :: ebrs)

/-- The extended boot records of the disk, none when the master boot record has no entry for them. -/
inductive ExtendedChain (disk : Disk) : List Unsigned64 → Prop
  | absent : extended (mbrEntries disk) = [] → ExtendedChain disk []
  | present {p : PartitionEntry} {ebrs : List Unsigned64} : extended (mbrEntries disk) = [p] →
      EbrChain disk p.lbaFirstSector (p.lbaFirstSector.setWidth 64) ebrs → ExtendedChain disk ebrs

/-- The partitions that are described by the master boot record. -/
def mbrPartitions (disk : Disk) : List PartitionElement :=
  ((mbrEntries disk).filter fun p => p.partitionType ≠ partitionTypeEmpty).map fun p =>
    ⟨p.lbaFirstSector.setWidth 64, p.sectorCnt.setWidth 64, p.partitionType⟩

/-- The logical partitions that are described by an extended boot record. -/
def logicalPartitions (disk : Disk) (sector : Unsigned64) : List PartitionElement :=
  ((ebrEntries disk sector).filter fun p => p.IsNormal).map fun p =>
    ⟨sector + p.lbaFirstSector.setWidth 64, p.sectorCnt.setWidth 64, p.partitionType⟩

/-- All partitions of the disk. -/
def partitions (disk : Disk) (ebrs : List Unsigned64) : List PartitionElement :=
  mbrPartitions disk ++ ebrs.flatMap (logicalPartitions disk)

lemma logicalPartitions_eq : logicalPartitions disk sector = normals sector (ebrEntries disk sector) := by
  apply List.map_congr_left
  intro p _
  rw [PartitionEntry.element, BitVec.add_comm]

lemma logicalPartitions_adds (hbase : base ≠ 0) :
    logicalPartitions disk sector = (ebrEntries disk sector).flatMap (Cursor.adds ⟨sector, base, 2⟩) := by
  rw [logicalPartitions_eq, normals, ← flatMap_if PartitionEntry.IsNormal]
  apply List.flatMap_congr
  intro p _
  cases hp : isEbr p.partitionType with
  | true => simpa [Cursor.adds, PartitionEntry.IsNormal, hp] using fun _ => hbase
  | false => rw [Cursor.adds_of_normal hp]

lemma mbrPartitions_adds : mbrPartitions disk = (mbrEntries disk).flatMap start.adds := by
  rw [mbrPartitions, ← flatMap_if fun p : PartitionEntry => p.partitionType ≠ partitionTypeEmpty]
  apply List.flatMap_congr
  intro p _
  by_cases hempty : p.partitionType = partitionTypeEmpty
  · simp [Cursor.adds, hempty]
  · cases hp : isEbr p.partitionType with
    | true => simp [Cursor.adds, PartitionEntry.element, start, hempty, hp]
    | false => simp [Cursor.adds, PartitionEntry.element, start, hempty, hp]

lemma EbrChain.mem (h : EbrChain disk base sector ebrs) : sector ∈ ebrs := by
  cases h with
  | last => exact List.mem_singleton_self sector
  | next => exact List.mem_cons_self

/-- The partitions of the table at the cursor. -/
def Cursor.partitions (c : Cursor) (disk : Disk) : List PartitionElement := (c.entries disk).flatMap c.adds

/-- After a table with a link the loop goes on with all partitions of the table, or its result misses them. -/
lemma parseLoop_linked {p : PartitionEntry} (hread : Readable disk ret n s.sector)
    (hlink : extended (s.entries disk) = [p]) (hne : (s.toCursor.pass p).sector ≠ s.sector)
    (hcount : s.partTable.count ≤ 128) (h : parseLoop disk ret fuel n s = some t) :
    (LinkLast (s.entries disk) ∧ s.toCursor.Room s.partTable.count (s.entries disk) ∧
      ∃ fuel' s', parseLoop disk ret fuel' (n + 1) s' = some t ∧ s'.toCursor = s.toCursor.pass p ∧
        s'.partTable.valid = s.partTable.valid ++ s.toCursor.partitions disk ∧ s'.partTable.count ≤ 128) ∨
    (¬(LinkLast (s.entries disk) ∧ s.toCursor.Room s.partTable.count (s.entries disk)) ∧
      ∀ rest, t.valid ≠ s.partTable.valid ++ s.toCursor.partitions disk ++ rest) := by
  have hlength := Cursor.addsAll_length (c := s.toCursor) hlink
  have hiff := Cursor.addsAll_eq_iff hlink hne
  cases fuel with
  | zero => cases h
  | succ fuel =>
    by_cases hroom : s.toCursor.Room s.partTable.count (s.entries disk)
    · obtain ⟨s', hx, hloop⟩ := parseLoop_room hread hroom
      rw [hloop, hlink, if_neg (List.cons_ne_nil p [])] at h
      by_cases hlast : LinkLast (s.entries disk)
      · left
        refine ⟨hlast, hroom, fuel, s', h, ?_, ?_, hx.le hcount⟩
        · rw [hx.cursor, Cursor.passAll_of_extended hlink]
        · rw [hx.valid, hiff.mpr hlast]
          rfl
      · right
        refine ⟨fun hall => hlast hall.1, fun rest heq => hlast (hiff.mp ?_)⟩
        have hvalid := parseLoop_valid h
        rw [hx.valid, heq] at hvalid
        rcases hvalid with hnil | hpre
        · have hpartitions : s.toCursor.partitions disk = [] := by
            simp only [List.append_eq_nil_iff] at hnil
            exact hnil.1.2
          have hnone : (s.entries disk).flatMap s.toCursor.adds = [] := hpartitions
          rw [hnone] at hlength ⊢
          exact List.length_eq_zero_iff.mp hlength
        · rw [List.append_assoc, List.prefix_append_right_inj] at hpre
          exact (List.append_inj_left (List.prefix_iff_eq_append.mp hpre) hlength)
    · right
      refine ⟨fun hall => hroom hall.2, fun rest heq => ?_⟩
      have hfull : ¬s.partTable.count + (s.toCursor.addsAll (s.entries disk)).length < 128 := fun hlt =>
        hroom (Cursor.room_of_lt hlt)
      rw [parseLoop_full hread hroom, Option.some_inj] at h
      have hzero : (s.partTable.valid ++ s.toCursor.partitions disk ++ rest).length = 0 := by
        rw [← heq, ← h]
        rfl
      have hpartitions : (s.toCursor.partitions disk).length = ((s.entries disk).flatMap s.toCursor.adds).length := rfl
      rw [List.length_append, List.length_append, PartitionTable.valid_length hcount, hpartitions, ← hlength] at hzero
      omega

/-- After a table without a link the result has all partitions of the table. -/
lemma parseLoop_unlinked (hread : Readable disk ret n s.sector) (hlink : extended (s.entries disk) = [])
    (hcount : s.partTable.count ≤ 128) (hfits : (s.partTable.valid ++ s.toCursor.partitions disk).length ≤ 128)
    (h : parseLoop disk ret fuel n s = some t) : t.valid = s.partTable.valid ++ s.toCursor.partitions disk := by
  rw [List.length_append, PartitionTable.valid_length hcount] at hfits
  cases fuel with
  | zero => cases h
  | succ fuel =>
    obtain ⟨s', hx, hloop⟩ := parseLoop_room hread (Cursor.room_of_extended_nil hlink hfits)
    rw [hloop, if_pos hlink, Option.some_inj] at h
    rw [← h, hx.valid, Cursor.addsAll_of_extended_nil hlink]
    rfl

lemma atEbr (disk : Disk) (hbase : base ≠ 0) (hcursor : s.toCursor = ⟨sector, base, 2⟩) :
    s.sector = sector ∧ s.entries disk = ebrEntries disk sector ∧
      s.toCursor.partitions disk = logicalPartitions disk sector := by
  refine ⟨congrArg Cursor.sector hcursor, ?_, ?_⟩
  · rw [hcursor]
    rfl
  · rw [hcursor, logicalPartitions_adds hbase]
    rfl

/-- From an extended boot record on, the table is that of the chain exactly when every link stands last and is
examined while the table has a place. -/
theorem parseLoop_ebrs (hbase : base ≠ 0) (hchain : EbrChain disk base sector ebrs) (hnodup : ebrs.Nodup)
    (hcursor : s.toCursor = ⟨sector, base, 2⟩) (hcount : s.partTable.count < 128)
    (hread : ∀ i (hi : i < ebrs.length), Readable disk ret (n + i) ebrs[i])
    (hfits : (s.partTable.valid ++ ebrs.flatMap (logicalPartitions disk)).length ≤ 128)
    (h : parseLoop disk ret fuel n s = some t) :
    t.valid = s.partTable.valid ++ ebrs.flatMap (logicalPartitions disk) ↔
      (∀ e ∈ ebrs, LinkLast (ebrEntries disk e)) ∧
        (s.partTable.valid ++ ebrs.dropLast.flatMap (logicalPartitions disk)).length < 128 := by
  induction hchain generalizing fuel n s with
  | @last sector hlast =>
    have hvalid := PartitionTable.valid_length hcount.le
    obtain ⟨hsector, hentries, hhere⟩ := atEbr disk hbase hcursor
    rw [List.flatMap_singleton, ← hhere] at hfits ⊢
    constructor
    · intro _
      refine ⟨fun e he => ?_, ?_⟩
      · rw [List.mem_singleton.mp he]
        exact linkLast_of_extended_nil hlast
      · rw [List.dropLast_singleton, List.flatMap_nil, List.append_nil, hvalid]
        exact hcount
    · intro _
      exact parseLoop_unlinked (hsector ▸ hread 0 Nat.one_pos) (hentries ▸ hlast) hcount.le hfits h
  | @next sector p ebrs hlink hrest ih =>
    have hvalid := PartitionTable.valid_length hcount.le
    obtain ⟨hsector, hentries, hhere⟩ := atEbr disk hbase hcursor
    obtain ⟨hp, -⟩ := extended_eq_singleton hlink
    have hpass : s.toCursor.pass p = ⟨(p.lbaFirstSector + base).setWidth 64, base, 2⟩ := by
      rw [hcursor, Cursor.pass, if_pos hp, if_neg hbase, if_neg hbase]
    have hadds : s.toCursor.adds p = [] := by
      rw [hcursor, Cursor.adds, if_neg (isEbr_ne_empty hp), hp, if_neg (by simp), if_neg hbase]
    have hne : (s.toCursor.pass p).sector ≠ s.sector := by
      rw [hpass, hsector]
      intro heq
      exact (List.nodup_cons.mp hnodup).1 (heq ▸ hrest.mem)
    have hebrs : ebrs ≠ [] := List.ne_nil_of_mem hrest.mem
    rw [List.dropLast_cons_of_ne_nil hebrs, List.flatMap_cons, List.flatMap_cons, ← List.append_assoc,
      ← List.append_assoc, ← hhere]
    rw [List.flatMap_cons, ← List.append_assoc, ← hhere] at hfits
    have hturn := parseLoop_linked (hsector ▸ hread 0 (Nat.succ_pos _)) (hentries ▸ hlink) hne hcount.le h
    rcases hturn with ⟨hlast, hroom, fuel', s', h', hcursor', hvalid', hcount'⟩ | ⟨hno, hne'⟩
    · have hlt : s'.partTable.count < 128 := by
        have hroom' := Cursor.room_linkLast (hentries ▸ hlink) hlast hroom
        rw [hadds] at hroom'
        rw [← PartitionTable.valid_length hcount', hvalid', List.length_append, hvalid]
        exact hroom'
      rw [hpass] at hcursor'
      rw [← hvalid'] at hfits ⊢
      have hread' : ∀ i (hi : i < ebrs.length), Readable disk ret (n + 1 + i) ebrs[i] := by
        intro i hi
        rw [Nat.add_assoc, Nat.add_comm 1]
        exact hread (i + 1) (Nat.succ_lt_succ hi)
      rw [ih (List.nodup_cons.mp hnodup).2 hcursor' hlt hread' hfits h', List.forall_mem_cons, ← hentries]
      simp only [hlast, true_and]
    · constructor
      · intro heq
        exact absurd heq (hne' _)
      · rintro ⟨hall, hlt⟩
        refine absurd ⟨hentries ▸ hall sector List.mem_cons_self, Cursor.room_of_lt ?_⟩ hno
        have hlength : (s.toCursor.partitions disk).length = (s.toCursor.addsAll (s.entries disk)).length :=
          (Cursor.addsAll_length (hentries ▸ hlink)).symm
        rw [List.length_append, List.length_append, hvalid, hlength] at hlt
        omega

/-- The extended boot records form a chain without a cycle, every table of the disk can be read and is valid, and
there is a place for every partition. -/
structure Intact (disk : Disk) (ret : ℕ → Unsigned64 → Status) (ebrs : List Unsigned64) : Prop where
  chain : ExtendedChain disk ebrs
  acyclic : (0 :: ebrs).Nodup
  readable : ∀ i (hi : i < (0 :: ebrs).length), Readable disk ret i (0 :: ebrs)[i]
  fits : (partitions disk ebrs).length ≤ 128

lemma mbrPartitions_length : (mbrPartitions disk).length ≤ 4 := by
  rw [mbrPartitions, List.length_map]
  apply (List.length_filter_le _ _).trans
  rw [mbrEntries, MbrType.first, List.length_take]
  exact min_le_left _ _

/-- On an intact disk the table lists the partitions exactly when every link stands last and is examined while the
table has a place. -/
theorem parse_intact (hdisk : Intact disk ret ebrs) (h : parse disk ret fuel = some t) :
    t.valid = partitions disk ebrs ↔ LinkLast (mbrEntries disk) ∧ (∀ e ∈ ebrs, LinkLast (ebrEntries disk e)) ∧
      (partitions disk ebrs.dropLast).length < 128 := by
  have hread : Readable disk ret 0 initial.sector := hdisk.readable 0 (Nat.succ_pos _)
  have hhere : initial.toCursor.partitions disk = mbrPartitions disk := mbrPartitions_adds.symm
  have hnil : initial.partTable.valid = [] := rfl
  have hmbr : (mbrPartitions disk).length ≤ 4 := mbrPartitions_length
  cases hdisk.chain with
  | absent hnone =>
    have hvalid : t.valid = initial.partTable.valid ++ initial.toCursor.partitions disk := by
      apply parseLoop_unlinked hread hnone (Nat.zero_le _) _ h
      rw [hhere, hnil, List.nil_append]
      omega
    rw [hhere, hnil, List.nil_append] at hvalid
    simp only [partitions, hvalid, List.flatMap_nil, List.append_nil, true_iff, List.dropLast_nil]
    exact ⟨linkLast_of_extended_nil hnone, fun _ h => absurd h List.not_mem_nil, by omega⟩
  | @present p ebrs hlink hrest =>
    obtain ⟨hp, -⟩ := extended_eq_singleton hlink
    have hpass : initial.toCursor.pass p = ⟨p.lbaFirstSector.setWidth 64, p.lbaFirstSector, 2⟩ := by
      rw [Cursor.pass, if_pos hp]
      simp [initial, start]
    have hne : p.lbaFirstSector.setWidth 64 ≠ (0 : Unsigned64) := by
      intro hzero
      exact (List.nodup_cons.mp hdisk.acyclic).1 (hzero ▸ hrest.mem)
    have hbase : p.lbaFirstSector ≠ 0 := by
      intro hzero
      rw [hzero] at hne
      exact hne rfl
    have hebrs : ebrs ≠ [] := List.ne_nil_of_mem hrest.mem
    have hne' : (initial.toCursor.pass p).sector ≠ initial.sector := by
      rw [hpass]
      exact hne
    rcases parseLoop_linked hread hlink hne' (Nat.zero_le _) h with
      ⟨hlast, -, fuel', s', h', hcursor', hvalid', hcount'⟩ | ⟨hno, hmiss⟩
    · rw [hhere, hnil, List.nil_append] at hvalid'
      have hlt : s'.partTable.count < 128 := by
        rw [← PartitionTable.valid_length hcount', hvalid']
        omega
      have hread' : ∀ i (hi : i < ebrs.length), Readable disk ret (0 + 1 + i) ebrs[i] := by
        intro i hi
        rw [Nat.zero_add, Nat.add_comm]
        exact hdisk.readable (i + 1) (Nat.succ_lt_succ hi)
      have hfits := hdisk.fits
      unfold partitions at hfits ⊢
      rw [← hvalid'] at hfits ⊢
      rw [parseLoop_ebrs hbase hrest (List.nodup_cons.mp hdisk.acyclic).2 (hcursor'.trans hpass) hlt hread' hfits h']
      exact ⟨fun hall => ⟨hlast, hall⟩, fun hall => hall.2⟩
    · rw [hhere, hnil, List.nil_append] at hmiss
      constructor
      · intro heq
        exact absurd heq (hmiss _)
      · rintro ⟨hlast, -⟩
        refine absurd ⟨hlast, Cursor.room_of_lt ?_⟩ hno
        have hlength : (mbrPartitions disk).length = (initial.toCursor.addsAll (initial.entries disk)).length := by
          rw [mbrPartitions_adds]
          exact (Cursor.addsAll_length hlink).symm
        have hzero : initial.partTable.count = 0 := rfl
        omega

/-- What is asked of `Parse`. -/
def Parses (disk : Disk) (ret : ℕ → Unsigned64 → Status) : Prop :=
  (∃ fuel t, parse disk ret fuel = some t) ∧ ∀ fuel t, parse disk ret fuel = some t →
    t.count ≤ 128 ∧ ∀ ebrs, Intact disk ret ebrs → t.valid = partitions disk ebrs

/-- `Parse` terminates with the partitions of the disk exactly when the tables end or fill the table, and on an
intact disk no partition stands after a link and no link is left when the table is full. -/
theorem parse_exact (disk : Disk) (ret : ℕ → Unsigned64 → Status) : Parses disk ret ↔
    Ends disk ret 0 0 start ∧ ∀ ebrs, Intact disk ret ebrs →
      LinkLast (mbrEntries disk) ∧ (∀ e ∈ ebrs, LinkLast (ebrEntries disk e)) ∧
        (partitions disk ebrs.dropLast).length < 128 := by
  have hterminates : (∃ fuel t, parse disk ret fuel = some t) ↔ Ends disk ret 0 0 start :=
    parseLoop_terminates (s := initial) (Nat.zero_le _)
  constructor
  · rintro ⟨⟨fuel, t, ht⟩, hall⟩
    exact ⟨hterminates.mp ⟨fuel, t, ht⟩, fun ebrs hdisk => (parse_intact hdisk ht).mp ((hall fuel t ht).2 ebrs hdisk)⟩
  · rintro ⟨hends, hall⟩
    refine ⟨hterminates.mpr hends, fun fuel t ht => ⟨parseLoop_count (s := initial) (Nat.zero_le _) ht, ?_⟩⟩
    exact fun ebrs hdisk => (parse_intact hdisk ht).mpr (hall ebrs hdisk)

end Chain

section Failing

def emptyEntry : PartitionEntry := ⟨partitionTypeEmpty, 0, 0⟩

/-- A disk with two tables. -/
def twoTables (ebr : Unsigned64) (mbrTable ebrTable : Vector PartitionEntry 4) : Disk := fun sector =>
  if sector = 0 then ⟨mbrTable, 0xaa55⟩ else if sector = ebr then ⟨ebrTable, 0xaa55⟩
  else ⟨#v[emptyEntry, emptyEntry, emptyEntry, emptyEntry], 0⟩

/-- A primary partition stands after the extended one. -/
def mixedDisk : Disk := twoTables 2048
  #v[⟨0x05, 2048, 4096⟩, ⟨0x83, 10000, 100⟩, emptyEntry, emptyEntry]
  #v[⟨0x83, 1, 50⟩, emptyEntry, emptyEntry, emptyEntry]

/-- The extended boot record links to itself. -/
def cyclicDisk : Disk := twoTables 63
  #v[⟨0x05, 63, 1000⟩, emptyEntry, emptyEntry, emptyEntry]
  #v[⟨0x05, 0, 1000⟩, emptyEntry, emptyEntry, emptyEntry]

def allOk : ℕ → Unsigned64 → Status := fun _ _ => .ok

lemma mixedDisk_parse : (parse mixedDisk allOk 2).map PartitionTable.valid =
    some [⟨2048, 4096, 0x05⟩, ⟨12048, 100, 0x83⟩, ⟨2049, 50, 0x83⟩] := by
  decide

lemma mixedDisk_partitions : partitions mixedDisk [2048] =
    [⟨2048, 4096, 0x05⟩, ⟨10000, 100, 0x83⟩, ⟨2049, 50, 0x83⟩] := by
  decide

lemma mixedDisk_intact : Intact mixedDisk allOk [2048] where
  chain := ExtendedChain.present (p := ⟨0x05, 2048, 4096⟩) rfl (EbrChain.last rfl)
  acyclic := by decide
  readable := by
    intro i hi
    match i with
    | 0 => exact ⟨rfl, rfl⟩
    | 1 => exact ⟨rfl, rfl⟩
  fits := by
    rw [mixedDisk_partitions]
    decide

lemma cyclicDisk_ends {n k : ℕ} {c : Cursor} (h : Ends cyclicDisk allOk n k c) :
    ¬((k = 0 ∧ c = start) ∨ (k = 1 ∧ c = ⟨63, 63, 2⟩)) := by
  induction h with
  | unreadable h =>
    rintro (⟨-, rfl⟩ | ⟨-, rfl⟩)
    · exact h ⟨rfl, rfl⟩
    · exact h ⟨rfl, rfl⟩
  | full h =>
    rintro (⟨rfl, -⟩ | ⟨rfl, -⟩)
    · omega
    · omega
  | last h =>
    rintro (⟨-, rfl⟩ | ⟨-, rfl⟩)
    · cases h
    · cases h
  | next _ ih =>
    rintro (⟨rfl, rfl⟩ | ⟨rfl, rfl⟩)
    · exact ih (Or.inr ⟨rfl, rfl⟩)
    · exact ih (Or.inr ⟨rfl, rfl⟩)

theorem parse_exact_fails : ¬Parses mixedDisk allOk ∧ ¬Parses cyclicDisk allOk := by
  constructor
  · intro h
    obtain ⟨t, ht, hvalid⟩ := Option.map_eq_some_iff.mp mixedDisk_parse
    have heq := (h.2 2 t ht).2 [2048] mixedDisk_intact
    rw [hvalid, mixedDisk_partitions] at heq
    revert heq
    decide
  · intro h
    have hends : Ends cyclicDisk allOk 0 0 start := (parseLoop_terminates (s := initial) (Nat.zero_le _)).mp h.1
    exact cyclicDisk_ends hends (Or.inl ⟨rfl, rfl⟩)

end Failing

end Muen.Components.Ahci.Mbr
