import Muen.Lib.CursorList
import Muen.Lib.Machine
import Muen.Lib.Ranges
import Muen.Tools.Utils

/-!
# Alloc.Map

The memory map of the physical memory allocator: a list of regions into which empty and device
regions are inserted and from which fixed and variable allocations are taken. A cursor is carried
together with the element it designates. An exception is raised before the list is touched, so an
operation returns either an exception or the new map.

The insertion between two mergeable regions loses the right one, and a variable allocation whose
bounds wrap around is placed outside the region found for it. Runs that do neither keep the map
sorted and disjoint and change the covered addresses as intended.
-/

namespace Muen.Tools.AllocMap
open Muen.Lib

inductive RegionKind where
  | any | empty | fixed | allocated | device
deriving DecidableEq, Repr

structure Region where
  kind : RegionKind
  firstAddress : Unsigned64
  lastAddress : Unsigned64
  name : String
  allocatable : Bool
deriving DecidableEq, Repr

abbrev Map := CursorList Region

/-- A cursor with the region it designates. -/
abbrev Position := Option (Nat × Region)

def Position.cursor (p : Position) : Cursor := p.map Prod.fst

inductive MapError where
  | overlappingEmptyRegion (message : String)
  | invalidFixedAllocation (message : String)
  | outOfMemory (message : String)
deriving DecidableEq, Repr

def reserve (map : Map) (kind : RegionKind) (curr : Nat × Region) (name : String)
    (firstAddress lastAddress : Unsigned64) : Map :=
  let allocate (e : Region) : Region := { e with kind := kind, allocatable := false }
  let setFirstAfterLast (e : Region) : Region := { e with firstAddress := lastAddress + 1 }
  let setFirstPastLast (e : Region) : Region := { e with firstAddress := lastAddress + 1 }
  let setFirstToFirst (e : Region) : Region := { e with firstAddress := firstAddress }
  let setName (e : Region) : Region := { e with name := name }
  let (k, e) := curr
  let matchFirst := e.firstAddress = firstAddress
  let matchLast := e.lastAddress = lastAddress
  let reserved : Region := ⟨kind, firstAddress, lastAddress, name, false⟩
  let below : Region := ⟨.empty, e.firstAddress, firstAddress - 1, e.name, e.allocatable⟩
  if matchFirst ∧ matchLast then
    (map.updateElement k allocate).updateElement k setName
  else if matchFirst then
    (map.updateElement k setFirstAfterLast).insertBefore (some k) reserved
  else if matchLast then
    (((map.insertBefore (some k) below).updateElement k allocate).updateElement k
      setFirstToFirst).updateElement k setName
  else
    ((map.insertBefore (some k) below).insertBefore (some k) reserved).updateElement k setFirstPastLast

def rangeImage (firstAddress lastAddress : Unsigned64) : String :=
  "(" ++ toHex firstAddress ++ " - " ++ toHex lastAddress ++ ")"

def fixedLoop (name : String) (firstAddress lastAddress : Unsigned64) :
    List (Nat × Region) → Except MapError Position
  | [] => .ok none
  | (k, e) :: rest =>
    if e.firstAddress > lastAddress then
      .error (.invalidFixedAllocation ("Allocation of region '" ++ name ++
        "' outside empty regions " ++ rangeImage firstAddress lastAddress))
    else if (e.kind = .empty ∨ e.kind = .device) ∧ e.firstAddress ≤ firstAddress ∧
        lastAddress ≤ e.lastAddress then
      .ok (some (k, e))
    else fixedLoop name firstAddress lastAddress rest

def allocateFixed (map : Map) (name : String) (firstAddress lastAddress : Unsigned64) :
    Except MapError Map := do
  match ← fixedLoop name firstAddress lastAddress map.nodes with
  | none =>
    .error (.invalidFixedAllocation ("Allocation of region '" ++ name ++
      "' beyond empty regions " ++ rangeImage firstAddress lastAddress))
  | some curr => .ok (reserve map .fixed curr name firstAddress lastAddress)

def firstMultiple (alignment : Unsigned64) (e : Region) : Unsigned64 :=
  (e.firstAddress + alignment - 1) / alignment * alignment

/-- The exit test of the search in `Allocate_Variable`. -/
def variableFits (size alignment : Unsigned64) (e : Region) : Bool :=
  e.allocatable ∧ e.kind = .empty ∧ firstMultiple alignment e + size - 1 ≤ e.lastAddress

def variableLoop (size alignment : Unsigned64) : List (Nat × Region) → Position
  | [] => none
  | (k, e) :: rest => if variableFits size alignment e then some (k, e) else variableLoop size alignment rest

def allocateVariable (map : Map) (name : String) (size alignment : Unsigned64) :
    Except MapError Map :=
  match variableLoop size alignment map.nodes with
  | none =>
    .error (.outOfMemory ("No continuous block available to allocate " ++ "region '" ++ name ++
      "' with size " ++ toHex size ++ ", alignment " ++ toHex alignment))
  | some curr =>
    let firstMultiple := firstMultiple alignment curr.2
    .ok (reserve map .allocated curr name firstMultiple (firstMultiple + size - 1))

/-- The search for the neighbours of a new region, as the pair of `Left` and `Right`. -/
def neighbourLoop (firstAddress lastAddress : Unsigned64) :
    Position → List (Nat × Region) → Position × Position
  | left, [] => (left, none)
  | left, (k, e) :: rest =>
    if firstAddress > e.lastAddress then
      match rest with
      | [] => (some (k, e), none)
      | right :: _ =>
        if e.lastAddress < firstAddress ∧ lastAddress < right.2.firstAddress then (some (k, e), some right)
        else neighbourLoop firstAddress lastAddress (some (k, e)) rest
    else (left, some (k, e))

/-- Both the new region and its neighbour are empty and allocatable. -/
def mergeable (kind : RegionKind) (allocatable : Bool) (neighbour : Region) : Bool :=
  kind = .empty ∧ neighbour.kind = .empty ∧ allocatable ∧ neighbour.allocatable

def adjacentLeft (kind : RegionKind) (allocatable : Bool) (firstAddress : Unsigned64) : Position → Bool
  | none => false
  | some (_, e) => mergeable kind allocatable e ∧ e.lastAddress + 1 = firstAddress

def adjacentRight (kind : RegionKind) (allocatable : Bool) (lastAddress : Unsigned64) : Position → Bool
  | none => false
  | some (_, e) => mergeable kind allocatable e ∧ lastAddress + 1 = e.firstAddress

def updatePosition (map : Map) (p : Position) (f : Region → Region) : Map :=
  match p with
  | none => map
  | some (k, _) => map.updateElement k f

def deletePosition (map : Map) : Position → Map
  | none => map
  | some (k, _) => map.delete k

def insertNewRegion (map : Map) (name : String) (allocatable : Bool) (kind : RegionKind)
    (firstAddress lastAddress : Unsigned64) : Except MapError Map :=
  let setFirstAddress (e : Region) : Region := { e with firstAddress := firstAddress }
  let setLastAddress (e : Region) : Region := { e with lastAddress := lastAddress }
  let (left, right) := neighbourLoop firstAddress lastAddress none map.nodes
  match right.filter (fun r => r.2.firstAddress ≤ lastAddress) with
  | some (_, r) =>
    .error (.overlappingEmptyRegion ("Region '" ++ name ++ "' overlaps with region '" ++ r.name ++ "'"))
  | none =>
    let adjacentLeft := adjacentLeft kind allocatable firstAddress left
    let adjacentRight := adjacentRight kind allocatable lastAddress right
    if adjacentRight ∧ adjacentLeft then
      .ok (deletePosition (updatePosition map left setLastAddress) right)
    else if adjacentLeft then .ok (updatePosition map left setLastAddress)
    else if adjacentRight then .ok (updatePosition map right setFirstAddress)
    else .ok (map.insertBefore right.cursor ⟨kind, firstAddress, lastAddress, name, allocatable⟩)

def insertDeviceRegion (map : Map) (name : String) (firstAddress lastAddress : Unsigned64) :
    Except MapError Map :=
  insertNewRegion map name false .device firstAddress lastAddress

def insertEmptyRegion (map : Map) (name : String) (allocatable : Bool)
    (firstAddress lastAddress : Unsigned64) : Except MapError Map :=
  insertNewRegion map name allocatable .empty firstAddress lastAddress

/-! ### The partition of the address space -/

def Region.toSet (r : Region) : Set Unsigned64 := {a | r.firstAddress ≤ a ∧ a ≤ r.lastAddress}

/-- The addresses in some region of the map. -/
def covers (map : Map) : Set Unsigned64 := covered Region.toSet map.elems

/-- Nonempty regions in ascending order, no two of which share an address. -/
abbrev Sorted (l : List Region) : Prop :=
  Ordered (fun r : Region => r.firstAddress ≤ r.lastAddress) (fun r s => r.lastAddress < s.firstAddress) l

inductive Call where
  | insertEmptyRegion (name : String) (allocatable : Bool) (firstAddress lastAddress : Unsigned64)
  | insertDeviceRegion (name : String) (firstAddress lastAddress : Unsigned64)
  | allocateFixed (name : String) (firstAddress lastAddress : Unsigned64)
  | allocateVariable (name : String) (size alignment : Unsigned64)

/-- The preconditions of the specification. -/
def Call.Pre : Call → Prop
  | .insertEmptyRegion _ _ firstAddress lastAddress => firstAddress < lastAddress
  | .insertDeviceRegion _ firstAddress lastAddress => firstAddress < lastAddress
  | .allocateFixed _ firstAddress lastAddress => firstAddress < lastAddress
  | .allocateVariable _ size alignment => 0 < size ∧ 0 < alignment

instance : (c : Call) → Decidable c.Pre
  | .insertEmptyRegion _ _ firstAddress lastAddress => inferInstanceAs (Decidable (firstAddress < lastAddress))
  | .insertDeviceRegion _ firstAddress lastAddress => inferInstanceAs (Decidable (firstAddress < lastAddress))
  | .allocateFixed _ firstAddress lastAddress => inferInstanceAs (Decidable (firstAddress < lastAddress))
  | .allocateVariable _ size alignment => inferInstanceAs (Decidable (0 < size ∧ 0 < alignment))

def Call.run (map : Map) : Call → Except MapError Map
  | .insertEmptyRegion name allocatable firstAddress lastAddress =>
    AllocMap.insertEmptyRegion map name allocatable firstAddress lastAddress
  | .insertDeviceRegion name firstAddress lastAddress =>
    AllocMap.insertDeviceRegion map name firstAddress lastAddress
  | .allocateFixed name firstAddress lastAddress => AllocMap.allocateFixed map name firstAddress lastAddress
  | .allocateVariable name size alignment => AllocMap.allocateVariable map name size alignment

/-- What a successful call makes of the covered addresses. -/
def Call.effect (s : Set Unsigned64) : Call → Set Unsigned64
  | .insertEmptyRegion _ _ firstAddress lastAddress => s ∪ {a | firstAddress ≤ a ∧ a ≤ lastAddress}
  | .insertDeviceRegion _ firstAddress lastAddress => s ∪ {a | firstAddress ≤ a ∧ a ≤ lastAddress}
  | .allocateFixed _ _ _ => s
  | .allocateVariable _ _ _ => s

/-- The map after a call; an exception leaves it as it was. -/
def Call.exec (map : Map) (c : Call) : Map :=
  match c.run map with
  | .ok map' => map'
  | .error _ => map

def runCalls (map : Map) (calls : List Call) : Map := calls.foldl Call.exec map

/-- The call leaves a sorted map, and covers what it should when it succeeds. -/
def Call.Preserves (map : Map) (c : Call) : Prop :=
  Sorted (c.exec map).elems ∧ ∀ map', c.run map = .ok map' → covers map' = c.effect (covers map)

/-- The first multiple of the alignment in the region, without wrap-around. -/
def alignedFirst (alignment : Unsigned64) (e : Region) : Nat :=
  (e.firstAddress.toNat + alignment.toNat - 1) / alignment.toNat * alignment.toNat

/-- A new region does not close the gap between two regions it could be merged with. -/
def NotBetween (map : Map) (kind : RegionKind) (allocatable : Bool) (first last : Unsigned64) : Prop :=
  ∀ left ∈ map.elems, ∀ right ∈ map.elems, mergeable kind allocatable left →
    mergeable kind allocatable right → ¬(left.lastAddress + 1 = first ∧ last + 1 = right.firstAddress)

/-- A new empty region does not close the gap between two regions it could be merged with, and the
bounds computed for a variable allocation in the first region that passes the test do not wrap
around. -/
def Call.Fits (map : Map) : Call → Prop
  | .insertEmptyRegion _ allocatable firstAddress lastAddress =>
    NotBetween map .empty allocatable firstAddress lastAddress
  | .allocateVariable _ size alignment =>
    ∀ e, map.elems.find? (variableFits size alignment) = some e →
      e.firstAddress.toNat + alignment.toNat ≤ 2 ^ 64 ∧ alignedFirst alignment e + size.toNat ≤ 2 ^ 64
  | _ => True

/-! ### Insertion -/

lemma neighbourLoop_spec {first last : Unsigned64} (hlt : first < last) (post : List (Nat × Region)) :
    ∀ pre : List (Nat × Region), Sorted ((pre ++ post).map Prod.snd) →
      (∀ r ∈ pre.map Prod.snd, r.lastAddress < first) →
      ∃ a b, pre ++ post = a ++ b ∧ neighbourLoop first last pre.getLast? post = (a.getLast?, b.head?) ∧
        (∀ r ∈ a.map Prod.snd, r.lastAddress < first) ∧ ∀ r ∈ b.head?, first ≤ r.2.lastAddress := by
  induction post with
  | nil =>
    intro pre _ hpre
    exact ⟨pre, [], rfl, rfl, hpre, by simp⟩
  | cons n rest ih =>
    obtain ⟨k, e⟩ := n
    intro pre hsorted hpre
    by_cases hpast : first > e.lastAddress
    · have hpre' : ∀ r ∈ (pre ++ [(k, e)]).map Prod.snd, r.lastAddress < first := by
        intro r hr
        rw [List.map_append, List.mem_append] at hr
        rcases hr with hr | hr
        · exact hpre r hr
        · rw [List.mem_singleton.mp hr]
          exact hpast
      have hassoc : pre ++ (k, e) :: rest = (pre ++ [(k, e)]) ++ rest := by simp
      have hlast : (pre ++ [(k, e)]).getLast? = some (k, e) := List.getLast?_concat
      cases rest with
      | nil =>
        refine ⟨pre ++ [(k, e)], [], hassoc, ?_, hpre', by simp⟩
        rw [neighbourLoop, if_pos hpast, hlast]
        rfl
      | cons right rest' =>
        have hright : right.2.firstAddress ≤ right.2.lastAddress :=
          hsorted.1 right.2 (List.mem_map_of_mem (by simp))
        by_cases hexit : e.lastAddress < first ∧ last < right.2.firstAddress
        · refine ⟨pre ++ [(k, e)], right :: rest', hassoc, ?_, hpre', ?_⟩
          · rw [neighbourLoop, if_pos hpast, hlast]
            simp only [if_pos hexit, List.head?_cons]
          · intro r hr
            obtain rfl : right = r := by simpa using hr
            have := hexit.2
            bv_omega
        · have hrec := ih (pre ++ [(k, e)]) (by rw [← hassoc]; exact hsorted) hpre'
          rw [hassoc, neighbourLoop, if_pos hpast]
          simp only [if_neg hexit]
          rw [← hlast]
          exact hrec
    · refine ⟨pre, (k, e) :: rest, rfl, ?_, hpre, ?_⟩
      · unfold neighbourLoop
        simp only [if_neg hpast, List.head?_cons]
      · intro r hr
        obtain rfl : (k, e) = r := by simpa using hr
        bv_omega

lemma sorted_insert {before after : List Region} {n : Region} (h : Sorted (before ++ after))
    (hn : n.firstAddress ≤ n.lastAddress) (hbefore : ∀ r ∈ before, r.lastAddress < n.firstAddress)
    (hafter : ∀ r ∈ after, n.lastAddress < r.firstAddress) : Sorted (before ++ ([n] ++ after)) := by
  apply h.insert (ordered_cons.mpr ⟨hn, by simp, ordered_nil⟩)
  · intro c hc d hd
    rw [List.mem_singleton.mp hd]
    exact hbefore c hc
  · intro d hd c hc
    rw [List.mem_singleton.mp hd]
    exact hafter c hc

lemma sorted_of_cons {before after : List Region} {e : Region} (h : Sorted (before ++ e :: after)) :
    Sorted (before ++ after) ∧ (∀ r ∈ before, r.lastAddress < e.firstAddress) ∧
      e.firstAddress ≤ e.lastAddress ∧ ∀ r ∈ after, e.lastAddress < r.firstAddress := by
  obtain ⟨hb, hea, hbe⟩ := ordered_append.mp h
  obtain ⟨he, hgap, ha⟩ := ordered_cons.mp hea
  refine ⟨ordered_append.mpr ⟨hb, ha, ?_⟩, fun r hr => hbe r hr e List.mem_cons_self, he, hgap⟩
  exact fun c hc d hd => hbe c hc d (List.mem_cons_of_mem e hd)

lemma covered_singleton (r : Region) : covered Region.toSet [r] = r.toSet := by
  rw [covered_cons, covered_nil, Set.union_empty]

/-- A member that grows by the new addresses. -/
lemma covered_grow {before after : List Region} {e e' : Region} {t : Set Unsigned64}
    (h : e'.toSet = e.toSet ∪ t) :
    covered Region.toSet (before ++ ([e'] ++ after)) = covered Region.toSet (before ++ e :: after) ∪ t := by
  have hold : before ++ e :: after = before ++ ([e] ++ after) := rfl
  rw [hold, covered_insert, covered_insert, covered_singleton, covered_singleton, h, Set.union_assoc]

lemma toSet_growLast {e : Region} {first last : Unsigned64} (he : e.firstAddress ≤ e.lastAddress)
    (hlt : first < last) (hend : e.lastAddress < first) (hadj : e.lastAddress + 1 = first) :
    Region.toSet { e with lastAddress := last } = e.toSet ∪ {a | first ≤ a ∧ a ≤ last} := by
  ext a
  simp only [Region.toSet, Set.mem_union, Set.mem_ofPred_eq]
  bv_omega

lemma toSet_growFirst {e : Region} {first last : Unsigned64} (he : e.firstAddress ≤ e.lastAddress)
    (hlt : first < last) (hstart : last < e.firstAddress) (hadj : last + 1 = e.firstAddress) :
    Region.toSet { e with firstAddress := first } = e.toSet ∪ {a | first ≤ a ∧ a ≤ last} := by
  ext a
  simp only [Region.toSet, Set.mem_union, Set.mem_ofPred_eq]
  bv_omega

section Gap

variable {map : Map} {a b : List (Nat × Region)} {first last : Unsigned64}

lemma growLast_spec {k : Nat} {e : Region} (h : map.nodes = a ++ (k, e) :: b) (hsorted : Sorted map.elems)
    (hlt : first < last) (hend : e.lastAddress < first) (hadj : e.lastAddress + 1 = first)
    (hafter : ∀ r ∈ b.map Prod.snd, last < r.firstAddress) :
    Sorted (map.updateElement k (fun e => { e with lastAddress := last })).elems ∧
      covers (map.updateElement k (fun e => { e with lastAddress := last })) =
        covers map ∪ {a | first ≤ a ∧ a ≤ last} := by
  have hnodes := CursorList.updateElement_nodes h (fun e => { e with lastAddress := last })
  have hold : map.elems = a.map Prod.snd ++ e :: b.map Prod.snd := by simp [CursorList.elems, h]
  rw [hold] at hsorted
  obtain ⟨hab, hbe, he, -⟩ := sorted_of_cons hsorted
  rw [covers, covers, hold, CursorList.elems, hnodes, List.map_append, List.map_cons]
  refine ⟨sorted_insert hab ?_ hbe hafter, covered_grow (toSet_growLast he hlt hend hadj)⟩
  simp only
  bv_omega

lemma growFirst_spec {k : Nat} {e : Region} (h : map.nodes = a ++ (k, e) :: b) (hsorted : Sorted map.elems)
    (hlt : first < last) (hstart : last < e.firstAddress) (hadj : last + 1 = e.firstAddress)
    (hbefore : ∀ r ∈ a.map Prod.snd, r.lastAddress < first) :
    Sorted (map.updateElement k (fun e => { e with firstAddress := first })).elems ∧
      covers (map.updateElement k (fun e => { e with firstAddress := first })) =
        covers map ∪ {a | first ≤ a ∧ a ≤ last} := by
  have hnodes := CursorList.updateElement_nodes h (fun e => { e with firstAddress := first })
  have hold : map.elems = a.map Prod.snd ++ e :: b.map Prod.snd := by simp [CursorList.elems, h]
  rw [hold] at hsorted
  obtain ⟨hab, -, he, hea⟩ := sorted_of_cons hsorted
  rw [covers, covers, hold, CursorList.elems, hnodes, List.map_append, List.map_cons]
  refine ⟨sorted_insert hab ?_ hbefore hea, covered_grow (toSet_growFirst he hlt hstart hadj)⟩
  simp only
  bv_omega

lemma insertBetween_spec {n : Region} (h : map.nodes = a ++ b) (hsorted : Sorted map.elems)
    (hlt : n.firstAddress < n.lastAddress) (hbefore : ∀ r ∈ a.map Prod.snd, r.lastAddress < n.firstAddress)
    (hafter : ∀ r ∈ b.map Prod.snd, n.lastAddress < r.firstAddress) :
    Sorted (map.insertBefore (CursorList.headCursor b) n).elems ∧
      covers (map.insertBefore (CursorList.headCursor b) n) = covers map ∪ n.toSet := by
  have hnodes := CursorList.insertBefore_nodes h n
  have hold : map.elems = a.map Prod.snd ++ b.map Prod.snd := by simp [CursorList.elems, h]
  rw [hold] at hsorted
  rw [covers, covers, hold, CursorList.elems, hnodes, List.map_append, List.map_cons]
  refine ⟨sorted_insert hsorted (BitVec.le_of_lt hlt) hbefore hafter, ?_⟩
  have hmid : a.map Prod.snd ++ n :: b.map Prod.snd = a.map Prod.snd ++ ([n] ++ b.map Prod.snd) := rfl
  rw [hmid, covered_insert, covered_singleton]

end Gap

/-- Behind the overlap check the neighbours split the node list around the new region. -/
lemma neighbours_split {map map' : Map} {name : String} {allocatable : Bool} {kind : RegionKind}
    {first last : Unsigned64} (hsorted : Sorted map.elems) (hlt : first < last)
    (hrun : insertNewRegion map name allocatable kind first last = .ok map') :
    ∃ a b, map.nodes = a ++ b ∧ neighbourLoop first last none map.nodes = (a.getLast?, b.head?) ∧
      (∀ r ∈ a.map Prod.snd, r.lastAddress < first) ∧ (∀ r ∈ b.map Prod.snd, last < r.firstAddress) := by
  obtain ⟨a, b, hnodes, hloop, hbefore, -⟩ := neighbourLoop_spec hlt map.nodes [] hsorted (by simp)
  rw [List.nil_append] at hnodes
  rw [List.getLast?_nil] at hloop
  refine ⟨a, b, hnodes, hloop, hbefore, ?_⟩
  unfold insertNewRegion at hrun
  simp only [hloop] at hrun
  cases b with
  | nil => simp
  | cons n b =>
    have hhead : last < n.2.firstAddress := by
      by_contra hle
      have hle : n.2.firstAddress ≤ last := by bv_omega
      simp [Option.filter, hle] at hrun
    have hsorted : Sorted (a.map Prod.snd ++ n.2 :: b.map Prod.snd) := by
      simpa [CursorList.elems, hnodes] using hsorted
    obtain ⟨-, -, hne, hgap⟩ := sorted_of_cons hsorted
    intro r hr
    rcases List.mem_cons.mp hr with rfl | hr
    · exact hhead
    · have := hgap r hr
      bv_omega

lemma filter_head_none {b : List (Nat × Region)} {last : Unsigned64}
    (h : ∀ r ∈ b.map Prod.snd, last < r.firstAddress) :
    b.head?.filter (fun r => r.2.firstAddress ≤ last) = none := by
  cases b with
  | nil => rfl
  | cons n b =>
    have hlt := h n.2 List.mem_cons_self
    have hle : ¬n.2.firstAddress ≤ last := by bv_omega
    simp [Option.filter, hle]

lemma insertNewRegion_spec {map map' : Map} {name : String} {allocatable : Bool} {kind : RegionKind}
    {first last : Unsigned64} (hsorted : Sorted map.elems) (hlt : first < last)
    (hgap : NotBetween map kind allocatable first last)
    (hrun : insertNewRegion map name allocatable kind first last = .ok map') :
    Sorted map'.elems ∧ covers map' = covers map ∪ {a | first ≤ a ∧ a ≤ last} := by
  obtain ⟨a, b, hnodes, hloop, hbefore, hafter⟩ := neighbours_split hsorted hlt hrun
  unfold insertNewRegion at hrun
  simp only [hloop, filter_head_none hafter] at hrun
  by_cases hleft : adjacentLeft kind allocatable first a.getLast?
  · -- the left neighbour takes the new region in
    obtain rfl | ⟨a, ⟨k, e⟩, rfl⟩ := List.eq_nil_or_concat a
    · simp [adjacentLeft] at hleft
    have hnodes' : map.nodes = a ++ (k, e) :: b := by rw [hnodes]; simp
    have hl : mergeable kind allocatable e ∧ e.lastAddress + 1 = first := by
      simpa [adjacentLeft] using hleft
    have hright : ¬adjacentRight kind allocatable last b.head? := by
      intro hr
      cases b with
      | nil => simp [adjacentRight] at hr
      | cons n b =>
        have hr : mergeable kind allocatable n.2 ∧ last + 1 = n.2.firstAddress := by
          simpa [adjacentRight] using hr
        exact hgap e (by simp [CursorList.elems, hnodes']) n.2 (by simp [CursorList.elems, hnodes'])
          hl.1 hr.1 ⟨hl.2, hr.2⟩
    simp only [hleft, hright, Bool.false_eq_true, false_and, if_false, if_true] at hrun
    have hmap : map.updateElement k (fun e => { e with lastAddress := last }) = map' := by
      simpa [updatePosition] using hrun
    rw [← hmap]
    exact growLast_spec hnodes' hsorted hlt (hbefore e (by simp)) hl.2 hafter
  · by_cases hright : adjacentRight kind allocatable last b.head?
    · -- the right neighbour does
      cases b with
      | nil => simp [adjacentRight] at hright
      | cons n b =>
        obtain ⟨k, e⟩ := n
        have hr : mergeable kind allocatable e ∧ last + 1 = e.firstAddress := by
          simpa [adjacentRight] using hright
        simp only [hleft, hright, Bool.false_eq_true, and_false, if_false, if_true] at hrun
        have hmap : map.updateElement k (fun e => { e with firstAddress := first }) = map' := by
          simpa [updatePosition] using hrun
        rw [← hmap]
        exact growFirst_spec hnodes hsorted hlt (hafter e (by simp)) hr.2 hbefore
    · simp only [hleft, hright, Bool.false_eq_true, and_self, if_false] at hrun
      have hmap := Except.ok.inj hrun
      rw [← hmap]
      exact insertBetween_spec (n := ⟨kind, first, last, name, allocatable⟩) hnodes hsorted hlt hbefore hafter

/-! ### Reservation -/

/-- The regions `m` share out the addresses from `first` to `last` in ascending order. -/
structure Pieces (first last : Unsigned64) (m : List Region) : Prop where
  sorted : Sorted m
  covered_eq : covered Region.toSet m = {a | first ≤ a ∧ a ≤ last}
  bounds : ∀ d ∈ m, first ≤ d.firstAddress ∧ d.lastAddress ≤ last

lemma pieces_single {d : Region} (hd : d.firstAddress ≤ d.lastAddress) :
    Pieces d.firstAddress d.lastAddress [d] where
  sorted := ordered_cons.mpr ⟨hd, by simp, ordered_nil⟩
  covered_eq := covered_singleton d
  bounds := by simp

lemma pieces_cons {d : Region} {last : Unsigned64} {m : List Region} (hd : d.firstAddress ≤ d.lastAddress)
    (hlt : d.lastAddress < last) (hm : Pieces (d.lastAddress + 1) last m) :
    Pieces d.firstAddress last (d :: m) where
  sorted := by
    refine ordered_cons.mpr ⟨hd, ?_, hm.sorted⟩
    intro c hc
    have := (hm.bounds c hc).1
    bv_omega
  covered_eq := by
    rw [covered_cons, hm.covered_eq]
    ext a
    simp only [Region.toSet, Set.mem_union, Set.mem_ofPred_eq]
    bv_omega
  bounds := by
    intro c hc
    rcases List.mem_cons.mp hc with rfl | hc
    · exact ⟨BitVec.le_refl _, BitVec.le_of_lt hlt⟩
    · have h1 := (hm.bounds c hc).1
      exact ⟨by bv_omega, (hm.bounds c hc).2⟩

/-- The regions in the place of the one that a reservation is taken from. -/
def reservePieces (e reserved : Region) : List Region :=
  (if e.firstAddress = reserved.firstAddress then []
    else [⟨.empty, e.firstAddress, reserved.firstAddress - 1, e.name, e.allocatable⟩]) ++ reserved ::
  if e.lastAddress = reserved.lastAddress then [] else [{ e with firstAddress := reserved.lastAddress + 1 }]

lemma reserve_pieces {map : Map} {pre post : List (Nat × Region)} {k : Nat} {e : Region}
    (h : map.nodes = pre ++ (k, e) :: post) (kind : RegionKind) (name : String) (first last : Unsigned64) :
    (reserve map kind (k, e) name first last).elems =
      pre.map Prod.snd ++ (reservePieces e ⟨kind, first, last, name, false⟩ ++ post.map Prod.snd) := by
  let below : Region := ⟨.empty, e.firstAddress, first - 1, e.name, e.allocatable⟩
  let reserved : Region := ⟨kind, first, last, name, false⟩
  have hbelow := CursorList.insertBefore_nodes h below
  rw [CursorList.headCursor_cons, List.append_cons] at hbelow
  unfold reserve reservePieces
  simp only
  by_cases hfirst : e.firstAddress = first <;> by_cases hlast : e.lastAddress = last
  · rw [if_pos ⟨hfirst, hlast⟩, if_pos hfirst, if_pos hlast, CursorList.elems,
      CursorList.updateElement_nodes (CursorList.updateElement_nodes h _)]
    simp [hfirst, hlast]
  · have hins := CursorList.insertBefore_nodes
      (CursorList.updateElement_nodes h (fun e => { e with firstAddress := last + 1 })) reserved
    rw [CursorList.headCursor_cons] at hins
    rw [if_neg (fun hm => hlast hm.2), if_pos hfirst, if_pos hfirst, if_neg hlast, CursorList.elems, hins]
    simp [reserved]
  · rw [if_neg (fun hm => hfirst hm.1), if_neg hfirst, if_pos hlast, if_neg hfirst, if_pos hlast, CursorList.elems,
      CursorList.updateElement_nodes (CursorList.updateElement_nodes (CursorList.updateElement_nodes hbelow _) _)]
    simp [below, hlast]
  · have hins := CursorList.insertBefore_nodes hbelow reserved
    rw [CursorList.headCursor_cons, List.append_cons] at hins
    rw [if_neg (fun hm => hfirst hm.1), if_neg hfirst, if_neg hlast, if_neg hfirst, if_neg hlast, CursorList.elems,
      CursorList.updateElement_nodes hins]
    simp [below, reserved]

/-- The pieces share out the addresses of the region. -/
lemma pieces_reserve {e reserved : Region} (h1 : e.firstAddress ≤ reserved.firstAddress)
    (h2 : reserved.firstAddress ≤ reserved.lastAddress) (h3 : reserved.lastAddress ≤ e.lastAddress) :
    Pieces e.firstAddress e.lastAddress (reservePieces e reserved) := by
  have htop : Pieces reserved.firstAddress e.lastAddress (reserved ::
      if e.lastAddress = reserved.lastAddress then [] else [{ e with firstAddress := reserved.lastAddress + 1 }]) := by
    by_cases hlast : e.lastAddress = reserved.lastAddress
    · rw [if_pos hlast, hlast]
      exact pieces_single h2
    · rw [if_neg hlast]
      have hlt : reserved.lastAddress < e.lastAddress := by bv_omega
      exact pieces_cons h2 hlt (pieces_single (d := { e with firstAddress := reserved.lastAddress + 1 })
        (by simp only; bv_omega))
  unfold reservePieces
  by_cases hfirst : e.firstAddress = reserved.firstAddress
  · rw [if_pos hfirst, hfirst]
    exact htop
  · rw [if_neg hfirst, List.singleton_append]
    let below : Region := ⟨.empty, e.firstAddress, reserved.firstAddress - 1, e.name, e.allocatable⟩
    have hback : below.lastAddress + 1 = reserved.firstAddress := by simp only [below]; bv_omega
    refine pieces_cons (d := below) (by simp only [below]; bv_omega) (by simp only [below]; bv_omega) ?_
    rw [hback]
    exact htop

/-- The regions that a reservation puts in the place of the current one. -/
lemma reserve_elems {map : Map} {pre post : List (Nat × Region)} {k : Nat} {e : Region}
    (h : map.nodes = pre ++ (k, e) :: post) (kind : RegionKind) (name : String)
    {first last : Unsigned64} (h1 : e.firstAddress ≤ first) (h2 : first ≤ last) (h3 : last ≤ e.lastAddress) :
    ∃ m, (reserve map kind (k, e) name first last).elems = pre.map Prod.snd ++ (m ++ post.map Prod.snd) ∧
      Pieces e.firstAddress e.lastAddress m :=
  ⟨_, reserve_pieces h kind name first last, pieces_reserve h1 h2 h3⟩

lemma reserve_spec {map : Map} {pre post : List (Nat × Region)} {k : Nat} {e : Region}
    (h : map.nodes = pre ++ (k, e) :: post) (hsorted : Sorted map.elems) (kind : RegionKind) (name : String)
    {first last : Unsigned64} (h1 : e.firstAddress ≤ first) (h2 : first ≤ last) (h3 : last ≤ e.lastAddress) :
    Sorted (reserve map kind (k, e) name first last).elems ∧
      covers (reserve map kind (k, e) name first last) = covers map := by
  obtain ⟨m, helems, hm⟩ := reserve_elems h kind name h1 h2 h3
  have hold : map.elems = pre.map Prod.snd ++ e :: post.map Prod.snd := by simp [CursorList.elems, h]
  rw [hold] at hsorted
  constructor
  · rw [helems]
    apply hsorted.replace hm.sorted
    · intro d hd c hc
      have := (hm.bounds d hd).1
      bv_omega
    · intro d hd c hc
      have := (hm.bounds d hd).2
      bv_omega
  · have he : covered Region.toSet m = e.toSet \ ∅ := by
      rw [hm.covered_eq, Set.sdiff_empty]
      rfl
    rw [covers, covers, helems, hold, covered_replace Region.toSet he (by simp) (by simp), Set.sdiff_empty]

lemma fixedLoop_some {name : String} {first last : Unsigned64} {ns : List (Nat × Region)} {k : Nat} {e : Region}
    (h : fixedLoop name first last ns = .ok (some (k, e))) :
    ∃ pre post, ns = pre ++ (k, e) :: post ∧ (e.kind = .empty ∨ e.kind = .device) ∧ e.firstAddress ≤ first ∧
      last ≤ e.lastAddress := by
  induction ns with
  | nil => simp [fixedLoop] at h
  | cons n ns ih =>
    obtain ⟨k', e'⟩ := n
    rw [fixedLoop] at h
    split_ifs at h with hout hfit
    · have heq : (k', e') = (k, e) := by simpa using h
      rw [← heq]
      cases heq
      exact ⟨[], ns, rfl, hfit⟩
    · obtain ⟨pre, post, hns, hbounds⟩ := ih h
      exact ⟨(k', e') :: pre, post, by rw [hns, List.cons_append], hbounds⟩

lemma variableLoop_some {size alignment : Unsigned64} {ns : List (Nat × Region)} {k : Nat} {e : Region}
    (h : variableLoop size alignment ns = some (k, e)) :
    (∃ pre post, ns = pre ++ (k, e) :: post) ∧ variableFits size alignment e ∧
      (ns.map Prod.snd).find? (variableFits size alignment) = some e := by
  induction ns with
  | nil => simp [variableLoop] at h
  | cons n ns ih =>
    obtain ⟨k', e'⟩ := n
    rw [variableLoop] at h
    split_ifs at h with hfit
    · have heq : (k', e') = (k, e) := by simpa using h
      cases heq
      exact ⟨⟨[], ns, rfl⟩, hfit, List.find?_cons_of_pos hfit⟩
    · obtain ⟨⟨pre, post, hns⟩, hfits, hfind⟩ := ih h
      refine ⟨⟨(k', e') :: pre, post, by rw [hns, List.cons_append]⟩, hfits, ?_⟩
      rw [List.map_cons, List.find?_cons_of_neg hfit]
      exact hfind

lemma firstMultiple_toNat {alignment : Unsigned64} {e : Region} (ha : 0 < alignment)
    (h : e.firstAddress.toNat + alignment.toNat ≤ 2 ^ 64) :
    (firstMultiple alignment e).toNat = alignedFirst alignment e := by
  have hsum : (e.firstAddress + alignment - 1).toNat = e.firstAddress.toNat + alignment.toNat - 1 := by bv_omega
  have hle := Nat.div_mul_le_self (e.firstAddress.toNat + alignment.toNat - 1) alignment.toNat
  rw [firstMultiple, BitVec.toNat_mul, BitVec.toNat_udiv, hsum, alignedFirst]
  apply Nat.mod_eq_of_lt
  bv_omega

lemma le_alignedFirst {alignment : Unsigned64} {e : Region} (ha : 0 < alignment) :
    e.firstAddress.toNat ≤ alignedFirst alignment e := by
  have hpos : 0 < alignment.toNat := by bv_omega
  have h := Nat.lt_div_mul_add (a := e.firstAddress.toNat + alignment.toNat - 1) hpos
  unfold alignedFirst
  omega

lemma allocateVariable_spec {map map' : Map} {name : String} {size alignment : Unsigned64}
    (hsorted : Sorted map.elems) (hpre : 0 < size ∧ 0 < alignment)
    (hfits : (Call.allocateVariable name size alignment).Fits map)
    (hrun : allocateVariable map name size alignment = .ok map') :
    Sorted map'.elems ∧ covers map' = covers map := by
  unfold allocateVariable at hrun
  cases hloop : variableLoop size alignment map.nodes with
  | none => simp [hloop] at hrun
  | some curr =>
    obtain ⟨k, e⟩ := curr
    obtain ⟨⟨pre, post, hnodes⟩, htest, hfind⟩ := variableLoop_some hloop
    obtain ⟨hwrap, hroom⟩ := hfits e hfind
    simp only [hloop] at hrun
    have hmult := firstMultiple_toNat hpre.2 hwrap
    have hle := le_alignedFirst (e := e) hpre.2
    have htest : firstMultiple alignment e + size - 1 ≤ e.lastAddress := by
      simp only [variableFits, decide_eq_true_eq] at htest
      exact htest.2.2
    rw [← Except.ok.inj hrun]
    have hsize := hpre.1
    exact reserve_spec hnodes hsorted .allocated name (by bv_omega) (by bv_omega) htest

/-- A fixed allocation puts the pieces in the place of the open region that holds it. -/
lemma allocateFixed_pieces {map map' : Map} {name : String} {first last : Unsigned64}
    (hrun : allocateFixed map name first last = .ok map') :
    ∃ pre k e post, map.nodes = pre ++ (k, e) :: post ∧ reserve map .fixed (k, e) name first last = map' ∧
      (e.kind = .empty ∨ e.kind = .device) ∧ e.firstAddress ≤ first ∧ last ≤ e.lastAddress := by
  unfold allocateFixed at hrun
  cases hloop : fixedLoop name first last map.nodes with
  | error err => simp [hloop, bind, Except.bind] at hrun
  | ok curr =>
    cases curr with
    | none => simp [hloop, bind, Except.bind] at hrun
    | some curr =>
      obtain ⟨k, e⟩ := curr
      obtain ⟨pre, post, hnodes, hkind, h1, h3⟩ := fixedLoop_some hloop
      have hmap : reserve map .fixed (k, e) name first last = map' := by
        simpa [hloop, bind, Except.bind] using hrun
      exact ⟨pre, k, e, post, hnodes, hmap, hkind, h1, h3⟩

lemma allocateFixed_spec {map map' : Map} {name : String} {first last : Unsigned64}
    (hsorted : Sorted map.elems) (hlt : first < last)
    (hrun : allocateFixed map name first last = .ok map') :
    Sorted map'.elems ∧ covers map' = covers map := by
  obtain ⟨pre, k, e, post, hnodes, hmap, -, h1, h3⟩ := allocateFixed_pieces hrun
  rw [← hmap]
  exact reserve_spec hnodes hsorted .fixed name h1 (BitVec.le_of_lt hlt) h3

/-! ### Runs -/

lemma Call.run_spec {map map' : Map} (c : Call) (hsorted : Sorted map.elems) (hpre : c.Pre)
    (hfits : c.Fits map) (hrun : c.run map = .ok map') :
    Sorted map'.elems ∧ covers map' = c.effect (covers map) := by
  cases c with
  | insertEmptyRegion name allocatable first last => exact insertNewRegion_spec hsorted hpre hfits hrun
  | insertDeviceRegion name first last =>
    apply insertNewRegion_spec hsorted hpre _ hrun
    intro left _ right _ hleft
    simp [mergeable] at hleft
  | allocateFixed name first last => exact allocateFixed_spec hsorted hpre hrun
  | allocateVariable name size alignment => exact allocateVariable_spec hsorted hpre hfits hrun

lemma Call.preserves_of_fits {map : Map} (c : Call) (hsorted : Sorted map.elems) (hpre : c.Pre)
    (hfits : c.Fits map) : c.Preserves map := by
  refine ⟨?_, fun map' hrun => (c.run_spec hsorted hpre hfits hrun).2⟩
  unfold Call.exec
  cases hrun : c.run map with
  | ok map' => exact (c.run_spec hsorted hpre hfits hrun).1
  | error err => exact hsorted

/-- The maps that runs reach in which every call meets its precondition and fits. -/
def Reachable (map : Map) : Prop :=
  Reaches (fun map c => some (Call.exec map c)) (fun map (c : Call) => c.Pre ∧ c.Fits map)
    (fun map => map = CursorList.empty) map

/-- In every state of such a run the map is a partition, and every call that fits there keeps it
one and covers exactly what it should. -/
theorem reachable_preserves {map : Map} (h : Reachable map) :
    Sorted map.elems ∧ ∀ c : Call, c.Pre → c.Fits map → c.Preserves map := by
  have hsorted : Sorted map.elems := by
    refine Reaches.invariant h (fun map => Sorted map.elems) ?_ ?_
    · intro map hmap
      rw [hmap]
      exact ordered_nil
    · intro map c map' ih hc hstep
      rw [← Option.some.inj hstep]
      exact (c.preserves_of_fits ih hc.1 hc.2).1
  exact ⟨hsorted, fun c hpre hfits => c.preserves_of_fits hsorted hpre hfits⟩

/-- A run that fits: two regions apart, and an allocation in the first one. -/
theorem reachable_preserves_variable :
    Sorted (runCalls CursorList.empty [.insertEmptyRegion "low" true 0x1000 0x1fff,
      .insertEmptyRegion "high" true 0x3000 0x3fff]).elems ∧
    (Call.allocateVariable "pages" 0x800 0x1000).Preserves
      (runCalls CursorList.empty [.insertEmptyRegion "low" true 0x1000 0x1fff,
        .insertEmptyRegion "high" true 0x3000 0x3fff]) := by
  have hempty : Reachable CursorList.empty := Reaches.start rfl
  have hfits₀ : (Call.insertEmptyRegion "low" true 0x1000 0x1fff).Fits CursorList.empty := by
    intro left hleft
    exact absurd hleft List.not_mem_nil
  have hlow : Reachable (Call.exec CursorList.empty (.insertEmptyRegion "low" true 0x1000 0x1fff)) :=
    hempty.next ⟨by decide, hfits₀⟩ rfl
  have hfits : (Call.insertEmptyRegion "high" true 0x3000 0x3fff).Fits
      (Call.exec CursorList.empty (.insertEmptyRegion "low" true 0x1000 0x1fff)) := by
    have helems : (Call.exec CursorList.empty (.insertEmptyRegion "low" true 0x1000 0x1fff)).elems =
        [⟨.empty, 0x1000, 0x1fff, "low", true⟩] := rfl
    intro left hleft right hright _ _ hadj
    rw [helems, List.mem_singleton] at hright
    rw [hright] at hadj
    exact absurd hadj.2 (by decide)
  have hhigh : Reachable (Call.exec (Call.exec CursorList.empty (.insertEmptyRegion "low" true 0x1000 0x1fff))
      (.insertEmptyRegion "high" true 0x3000 0x3fff)) := hlow.next ⟨by decide, hfits⟩ rfl
  refine ⟨(reachable_preserves hhigh).1, (reachable_preserves hhigh).2 _ (by decide) ?_⟩
  intro e he
  have hfind : (Call.exec (Call.exec CursorList.empty (.insertEmptyRegion "low" true 0x1000 0x1fff))
      (.insertEmptyRegion "high" true 0x3000 0x3fff)).elems.find? (variableFits 0x800 0x1000) =
      some ⟨.empty, 0x1000, 0x1fff, "low", true⟩ := by decide
  rw [hfind] at he
  rw [← Option.some.inj he]
  decide

/-- Closing the gap between two allocatable empty regions loses the upper one, and an allocation
whose bound wraps around is placed in a region too small for it. -/
theorem call_not_preserves :
    (Call.insertEmptyRegion "low" true 0x1000 0x1fff).Pre ∧
    (Call.insertEmptyRegion "high" true 0x3000 0x3fff).Pre ∧
    (Call.insertEmptyRegion "gap" true 0x2000 0x2fff).Pre ∧
    (Call.allocateVariable "huge" 0xfffffffffffff800 1).Pre ∧
    ¬(Call.insertEmptyRegion "gap" true 0x2000 0x2fff).Preserves
      (runCalls CursorList.empty [.insertEmptyRegion "low" true 0x1000 0x1fff,
        .insertEmptyRegion "high" true 0x3000 0x3fff]) ∧
    ¬(Call.allocateVariable "huge" 0xfffffffffffff800 1).Preserves
      (runCalls CursorList.empty [.insertEmptyRegion "low" true 0x1000 0x1fff]) := by
  refine ⟨by decide, by decide, by decide, by decide, ?_, ?_⟩
  · rintro ⟨-, h⟩
    have hcovers := h _ rfl
    have hin : (0x3000 : Unsigned64) ∈ (Call.insertEmptyRegion "gap" true 0x2000 0x2fff).effect
        (covers (runCalls CursorList.empty [.insertEmptyRegion "low" true 0x1000 0x1fff,
          .insertEmptyRegion "high" true 0x3000 0x3fff])) :=
      Or.inl ⟨⟨.empty, 0x3000, 0x3fff, "high", true⟩, by decide, by decide, by decide⟩
    rw [← hcovers] at hin
    obtain ⟨r, hr, h1, h2⟩ := hin
    obtain rfl : r = ⟨.empty, 0x1000, 0x2fff, "low", true⟩ := List.mem_singleton.mp hr
    exact absurd h2 (by decide)
  · rintro ⟨hsorted, -⟩
    have hlast := hsorted.1 ⟨.allocated, 0x1000, 0x7ff, "huge", false⟩ (by decide)
    exact absurd hlast (by decide)

end Muen.Tools.AllocMap
