import Muen.Tools.GrammarTools.Closure

/-!
# Muxml.Grammar_Tools: positions of new elements

`Get_Insert_Index` looks for the type of the parent of a new element and puts the element in front of the first one that
is behind it in the order of this type. The type of the parent is found from the nearest ancestor whose name has one
type only, or else from the root of the document.
-/

namespace Muen.Tools.GrammarTools
open Muen.Lib
open Muen.Tools.Xml

abbrev VectorTuple.names (tuple : VectorTuple) : List String := tuple.map Prod.fst

namespace OrderInformation

def noUniqueIndex : Int := -1

def noLegalIndex : Int := -2

def childrenInfo (info : OrderInformation) (typeName : String) : Except GrammarError VectorTuple :=
  match info.typeToChildren.lookup typeName with
  | some tuple => .ok tuple
  | none => .error .constraintError

/-- The first type of a name. -/
def firstType : List String → Except GrammarError String
  | [] => .error .constraintError
  | typeName :: _ => .ok typeName

/-- The type of the last of some elements, where each one is in the element before it. -/
def traceType (info : OrderInformation) : List String → String → Except GrammarError String
  | [], parentType => .ok parentType
  | name :: names, parentType => do
    let children ← info.childrenInfo parentType
    match children.lookup name with
    | none => .error (.validationError "Ancestors sequence given to Get_Parent_Type violates schema")
    | some typeName => traceType info names typeName

/-- The name is used with more than one type, or not at all. -/
def ambiguous (info : OrderInformation) (name : String) : Bool := (info.nameToType.lookup name).isNone

def getParentType (info : OrderInformation) (ancestors : List String) : Except GrammarError String :=
  match ancestors.dropWhile info.ambiguous with
  | [] => do
    let children ← info.childrenInfo schemaRoot
    if ∃ name ∈ ancestors.getLast?, name ∈ children.names then info.traceType ancestors.reverse schemaRoot
    else .error (.insufficientInformation "Cannot determine type of any ancestor.")
  | name :: _ => do
    let parentType ← firstType ((info.nameToType.lookup name).getD [])
    info.traceType (ancestors.takeWhile info.ambiguous).reverse parentType

/-- The elements of the type of the first ancestor. -/
def childOrder (info : OrderInformation) (parent : String) (ancestors : List String) :
    Except GrammarError VectorTuple :=
  match info.nameToType.lookup parent with
  | some types => do info.childrenInfo (← firstType types)
  | none => do info.childrenInfo (← info.getParentType ancestors)

def findIndex (names : List String) (name : String) : Option Nat :=
  if name ∈ names then some (names.idxOf name) else none

/-- The index of the first sibling that is behind the new child. -/
def findSibling (childOrder : List String) (newChildIndex : Nat) : Nat → List String → Int
  | i, [] => i
  | i, sibling :: siblings =>
    match findIndex childOrder sibling with
    | none => noLegalIndex
    | some siblingIndex =>
      if siblingIndex > newChildIndex then i else findSibling childOrder newChildIndex (i + 1) siblings

def getInsertIndex (info : OrderInformation) (ancestors : List String) (newChild : String) (siblings : List String) :
    Except GrammarError Int :=
  match ancestors with
  | [] => .error (.notImplemented "Get_Insert_Index called with empty ancestor list.")
  | parent :: _ =>
    match info.childOrder parent ancestors with
    | .error (.insufficientInformation _) => .ok noUniqueIndex
    | .error e => .error e
    | .ok children =>
      match findIndex children.names newChild with
      | none => .ok noLegalIndex
      | some newChildIndex => .ok (findSibling children.names newChildIndex 0 siblings)

/-! ### Types of ancestors -/

variable {info : OrderInformation}

lemma childrenInfo_ok {typeName : String} {tuple : VectorTuple} :
    info.childrenInfo typeName = .ok tuple ↔ info.Reads typeName tuple := by
  unfold childrenInfo Reads
  cases info.typeToChildren.lookup typeName with
  | none => exact ⟨nofun, nofun⟩
  | some tuple' => exact ⟨fun h => congrArg some (Except.ok.inj h), fun h => congrArg _ (Option.some.inj h)⟩

lemma traceType_append (front back : List String) (parentType : String) :
    info.traceType (front ++ back) parentType = info.traceType front parentType >>= info.traceType back := by
  induction front generalizing parentType with
  | nil => rfl
  | cons name front ih =>
    rw [List.cons_append, traceType, traceType]
    cases info.childrenInfo parentType with
    | error e => rfl
    | ok children =>
      rw [ok_bind, ok_bind]
      cases children.lookup name with
      | none => rfl
      | some typeName => exact ih typeName

lemma traceType_singleton {parentType name typeName : String} {tuple : VectorTuple} (h : info.Reads parentType tuple)
    (hname : tuple.lookup name = some typeName) : info.traceType [name] parentType = .ok typeName := by
  unfold traceType
  rw [childrenInfo_ok.mpr h, ok_bind, hname]
  rfl

lemma ambiguous_iff {name : String} : info.ambiguous name = true ↔ info.nameToType.lookup name = none :=
  Option.isNone_iff_eq_none

lemma getParentType_of_unique {name typeName : String} (h : info.nameToType.lookup name = some [typeName])
    (rest : List String) : info.getParentType (name :: rest) = .ok typeName := by
  have hname : ¬info.ambiguous name = true := by
    rw [ambiguous_iff, h]
    nofun
  unfold getParentType
  rw [List.dropWhile_cons_of_neg hname, List.takeWhile_cons_of_neg hname]
  dsimp only
  rw [h]
  rfl

lemma getParentType_root {name typeName : String} {tuple : VectorTuple} (h : info.nameToType.lookup name = none)
    (hroot : info.Reads schemaRoot tuple) (hname : tuple.lookup name = some typeName) :
    info.getParentType [name] = .ok typeName := by
  have hambiguous := ambiguous_iff.mpr h
  have hmem : ∃ n ∈ [name].getLast?, n ∈ tuple.names :=
    ⟨name, rfl, List.mem_map.mpr ⟨_, Schema.mem_of_lookup hname, rfl⟩⟩
  unfold getParentType
  rw [List.dropWhile_cons_of_pos hambiguous, List.dropWhile_nil]
  dsimp only
  rw [childrenInfo_ok.mpr hroot, ok_bind, if_pos hmem]
  exact traceType_singleton hroot hname

/-- An ambiguous name has the type that it has in the type of the element around it. -/
lemma getParentType_cons {name : String} (h : info.nameToType.lookup name = none) {rest : List String}
    (hrest : rest ≠ []) :
    info.getParentType (name :: rest) = info.getParentType rest >>= info.traceType [name] := by
  have hambiguous := ambiguous_iff.mpr h
  unfold getParentType
  rw [List.dropWhile_cons_of_pos hambiguous, List.takeWhile_cons_of_pos hambiguous, List.reverse_cons,
    List.reverse_cons, List.getLast?_cons_of_ne_nil hrest]
  cases rest.dropWhile info.ambiguous with
  | nil =>
    dsimp only
    cases info.childrenInfo schemaRoot with
    | error e => rfl
    | ok children =>
      rw [ok_bind, ok_bind]
      split
      · exact traceType_append _ _ _
      · rfl
  | cons unique _ =>
    dsimp only
    cases firstType ((info.nameToType.lookup unique).getD []) with
    | error e => rfl
    | ok parentType => exact traceType_append _ _ _

lemma childOrder_eq (parent : String) (rest : List String) :
    info.childOrder parent (parent :: rest) = info.getParentType (parent :: rest) >>= info.childrenInfo := by
  unfold childOrder
  cases h : info.nameToType.lookup parent with
  | none => rfl
  | some types =>
    have hname : ¬info.ambiguous parent = true := by
      rw [ambiguous_iff, h]
      nofun
    unfold getParentType
    rw [List.dropWhile_cons_of_neg hname, List.takeWhile_cons_of_neg hname]
    dsimp only
    rw [h]
    cases hfirst : firstType types <;> simp [hfirst, traceType] <;> rfl

/-! ### Order of siblings -/

/-- The names are in the order of the elements of a type. -/
def InOrder (order names : List String) : Prop := names.Pairwise fun a b => order.idxOf a ≤ order.idxOf b

/-- Elements that are one before the other are so in another order, too. -/
def KeepsOrder (order order' : List String) : Prop :=
  ∀ a ∈ order, ∀ b ∈ order, order.idxOf a < order.idxOf b → order'.idxOf a < order'.idxOf b

lemma findSibling_spec {order : List String} (newChildIndex : Nat) (i : Nat) {siblings : List String}
    (h : ∀ sibling ∈ siblings, sibling ∈ order) :
    ∃ front back, siblings = front ++ back ∧ (∀ a ∈ front, order.idxOf a ≤ newChildIndex) ∧
      (∀ a ∈ back.head?, newChildIndex < order.idxOf a) ∧
      findSibling order newChildIndex i siblings = ((i + front.length : Nat) : Int) := by
  induction siblings generalizing i with
  | nil => exact ⟨[], [], rfl, nofun, nofun, rfl⟩
  | cons sibling siblings ih =>
    obtain ⟨hsibling, hrest⟩ := List.forall_mem_cons.mp h
    unfold findSibling findIndex
    rw [if_pos hsibling]
    dsimp only
    by_cases hlt : newChildIndex < order.idxOf sibling
    · rw [if_pos hlt]
      refine ⟨[], sibling :: siblings, rfl, nofun, ?_, rfl⟩
      intro a ha
      rwa [← Option.some.inj ha]
    · rw [if_neg hlt]
      obtain ⟨front, back, rfl, hfront, hback, hindex⟩ := ih (i + 1) hrest
      refine ⟨sibling :: front, back, rfl, ?_, hback, ?_⟩
      · exact List.forall_mem_cons.mpr ⟨Nat.le_of_not_lt hlt, hfront⟩
      · rw [hindex, List.length_cons, Nat.add_right_comm, Nat.add_assoc]

/-- An element between those that are not behind it and the first one that is. -/
lemma inOrder_insert {order order' : List String} (hkeeps : KeepsOrder order order') {child : String}
    (hchild : child ∈ order) {siblings : List String} (hsiblings : ∀ sibling ∈ siblings, sibling ∈ order)
    (hsorted : InOrder order siblings) {front back : List String} (hsplit : siblings = front ++ back)
    (hfront : ∀ a ∈ front, order'.idxOf a ≤ order'.idxOf child)
    (hback : ∀ a ∈ back.head?, order'.idxOf child < order'.idxOf a) :
    InOrder order (front ++ child :: back) ∧ child ∉ back := by
  subst hsplit
  obtain ⟨hfrontSorted, hbackSorted, hcross⟩ := List.pairwise_append.mp hsorted
  have hbefore : ∀ a ∈ front, order.idxOf a ≤ order.idxOf child := by
    intro a ha
    by_contra hlt
    have hnot := hkeeps child hchild a (hsiblings a (List.mem_append_left _ ha)) (Nat.lt_of_not_le hlt)
    exact absurd (hfront a ha) (Nat.not_le_of_lt hnot)
  have hbehind : ∀ a ∈ back, order.idxOf child ≤ order.idxOf a ∧ a ≠ child := by
    cases back with
    | nil => exact nofun
    | cons first back =>
      have hfirst := hback first rfl
      have hmem := hsiblings first (List.mem_append_right _ List.mem_cons_self)
      have hle : order.idxOf child ≤ order.idxOf first := by
        by_contra hlt
        have hnot := hkeeps first hmem child hchild (Nat.lt_of_not_le hlt)
        exact absurd hfirst (Nat.lt_asymm hnot)
      have hne : ∀ a, order.idxOf first ≤ order.idxOf a → a ≠ child := by
        rintro a ha rfl
        have heq := (List.idxOf_inj hmem).mp (Nat.le_antisymm ha hle)
        rw [heq] at hfirst
        exact Nat.lt_irrefl _ hfirst
      intro a ha
      rcases List.mem_cons.mp ha with rfl | ha
      · exact ⟨hle, hne a (Nat.le_refl _)⟩
      · have hfirstLe := List.rel_of_pairwise_cons hbackSorted ha
        exact ⟨Nat.le_trans hle hfirstLe, hne a hfirstLe⟩
  refine ⟨List.pairwise_append.mpr ⟨hfrontSorted, List.pairwise_cons.mpr ⟨fun a ha => (hbehind a ha).1, hbackSorted⟩,
    ?_⟩, fun hmem => (hbehind child hmem).2 rfl⟩
  intro a ha b hb
  rcases List.mem_cons.mp hb with rfl | hb
  · exact hbefore a ha
  · exact hcross a ha b hb

end OrderInformation

open OrderInformation

namespace Schema

variable {schema : Schema} {info : OrderInformation}

/-- A path from an element up to the root of a document, with the type that the schema gives to the element. -/
inductive Traces (schema : Schema) : List String → String → Prop
  | root {node : Nat} (h : node ∈ schema.rootElements) :
    Traces schema [(schema.rootPair node).1] (schema.rootPair node).2
  | child {path : List String} {parentType : String} {tuple : VectorTuple} {p : String × String}
    (hpath : Traces schema path parentType) (hparent : schema.Declares parentType tuple) (hmem : p ∈ tuple) :
    Traces schema (p.1 :: path) p.2

/-- The parent of a new element is given its type, and the element a place that keeps the order of the type. -/
structure InsertsInOrder (schema : Schema) (info : OrderInformation) : Prop where
  parentType : ∀ path typeName, schema.Traces path typeName → info.getParentType path = .ok typeName
  insertIndex : ∀ path typeName tuple, schema.Traces path typeName → schema.Declares typeName tuple →
    ∀ child ∈ tuple.names, ∀ siblings, (∀ sibling ∈ siblings, sibling ∈ tuple.names) →
      InOrder tuple.names siblings → ∃ i ≤ siblings.length, info.getInsertIndex path child siblings = .ok (i : Nat) ∧
        InOrder tuple.names (siblings.take i ++ child :: siblings.drop i) ∧ child ∉ siblings.drop i

/-- Types that a path leads to have been read with the elements that the schema declares, in their order. -/
def ReadAsDeclared (schema : Schema) (info : OrderInformation) : Prop :=
  ∀ path typeName tuple, schema.Traces path typeName → schema.Declares typeName tuple → tuple ≠ [] →
    ∃ tuple', info.Reads typeName tuple' ∧ tuple ⊆ tuple' ∧ KeepsOrder tuple.names tuple'.names

lemma lookup_of_mem {tuple : VectorTuple} (hnodup : tuple.names.Nodup) {p : String × String} (hp : p ∈ tuple) :
    tuple.lookup p.1 = some p.2 := by
  induction tuple with
  | nil => cases hp
  | cons q tuple ih =>
    obtain ⟨hq, hrest⟩ := List.nodup_cons.mp hnodup
    rcases List.mem_cons.mp hp with rfl | hp
    · exact List.lookup_cons_self
    · have hne : p.1 ≠ q.1 := fun heq => hq (heq ▸ List.mem_map_of_mem hp)
      rw [List.lookup_cons, beq_false_of_ne hne]
      exact ih hrest hp

lemma Traces.ne_nil {path : List String} {typeName : String} (h : schema.Traces path typeName) : path ≠ [] := by
  cases h <;> exact List.cons_ne_nil _ _

/-- In the type that is read for the parent, an element of the path is looked up. -/
lemma getParentType_child (hinfo : schema.Information info) {path : List String} {parentType : String}
    (hpath : path ≠ []) (hparent : info.getParentType path = .ok parentType) {tuple : VectorTuple}
    (hreads : info.Reads parentType tuple) {p : String × String} (hp : p ∈ tuple) :
    info.getParentType (p.1 :: path) = .ok p.2 := by
  cases hname : info.nameToType.lookup p.1 with
  | some types =>
    rw [hinfo.noted parentType tuple hreads p hp types hname] at hname
    exact getParentType_of_unique hname path
  | none =>
    rw [getParentType_cons hname hpath, hparent, ok_bind]
    exact traceType_singleton hreads (lookup_of_mem (hinfo.unique parentType tuple hreads) hp)

lemma getParentType_of_traces (hinfo : schema.Information info) (hread : schema.ReadAsDeclared info)
    {path : List String} {typeName : String} (h : schema.Traces path typeName) :
    info.getParentType path = .ok typeName := by
  induction h with
  | @root node hnode =>
    have hmem : schema.rootPair node ∈ schema.rootElements.map schema.rootPair := List.mem_map_of_mem hnode
    cases hname : info.nameToType.lookup (schema.rootPair node).1 with
    | some types =>
      rw [hinfo.noted schemaRoot _ hinfo.roots _ hmem types hname] at hname
      exact getParentType_of_unique hname []
    | none => exact getParentType_root hname hinfo.roots (lookup_of_mem (hinfo.unique _ _ hinfo.roots) hmem)
  | child hpath hdeclares hmem ih =>
    obtain ⟨tuple', hreads, hsubset, -⟩ := hread _ _ _ hpath hdeclares (List.ne_nil_of_mem hmem)
    exact getParentType_child hinfo hpath.ne_nil ih hreads (hsubset hmem)

lemma getInsertIndex_eq {path : List String} {parentType : String} (hpath : path ≠ [])
    (hparent : info.getParentType path = .ok parentType) {tuple : VectorTuple} (hreads : info.Reads parentType tuple)
    (child : String) (siblings : List String) :
    info.getInsertIndex path child siblings =
      match findIndex tuple.names child with
      | none => .ok noLegalIndex
      | some newChildIndex => .ok (findSibling tuple.names newChildIndex 0 siblings) := by
  obtain ⟨parent, rest, rfl⟩ := List.exists_cons_of_ne_nil hpath
  unfold getInsertIndex
  dsimp only
  rw [childOrder_eq, hparent, ok_bind, childrenInfo_ok.mpr hreads]

lemma Traces.usesType {path : List String} {typeName : String} (h : schema.Traces path typeName) :
    schema.UsesType typeName := by
  cases h with
  | @root node hnode => exact ⟨node, mem_nodes_of_elementChild schema.schemaNode_mem (List.mem_of_mem_filter hnode), rfl⟩
  | child _ hdeclares hmem => exact hdeclares.uses _ hmem

lemma Traces.reads (hinfo : schema.Information info) (hreserved : schema.NotReserved) {path : List String}
    {typeName : String} (h : schema.Traces path typeName) : ∃ tuple, info.Reads typeName tuple := by
  induction h with
  | root hnode => exact hinfo.closed _ _ hinfo.roots _ (List.mem_map_of_mem hnode)
  | child hpath hdeclares hmem ih =>
    obtain ⟨tuple', hreads⟩ := ih
    have hname := hpath.usesType.ne_schemaRoot hreserved
    rw [hdeclares.unique (hinfo.correct hreserved _ _ hname hreads)] at hmem
    exact hinfo.closed _ _ hreads _ hmem

lemma readAsDeclared_of_notReserved (hinfo : schema.Information info) (hreserved : schema.NotReserved) :
    schema.ReadAsDeclared info := by
  intro path typeName tuple hpath hdeclares _
  obtain ⟨tuple', hreads⟩ := hpath.reads hinfo hreserved
  have hname := hpath.usesType.ne_schemaRoot hreserved
  obtain rfl := hdeclares.unique (hinfo.correct hreserved _ _ hname hreads)
  exact ⟨tuple, hreads, List.Subset.refl tuple, fun _ _ _ _ h => h⟩

lemma insertsInOrder_of_readAsDeclared (hinfo : schema.Information info) (hread : schema.ReadAsDeclared info) :
    schema.InsertsInOrder info := by
  refine ⟨fun path typeName h => getParentType_of_traces hinfo hread h, ?_⟩
  intro path typeName tuple hpath hdeclares child hchild siblings hsiblings hsorted
  have hne : tuple ≠ [] := by
    rintro rfl
    cases hchild
  obtain ⟨tuple', hreads, hsubset, hkeeps⟩ := hread path typeName tuple hpath hdeclares hne
  have hnames : ∀ name ∈ tuple.names, name ∈ tuple'.names := fun name h => List.map_subset Prod.fst hsubset h
  have hindex := getInsertIndex_eq hpath.ne_nil (getParentType_of_traces hinfo hread hpath) hreads child siblings
  unfold findIndex at hindex
  rw [if_pos (hnames child hchild)] at hindex
  dsimp only at hindex
  obtain ⟨front, back, hsplit, hfront, hback, hfound⟩ := findSibling_spec (tuple'.names.idxOf child) 0
    fun sibling h => hnames sibling (hsiblings sibling h)
  obtain ⟨hinserted, hlast⟩ := inOrder_insert hkeeps hchild hsiblings hsorted hsplit hfront hback
  refine ⟨front.length, ?_, ?_, ?_⟩
  · rw [hsplit, List.length_append]
    exact Nat.le_add_right _ _
  · rw [hindex, hfound, Nat.zero_add]
  · rw [hsplit, List.take_left, List.drop_left]
    exact ⟨hinserted, hlast⟩

/-- What has been read for a type can be told from the places of its elements. -/
lemma InsertsInOrder.reads (hinserts : schema.InsertsInOrder info) {path : List String} {typeName : String}
    (hpath : schema.Traces path typeName) {tuple : VectorTuple} (hdeclares : schema.Declares typeName tuple)
    {child : String} (hchild : child ∈ tuple.names) :
    ∃ tuple', info.Reads typeName tuple' ∧ child ∈ tuple'.names := by
  obtain ⟨i, -, hindex, -⟩ :=
    hinserts.insertIndex path typeName tuple hpath hdeclares child hchild [] nofun List.Pairwise.nil
  obtain ⟨parent, rest, rfl⟩ := List.exists_cons_of_ne_nil hpath.ne_nil
  unfold getInsertIndex at hindex
  dsimp only at hindex
  rw [childOrder_eq, hinserts.parentType _ _ hpath, ok_bind] at hindex
  unfold childrenInfo at hindex
  cases hlookup : info.typeToChildren.lookup typeName with
  | none =>
    rw [hlookup] at hindex
    cases hindex
  | some tuple' =>
    rw [hlookup] at hindex
    unfold findIndex at hindex
    by_cases hmem : child ∈ tuple'.names
    · exact ⟨tuple', hlookup, hmem⟩
    · dsimp only at hindex
      rw [if_neg hmem] at hindex
      have hnegative := Except.ok.inj hindex
      unfold noLegalIndex at hnegative
      omega

lemma InsertsInOrder.readAsDeclared (hinfo : schema.Information info) (hinserts : schema.InsertsInOrder info) :
    schema.ReadAsDeclared info := by
  intro path typeName tuple hpath hdeclares hne
  obtain ⟨first, hfirst⟩ := List.exists_mem_of_ne_nil tuple hne
  obtain ⟨tuple', hreads, -⟩ := hinserts.reads hpath hdeclares (List.mem_map_of_mem hfirst)
  have hnames : ∀ name ∈ tuple.names, name ∈ tuple'.names := by
    intro name hname
    obtain ⟨tuple'', hreads', hmem⟩ := hinserts.reads hpath hdeclares hname
    rwa [Option.some.inj (hreads.symm.trans hreads')]
  have hparent := hinserts.parentType path typeName hpath
  refine ⟨tuple', hreads, ?_, ?_⟩
  · intro p hp
    obtain ⟨q, hq, hname⟩ := List.mem_map.mp (hnames p.1 (List.mem_map_of_mem hp))
    have htype := getParentType_child hinfo hpath.ne_nil hparent hreads hq
    rw [hname, hinserts.parentType _ _ (.child hpath hdeclares hp)] at htype
    have hpair : p = q := Prod.ext hname.symm (Except.ok.inj htype)
    rwa [hpair]
  · intro a ha b hb hlt
    have hsibling : ∀ sibling ∈ [b], sibling ∈ tuple.names := by
      intro sibling h
      rwa [List.mem_singleton.mp h]
    obtain ⟨i, hi, hindex, hinserted, -⟩ :=
      hinserts.insertIndex path typeName tuple hpath hdeclares a ha [b] hsibling (List.pairwise_singleton _ b)
    -- Behind its sibling the new element would be out of order.
    have hzero : i = 0 := by
      by_contra hpositive
      obtain rfl : i = 1 := Nat.le_antisymm hi (Nat.pos_of_ne_zero hpositive)
      have hle := List.rel_of_pairwise_cons hinserted (List.mem_singleton_self a)
      exact absurd hlt (Nat.not_lt.mpr hle)
    rw [getInsertIndex_eq hpath.ne_nil hparent hreads, hzero] at hindex
    unfold findIndex at hindex
    rw [if_pos (hnames a ha)] at hindex
    dsimp only at hindex
    unfold findSibling findIndex at hindex
    rw [if_pos (hnames b hb)] at hindex
    dsimp only at hindex
    by_contra hnot
    rw [if_neg hnot] at hindex
    cases hindex

theorem getInsertIndex_exact_iff {fuel : Nat} (h : schema.initOrderInformation fuel = .ok info) :
    (schema.InsertsInOrder info ↔ schema.ReadAsDeclared info) ∧
      (schema.NotReserved → schema.ReadAsDeclared info) := by
  have hinfo := initOrderInformation_spec h
  refine ⟨⟨fun hinserts => hinserts.readAsDeclared hinfo, insertsInOrder_of_readAsDeclared hinfo⟩, ?_⟩
  exact fun hreserved => readAsDeclared_of_notReserved hinfo hreserved

/-- A schema where the elements `name` have different types in `user` and `group`. -/
def smallSchema : Schema where
  dom := Dom.ofParents (fun
    | 0 => .element "xs:schema" []
    | 1 => .element "xs:complexType" [("name", "userType")]
    | 2 => .element "xs:sequence" []
    | 3 => .element "xs:element" [("name", "name"), ("type", "xs:string")]
    | 4 => .element "xs:element" [("name", "id"), ("type", "xs:integer")]
    | 5 => .element "xs:complexType" [("name", "groupType")]
    | 6 => .element "xs:sequence" []
    | 7 => .element "xs:element" [("name", "name"), ("type", "xs:token")]
    | 8 => .element "xs:complexType" [("name", "systemType")]
    | 9 => .element "xs:sequence" []
    | 10 => .element "xs:element" [("name", "user"), ("type", "userType")]
    | 11 => .element "xs:element" [("name", "group"), ("type", "groupType")]
    | _ => .element "xs:element" [("name", "system"), ("type", "systemType")])
    [none, some 0, some 1, some 2, some 2, some 0, some 5, some 6, some 0, some 8, some 9, some 9, some 0]
  schemaNode := 0
  nodes := List.range 13
  schemaNode_mem := by decide
  children_mem := by decide

lemma smallSchema_accepted : ∃ info, smallSchema.initOrderInformation 6 = .ok info := by
  cases h : smallSchema.initOrderInformation 6 with
  | ok info => exact ⟨info, rfl⟩
  | error e =>
    have hok : (smallSchema.initOrderInformation 6).isOk = true := by decide
    rw [h] at hok
    cases hok

lemma smallSchema_notReserved : smallSchema.NotReserved := by
  unfold NotReserved
  decide

theorem getInsertIndex_exact_iff_small :
    ∃ info, smallSchema.initOrderInformation 6 = .ok info ∧ smallSchema.InsertsInOrder info := by
  obtain ⟨info, hinfo⟩ := smallSchema_accepted
  obtain ⟨hiff, hread⟩ := getInsertIndex_exact_iff hinfo
  exact ⟨info, hinfo, hiff.mpr (hread smallSchema_notReserved)⟩

/-- A schema that calls a type like the document, and has an element of this type. -/
def reservedSchema : Schema where
  dom := Dom.ofParents (fun
    | 0 => .element "xs:schema" []
    | 1 => .element "xs:complexType" [("name", "schemaRoot")]
    | 2 => .element "xs:sequence" []
    | 3 => .element "xs:element" [("name", "name"), ("type", "xs:string")]
    | _ => .element "xs:element" [("name", "system"), ("type", "schemaRoot")])
    [none, some 0, some 1, some 2, some 0]
  schemaNode := 0
  nodes := List.range 5
  schemaNode_mem := by decide
  children_mem := by decide

theorem getInsertIndex_reserved : ∃ info, reservedSchema.initOrderInformation 4 = .ok info ∧
    reservedSchema.Traces ["system"] "schemaRoot" ∧ reservedSchema.Declares "schemaRoot" [("name", "string")] ∧
    info.getInsertIndex ["system"] "name" [] = .ok noLegalIndex ∧ ¬reservedSchema.InsertsInOrder info := by
  let info : OrderInformation := ⟨[("schemaRoot", [("system", "schemaRoot")])], [("system", ["schemaRoot"])]⟩
  have hinit : reservedSchema.initOrderInformation 4 = .ok info := by rfl
  have htraces : reservedSchema.Traces ["system"] "schemaRoot" := by
    have hroot : 4 ∈ reservedSchema.rootElements := by decide
    exact Traces.root hroot
  have hdeclares : reservedSchema.Declares "schemaRoot" [("name", "string")] := ⟨3, by rfl⟩
  have hindex : info.getInsertIndex ["system"] "name" [] = .ok noLegalIndex := by rfl
  refine ⟨info, hinit, htraces, hdeclares, hindex, ?_⟩
  intro hinserts
  obtain ⟨i, hi, hfound, -⟩ := hinserts.insertIndex _ _ _ htraces hdeclares "name" List.mem_cons_self [] nofun .nil
  rw [hindex] at hfound
  cases hfound

end Schema

end Muen.Tools.GrammarTools
