import Muen.Tools.GrammarTools.InsertIndex

/-!
# Muxml.Grammar_Tools: filtering of documents

`Filter_XML` takes the elements away that are not in the type of the element around them. In the forest of a document
this is a recursion with the type of each element.
-/

namespace Muen.Tools.GrammarTools
open Muen.Lib
open Muen.Tools.Xml

def elementChildren (d : Document) (node : Nat) : List Nat :=
  (d.children node).filter fun child => (d.label child).isElement

/-- The element of a document, which there is one of. -/
def documentElement (d : Document) (doc : Nat) : Option Nat := (elementChildren d doc).head?

namespace OrderInformation

/-- Nodes that are not allowed as direct child are removed. -/
def removeNodes (nodeNames : List String) (parent : Nat) (children : List Nat) (d : Document) : Document :=
  children.foldl (fun d child =>
    if (d.label child).nodeName ∈ nodeNames then d else d.removeChild parent child) d

/-- The recursion into a child. -/
def filterChild (filterNode : Nat → String → Document → Except GrammarError Document) (childrenInfo : VectorTuple)
    (d : Document) (child : Nat) : Except GrammarError Document :=
  match childrenInfo.lookup (d.label child).nodeName with
  | none => .error .constraintError
  | some nodeType => filterNode child nodeType d

def filterNode (info : OrderInformation) : Nat → Nat → String → Document → Except GrammarError Document
  | 0, _, _, _ => .error .storageError
  | fuel + 1, parent, nodeType, d => do
    let childrenInfo ← info.childrenInfo nodeType
    let d := removeNodes childrenInfo.names parent (elementChildren d parent) d
    (elementChildren d parent).foldlM (filterChild (filterNode info fuel) childrenInfo) d

def filterXml (info : OrderInformation) (fuel : Nat) (doc : Nat) (d : Document) : Except GrammarError Document :=
  match documentElement d doc with
  | none => .error .constraintError
  | some rootNode =>
    match (info.typeToChildren.lookup schemaRoot).bind (·.lookup (d.label rootNode).nodeName) with
    | none => .error (.validationError ("Could not find root-node with tag '" ++ (d.label rootNode).nodeName ++
        "' in loaded schema information."))
    | some nodeType => info.filterNode fuel rootNode nodeType d

/-! ### Filtered forests -/

section Filtered

variable (info : OrderInformation) (label : Nat → Node)

/-- The type that a type gives to its elements with a name. -/
def childType (typeName name : String) : Option String := (info.typeToChildren.lookup typeName).bind (·.lookup name)

/-- The forest below a node of some type, without the elements that are not in the type of their parent. -/
def filtered : String → Forest → Forest
  | _, .nil => .nil
  | typeName, .cons id children rest =>
    if (label id).isElement then
      match info.childType typeName (label id).nodeName with
      | some nodeType => .cons id (filtered nodeType children) (filtered typeName rest)
      | none => filtered typeName rest
    else .cons id children (filtered typeName rest)

end Filtered

variable {info : OrderInformation} {label : Nat → Node}

lemma childType_of_reads {typeName : String} {tuple : VectorTuple} (h : info.Reads typeName tuple) (name : String) :
    info.childType typeName name = tuple.lookup name := by
  unfold childType
  rw [h]
  rfl

lemma lookup_isSome_iff {tuple : VectorTuple} {name : String} : (∃ t, tuple.lookup name = some t) ↔ name ∈ tuple.names := by
  induction tuple with
  | nil => exact ⟨nofun, nofun⟩
  | cons p tuple ih =>
    unfold VectorTuple.names at ih ⊢
    rw [List.lookup_cons, List.map_cons, List.mem_cons]
    by_cases heq : name = p.1
    · rw [heq, BEq.rfl]
      exact ⟨fun _ => .inl rfl, fun _ => ⟨p.2, rfl⟩⟩
    · rw [beq_false_of_ne heq, or_iff_right heq]
      exact ih

lemma roots_filtered {typeName : String} {tuple : VectorTuple} (h : info.Reads typeName tuple) (forest : Forest) :
    (filtered info label typeName forest).roots =
      forest.roots.filter fun b => ¬(label b).isElement ∨ (label b).nodeName ∈ tuple.names := by
  induction forest with
  | nil => rfl
  | cons id children rest _ ih =>
    unfold filtered
    by_cases helement : (label id).isElement = true
    · rw [if_pos helement, childType_of_reads h]
      cases hname : tuple.lookup (label id).nodeName with
      | some t =>
        have hmem := lookup_isSome_iff.mp ⟨t, hname⟩
        dsimp only [Forest.roots]
        rw [ih, List.filter_cons_of_pos (by simp [hmem])]
      | none =>
        have hmem : (label id).nodeName ∉ tuple.names := by
          intro hmem
          obtain ⟨t, ht⟩ := lookup_isSome_iff.mpr hmem
          rw [hname] at ht
          cases ht
        dsimp only [Forest.roots]
        rw [ih, List.filter_cons_of_neg (by simp [helement, hmem])]
    · rw [if_neg helement]
      dsimp only [Forest.roots]
      rw [ih, List.filter_cons_of_pos (by simp [helement])]

lemma filtered_sublist (typeName : String) (forest : Forest) :
    (filtered info label typeName forest).ids.Sublist forest.ids := by
  induction forest generalizing typeName with
  | nil => exact List.Sublist.slnil
  | cons id children rest ihChildren ihRest =>
    unfold filtered
    by_cases helement : (label id).isElement = true
    · rw [if_pos helement]
      cases info.childType typeName (label id).nodeName with
      | some t => exact ((ihChildren t).append (ihRest typeName)).cons_cons id
      | none => exact ((ihRest typeName).trans (List.sublist_append_right _ _)).cons id
    · rw [if_neg helement]
      exact ((List.Sublist.refl _).append (ihRest typeName)).cons_cons id

/-! ### Filtering of the nodes -/

/-- Only the children of the parent change, of which the allowed ones stay. -/
lemma removeNodes_spec (nodeNames : List String) (parent : Nat) (children : List Nat) (d : Document) :
    (removeNodes nodeNames parent children d).label = d.label ∧
      (removeNodes nodeNames parent children d).children parent =
        (d.children parent).filter (fun b => b ∉ children ∨ (d.label b).nodeName ∈ nodeNames) ∧
      ∀ a ≠ parent, (removeNodes nodeNames parent children d).children a = d.children a := by
  induction children generalizing d with
  | nil => exact ⟨rfl, (List.filter_eq_self.mpr (by simp)).symm, fun _ _ => rfl⟩
  | cons child children ih =>
    unfold removeNodes
    rw [List.foldl_cons]
    by_cases hname : (d.label child).nodeName ∈ nodeNames
    · rw [if_pos hname]
      obtain ⟨hlabel, hparent, hothers⟩ := ih d
      refine ⟨hlabel, hparent.trans (List.filter_congr ?_), hothers⟩
      intro b _
      by_cases heq : b = child
      · simp [heq, hname]
      · simp [heq]
    · rw [if_neg hname]
      obtain ⟨hlabel, hparent, hothers⟩ := ih (d.removeChild parent child)
      have hremoved : (d.removeChild parent child).label = d.label ∧
          (d.removeChild parent child).children parent = (d.children parent).filter (· != child) ∧
          ∀ a ≠ parent, (d.removeChild parent child).children a = d.children a := by
        by_cases hmem : child ∈ d.children parent
        · obtain ⟨l, r, hsplit⟩ := List.append_of_mem hmem
          obtain ⟨hchildren, hlabel', hothers'⟩ := Dom.removeChild_spec hsplit
          refine ⟨hlabel', ?_, hothers'⟩
          rw [hchildren, ← List.Nodup.erase_eq_filter (d.nodup_children parent), hsplit,
            List.erase_append_right _ (Dom.not_mem_of_split hsplit), List.erase_cons_head]
        · unfold Dom.removeChild
          rw [if_neg hmem]
          refine ⟨rfl, (List.filter_eq_self.mpr ?_).symm, fun _ _ => rfl⟩
          intro b hb
          simpa using fun heq : b = child => hmem (heq ▸ hb)
      obtain ⟨hlabel', hparent', hothers'⟩ := hremoved
      refine ⟨hlabel.trans hlabel', ?_, fun a ha => (hothers a ha).trans (hothers' a ha)⟩
      refine hparent.trans ?_
      rw [hparent', hlabel', List.filter_filter]
      apply List.filter_congr
      intro b _
      by_cases heq : b = child
      · simp [heq, hname]
      · simp [heq]

lemma removeNodes_self {nodeNames : List String} {parent : Nat} {children : List Nat} {d : Document}
    (h : ∀ b ∈ children, (d.label b).nodeName ∈ nodeNames) : removeNodes nodeNames parent children d = d := by
  induction children with
  | nil => rfl
  | cons child children ih =>
    obtain ⟨hchild, hrest⟩ := List.forall_mem_cons.mp h
    unfold removeNodes
    rw [List.foldl_cons, if_pos hchild]
    exact ih hrest

/-- The elements that are in the type of their parent. -/
def allowedRoots (label : Nat → Node) (tuple : VectorTuple) (forest : Forest) : List Nat :=
  forest.roots.filter fun b => (label b).isElement ∧ (label b).nodeName ∈ tuple.names

lemma removeNodes_elements {typeName : String} {tuple : VectorTuple} (hreads : info.Reads typeName tuple) {d : Document}
    {parent : Nat} {forest : Forest} (hparent : d.children parent = forest.roots) (hlabel : d.label = label) :
    let d' := removeNodes tuple.names parent (elementChildren d parent) d
    d'.label = label ∧ d'.children parent = (filtered info label typeName forest).roots ∧
      elementChildren d' parent = allowedRoots label tuple forest ∧
      ∀ a ≠ parent, d'.children a = d.children a := by
  intro d'
  subst hlabel
  obtain ⟨hlabel, hchildren, hothers⟩ := removeNodes_spec tuple.names parent (elementChildren d parent) d
  have hfiltered : d'.children parent = (filtered info d.label typeName forest).roots := by
    rw [roots_filtered hreads]
    refine hchildren.trans ?_
    rw [← hparent]
    apply List.filter_congr
    intro b hb
    have hmem : b ∈ elementChildren d parent ↔ (d.label b).isElement = true := by
      unfold elementChildren
      rw [List.mem_filter, and_iff_right hb]
    simp [hmem]
  refine ⟨hlabel, hfiltered, ?_, hothers⟩
  unfold elementChildren allowedRoots
  rw [hfiltered, roots_filtered hreads, List.filter_filter, hlabel]
  apply List.filter_congr
  intro b _
  by_cases helement : (d.label b).isElement = true
  · simp [helement]
  · simp [helement]

/-- What the recursion into some children does to the forest of a node. -/
def Filters (info : OrderInformation) (label : Nat → Node) (typeName : String) (forest : Forest) (d d' : Document) :
    Prop :=
  d'.label = label ∧ (filtered info label typeName forest).Repr d' ∧ ∀ a ∉ forest.ids, d'.children a = d.children a

/-- A node is filtered when the recursion filters what is below it. -/
lemma filterNode_step {fuel : Nat} {typeName : String} {tuple : VectorTuple} (hreads : info.Reads typeName tuple)
    {d : Document} {parent : Nat} {forest : Forest} (hparent : d.children parent = forest.roots)
    (hlabel : d.label = label) (hrepr : forest.Repr d) (hnot : parent ∉ forest.ids)
    (hfold : ∀ d₁ : Document, d₁.label = label → forest.Repr d₁ → ∃ d₂,
      (allowedRoots label tuple forest).foldlM (filterChild (info.filterNode fuel) tuple) d₁ = .ok d₂ ∧
        Filters info label typeName forest d₁ d₂) :
    ∃ d', info.filterNode (fuel + 1) parent typeName d = .ok d' ∧ d'.label = label ∧
      d'.children parent = (filtered info label typeName forest).roots ∧
      (filtered info label typeName forest).Repr d' ∧ ∀ a ∉ parent :: forest.ids, d'.children a = d.children a := by
  obtain ⟨hlabel₁, hparent₁, helements, hothers⟩ := removeNodes_elements hreads hparent hlabel
  have hrepr₁ := hrepr.congr fun a ha => hothers a fun heq => hnot (heq ▸ ha)
  obtain ⟨d₂, hrun, hlabel₂, hrepr₂, hothers₂⟩ := hfold _ hlabel₁ hrepr₁
  refine ⟨d₂, ?_, hlabel₂, ?_, hrepr₂, ?_⟩
  · unfold filterNode
    rw [childrenInfo_ok.mpr hreads, ok_bind]
    dsimp only
    rw [helements]
    exact hrun
  · rw [hothers₂ parent hnot, hparent₁]
  · intro a ha
    obtain ⟨hne, hmem⟩ := not_or.mp (mt List.mem_cons.mpr ha)
    rw [hothers₂ a hmem, hothers a hne]

lemma filterChildren_spec (hclosed : ∀ typeName tuple, info.Reads typeName tuple → ∀ p ∈ tuple,
    ∃ tuple', info.Reads p.2 tuple') {fuel : Nat} {forest : Forest} {typeName : String} {tuple : VectorTuple}
    (hreads : info.Reads typeName tuple) {d : Document} (hlabel : d.label = label) (hrepr : forest.Repr d)
    (hnodup : forest.ids.Nodup) (hfuel : forest.ids.length ≤ fuel) :
    ∃ d', (allowedRoots label tuple forest).foldlM (filterChild (info.filterNode fuel) tuple) d = .ok d' ∧
      Filters info label typeName forest d d' := by
  induction forest generalizing fuel typeName tuple d with
  | nil => exact ⟨d, rfl, hlabel, trivial, fun _ _ => rfl⟩
  | cons id children rest ihChildren ihRest =>
    obtain ⟨hid, hreprChildren, hreprRest⟩ := hrepr
    obtain ⟨hidNot, hnodupBelow⟩ := List.nodup_cons.mp hnodup
    obtain ⟨hidChildren, hidRest⟩ := not_or.mp (mt List.mem_append.mpr hidNot)
    have hdisjoint := List.disjoint_of_nodup_append hnodupBelow
    have hlength : children.ids.length + rest.ids.length + 1 ≤ fuel := by
      simpa only [Forest.ids, List.length_cons, List.length_append] using hfuel
    have hlengthRest : rest.ids.length ≤ fuel := by omega
    by_cases helement : (label id).isElement = true
    · cases hname : tuple.lookup (label id).nodeName with
      | some nodeType =>
        have hmem := lookup_isSome_iff.mp ⟨nodeType, hname⟩
        have hroots : allowedRoots label tuple (.cons id children rest) = id :: allowedRoots label tuple rest :=
          List.filter_cons_of_pos (by simp [helement, hmem])
        have hfiltered : filtered info label typeName (.cons id children rest) =
            .cons id (filtered info label nodeType children) (filtered info label typeName rest) := by
          rw [filtered, if_pos helement, childType_of_reads hreads, hname]
        obtain ⟨tuple', hreads'⟩ := hclosed typeName tuple hreads _ (Schema.mem_of_lookup hname)
        obtain ⟨k, rfl⟩ : ∃ k, fuel = k + 1 := ⟨fuel - 1, by omega⟩
        have hlengthChildren : children.ids.length ≤ k := by omega
        obtain ⟨d₁, hrun₁, hlabel₁, hid₁, hrepr₁, hothers₁⟩ := filterNode_step hreads' hid hlabel hreprChildren
          hidChildren fun d₁ hlabel₁ hrepr₁ =>
            ihChildren hreads' hlabel₁ hrepr₁ hnodupBelow.of_append_left hlengthChildren
        have hreprRest₁ := hreprRest.congr fun a ha => hothers₁ a fun hmem => by
          rcases List.mem_cons.mp hmem with rfl | hmem
          · exact hidRest ha
          · exact hdisjoint hmem ha
        obtain ⟨d₂, hrun₂, hlabel₂, hrepr₂, hothers₂⟩ :=
          ihRest hreads hlabel₁ hreprRest₁ hnodupBelow.of_append_right hlengthRest
        refine ⟨d₂, ?_, hlabel₂, ?_, ?_⟩
        · rw [hroots, List.foldlM_cons]
          unfold filterChild
          rw [hlabel, hname]
          dsimp only
          rw [hrun₁, ok_bind]
          exact hrun₂
        · rw [hfiltered]
          refine ⟨(hothers₂ id hidRest).trans hid₁, hrepr₁.congr fun a ha => hothers₂ a fun hmem => ?_, hrepr₂⟩
          exact hdisjoint ((filtered_sublist nodeType children).mem ha) hmem
        · intro a ha
          rw [Forest.ids, List.mem_cons, List.mem_append, not_or, not_or] at ha
          rw [hothers₂ a ha.2.2, hothers₁ a (by simp [ha.1, ha.2.1])]
      | none =>
        have hmem : (label id).nodeName ∉ tuple.names := by
          intro hmem
          obtain ⟨t, ht⟩ := lookup_isSome_iff.mpr hmem
          rw [hname] at ht
          cases ht
        have hroots : allowedRoots label tuple (.cons id children rest) = allowedRoots label tuple rest :=
          List.filter_cons_of_neg (by simp [hmem])
        have hfiltered : filtered info label typeName (.cons id children rest) = filtered info label typeName rest := by
          rw [filtered, if_pos helement, childType_of_reads hreads, hname]
        obtain ⟨d', hrun, hlabel', hrepr', hothers⟩ :=
          ihRest hreads hlabel hreprRest hnodupBelow.of_append_right hlengthRest
        refine ⟨d', hroots ▸ hrun, hlabel', hfiltered ▸ hrepr', ?_⟩
        intro a ha
        rw [Forest.ids, List.mem_cons, List.mem_append, not_or, not_or] at ha
        exact hothers a ha.2.2
    · have hroots : allowedRoots label tuple (.cons id children rest) = allowedRoots label tuple rest :=
        List.filter_cons_of_neg (by simp [helement])
      have hfiltered : filtered info label typeName (.cons id children rest) =
          .cons id children (filtered info label typeName rest) := by
        rw [filtered, if_neg helement]
      obtain ⟨d', hrun, hlabel', hrepr', hothers⟩ :=
        ihRest hreads hlabel hreprRest hnodupBelow.of_append_right hlengthRest
      refine ⟨d', hroots ▸ hrun, hlabel', ?_, ?_⟩
      · rw [hfiltered]
        exact ⟨(hothers id hidRest).trans hid,
          hreprChildren.congr fun a ha => hothers a fun hmem => hdisjoint ha hmem, hrepr'⟩
      · intro a ha
        rw [Forest.ids, List.mem_cons, List.mem_append, not_or, not_or] at ha
        exact hothers a ha.2.2

/-- Elements that have been filtered are not removed again. -/
lemma filterChildren_unchanged (hclosed : ∀ typeName tuple, info.Reads typeName tuple → ∀ p ∈ tuple,
    ∃ tuple', info.Reads p.2 tuple') {fuel : Nat} {forest : Forest} {typeName : String} {tuple : VectorTuple}
    (hreads : info.Reads typeName tuple) {d : Document} (hlabel : d.label = label)
    (hrepr : (filtered info label typeName forest).Repr d) (hfuel : forest.ids.length ≤ fuel) :
    (allowedRoots label tuple (filtered info label typeName forest)).foldlM
      (filterChild (info.filterNode fuel) tuple) d = .ok d := by
  induction forest generalizing fuel typeName tuple with
  | nil => rfl
  | cons id children rest ihChildren ihRest =>
    have hlength : children.ids.length + rest.ids.length + 1 ≤ fuel := by
      simpa only [Forest.ids, List.length_cons, List.length_append] using hfuel
    unfold filtered at hrepr ⊢
    by_cases helement : (label id).isElement = true
    · rw [if_pos helement, childType_of_reads hreads] at hrepr ⊢
      cases hname : tuple.lookup (label id).nodeName with
      | some nodeType =>
        rw [hname] at hrepr
        obtain ⟨hid, hreprChildren, hreprRest⟩ := hrepr
        have hmem := lookup_isSome_iff.mp ⟨nodeType, hname⟩
        have hroots : allowedRoots label tuple (.cons id (filtered info label nodeType children)
            (filtered info label typeName rest)) = id :: allowedRoots label tuple (filtered info label typeName rest) :=
          List.filter_cons_of_pos (by simp [helement, hmem])
        obtain ⟨tuple', hreads'⟩ := hclosed typeName tuple hreads _ (Schema.mem_of_lookup hname)
        obtain ⟨k, rfl⟩ : ∃ k, fuel = k + 1 := ⟨fuel - 1, by omega⟩
        have hkept : ∀ b ∈ d.children id, (label b).isElement = true → (label b).nodeName ∈ tuple'.names := by
          intro b hb helement
          rw [hid, roots_filtered hreads', List.mem_filter] at hb
          simpa [helement] using hb.2
        have hremoved : removeNodes tuple'.names id (elementChildren d id) d = d := by
          apply removeNodes_self
          intro b hb
          obtain ⟨hb, helement⟩ := List.mem_filter.mp hb
          rw [hlabel] at helement ⊢
          exact hkept b hb helement
        have helements : elementChildren d id = allowedRoots label tuple' (filtered info label nodeType children) := by
          unfold elementChildren allowedRoots
          rw [hlabel, ← hid]
          apply List.filter_congr
          intro b hb
          by_cases helement : (label b).isElement = true
          · simp [helement, hkept b hb helement]
          · simp [helement]
        have hnode : info.filterNode (k + 1) id nodeType d = .ok d := by
          unfold filterNode
          rw [childrenInfo_ok.mpr hreads', ok_bind]
          dsimp only
          rw [hremoved, helements]
          exact ihChildren hreads' hreprChildren (by omega)
        dsimp only
        rw [hroots, List.foldlM_cons]
        unfold filterChild
        rw [hlabel, hname]
        dsimp only
        rw [hnode, ok_bind]
        exact ihRest hreads hreprRest (by omega)
      | none =>
        rw [hname] at hrepr
        exact ihRest hreads hrepr (by omega)
    · rw [if_neg helement] at hrepr ⊢
      have hroots : allowedRoots label tuple (.cons id children (filtered info label typeName rest)) =
          allowedRoots label tuple (filtered info label typeName rest) :=
        List.filter_cons_of_neg (by simp [helement])
      rw [hroots]
      exact ihRest hreads hrepr.2.2 (by omega)

/-! ### Paths of names -/

/-- The nodes of a forest with the names of the elements that they are in, and of the element that they are. -/
def paths (label : Nat → Node) : List String → Forest → List (Nat × List String)
  | _, .nil => []
  | up, .cons id children rest =>
    if (label id).isElement then
      (id, (label id).nodeName :: up) :: (paths label ((label id).nodeName :: up) children ++ paths label up rest)
    else (id, up) :: paths label up rest

/-- A path from an element up to the root, with the type that has been read for the element. -/
inductive Traces (info : OrderInformation) : List String → String → Prop
  | nil : Traces info [] schemaRoot
  | child {path : List String} {parentType : String} {tuple : VectorTuple} {p : String × String}
    (hpath : Traces info path parentType) (hreads : info.Reads parentType tuple) (hmem : p ∈ tuple) :
    Traces info (p.1 :: path) p.2

lemma Traces.unique (hunique : ∀ typeName tuple, info.Reads typeName tuple → tuple.names.Nodup) {path : List String}
    {typeName typeName' : String} (h : info.Traces path typeName) (h' : info.Traces path typeName') :
    typeName = typeName' := by
  induction path generalizing typeName typeName' with
  | nil =>
    cases h
    cases h'
    rfl
  | cons name path ih =>
    obtain ⟨t, tuple, hpath, hreads, hname⟩ : ∃ t tuple, info.Traces path t ∧ info.Reads t tuple ∧
        tuple.lookup name = some typeName := by
      cases h with
      | child hpath hreads hmem => exact ⟨_, _, hpath, hreads, Schema.lookup_of_mem (hunique _ _ hreads) hmem⟩
    obtain ⟨t', tuple', hpath', hreads', hname'⟩ : ∃ t tuple, info.Traces path t ∧ info.Reads t tuple ∧
        tuple.lookup name = some typeName' := by
      cases h' with
      | child hpath hreads hmem => exact ⟨_, _, hpath, hreads, Schema.lookup_of_mem (hunique _ _ hreads) hmem⟩
    obtain rfl := ih hpath hpath'
    obtain rfl := Option.some.inj (hreads.symm.trans hreads')
    exact Option.some.inj (hname.symm.trans hname')

lemma Traces.of_suffix {path path' : List String} (hsuffix : path' <:+ path) {typeName : String}
    (h : info.Traces path typeName) : ∃ typeName', info.Traces path' typeName' := by
  induction h generalizing path' with
  | nil =>
    rw [List.suffix_nil.mp hsuffix]
    exact ⟨schemaRoot, .nil⟩
  | child hpath hreads hmem ih =>
    rcases List.suffix_cons_iff.mp hsuffix with rfl | hsuffix
    · exact ⟨_, .child hpath hreads hmem⟩
    · exact ih hsuffix

lemma traces_cons_iff (hunique : ∀ typeName tuple, info.Reads typeName tuple → tuple.names.Nodup) {up : List String}
    {typeName : String} {tuple : VectorTuple} (hup : info.Traces up typeName) (hreads : info.Reads typeName tuple)
    {name nodeType : String} : info.Traces (name :: up) nodeType ↔ tuple.lookup name = some nodeType := by
  constructor
  · intro h
    cases h with
    | child hpath hreads' hmem =>
      obtain rfl := hup.unique hunique hpath
      obtain rfl := Option.some.inj (hreads.symm.trans hreads')
      exact Schema.lookup_of_mem (hunique _ _ hreads) hmem
  · exact fun h => .child hup hreads (Schema.mem_of_lookup h)

lemma suffix_of_mem_paths {up : List String} {forest : Forest} {e : Nat × List String} (h : e ∈ paths label up forest) :
    up <:+ e.2 := by
  induction forest generalizing up with
  | nil => cases h
  | cons id children rest ihChildren ihRest =>
    unfold paths at h
    split at h
    · rcases List.mem_cons.mp h with rfl | h
      · exact List.suffix_cons _ up
      · rcases List.mem_append.mp h with h | h
        · exact (List.suffix_cons _ up).trans (ihChildren h)
        · exact ihRest h
    · rcases List.mem_cons.mp h with rfl | h
      · exact List.suffix_refl up
      · exact ihRest h

/-- The nodes whose paths have a type stay, in their order. -/
lemma paths_filtered (hclosed : ∀ typeName tuple, info.Reads typeName tuple → ∀ p ∈ tuple,
    ∃ tuple', info.Reads p.2 tuple') (hunique : ∀ typeName tuple, info.Reads typeName tuple → tuple.names.Nodup)
    {up : List String} {typeName : String} {tuple : VectorTuple} (hup : info.Traces up typeName)
    (hreads : info.Reads typeName tuple) (forest : Forest) :
    (paths label up (filtered info label typeName forest)).Sublist (paths label up forest) ∧
      ∀ e, e ∈ paths label up (filtered info label typeName forest) ↔
        e ∈ paths label up forest ∧ ∃ t, info.Traces e.2 t := by
  induction forest generalizing up typeName tuple with
  | nil => exact ⟨List.Sublist.slnil, fun e => ⟨nofun, fun h => nomatch h.1⟩⟩
  | cons id children rest ihChildren ihRest =>
    obtain ⟨hsublistRest, hmemRest⟩ := ihRest hup hreads
    unfold filtered
    by_cases helement : (label id).isElement = true
    · rw [if_pos helement, childType_of_reads hreads]
      cases hname : tuple.lookup (label id).nodeName with
      | some nodeType =>
        have htraces : info.Traces ((label id).nodeName :: up) nodeType := (traces_cons_iff hunique hup hreads).mpr hname
        obtain ⟨tuple', hreads'⟩ := hclosed typeName tuple hreads _ (Schema.mem_of_lookup hname)
        obtain ⟨hsublist, hmem⟩ := ihChildren htraces hreads'
        dsimp only
        rw [paths, if_pos helement, paths, if_pos helement]
        refine ⟨(hsublist.append hsublistRest).cons_cons _, ?_⟩
        intro e
        rw [List.mem_cons, List.mem_append, hmem, hmemRest, List.mem_cons, List.mem_append, or_and_right, or_and_right]
        refine or_congr (iff_self_and.mpr ?_) Iff.rfl
        rintro rfl
        exact ⟨nodeType, htraces⟩
      | none =>
        dsimp only
        rw [paths, if_pos helement]
        refine ⟨(hsublistRest.trans (List.sublist_append_right _ _)).cons _, ?_⟩
        intro e
        rw [hmemRest, List.mem_cons, List.mem_append]
        refine ⟨fun h => ⟨.inr (.inr h.1), h.2⟩, ?_⟩
        rintro ⟨he, t, ht⟩
        -- A path through the element has no type.
        have hnot : ¬(label id).nodeName :: up <:+ e.2 := by
          intro hsuffix
          obtain ⟨t', ht'⟩ := ht.of_suffix hsuffix
          rw [traces_cons_iff hunique hup hreads, hname] at ht'
          cases ht'
        refine ⟨?_, t, ht⟩
        rcases he with rfl | he | he
        · exact absurd (List.suffix_refl _) hnot
        · exact absurd (suffix_of_mem_paths he) hnot
        · exact he
    · rw [if_neg helement, paths, if_neg helement, paths, if_neg helement]
      refine ⟨hsublistRest.cons_cons _, ?_⟩
      intro e
      rw [List.mem_cons, hmemRest, List.mem_cons, or_and_right]
      refine or_congr (iff_self_and.mpr ?_) Iff.rfl
      rintro rfl
      exact ⟨typeName, hup⟩

/-! ### Filtered documents -/

/-- A document where the elements with some paths have been kept, with all that is in them besides elements. -/
structure FilteredBy (allowed : List String → Prop) (doc : Nat) (d d' : Document) (forest forest' : Forest) : Prop where
  document : IsDocument d' doc forest'
  label : d'.label = d.label
  order : (paths d.label [] forest').Sublist (paths d.label [] forest)
  children : ∀ a ∈ forest'.ids, (d'.children a).Sublist (d.children a)
  kept : ∀ e, e ∈ paths d.label [] forest' ↔ e ∈ paths d.label [] forest ∧ (e.2 = [] ∨ allowed e.2)

lemma roots_filtered_sublist (typeName : String) (forest : Forest) :
    (filtered info label typeName forest).roots.Sublist forest.roots := by
  induction forest with
  | nil => exact List.Sublist.slnil
  | cons id children rest _ ih =>
    unfold filtered
    split
    · split
      · exact ih.cons_cons id
      · exact ih.cons id
    · exact ih.cons_cons id

lemma repr_agree {d d' : Document} {forest : Forest} (h' : forest.Repr d') (h : forest.Repr d) :
    ∀ a ∈ forest.ids, d'.children a = d.children a := by
  induction forest with
  | nil => exact nofun
  | cons id children rest ihChildren ihRest =>
    intro a ha
    rcases List.mem_cons.mp ha with rfl | ha
    · rw [h.1, h'.1]
    · rcases List.mem_append.mp ha with ha | ha
      · exact ihChildren h'.2.1 h.2.1 a ha
      · exact ihRest h'.2.2 h.2.2 a ha

lemma filtered_children {d d' : Document} {typeName : String} {forest : Forest} (hrepr : forest.Repr d)
    (hrepr' : (filtered info label typeName forest).Repr d') :
    ∀ a ∈ (filtered info label typeName forest).ids, (d'.children a).Sublist (d.children a) := by
  induction forest generalizing typeName with
  | nil => exact nofun
  | cons id children rest ihChildren ihRest =>
    obtain ⟨hid, hreprChildren, hreprRest⟩ := hrepr
    unfold filtered at hrepr' ⊢
    by_cases helement : (label id).isElement = true
    · rw [if_pos helement] at hrepr' ⊢
      cases hname : info.childType typeName (label id).nodeName with
      | some nodeType =>
        rw [hname] at hrepr'
        obtain ⟨hid', hreprChildren', hreprRest'⟩ := hrepr'
        intro a ha
        rcases List.mem_cons.mp ha with rfl | ha
        · rw [hid, hid']
          exact roots_filtered_sublist nodeType children
        · rcases List.mem_append.mp ha with ha | ha
          · exact ihChildren hreprChildren hreprChildren' a ha
          · exact ihRest hreprRest hreprRest' a ha
      | none =>
        rw [hname] at hrepr'
        exact ihRest hreprRest hrepr'
    · rw [if_neg helement] at hrepr' ⊢
      obtain ⟨hid', hreprChildren', hreprRest'⟩ := hrepr'
      have hsame : ∀ a ∈ children.ids, d'.children a = d.children a := repr_agree hreprChildren' hreprChildren
      intro a ha
      rcases List.mem_cons.mp ha with rfl | ha
      · rw [hid, hid']
      · rcases List.mem_append.mp ha with ha | ha
        · rw [hsame a ha]
        · exact ihRest hreprRest hreprRest' a ha

/-- The root of a document is handled like an element in the type of the document. -/
lemma filterXml_eq {tuple : VectorTuple} (hroots : info.Reads schemaRoot tuple) {d : Document} {doc root : Nat}
    (hroot : elementChildren d doc = [root]) {forest : Forest} (hforest : d.children doc = forest.roots)
    (fuel : Nat) {nodeType : String} (hname : tuple.lookup (d.label root).nodeName = some nodeType) :
    allowedRoots d.label tuple forest = [root] ∧
      info.filterXml fuel doc d = [root].foldlM (filterChild (info.filterNode fuel) tuple) d := by
  have hmem := lookup_isSome_iff.mp ⟨nodeType, hname⟩
  constructor
  · have hallowed : allowedRoots d.label tuple forest =
        (elementChildren d doc).filter fun b => (d.label b).nodeName ∈ tuple.names := by
      unfold allowedRoots elementChildren
      rw [← hforest, List.filter_filter]
      apply List.filter_congr
      intro b _
      rw [Bool.decide_and, Bool.and_comm]
      simp
    rw [hallowed, hroot, List.filter_cons_of_pos (by simpa using hmem)]
    rfl
  · unfold filterXml documentElement
    rw [hroot]
    dsimp only [List.head?_cons]
    rw [hroots]
    dsimp only [Option.bind_some]
    rw [hname, List.foldlM_cons]
    unfold filterChild
    rw [hname]
    dsimp only
    cases info.filterNode fuel root nodeType d <;> rfl

lemma filterXml_spec {schema : Schema} (hinfo : schema.Information info) {d : Document} {doc root : Nat}
    {forest : Forest} (hdoc : IsDocument d doc forest) (hroot : elementChildren d doc = [root]) {fuel : Nat}
    (hfuel : forest.ids.length ≤ fuel) {nodeType : String}
    (hname : info.childType schemaRoot (d.label root).nodeName = some nodeType) :
    ∃ d' forest', info.filterXml fuel doc d = .ok d' ∧
      FilteredBy (fun path => ∃ t, info.Traces path t) doc d d' forest forest' ∧ info.filterXml fuel doc d' = .ok d' := by
  let forest' := filtered info d.label schemaRoot forest
  rw [childType_of_reads hinfo.roots] at hname
  obtain ⟨hallowed, hrun⟩ := filterXml_eq hinfo.roots hroot hdoc.roots fuel hname
  obtain ⟨hdocNot, hnodup⟩ := List.nodup_cons.mp hdoc.nodup
  obtain ⟨d', hfold, hlabel, hrepr, hothers⟩ :=
    filterChildren_spec hinfo.closed hinfo.roots rfl hdoc.repr hnodup hfuel
  have hsublist : forest'.ids.Sublist forest.ids := filtered_sublist schemaRoot forest
  have hmem := lookup_isSome_iff.mp ⟨nodeType, hname⟩
  have hroots' : d'.children doc = d.children doc := hothers doc hdocNot
  have hdoc' : IsDocument d' doc forest' := by
    refine ⟨?_, hrepr, (hsublist.cons_cons doc).nodup hdoc.nodup⟩
    rw [hroots', hdoc.roots, roots_filtered hinfo.roots]
    symm
    apply List.filter_eq_self.mpr
    intro b hb
    by_cases helement : (d.label b).isElement = true
    · have hin : b ∈ elementChildren d doc := by
        unfold elementChildren
        rw [List.mem_filter, hdoc.roots]
        exact ⟨hb, helement⟩
      rw [hroot, List.mem_singleton] at hin
      rw [hin]
      simpa using Or.inr hmem
    · simp [helement]
  have helements' : elementChildren d' doc = [root] := by
    unfold elementChildren at hroot ⊢
    rw [hroots', hlabel]
    exact hroot
  have hname' : (schema.rootElements.map schema.rootPair).lookup (d'.label root).nodeName = some nodeType := by
    rw [hlabel]
    exact hname
  obtain ⟨hallowed', hrun'⟩ := filterXml_eq hinfo.roots helements' hdoc'.roots fuel hname'
  obtain ⟨horder, hkept⟩ := @paths_filtered info d.label hinfo.closed hinfo.unique [] _ _ .nil hinfo.roots forest
  refine ⟨d', forest', ?_, ⟨hdoc', hlabel, horder, filtered_children hdoc.repr hrepr, ?_⟩, ?_⟩
  · rw [hrun, ← hallowed]
    exact hfold
  · intro e
    rw [hkept]
    refine and_congr_right fun _ => ⟨Or.inr, ?_⟩
    rintro (hnil | h)
    · rw [hnil]
      exact ⟨schemaRoot, .nil⟩
    · exact h
  · rw [hrun', ← hallowed', hlabel]
    exact filterChildren_unchanged hinfo.closed hinfo.roots hlabel hrepr hfuel

end OrderInformation

open OrderInformation

namespace Schema

variable {schema : Schema} {info : OrderInformation}

/-- Documents are filtered by the types that the schema gives to their elements. -/
structure FiltersBySchema (schema : Schema) (info : OrderInformation) : Prop where
  rejects : ∀ (d : Document) doc forest root fuel, IsDocument d doc forest → elementChildren d doc = [root] →
    forest.ids.length ≤ fuel → (¬∃ t, schema.Traces [(d.label root).nodeName] t) →
      info.filterXml fuel doc d = .error (.validationError ("Could not find root-node with tag '" ++
        (d.label root).nodeName ++ "' in loaded schema information."))
  filters : ∀ (d : Document) doc forest root fuel, IsDocument d doc forest → elementChildren d doc = [root] →
    forest.ids.length ≤ fuel → (∃ t, schema.Traces [(d.label root).nodeName] t) →
      ∃ d' forest', info.filterXml fuel doc d = .ok d' ∧
        FilteredBy (fun path => ∃ t, schema.Traces path t) doc d d' forest forest' ∧
        info.filterXml fuel doc d' = .ok d'

/-- The types that have been read lead along the paths that the schema gives types to. -/
def SamePaths (schema : Schema) (info : OrderInformation) : Prop :=
  ∀ path ≠ [], (∃ t, info.Traces path t) ↔ ∃ t, schema.Traces path t

lemma traces_root_iff (hinfo : schema.Information info) {name : String} :
    (∃ t, schema.Traces [name] t) ↔ ∃ t, info.childType schemaRoot name = some t := by
  rw [childType_of_reads hinfo.roots]
  constructor
  · rintro ⟨t, h⟩
    cases h with
    | root hnode =>
      exact ⟨_, lookup_of_mem (hinfo.unique _ _ hinfo.roots) (List.mem_map_of_mem hnode)⟩
    | child hpath => exact absurd rfl hpath.ne_nil
  · rintro ⟨t, h⟩
    obtain ⟨node, hnode, hpair⟩ := List.mem_map.mp (mem_of_lookup h)
    have htraces : schema.Traces [(schema.rootPair node).1] (schema.rootPair node).2 := .root hnode
    rw [hpair] at htraces
    exact ⟨t, htraces⟩

lemma filterXml_rejects (hinfo : schema.Information info) {d : Document} {doc root : Nat}
    (hroot : elementChildren d doc = [root]) (hnot : ¬∃ t, schema.Traces [(d.label root).nodeName] t) (fuel : Nat) :
    info.filterXml fuel doc d = .error (.validationError ("Could not find root-node with tag '" ++
      (d.label root).nodeName ++ "' in loaded schema information.")) := by
  rw [traces_root_iff hinfo] at hnot
  unfold filterXml documentElement
  rw [hroot]
  cases h : info.childType schemaRoot (d.label root).nodeName with
  | none =>
    unfold childType at h
    dsimp only [List.head?_cons]
    rw [h]
  | some t => exact absurd ⟨t, h⟩ hnot

lemma filtersBySchema_of_samePaths (hinfo : schema.Information info) (hsame : schema.SamePaths info) :
    schema.FiltersBySchema info := by
  refine ⟨fun d doc forest root fuel _ hroot _ hnot => filterXml_rejects hinfo hroot hnot fuel, ?_⟩
  intro d doc forest root fuel hdoc hroot hfuel htraces
  obtain ⟨t, ht⟩ := (traces_root_iff hinfo).mp htraces
  obtain ⟨d', forest', hrun, hfiltered, hagain⟩ := filterXml_spec hinfo hdoc hroot hfuel ht
  refine ⟨d', forest', hrun, ⟨hfiltered.document, hfiltered.label, hfiltered.order, hfiltered.children, ?_⟩, hagain⟩
  intro e
  rw [hfiltered.kept]
  refine and_congr_right fun _ => ?_
  by_cases hnil : e.2 = []
  · exact ⟨fun _ => .inl hnil, fun _ => .inl hnil⟩
  · rw [or_iff_right hnil, or_iff_right hnil]
    exact hsame e.2 hnil

lemma samePaths_of_notReserved (hinfo : schema.Information info) (hreserved : schema.NotReserved) :
    schema.SamePaths info := by
  have hforth : ∀ {path t}, info.Traces path t → path ≠ [] → schema.Traces path t := by
    intro path t h
    induction h with
    | nil => exact fun hne => absurd rfl hne
    | @child path parentType tuple p hpath hreads hmem ih =>
      intro _
      by_cases hnil : path = []
      · subst hnil
        cases hpath
        obtain rfl := Option.some.inj (hreads.symm.trans hinfo.roots)
        obtain ⟨node, hnode, rfl⟩ := List.mem_map.mp hmem
        exact .root hnode
      · have htraces := ih hnil
        exact .child htraces (hinfo.correct hreserved _ _ (htraces.usesType.ne_schemaRoot hreserved) hreads) hmem
  have hback : ∀ {path t}, schema.Traces path t → info.Traces path t := by
    intro path t h
    induction h with
    | root hnode => exact .child .nil hinfo.roots (List.mem_map_of_mem hnode)
    | child hpath hdeclares hmem ih =>
      obtain ⟨tuple', hreads⟩ := hpath.reads hinfo hreserved
      have hread := hinfo.correct hreserved _ _ (hpath.usesType.ne_schemaRoot hreserved) hreads
      rw [hdeclares.unique hread] at hmem
      exact .child ih hreads hmem
  exact fun path hne => ⟨fun ⟨t, h⟩ => ⟨t, hforth h hne⟩, fun ⟨t, h⟩ => ⟨t, hback h⟩⟩

/-! ### Documents with one path -/

/-- The document of elements with some names, each one in the one before it. -/
def chain (names : List String) : Document where
  label a := .element (names.getD (a - 1) "") []
  children a := if a < names.length then [a + 1] else []
  parent b := if 0 < b ∧ b ≤ names.length then some (b - 1) else none
  mem_children a b := by
    by_cases ha : a < names.length
    · rw [if_pos ha, List.mem_singleton]
      constructor
      · rintro rfl
        rw [if_pos ⟨Nat.succ_pos a, ha⟩, Nat.add_sub_cancel]
      · intro h
        split at h
        · have := Option.some.inj h
          omega
        · cases h
    · rw [if_neg ha]
      refine ⟨nofun, fun h => ?_⟩
      split at h
      · have := Option.some.inj h
        omega
      · cases h
  nodup_children a := by
    split
    · exact List.nodup_singleton _
    · exact List.nodup_nil

def chainForest : Nat → Nat → Forest
  | _, 0 => .nil
  | start, n + 1 => .cons start (chainForest (start + 1) n) .nil

lemma ids_chainForest (start n : Nat) : (chainForest start n).ids = List.range' start n := by
  induction n generalizing start with
  | zero => rfl
  | succ n ih => rw [chainForest, Forest.ids, ih, Forest.ids, List.append_nil, List.range'_succ]

lemma repr_chainForest {names : List String} {start n : Nat} (h : start + n = names.length + 1) :
    (chainForest start n).Repr (chain names) := by
  induction n generalizing start with
  | zero => trivial
  | succ n ih =>
    refine ⟨?_, ih (by omega), trivial⟩
    change (if start < names.length then [start + 1] else []) = _
    cases n with
    | zero => rw [if_neg (by omega), chainForest, Forest.roots]
    | succ n => rw [if_pos (by omega), chainForest, Forest.roots, Forest.roots]

lemma isDocument_chain (names : List String) : IsDocument (chain names) 0 (chainForest 1 names.length) := by
  refine ⟨?_, repr_chainForest (Nat.add_comm _ _), ?_⟩
  · change (if 0 < names.length then [1] else []) = _
    cases names with
    | nil => rfl
    | cons name names => rfl
  · rw [ids_chainForest]
    refine List.nodup_cons.mpr ⟨?_, List.nodup_range'⟩
    intro hmem
    have := List.mem_range'_1.mp hmem
    omega

/-- The path to the last element of the chain. -/
lemma mem_paths_chain {names pre suf : List String} (hnames : names = pre ++ suf) (hne : suf ≠ []) :
    (names.length, names.reverse) ∈
      paths (chain names).label pre.reverse (chainForest (pre.length + 1) suf.length) := by
  induction suf generalizing pre with
  | nil => exact absurd rfl hne
  | cons name suf ih =>
    have hname : ((chain names).label (pre.length + 1)).nodeName = name := by
      change names.getD (pre.length + 1 - 1) "" = name
      rw [hnames, Nat.add_sub_cancel]
      simp
    have helement : ((chain names).label (pre.length + 1)).isElement = true := rfl
    rw [List.length_cons, chainForest, paths, if_pos helement, hname]
    by_cases hsuf : suf = []
    · subst hsuf
      rw [hnames]
      simp
    · have hsplit : names = (pre ++ [name]) ++ suf := by
        rw [hnames]
        simp
      have hmem := ih hsplit hsuf
      rw [List.length_append, List.reverse_append] at hmem
      exact List.mem_cons_of_mem _ (List.mem_append_left _ hmem)

lemma repr_unique {d : Document} {forest forest' : Forest} (h : forest.Repr d) (h' : forest'.Repr d)
    (hroots : forest.roots = forest'.roots) : forest = forest' := by
  induction forest generalizing forest' with
  | nil =>
    cases forest' with
    | nil => rfl
    | cons id children rest => cases hroots
  | cons id children rest ihChildren ihRest =>
    cases forest' with
    | nil => cases hroots
    | cons id' children' rest' =>
      obtain ⟨rfl, hrest⟩ := List.cons.inj hroots
      rw [ihChildren h.2.1 h'.2.1 (h.1.symm.trans h'.1), ihRest h.2.2 h'.2.2 hrest]

lemma Traces.ends {path : List String} {t : String} (h : schema.Traces path t) {name : String} {rest : List String}
    (hpath : path = rest ++ [name]) : ∃ t, schema.Traces [name] t := by
  induction h generalizing rest with
  | @root node hnode =>
    cases rest with
    | nil =>
      rw [← (List.cons.inj hpath).1]
      exact ⟨_, .root hnode⟩
    | cons _ rest => simp at hpath
  | child hup _ _ ih =>
    cases rest with
    | nil => exact absurd (List.cons.inj hpath).2 hup.ne_nil
    | cons _ rest => exact ih (List.cons.inj hpath).2

lemma FiltersBySchema.samePaths (hinfo : schema.Information info) (hfilters : schema.FiltersBySchema info) :
    schema.SamePaths info := by
  intro path hne
  obtain ⟨rest, name, rfl⟩ := List.eq_nil_or_concat path |>.resolve_left hne
  rw [List.concat_eq_append]
  have hroot : (∃ t, schema.Traces [name] t) →
      ((∃ t, info.Traces (rest ++ [name]) t) ↔ ∃ t, schema.Traces (rest ++ [name]) t) := by
    intro htraces
    let names := name :: rest.reverse
    have helements : elementChildren (chain names) 0 = [1] := rfl
    have hdoc := isDocument_chain names
    have hfuel := Nat.le_refl (chainForest 1 names.length).ids.length
    obtain ⟨t, ht⟩ := (traces_root_iff hinfo).mp htraces
    obtain ⟨d₁, forest₁, hrun₁, hfiltered₁, -⟩ := filterXml_spec hinfo hdoc helements hfuel ht
    obtain ⟨d₂, forest₂, hrun₂, hfiltered₂, -⟩ := hfilters.filters _ _ _ _ _ hdoc helements hfuel htraces
    obtain rfl := Except.ok.inj (hrun₁.symm.trans hrun₂)
    obtain rfl := repr_unique hfiltered₁.document.repr hfiltered₂.document.repr
      (hfiltered₁.document.roots.symm.trans hfiltered₂.document.roots)
    have hmem : (names.length, rest ++ [name]) ∈ paths (chain names).label [] (chainForest 1 names.length) := by
      have h := @mem_paths_chain names [] names rfl (List.cons_ne_nil _ _)
      rwa [List.reverse_cons, List.reverse_reverse] at h
    have hkept₁ := hfiltered₁.kept (names.length, rest ++ [name])
    have hkept₂ := hfiltered₂.kept (names.length, rest ++ [name])
    rw [and_iff_right hmem, or_iff_right (by simp)] at hkept₁ hkept₂
    exact hkept₁.symm.trans hkept₂
  constructor
  · rintro ⟨t, ht⟩
    obtain ⟨t', ht'⟩ := ht.of_suffix (List.suffix_append rest [name])
    have hchild := (traces_cons_iff hinfo.unique .nil hinfo.roots).mp ht'
    rw [← childType_of_reads hinfo.roots] at hchild
    exact (hroot ((traces_root_iff hinfo).mpr ⟨t', hchild⟩)).mp ⟨t, ht⟩
  · rintro ⟨t, ht⟩
    exact (hroot (ht.ends rfl)).mpr ⟨t, ht⟩

theorem filterXml_exact_iff {fuel : Nat} (h : schema.initOrderInformation fuel = .ok info) :
    (schema.FiltersBySchema info ↔ schema.SamePaths info) ∧ (schema.NotReserved → schema.SamePaths info) := by
  have hinfo := initOrderInformation_spec h
  refine ⟨⟨fun hfilters => hfilters.samePaths hinfo, filtersBySchema_of_samePaths hinfo⟩, ?_⟩
  exact fun hreserved => samePaths_of_notReserved hinfo hreserved

/-- A system with a user and a group, with an identifier of the group and a node that the schema does not have. -/
def strayDocument : Document :=
  Dom.ofParents (fun
    | 0 => .element "document" []
    | 1 => .element "system" []
    | 2 => .element "user" []
    | 3 => .element "name" []
    | 4 => .element "id" []
    | 5 => .element "group" []
    | 6 => .element "id" []
    | 7 => .element "name" []
    | _ => .element "host" [])
    [none, some 0, some 1, some 2, some 2, some 1, some 5, some 5, some 1]

def strayForest : Forest :=
  .cons 1 (.cons 2 (.cons 3 .nil (.cons 4 .nil .nil))
    (.cons 5 (.cons 6 .nil (.cons 7 .nil .nil)) (.cons 8 .nil .nil))) .nil

/-- The two nodes are removed, and the identifier of the user is not. -/
theorem filterXml_exact_iff_small :
    ∃ info, smallSchema.initOrderInformation 6 = .ok info ∧ smallSchema.FiltersBySchema info ∧
      ∃ d' forest', info.filterXml 8 0 strayDocument = .ok d' ∧
        FilteredBy (fun path => ∃ t, smallSchema.Traces path t) 0 strayDocument d' strayForest forest' ∧
        [1, 2, 5].map d'.children = [[2, 5], [3, 4], [7]] ∧ info.filterXml 8 0 d' = .ok d' := by
  obtain ⟨info, hinfo⟩ := smallSchema_accepted
  obtain ⟨hiff, hsame⟩ := filterXml_exact_iff hinfo
  have hfilters := hiff.mpr (hsame smallSchema_notReserved)
  have hdoc : IsDocument strayDocument 0 strayForest := by
    refine ⟨rfl, ?_, by decide⟩
    simp only [strayForest, Forest.Repr]
    decide
  have hsystem : 12 ∈ smallSchema.rootElements := by decide
  have hroot : ∃ t, smallSchema.Traces ["system"] t := ⟨_, Traces.root hsystem⟩
  obtain ⟨d', forest', hrun, hfiltered, hagain⟩ := hfilters.filters _ _ _ 1 8 hdoc rfl (by decide) hroot
  have hchildren : (smallSchema.initOrderInformation 6).toOption.bind (fun info =>
      (info.filterXml 8 0 strayDocument).toOption.map (fun d' => [1, 2, 5].map d'.children)) =
        some [[2, 5], [3, 4], [7]] := by rfl
  rw [hinfo] at hchildren
  change (info.filterXml 8 0 strayDocument).toOption.map _ = _ at hchildren
  rw [hrun] at hchildren
  exact ⟨info, hinfo, hfilters, d', forest', hrun, hfiltered, Option.some.inj hchildren, hagain⟩

/-- An element of the type that is called like the document loses what it may have in it. -/
theorem filterXml_reserved : ∃ info, reservedSchema.initOrderInformation 4 = .ok info ∧
    reservedSchema.Traces ["name", "system"] "string" ∧
    (∃ d', info.filterXml 2 0 (chain ["system", "name"]) = .ok d' ∧ d'.children 1 = []) ∧
    ¬reservedSchema.FiltersBySchema info := by
  let info : OrderInformation := ⟨[("schemaRoot", [("system", "schemaRoot")])], [("system", ["schemaRoot"])]⟩
  have hinit : reservedSchema.initOrderInformation 4 = .ok info := by rfl
  have hinfo := initOrderInformation_spec hinit
  have htraces : reservedSchema.Traces ["name", "system"] "string" := by
    have hroot : 4 ∈ reservedSchema.rootElements := by decide
    have hdeclares : reservedSchema.Declares "schemaRoot" [("name", "string")] := ⟨3, by rfl⟩
    exact Traces.child (Traces.root hroot) hdeclares List.mem_cons_self
  refine ⟨info, hinit, htraces, ⟨_, rfl, rfl⟩, ?_⟩
  intro hfilters
  obtain ⟨t, ht⟩ := (hfilters.samePaths hinfo ["name", "system"] (List.cons_ne_nil _ _)).mpr ⟨_, htraces⟩
  have hreads : info.Reads schemaRoot [("system", "schemaRoot")] := rfl
  have hsystem : info.Traces ["system"] "schemaRoot" := .child .nil hreads List.mem_cons_self
  rw [traces_cons_iff hinfo.unique hsystem hreads] at ht
  cases ht

end Schema

end Muen.Tools.GrammarTools
