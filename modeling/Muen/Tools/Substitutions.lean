import Muen.Tools.Expressions.Expand

/-!
# Mutools.Substitutions

`Process_Attributes` replaces the attributes and texts that start with a dollar sign by the value of the configuration
variable that they name.
-/

namespace Muen.Tools.Substitutions
open Muen.Lib
open Muen.Tools.XmlTemplates (Label Nodes getAttribute)
open Muen.Tools.Expressions (Text Element quote childElements reference? isSystem)

inductive SubstituteError
  | validationError (message : String)
  | constraintError
deriving DecidableEq

/-- The map with another configuration variable. -/
def insertConfigNode (access : List (Text × Text)) (node : Element) : Except SubstituteError (List (Text × Text)) :=
  if (access.lookup node.name).isSome then .error .constraintError
  else .ok (access ++ [(node.name, node.attr "value")])

def populateNodeAccess (configNodes : List Element) : Except SubstituteError (List (Text × Text)) :=
  configNodes.foldlM insertConfigNode []

def configNodes (doc : Nodes) : List Element :=
  (childElements ((doc.childrenOf isSystem).childrenOf (Label.isElement "config"))).filter fun node =>
    node.tagName ∈ ["boolean", "integer", "string"]

section Labels

variable (access : List (Text × Text))

/-- The value that a text or an attribute is set to. An attribute `variable` must not be a reference. -/
def substitute (isVariable : Bool) (nodeValue : Text) : Except SubstituteError Text :=
  match reference? nodeValue with
  | none => .ok nodeValue
  | some reference =>
    match access.lookup reference with
    | some value =>
      if isVariable then
        .error (.validationError ("Error when substituting $-reference. Found $-reference in 'variable'-attribute." ++
          " Value is " ++ quote nodeValue ++ "."))
      else .ok value
    | none => .error (.validationError ("Found attribute value or text-node with value " ++ quote nodeValue ++
        " but no variable with name " ++ quote reference ++ " exists"))

def substituteText : Label → Except SubstituteError Label
  | .text value => do return .text (← substitute access false value)
  | label => .ok label

def substituteAttribute (attr : String × Text) : Except SubstituteError (String × Text) := do
  return (attr.1, ← substitute access (attr.1 = "variable") attr.2)

def substituteAttributes : Label → Except SubstituteError Label
  | .element tagName attributes => do return .element tagName (← attributes.mapM (substituteAttribute access))
  | label => .ok label

end Labels

def processAttributes (doc : Nodes) : Except SubstituteError Nodes := do
  let access ← populateNodeAccess (configNodes doc)
  let doc ← doc.mapM (substituteText access)
  doc.mapM (substituteAttributes access)

/-! ### What is replaced -/

section Replacement

variable (env : Text → Option Text)

/-- The value of the variable that a value names. -/
def resolved (value : Text) : Text := ((reference? value).bind env).getD value

/-- A value that is not a reference, or one to a variable where references are allowed. -/
def Resolvable (isVariable : Bool) (value : Text) : Prop :=
  ∀ name, reference? value = some name → (env name).isSome ∧ isVariable = false

/-- The references in a label are to variables. -/
def LabelResolvable : Label → Prop
  | .element _ attributes => ∀ attr ∈ attributes, Resolvable env (attr.1 = "variable") attr.2
  | .text value => Resolvable env false value
  | .other _ => True

def resolvedLabel : Label → Label
  | .element tagName attributes => .element tagName (attributes.map fun attr => (attr.1, resolved env attr.2))
  | .text value => .text (resolved env value)
  | .other value => .other value

end Replacement

/-! ### The substitution -/

section Substitution

variable {access : List (Text × Text)}

/-- The variables that are recorded. -/
def valueOf (access : List (Text × Text)) (name : Text) : Option Text := access.lookup name

lemma substitute_eq_ok_iff (isVariable : Bool) (value value' : Text) :
    substitute access isVariable value = .ok value' ↔
      Resolvable (valueOf access) isVariable value ∧ value' = resolved (valueOf access) value := by
  unfold substitute Resolvable resolved valueOf
  cases reference? value with
  | none =>
    constructor
    · intro h
      exact ⟨fun name hname => absurd hname (Option.some_ne_none name).symm, (Except.ok.inj h).symm⟩
    · rintro ⟨-, rfl⟩
      rfl
  | some reference =>
    simp only [Option.some.injEq, forall_eq', Option.bind_some]
    cases access.lookup reference with
    | none => simp
    | some v =>
      cases isVariable with
      | true => simp
      | false =>
        simp only [Bool.false_eq_true, if_false, Except.ok.injEq, Option.isSome_some, true_and, Option.getD_some]
        exact eq_comm

lemma substituteAttribute_eq_ok_iff (attr attr' : String × Text) :
    substituteAttribute access attr = .ok attr' ↔
      Resolvable (valueOf access) (attr.1 = "variable") attr.2 ∧
        attr' = (attr.1, resolved (valueOf access) attr.2) := by
  unfold substituteAttribute
  constructor
  · intro h
    obtain ⟨value, hvalue, hpure⟩ := bind_eq_ok h
    obtain ⟨hresolvable, rfl⟩ := (substitute_eq_ok_iff _ _ _).mp hvalue
    exact ⟨hresolvable, (Except.ok.inj hpure).symm⟩
  · rintro ⟨hresolvable, rfl⟩
    rw [(substitute_eq_ok_iff _ _ _).mpr ⟨hresolvable, rfl⟩]
    rfl

/-- The texts first and the attributes after them are replaced together. -/
lemma substituteLabel_eq_ok_iff (label label' : Label) :
    (substituteText access label >>= substituteAttributes access) = .ok label' ↔
      LabelResolvable (valueOf access) label ∧ label' = resolvedLabel (valueOf access) label := by
  cases label with
  | element tagName attributes =>
    change substituteAttributes access (.element tagName attributes) = _ ↔ _
    rw [substituteAttributes, LabelResolvable, resolvedLabel]
    constructor
    · intro h
      obtain ⟨attributes', hattributes, hpure⟩ := bind_eq_ok h
      obtain ⟨hall, rfl⟩ := (mapM_eq_ok_iff substituteAttribute_eq_ok_iff).mp hattributes
      exact ⟨hall, (Except.ok.inj hpure).symm⟩
    · rintro ⟨hall, rfl⟩
      rw [(mapM_eq_ok_iff substituteAttribute_eq_ok_iff).mpr ⟨hall, rfl⟩]
      rfl
  | text value =>
    rw [substituteText, LabelResolvable, resolvedLabel]
    constructor
    · intro h
      obtain ⟨text, htext, hpure⟩ := bind_eq_ok h
      obtain ⟨value', hvalue, hlabel⟩ := bind_eq_ok htext
      obtain ⟨hresolvable, rfl⟩ := (substitute_eq_ok_iff _ _ _).mp hvalue
      obtain rfl := Except.ok.inj hlabel
      exact ⟨hresolvable, (Except.ok.inj hpure).symm⟩
    · rintro ⟨hresolvable, rfl⟩
      rw [(substitute_eq_ok_iff _ _ _).mpr ⟨hresolvable, rfl⟩]
      rfl
  | other value =>
    change Except.ok (Label.other value) = _ ↔ _
    rw [LabelResolvable, resolvedLabel, Except.ok.injEq]
    exact ⟨fun h => ⟨trivial, h.symm⟩, fun h => h.2.symm⟩

/-- A configuration variable with its value. -/
def configValue (node : Element) : Text × Text := (node.name, node.attr "value")

lemma lookup_isSome_iff (name : Text) : (access.lookup name).isSome = true ↔ name ∈ access.map Prod.fst := by
  rw [Option.isSome_iff_ne_none, Ne, List.lookup_eq_none_iff]
  simp

lemma insertConfigNode_eq_ok_iff (node : Element) (access' : List (Text × Text)) :
    insertConfigNode access node = .ok access' ↔
      node.name ∉ access.map Prod.fst ∧ access' = access ++ [configValue node] := by
  unfold insertConfigNode
  by_cases hmem : node.name ∈ access.map Prod.fst
  · rw [if_pos ((lookup_isSome_iff _).mpr hmem)]
    simp [hmem]
  · rw [if_neg (mt (lookup_isSome_iff _).mp hmem), Except.ok.injEq]
    exact ⟨fun h => ⟨hmem, h.symm⟩, fun h => h.2.symm⟩

lemma foldlM_insertConfigNode_eq_ok_iff {nodes : List Element} {access' : List (Text × Text)}
    (hnodup : (access.map Prod.fst).Nodup) :
    nodes.foldlM insertConfigNode access = .ok access' ↔
      (access.map Prod.fst ++ nodes.map Element.name).Nodup ∧ access' = access ++ nodes.map configValue := by
  induction nodes generalizing access with
  | nil =>
    rw [List.foldlM_nil, List.map_nil, List.map_nil, List.append_nil, List.append_nil]
    exact ⟨fun h => ⟨hnodup, (Except.ok.inj h).symm⟩, fun h => congrArg Except.ok h.2.symm⟩
  | cons node nodes ih =>
    have hmap : (access ++ [configValue node]).map Prod.fst = access.map Prod.fst ++ [node.name] := by
      rw [List.map_append]
      rfl
    rw [List.foldlM_cons, List.map_cons, List.map_cons, List.append_cons _ node.name, ← hmap,
      List.append_cons access (configValue node) (nodes.map configValue)]
    constructor
    · intro h
      obtain ⟨access₁, hinsert, hrest⟩ := bind_eq_ok h
      obtain ⟨hmem, rfl⟩ := (insertConfigNode_eq_ok_iff _ _).mp hinsert
      apply (ih _).mp hrest
      rw [hmap]
      exact hnodup.append (List.nodup_singleton _) (List.disjoint_singleton.mpr hmem)
    · rintro ⟨hall, rfl⟩
      have hleft := hall.of_append_left
      have hmem : node.name ∉ access.map Prod.fst := by
        rw [hmap] at hleft
        exact List.disjoint_singleton.mp (List.disjoint_of_nodup_append hleft)
      rw [(insertConfigNode_eq_ok_iff _ _).mpr ⟨hmem, rfl⟩, ok_bind]
      exact (ih hleft).mpr ⟨hall, rfl⟩

lemma populateNodeAccess_eq_ok_iff {nodes : List Element} :
    populateNodeAccess nodes = .ok access ↔
      (nodes.map Element.name).Nodup ∧ access = nodes.map configValue :=
  foldlM_insertConfigNode_eq_ok_iff List.nodup_nil

/-- The value of a configuration variable of a document. -/
def configValueOf (doc : Nodes) : Text → Option Text := valueOf ((configNodes doc).map configValue)

/-- The references are replaced exactly when the names of the variables differ and each reference is to one of them,
outside of the attributes `variable`. The rest of the document is as before. -/
theorem processAttributes_eq_ok_iff (doc doc' : Nodes) :
    processAttributes doc = .ok doc' ↔
      ((configNodes doc).map Element.name).Nodup ∧
      (doc.AllNodes fun label _ => LabelResolvable (configValueOf doc) label) ∧
      doc' = doc.map (resolvedLabel (configValueOf doc)) := by
  have hpasses : ∀ access : List (Text × Text),
      (doc.mapM (substituteText access) >>= fun k => k.mapM (substituteAttributes access)) = .ok doc' ↔
        (doc.AllNodes fun label _ => LabelResolvable (valueOf access) label) ∧
          doc' = doc.map (resolvedLabel (valueOf access)) := by
    intro access
    rw [Hedge.mapM_bind_mapM_eq_ok_iff]
    exact Hedge.mapM_eq_ok_iff substituteLabel_eq_ok_iff
  constructor
  · intro h
    obtain ⟨access, haccess, hrest⟩ := bind_eq_ok h
    obtain ⟨hnodup, rfl⟩ := populateNodeAccess_eq_ok_iff.mp haccess
    exact ⟨hnodup, (hpasses _).mp hrest⟩
  · rintro ⟨hnodup, hdoc⟩
    unfold processAttributes
    rw [populateNodeAccess_eq_ok_iff.mpr ⟨hnodup, rfl⟩, ok_bind]
    exact (hpasses _).mpr hdoc

end Substitution

end Muen.Tools.Substitutions
