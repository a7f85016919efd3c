import Muen.Tools.XmlTemplates.Expand
import Muen.Tools.XmlTemplates.Renaming

/-!
# Compiled templates

A well-formed template is compiled for a call whenever the call gives values to exactly the parameters that the
template declares, except that a default may be left. The parts of the compiled template are those of the template
with the variables renamed.
-/

namespace Muen.Tools.XmlTemplates
open Muen.Lib Muen.Tools.Expressions

/-! ### Well-formed templates and calls -/

/-- An element with strings in it to evaluate has a sequence of text and references as its value. -/
def Parsable (label : Label) : Prop :=
  label.isElement "evalString" = true →
    ∃ value, label.attributes.lookup "value" = some value ∧ ∃ pieces, IsSequence pieces value

structure CallWellFormed (callChildren : Nodes) : Prop where
  onlyParameters : callChildren.AllNodes fun label _ => isBadNode label = false
  value : ∀ node ∈ elements "parameter" callChildren, hasAttribute node.1.attributes "value" = true
  name : ∀ node ∈ elements "parameter" callChildren, ∀ n, node.1.name ≠ '$' :: n

def CallsWellFormed (nodes : Nodes) : Prop :=
  nodes.AllNodes fun label children => label.isElement "useTemplate" = true → CallWellFormed children

def NoCalls (nodes : Nodes) : Prop := nodes.AllNodes fun label _ => label.isElement "useTemplate" = false

/-- The children of the elements with a name in a template. -/
def sectionOf (tagName : String) (template : Node) : Nodes := template.2.childrenOf (Label.isElement tagName)

def bodyOf (template : Node) : Nodes := sectionOf "body" template

structure TemplateWellFormed (template : Node) : Prop where
  body : (elements "body" template.2).length = 1
  config : (elements "config" template.2).length ≤ 1
  expressions : (elements "expressions" template.2).length ≤ 1
  evalStrings : template.2.AllNodes fun label _ => Parsable label
  calls : CallsWellFormed (bodyOf template)
  callsInBody : ∀ tagName ∈ ["config", "expressions", "parameters"], NoCalls (sectionOf tagName template)
  bodyRoots : ∀ tagName ∈ ["config", "expressions"], elements tagName (bodyOf template) = []

structure Signature where
  name : Value
  parameters : List Value

def signature (templateCall : Label) (callChildren : Nodes) : Signature :=
  ⟨templateCall.name, (elements "parameter" callChildren).map fun node => node.1.name⟩

/-- What the parameters of a call do not agree with. -/
def BadParameters (template : Node) (parameters : List Value) : Prop :=
  (∃ param ∈ parametersOf template.2,
    hasAttribute param.1.attributes "defaultValue" = false ∧ param.1.name ∉ parameters) ∨
  (∃ param ∈ parametersOf template.2, 1 < parameters.count param.1.name) ∨
  ∃ name ∈ parameters, name ∉ (parametersOf template.2).map fun param => param.1.name

/-! ### Parameters -/

section Parameters

variable (callParameters : List Label)

/-- The value that a call gives to a parameter, or the default. -/
def parameterValue (param : Node) : Value :=
  match callParameters.find? fun node => node.name = param.1.name with
  | some callNode => getAttribute callNode.attributes "value"
  | none => getAttribute param.1.attributes "defaultValue"

def Unassigned (param : Node) : Prop :=
  1 < (callParameters.map Label.name).count param.1.name ∨
    hasAttribute param.1.attributes "defaultValue" = false ∧ param.1.name ∉ callParameters.map Label.name

variable {callParameters}

lemma length_matching (name : Value) :
    (callParameters.filter fun node => node.name = name).length = (callParameters.map Label.name).count name := by
  rw [List.count_eq_length_filter, List.filter_map, List.length_map]
  congr 1
  apply List.filter_congr
  intro node _
  by_cases h : node.name = name
  · simp [h]
  · simp [h]

lemma bindParameter_eq (templateName : Value) (param : Node)
    (hvalue : ∀ node ∈ callParameters, hasAttribute node.attributes "value" = true) :
    (Unassigned callParameters param → ∃ e, bindParameter templateName callParameters param = .error e) ∧
    (¬Unassigned callParameters param → bindParameter templateName callParameters param =
      .ok (newConfigNode param (parameterValue callParameters param),
        if param.1.name ∈ callParameters.map Label.name then some param.1.name else none)) := by
  have hcond : ((callParameters.filter fun node => node.name = param.1.name).length > 1 ∨
      hasAttribute param.1.attributes "defaultValue" = false ∧
        (callParameters.filter fun node => node.name = param.1.name).length = 0) ↔ Unassigned callParameters param := by
    unfold Unassigned
    rw [length_matching, List.count_eq_zero]
  unfold bindParameter
  dsimp only
  constructor
  · intro h
    rw [if_pos (hcond.mpr h)]
    exact ⟨_, rfl⟩
  · intro h
    rw [if_neg fun hc => h (hcond.mp hc)]
    unfold parameterValue
    cases hmatching : callParameters.filter fun node => node.name = param.1.name with
    | nil =>
      have hnone : callParameters.find? (fun node => node.name = param.1.name) = none := by
        rw [← List.head?_filter, hmatching]
        rfl
      have hmem : param.1.name ∉ callParameters.map Label.name := by
        rw [← List.count_eq_zero, ← length_matching, hmatching]
        rfl
      rw [hnone, if_neg hmem]
    | cons callNode rest =>
      have hsome : callParameters.find? (fun node => node.name = param.1.name) = some callNode := by
        rw [← List.head?_filter, hmatching]
        rfl
      have hcall := List.mem_filter.mp (hmatching ▸ List.mem_cons_self : callNode ∈ callParameters.filter _)
      have hmem : param.1.name ∈ callParameters.map Label.name :=
        List.mem_map.mpr ⟨callNode, hcall.1, of_decide_eq_true hcall.2⟩
      dsimp only
      rw [hsome, if_pos (hvalue callNode hcall.1), if_pos hmem]

/-- The parameters are bound exactly if none is unassigned. -/
lemma bindParameters_eq (templateName : Value) (params : List Node)
    (hvalue : ∀ node ∈ callParameters, hasAttribute node.attributes "value" = true) :
    ((∃ param ∈ params, Unassigned callParameters param) →
      ∃ e, params.mapM (bindParameter templateName callParameters) = .error e) ∧
    ((∀ param ∈ params, ¬Unassigned callParameters param) →
      params.mapM (bindParameter templateName callParameters) = .ok (params.map fun param =>
        (newConfigNode param (parameterValue callParameters param),
          if param.1.name ∈ callParameters.map Label.name then some param.1.name else none))) := by
  induction params with
  | nil => exact ⟨nofun, fun _ => rfl⟩
  | cons param params ih =>
    obtain ⟨hfail, hok⟩ := bindParameter_eq templateName param hvalue
    rw [List.mapM_cons]
    constructor
    · rintro ⟨bad, hmem, hbad⟩
      by_cases hparam : Unassigned callParameters param
      · obtain ⟨e, he⟩ := hfail hparam
        rw [he]
        exact ⟨e, rfl⟩
      · rcases List.mem_cons.mp hmem with rfl | hmem
        · exact absurd hbad hparam
        · obtain ⟨e, he⟩ := ih.1 ⟨bad, hmem, hbad⟩
          rw [hok hparam, ok_bind, he]
          exact ⟨e, rfl⟩
    · intro h
      rw [hok (h param List.mem_cons_self), ok_bind, ih.2 fun p hp => h p (List.mem_cons_of_mem param hp)]
      rfl

variable (callParameters) in
lemma checkUnused_eq (templateName : Value) (matching : List Value) :
    ((∃ node ∈ callParameters, node.name ∉ matching) → ∃ e, checkUnused templateName callParameters matching = .error e) ∧
    ((∀ node ∈ callParameters, node.name ∈ matching) → checkUnused templateName callParameters matching = .ok ()) := by
  unfold checkUnused
  constructor
  · rintro ⟨node, hmem, hnode⟩
    cases hfind : callParameters.find? fun node => node.name ∉ matching with
    | none => exact absurd (decide_eq_true hnode) (List.find?_eq_none.mp hfind node hmem)
    | some node' => exact ⟨_, rfl⟩
  · intro h
    have hnone : (callParameters.find? fun node => node.name ∉ matching) = none := by
      rw [List.find?_eq_none]
      intro node hmem
      simpa using h node hmem
    rw [hnone]

end Parameters

/-! ### The parts of a template -/

section Parts

variable {template : Node} {params : List Node} {newPrefix : Value}

lemma isElement_of_ne {tagName tagName' : String} (h : tagName ≠ tagName') (label : Label)
    (hlabel : label.isElement tagName = true) : label.isElement tagName' = false := by
  cases label with
  | element tag attributes =>
    have htag : tag = tagName := of_decide_eq_true hlabel
    exact decide_eq_false (by rw [htag]; exact h)
  | text value => cases hlabel
  | other value => cases hlabel

@[simp] lemma map_unmarked (nodes : Nodes) : (unmarked nodes).map Prod.snd = nodes := by
  unfold unmarked
  rw [Hedge.map_map]
  exact Hedge.map_id nodes

lemma map_ofRoots {α β : Type} (f : α → β) (l : List (α × Hedge α)) :
    (Hedge.ofRoots l).map f = Hedge.ofRoots (l.map fun node => (f node.1, node.2.map f)) := by
  induction l with
  | nil => rfl
  | cons node l ih => rw [Hedge.ofRoots, Hedge.map, ih]; rfl

lemma names_append (h k : Nodes) : names (h ++ k) = names h ++ names k := by
  unfold names
  rw [Hedge.roots_append, List.filterMap_append]

/-- The parameters as configuration variables, whose values are locked. -/
def lockedParams (params : List Node) : Marked :=
  Hedge.ofRoots (params.map fun node => ((true, node.1), unmarked node.2))

lemma map_lockedParams (params : List Node) : (lockedParams params).map Prod.snd = Hedge.ofRoots params := by
  unfold lockedParams
  rw [map_ofRoots, List.map_map]
  congr 1
  conv_rhs => rw [← List.map_id params]
  apply List.map_congr_left
  intro node _
  exact Prod.ext rfl (map_unmarked node.2)

/-- The configuration variables with the parameters. -/
def configWith (template : Node) (params : List Node) : Marked :=
  unmarked (sectionOf "config" template) ++ lockedParams params

/-- The names that a template defines. -/
def definedBy (template : Node) (params : List Node) : List Value :=
  names (sectionOf "config" template) ++ params.filterMap (fun node => node.1.attributes.lookup "name") ++
    names (sectionOf "expressions" template)

lemma assignConfigNode_spec (h : (elements "config" template.2).length ≤ 1) :
    ∃ children, assignConfigNode template.2 = .ok children ∧
      (∃ label, elements "config" children = [(label, sectionOf "config" template)]) ∧
      (∀ tagName ≠ "config", elements tagName children = elements tagName template.2) ∧
      (children = template.2 ∨ children = .cons (.element "config" []) .nil template.2) := by
  unfold assignConfigNode sectionOf
  cases hconfig : elements "config" template.2 with
  | nil =>
    refine ⟨_, rfl, ⟨.element "config" [], ?_⟩, ?_, Or.inr rfl⟩
    · unfold elements at hconfig ⊢
      rw [Hedge.rootsWith_cons, hconfig, Hedge.childrenOf_of_rootsWith_eq_nil hconfig]
      rfl
    · intro tagName htag
      unfold elements
      rw [Hedge.rootsWith_cons]
      exact if_neg (by simp [Label.isElement, Ne.symm htag])
  | cons node rest =>
    have hrest : rest = [] := by
      rw [hconfig, List.length_cons] at h
      exact List.eq_nil_of_length_eq_zero (Nat.le_zero.mp (Nat.le_of_succ_le_succ h))
    refine ⟨template.2, by rw [hrest]; rfl, ⟨node.1, ?_⟩, fun _ _ => rfl, Or.inl rfl⟩
    rw [hrest] at hconfig
    rw [Hedge.childrenOf_of_rootsWith (a := node.1) (c := node.2) hconfig, hconfig]

lemma parametersOf_congr {children : Nodes} (h : elements "parameters" children = elements "parameters" template.2) :
    parametersOf children = parametersOf template.2 := by
  unfold parametersOf
  rw [Hedge.childrenOf_eq, Hedge.childrenOf_eq]
  unfold elements at h
  rw [h]

lemma rootsWith_unmarked (tagName : String) (nodes : Nodes) :
    (unmarked nodes).rootsWith (isElement tagName) =
      (elements tagName nodes).map fun node => ((false, node.1), unmarked node.2) :=
  Hedge.rootsWith_map (fun label => (false, label)) (isElement tagName) nodes

variable {children : Nodes}

lemma isElement_disjoint {tagName tagName' : String} (h : tagName ≠ tagName') (label : Bool × Label)
    (hlabel : isElement tagName label = true) : isElement tagName' label = false :=
  isElement_of_ne h label.2 hlabel

variable (params) in
lemma rootsWith_withParameters {tagName : String} (hconfig : tagName ≠ "config") (hparameters : tagName ≠ "parameters") :
    (withParameters children params).rootsWith (isElement tagName) =
      (elements tagName children).map fun node => ((false, node.1), unmarked node.2) := by
  unfold withParameters
  rw [Hedge.rootsWith_eraseRoot (isElement_disjoint hparameters),
    Hedge.rootsWith_onRoots_of_disjoint (isElement_disjoint hconfig), rootsWith_unmarked]

lemma rootsWith_withParameters_config {label : Label} {config : Nodes} (h : elements "config" children = [(label, config)]) :
    (withParameters children params).rootsWith (isElement "config") =
      [((false, label), unmarked config ++ lockedParams params)] := by
  unfold withParameters
  rw [Hedge.rootsWith_eraseRoot (isElement_disjoint (by decide)), Hedge.rootsWith_onRoots, rootsWith_unmarked, h]
  rfl

lemma elements_map_snd (tagName : String) (marked : Marked) :
    elements tagName (marked.map Prod.snd) =
      (marked.rootsWith (isElement tagName)).map fun node => (node.1.2, node.2.map Prod.snd) :=
  Hedge.rootsWith_map Prod.snd (Label.isElement tagName) marked

lemma names_ofRoots (params : List Node) :
    names (Hedge.ofRoots params) = params.filterMap fun node => node.1.attributes.lookup "name" := by
  unfold names
  rw [Hedge.roots_ofRoots]

variable (params) in
lemma hasExpressions_withParameters (helements : elements "expressions" children = elements "expressions" template.2) :
    hasExpressions (withParameters children params) = decide ((elements "expressions" template.2).length = 1) := by
  unfold hasExpressions
  rw [elements_map_snd, rootsWith_withParameters _ (by decide) (by decide), List.length_map, List.length_map, helements]

variable (params) in
lemma definedNames_withParameters {label : Label} (hconfig : elements "config" children = [(label, sectionOf "config" template)])
    (helements : elements "expressions" children = elements "expressions" template.2)
    (hexpressions : (elements "expressions" template.2).length ≤ 1) :
    definedNames (withParameters children params) = definedBy template params := by
  have hconfigs := elements_map_snd "config" (withParameters children params)
  rw [rootsWith_withParameters_config hconfig, List.map_singleton, Hedge.map_append, map_unmarked,
    map_lockedParams] at hconfigs
  have hexprs := elements_map_snd "expressions" (withParameters children params)
  rw [rootsWith_withParameters _ (by decide) (by decide), helements, List.map_map] at hexprs
  unfold definedNames definedBy
  rw [Hedge.childrenOf_of_rootsWith hconfigs, names_append, names_ofRoots,
    hasExpressions_withParameters params helements]
  congr 1
  cases hfound : elements "expressions" template.2 with
  | nil =>
    unfold sectionOf
    rw [Hedge.childrenOf_of_rootsWith_eq_nil hfound]
    rfl
  | cons node rest =>
    have hrest : rest = [] := by
      rw [hfound, List.length_cons] at hexpressions
      exact List.eq_nil_of_length_eq_zero (Nat.le_zero.mp (Nat.le_of_succ_le_succ hexpressions))
    rw [hrest] at hfound ⊢
    rw [hfound, List.map_singleton] at hexprs
    unfold sectionOf
    rw [if_pos (by simp), Hedge.childrenOf_of_rootsWith hexprs,
      Hedge.childrenOf_of_rootsWith (a := node.1) (c := node.2) hfound]
    exact congrArg names (map_unmarked node.2)

variable (template params newPrefix) in
/-- The template is compiled from its parts, where the definitions have got their new names. -/
structure PartsOf (compiled : Output) : Prop where
  config : ∃ config, compiled.config = some config ∧
    Hedge.Related (fun label label' => prefixNode (definedBy template params) newPrefix label = .ok label')
      ((configWith template params).mapRoots (renameDefinition newPrefix)) config
  expressions : elements "expressions" template.2 = [] ∧ compiled.expressions = none ∨
    elements "expressions" template.2 ≠ [] ∧ ∃ expressions, compiled.expressions = some expressions ∧
      Hedge.Related (fun label label' => prefixNode (definedBy template params) newPrefix label = .ok label')
        ((unmarked (sectionOf "expressions" template)).mapRoots (renameDefinition newPrefix)) expressions
  body : ∃ body, compiled.body = some body ∧
    Hedge.Related (fun label label' => prefixNode (definedBy template params) newPrefix label = .ok label')
      (unmarked (bodyOf template)) body

lemma isElement_prefixNode {knownNames : List Value} (tagName : String) {label : Bool × Label} {label' : Label}
    (h : prefixNode knownNames newPrefix label = .ok label') : isElement tagName label = label'.isElement tagName := by
  obtain ⟨mark, label⟩ := label
  cases label with
  | element tag attributes =>
    obtain ⟨attributes', rfl, -⟩ := prefixNode_element h
    rfl
  | text value =>
    obtain rfl := (Except.ok.inj h).symm
    rfl
  | other value =>
    obtain rfl := (Except.ok.inj h).symm
    rfl

/-- The only element of a compiled template with a name comes from the one with that name before. -/
lemma firstElement_of_related {knownNames : List Value} {tagName : String} {renamed : Marked} {compiled : Nodes}
    (hR : Hedge.Related (fun label label' => prefixNode knownNames newPrefix label = .ok label') renamed compiled) :
    (renamed.rootsWith (isElement tagName) = [] → firstElement tagName compiled = none) ∧
    ∀ label nodes, renamed.rootsWith (isElement tagName) = [(label, nodes)] →
      ∃ nodes', firstElement tagName compiled = some nodes' ∧
        Hedge.Related (fun label label' => prefixNode knownNames newPrefix label = .ok label') nodes nodes' := by
  have hroots := hR.rootsWith (p := isElement tagName) (q := Label.isElement tagName) fun _ _ => isElement_prefixNode tagName
  unfold firstElement elements
  constructor
  · intro hnil
    rw [hnil] at hroots
    cases hfound : compiled.rootsWith (Label.isElement tagName) with
    | nil => rfl
    | cons node rest =>
      rw [hfound] at hroots
      cases hroots
  · intro label nodes hone
    rw [hone] at hroots
    cases hfound : compiled.rootsWith (Label.isElement tagName) with
    | nil =>
      rw [hfound] at hroots
      cases hroots
    | cons node rest =>
      rw [hfound] at hroots
      cases hroots with
      | cons hnode hrest => exact ⟨node.2, rfl, hnode.2⟩

lemma parsable_prefixNode {knownNames : List Value} {label : Bool × Label} (h : Parsable label.2) :
    ∃ label', prefixNode knownNames newPrefix label = .ok label' := by
  obtain ⟨mark, label⟩ := label
  cases label with
  | element tag attributes =>
    rw [prefixNode]
    split_ifs with hif hvariable heval huse
    · exact ⟨_, rfl⟩
    · exact ⟨_, rfl⟩
    · obtain ⟨value, hvalue, pieces⟩ := h (decide_eq_true heval)
      obtain ⟨fragments, hparse⟩ := (parseDollarBracedReferences_exact ⟨1, value, Nat.one_pos⟩).2.1.mpr pieces
      have hget : getAttribute attributes "value" = value := by
        unfold getAttribute
        exact congrArg (Option.getD · []) hvalue
      have hhas : hasAttribute attributes "value" = true := by
        unfold hasAttribute
        exact congrArg Option.isSome hvalue
      unfold prefixEvalString
      rw [hget, hparse]
      dsimp only
      rw [if_pos hhas]
      exact ⟨_, rfl⟩
    · exact ⟨_, rfl⟩
    · exact ⟨_, rfl⟩
  | text value => exact ⟨_, rfl⟩
  | other value => exact ⟨_, rfl⟩

lemma parsable_renameDefinition {label : Bool × Label} (h : Parsable label.2) :
    Parsable (renameDefinition newPrefix label).2 := by
  obtain ⟨mark, label⟩ := label
  cases label with
  | element tag attributes =>
    rw [renameDefinition]
    split_ifs
    · intro heval
      obtain ⟨value, hvalue, pieces⟩ := h heval
      refine ⟨value, ?_, pieces⟩
      unfold Label.attributes
      rw [lookup_setAttribute, if_neg (by decide)]
      exact hvalue
    · exact h
  | text value => exact h
  | other value => exact h

variable (newPrefix) in
/-- The parts that the template is compiled from. -/
lemma prefixVariables_parts {label : Label}
    (hconfig : elements "config" children = [(label, sectionOf "config" template)])
    (hother : ∀ tagName ≠ "config", elements tagName children = elements tagName template.2)
    (hexpressions : (elements "expressions" template.2).length ≤ 1) (hbody : (elements "body" template.2).length = 1)
    (hparsable : (withParameters children params).AllNodes fun label _ => Parsable label.2) :
    ∃ compiled, prefixVariables (withParameters children params) newPrefix = .ok compiled ∧
      PartsOf template params newPrefix
        ⟨firstElement "config" compiled, firstElement "expressions" compiled, firstElement "body" compiled⟩ := by
  have hdefined := definedNames_withParameters params hconfig (hother "expressions" (by decide)) hexpressions
  have hhas := hasExpressions_withParameters params (hother "expressions" (by decide))
  obtain ⟨renamed, hrenamed⟩ : ∃ renamed, (if hasExpressions (withParameters children params) then
      ((withParameters children params).onRoots (isElement "config") (·.mapRoots (renameDefinition newPrefix))).onRoots
        (isElement "expressions") (·.mapRoots (renameDefinition newPrefix))
    else (withParameters children params).onRoots (isElement "config") (·.mapRoots (renameDefinition newPrefix))) =
      renamed := ⟨_, rfl⟩
  have hall : renamed.AllNodes fun label _ => Parsable label.2 := by
    have hfirst := hparsable.onRoots (isElement "config") (f := (·.mapRoots (renameDefinition newPrefix))) fun k hk =>
      hk.mapRoots fun _ => parsable_renameDefinition
    rw [← hrenamed]
    split_ifs
    · exact hfirst.onRoots _ fun k hk => hk.mapRoots fun _ => parsable_renameDefinition
    · exact hfirst
  have hconfigs : renamed.rootsWith (isElement "config") =
      [((false, label), (configWith template params).mapRoots (renameDefinition newPrefix))] := by
    rw [← hrenamed]
    split_ifs
    · rw [Hedge.rootsWith_onRoots_of_disjoint (isElement_disjoint (by decide)), Hedge.rootsWith_onRoots,
        rootsWith_withParameters_config hconfig]
      rfl
    · rw [Hedge.rootsWith_onRoots, rootsWith_withParameters_config hconfig]
      rfl
  have hbodies : renamed.rootsWith (isElement "body") =
      (elements "body" template.2).map fun node => ((false, node.1), unmarked node.2) := by
    rw [← hother "body" (by decide), ← rootsWith_withParameters params (by decide) (by decide), ← hrenamed]
    split_ifs
    · rw [Hedge.rootsWith_onRoots_of_disjoint (isElement_disjoint (by decide)),
        Hedge.rootsWith_onRoots_of_disjoint (isElement_disjoint (by decide))]
    · rw [Hedge.rootsWith_onRoots_of_disjoint (isElement_disjoint (by decide))]
  obtain ⟨compiled, hcompiled⟩ := Hedge.mapM_ok (h := renamed)
    (f := prefixNode (definedBy template params) newPrefix) (hall.imp fun _ _ => parsable_prefixNode)
  have hR := Hedge.mapM_related hcompiled
  refine ⟨compiled, ?_, ?_, ?_, ?_⟩
  · unfold prefixVariables
    dsimp only
    rw [hrenamed, hdefined]
    exact hcompiled
  · exact (firstElement_of_related hR).2 _ _ hconfigs
  · cases hfound : elements "expressions" template.2 with
    | nil =>
      left
      refine ⟨rfl, (firstElement_of_related hR).1 ?_⟩
      rw [hfound] at hhas
      rw [hhas] at hrenamed
      rw [← hrenamed, if_neg (by simp), Hedge.rootsWith_onRoots_of_disjoint (isElement_disjoint (by decide)),
        rootsWith_withParameters _ (by decide) (by decide), hother "expressions" (by decide), hfound]
      rfl
    | cons node rest =>
      right
      have hrest : rest = [] := by
        rw [hfound, List.length_cons] at hexpressions
        exact List.eq_nil_of_length_eq_zero (Nat.le_zero.mp (Nat.le_of_succ_le_succ hexpressions))
      refine ⟨by simp, (firstElement_of_related hR).2 (false, node.1) _ ?_⟩
      rw [hrest] at hfound
      rw [hfound] at hhas
      rw [hhas] at hrenamed
      have hsection : sectionOf "expressions" template = node.2 :=
        Hedge.childrenOf_of_rootsWith (a := node.1) (c := node.2) hfound
      rw [← hrenamed, if_pos (by simp), Hedge.rootsWith_onRoots,
        Hedge.rootsWith_onRoots_of_disjoint (isElement_disjoint (by decide)),
        rootsWith_withParameters _ (by decide) (by decide), hother "expressions" (by decide), hfound, hsection]
      rfl
  · obtain ⟨node, hnode⟩ := List.length_eq_one_iff.mp hbody
    have hsection : bodyOf template = node.2 := Hedge.childrenOf_of_rootsWith (a := node.1) (c := node.2) hnode
    rw [hnode] at hbodies
    rw [hsection]
    exact (firstElement_of_related hR).2 _ _ hbodies

end Parts

/-! ### The whole of a template -/

section Compile

variable {template : Node} {callChildren : Nodes}

def callParametersOf (callChildren : Nodes) : List Label := (elements "parameter" callChildren).map Prod.fst

/-- The configuration variables for the parameters of a template. -/
def boundParams (template : Node) (callChildren : Nodes) : List Node :=
  (parametersOf template.2).map fun param => newConfigNode param (parameterValue (callParametersOf callChildren) param)

lemma parsable_newConfigNode {param : Node} {value : Value} (h : isParameter param.1 = true)
    (hchildren : param.2.AllNodes fun label _ => Parsable label) :
    Parsable (newConfigNode param value).1 ∧ (newConfigNode param value).2.AllNodes fun label _ => Parsable label := by
  obtain ⟨label, children⟩ := param
  cases label with
  | element tag attributes =>
    refine ⟨?_, hchildren⟩
    intro heval
    have htag : tag = "evalString" := of_decide_eq_true heval
    rw [htag] at h
    simp [isParameter, Label.isElement] at h
  | text value => exact ⟨fun heval => absurd heval Bool.false_ne_true, hchildren⟩
  | other value => exact ⟨fun heval => absurd heval Bool.false_ne_true, hchildren⟩

lemma parsable_unmarked {nodes : Nodes} (h : nodes.AllNodes fun label _ => Parsable label) :
    (unmarked nodes).AllNodes fun label _ => Parsable label.2 :=
  h.map fun _ hlabel => hlabel

lemma parsable_withParameters {children : Nodes} {params : List Node}
    (hchildren : children.AllNodes fun label _ => Parsable label)
    (hparams : ∀ node ∈ params, Parsable node.1 ∧ node.2.AllNodes fun label _ => Parsable label) :
    (withParameters children params).AllNodes fun label _ => Parsable label.2 := by
  unfold withParameters
  apply Hedge.AllNodes.eraseRoot
  apply Hedge.AllNodes.onRoots (parsable_unmarked hchildren)
  intro k hk
  refine Hedge.allNodes_append.mpr ⟨hk, Hedge.allNodes_ofRoots ?_⟩
  intro node hnode
  obtain ⟨param, hparam, rfl⟩ := List.mem_map.mp hnode
  exact ⟨(hparams param hparam).1, parsable_unmarked (hparams param hparam).2⟩

lemma checkCall_ok (h : CallWellFormed callChildren) : checkCall callChildren = .ok () := by
  unfold checkCall
  rw [Hedge.find_eq_none h.onlyParameters]

lemma badParameters_iff {parameters : List Value} {callParameters : List Label}
    (h : parameters = callParameters.map Label.name) :
    BadParameters template parameters ↔ (∃ param ∈ parametersOf template.2, Unassigned callParameters param) ∨
      ∃ node ∈ callParameters, node.name ∉ (parametersOf template.2).map fun param => param.1.name := by
  unfold BadParameters Unassigned
  rw [h, ← or_assoc]
  constructor
  · rintro ((⟨param, hparam, hmissing⟩ | ⟨param, hparam, htwice⟩) | ⟨name, hname, hunused⟩)
    · exact Or.inl ⟨param, hparam, Or.inr hmissing⟩
    · exact Or.inl ⟨param, hparam, Or.inl htwice⟩
    · obtain ⟨node, hnode, rfl⟩ := List.mem_map.mp hname
      exact Or.inr ⟨node, hnode, hunused⟩
  · rintro (⟨param, hparam, htwice | hmissing⟩ | ⟨node, hnode, hunused⟩)
    · exact Or.inl (Or.inr ⟨param, hparam, htwice⟩)
    · exact Or.inl (Or.inl ⟨param, hparam, hmissing⟩)
    · exact Or.inr ⟨node.name, List.mem_map_of_mem hnode, hunused⟩

/-- The names of the parameters that a call gives a value. -/
def assignedNames (template : Node) (callChildren : Nodes) : List Value :=
  (parametersOf template.2).filterMap fun param =>
    if param.1.name ∈ (callParametersOf callChildren).map Label.name then some param.1.name else none

lemma mem_assignedNames {node : Label} (hnode : node ∈ callParametersOf callChildren) :
    node.name ∈ assignedNames template callChildren ↔
      node.name ∈ (parametersOf template.2).map fun param => param.1.name := by
  unfold assignedNames
  rw [List.mem_filterMap, List.mem_map]
  constructor
  · rintro ⟨param, hparam, hname⟩
    split_ifs at hname
    exact ⟨param, hparam, Option.some.inj hname⟩
  · rintro ⟨param, hparam, hname⟩
    refine ⟨param, hparam, ?_⟩
    rw [if_pos (hname ▸ List.mem_map_of_mem hnode), hname]

/-- The steps after the configuration variables are there. -/
lemma compileTemplate_eq {children : Nodes} {templateCall : Label} {runningNumber : Nat}
    (hassign : assignConfigNode template.2 = .ok children)
    (hparameters : parametersOf children = parametersOf template.2) :
    compileTemplate template templateCall callChildren runningNumber = (do
      let bound ← (parametersOf template.2).mapM (bindParameter template.1.name (callParametersOf callChildren))
      checkUnused template.1.name (callParametersOf callChildren) (bound.filterMap Prod.snd)
      checkCall callChildren
      let output ← prefixVariables (withParameters children (bound.map Prod.fst))
        (callPrefix templateCall runningNumber)
      return ⟨firstElement "config" output, firstElement "expressions" output, firstElement "body" output⟩) := by
  unfold compileTemplate
  rw [hassign, ok_bind, hparameters]
  rfl

lemma compileTemplate_spec (ht : TemplateWellFormed template) (hc : CallWellFormed callChildren) (templateCall : Label)
    (runningNumber : Nat) :
    (BadParameters template (signature templateCall callChildren).parameters →
      ∃ e, compileTemplate template templateCall callChildren runningNumber = .error e) ∧
    (¬BadParameters template (signature templateCall callChildren).parameters →
      ∃ compiled, compileTemplate template templateCall callChildren runningNumber = .ok compiled ∧
        PartsOf template (boundParams template callChildren) (callPrefix templateCall runningNumber) compiled) := by
  obtain ⟨children, hassign, ⟨label, hconfig⟩, hother, hchildren⟩ := assignConfigNode_spec ht.config
  have hvalue : ∀ node ∈ callParametersOf callChildren, hasAttribute node.attributes "value" = true := by
    intro node hnode
    obtain ⟨node', hnode', rfl⟩ := List.mem_map.mp hnode
    exact hc.value node' hnode'
  have hnames : (signature templateCall callChildren).parameters = (callParametersOf callChildren).map Label.name := by
    unfold signature callParametersOf
    rw [List.map_map]
    rfl
  obtain ⟨hfail, hok⟩ := bindParameters_eq template.1.name (parametersOf template.2) hvalue
  obtain ⟨hunused, hused⟩ := checkUnused_eq (callParametersOf callChildren) template.1.name
    (assignedNames template callChildren)
  rw [badParameters_iff hnames, compileTemplate_eq hassign (parametersOf_congr (hother "parameters" (by decide)))]
  by_cases hunassigned : ∃ param ∈ parametersOf template.2, Unassigned (callParametersOf callChildren) param
  · refine ⟨fun _ => ?_, fun h => absurd (Or.inl hunassigned) h⟩
    obtain ⟨e, he⟩ := hfail hunassigned
    rw [he]
    exact ⟨e, rfl⟩
  · have hmatched : ((parametersOf template.2).map fun param =>
        (newConfigNode param (parameterValue (callParametersOf callChildren) param),
          if param.1.name ∈ (callParametersOf callChildren).map Label.name then some param.1.name
          else none)).filterMap Prod.snd = assignedNames template callChildren := by
      rw [List.filterMap_map]
      rfl
    have hbound : ((parametersOf template.2).map fun param =>
        (newConfigNode param (parameterValue (callParametersOf callChildren) param),
          if param.1.name ∈ (callParametersOf callChildren).map Label.name then some param.1.name
          else none)).map Prod.fst = boundParams template callChildren := by
      rw [List.map_map]
      rfl
    rw [hok fun param hparam h => hunassigned ⟨param, hparam, h⟩, ok_bind, hmatched, hbound]
    by_cases hbad : ∃ node ∈ callParametersOf callChildren,
        node.name ∉ (parametersOf template.2).map fun param => param.1.name
    · refine ⟨fun _ => ?_, fun h => absurd (Or.inr hbad) h⟩
      obtain ⟨node, hnode, hmem⟩ := hbad
      obtain ⟨e, he⟩ := hunused ⟨node, hnode, fun h => hmem ((mem_assignedNames hnode).mp h)⟩
      rw [he]
      exact ⟨e, rfl⟩
    · refine ⟨fun h => absurd h (not_or.mpr ⟨hunassigned, hbad⟩), fun _ => ?_⟩
      have hall : ∀ node ∈ callParametersOf callChildren, node.name ∈ assignedNames template callChildren := by
        intro node hnode
        rw [mem_assignedNames hnode]
        by_contra hmem
        exact hbad ⟨node, hnode, hmem⟩
      have hchildrenParsable : children.AllNodes fun label _ => Parsable label := by
        rcases hchildren with rfl | rfl
        · exact ht.evalStrings
        · exact ⟨nofun, trivial, ht.evalStrings⟩
      have hparams : ∀ node ∈ boundParams template callChildren,
          Parsable node.1 ∧ node.2.AllNodes fun label _ => Parsable label := by
        intro node hnode
        obtain ⟨param, hparam, rfl⟩ := List.mem_map.mp hnode
        obtain ⟨hroot, hparameter⟩ := List.mem_filter.mp hparam
        exact parsable_newConfigNode hparameter ((ht.evalStrings.childrenOf _).of_mem_roots hroot).2
      obtain ⟨compiled, hcompiled, hparts⟩ := prefixVariables_parts (callPrefix templateCall runningNumber)
        hconfig hother ht.expressions ht.body (parsable_withParameters hchildrenParsable hparams)
      rw [hused hall, ok_bind, checkCall_ok hc, ok_bind, hcompiled, ok_bind]
      exact ⟨_, rfl, hparts⟩

end Compile

end Muen.Tools.XmlTemplates
