import Muen.Tools.Substitutions

/-!
# Mucfgmerge

The merge expands the expressions of the policy into its configuration, removes them, and then replaces the references
in the rest of the policy by the values of the configuration.
-/

namespace Muen.Tools.Mucfgmerge
open Muen.Lib
open Muen.Tools.XmlTemplates (Label Nodes)
open Muen.Tools.Expressions
open Muen.Tools.Substitutions

def removeExpressions (doc : Nodes) : Nodes :=
  doc.onRoots (Label.isElement "system") (Hedge.eraseRoots (Label.isElement "expressions"))

/-- The text of a value in the configuration. -/
def image : ValueTypeTuple → Text
  | .boolean b => (if b then "true" else "false").toList
  | .integer i => (toString i).toList
  | .string t => t

/-- A document has one root, as in XML, and at most one configuration, as in the schema. -/
def SingleConfig (doc : Nodes) : Prop :=
  ∃ label children, doc.rootsWith isSystem = [(label, children)] ∧
    (children.rootsWith (Label.isElement "config")).length ≤ 1

/-! ### The configuration of a document -/

lemma childElements_ofRoots_configEntry (entries : List (Text × ValueTypeTuple)) :
    (childElements (Hedge.ofRoots (entries.map fun entry => configEntry entry.1 entry.2))).map configValue =
      entries.map fun entry => (entry.1, image entry.2) := by
  induction entries with
  | nil => rfl
  | cons entry entries ih =>
    obtain ⟨name, value⟩ := entry
    cases value with
    | boolean b => exact congrArg _ ih
    | integer i => exact congrArg _ ih
    | string t => exact congrArg _ ih

lemma withConfig_rootsWith {new doc doc' : Nodes} {label : Label} {children : Nodes}
    (hroots : doc.rootsWith isSystem = [(label, children)]) (h : withConfig new doc = some doc') :
    ∃ children', replaceConfig new children = some children' ∧ doc'.rootsWith isSystem = [(label, children')] := by
  induction doc generalizing doc' with
  | nil => cases h
  | cons a c siblings _ ih =>
    rw [Hedge.rootsWith_cons] at hroots
    rw [withConfig] at h
    by_cases ha : isSystem a = true
    · rw [if_pos ha] at hroots h
      obtain ⟨hpair, hnil⟩ := List.cons.inj hroots
      obtain ⟨rfl, rfl⟩ := Prod.mk.inj hpair
      obtain ⟨children', hreplace, rfl⟩ := Option.map_eq_some_iff.mp h
      refine ⟨children', hreplace, ?_⟩
      rw [Hedge.rootsWith_cons, if_pos ha, hnil]
    · rw [if_neg ha] at hroots h
      obtain ⟨siblings', hsiblings, rfl⟩ := Option.map_eq_some_iff.mp h
      obtain ⟨children', hreplace, hroots'⟩ := ih hroots hsiblings
      refine ⟨children', hreplace, ?_⟩
      rw [Hedge.rootsWith_cons, if_neg ha, hroots']

lemma replaceConfig_rootsWith {new children children' : Nodes}
    (hone : (children.rootsWith (Label.isElement "config")).length ≤ 1)
    (h : replaceConfig new children = some children') :
    children'.rootsWith (Label.isElement "config") = [(.element "config" [], new)] := by
  induction children generalizing children' with
  | nil => cases h
  | cons a c siblings _ ih =>
    rw [Hedge.rootsWith_cons] at hone
    rw [replaceConfig] at h
    by_cases ha : a.isElement "config" = true
    · rw [if_pos ha] at hone h
      have hnil : siblings.rootsWith (Label.isElement "config") = [] := by
        apply List.eq_nil_of_length_eq_zero
        rw [List.length_cons] at hone
        omega
      obtain rfl := Option.some.inj h
      rw [Hedge.rootsWith_cons, hnil]
      rfl
    · rw [if_neg ha] at hone h
      obtain ⟨siblings', hsiblings, rfl⟩ := Option.map_eq_some_iff.mp h
      rw [Hedge.rootsWith_cons, if_neg ha, ih hone hsiblings]

lemma configNodes_of_rootsWith {doc : Nodes} {label : Label} {children : Nodes}
    (hroots : doc.rootsWith isSystem = [(label, children)]) :
    configNodes doc = (childElements (children.childrenOf (Label.isElement "config"))).filter fun node =>
      node.tagName ∈ ["boolean", "integer", "string"] := by
  unfold configNodes
  rw [Hedge.childrenOf_of_rootsWith hroots]

/-- The expressions are not part of the configuration. -/
lemma configNodes_removeExpressions {doc : Nodes} {label : Label} {children : Nodes}
    (hroots : doc.rootsWith isSystem = [(label, children)]) :
    configNodes (removeExpressions doc) = configNodes doc := by
  have hroots' : (removeExpressions doc).rootsWith isSystem = [(label, if label.isElement "system" then
      children.eraseRoots (Label.isElement "expressions") else children)] := by
    unfold removeExpressions
    rw [Hedge.rootsWith_onRoots_eq, hroots]
    rfl
  have hdisjoint : ∀ a, Label.isElement "config" a = true → Label.isElement "expressions" a = false := by
    intro a ha
    cases a with
    | element tagName attributes =>
      obtain rfl := of_decide_eq_true ha
      rfl
    | text value => rfl
    | other value => rfl
  rw [configNodes_of_rootsWith hroots', configNodes_of_rootsWith hroots]
  by_cases hlabel : label.isElement "system" = true
  · rw [if_pos hlabel, Hedge.childrenOf_eq, Hedge.rootsWith_eraseRoots hdisjoint, ← Hedge.childrenOf_eq]
  · rw [if_neg hlabel]

lemma childElements_ofRoots_append (l : List (Label × Nodes)) (entry : Label × Nodes) :
    childElements (Hedge.ofRoots (entry :: l)) =
      childElements (.cons entry.1 entry.2 .nil) ++ childElements (Hedge.ofRoots l) := by
  obtain ⟨label, children⟩ := entry
  cases label with
  | element tagName attributes => rfl
  | text value => rfl
  | other value => rfl

/-- What is written is read as configuration variables. -/
lemma tagName_configEntry (entries : List (Text × ValueTypeTuple)) :
    ∀ node ∈ childElements (Hedge.ofRoots (entries.map fun entry => configEntry entry.1 entry.2)),
      node.tagName ∈ ["boolean", "integer", "string"] := by
  induction entries with
  | nil => exact fun node hnode => absurd hnode List.not_mem_nil
  | cons entry entries ih =>
    obtain ⟨name, value⟩ := entry
    rw [List.map_cons, childElements_ofRoots_append]
    intro node hnode
    rcases List.mem_append.mp hnode with hfirst | hrest
    · cases value with
      | boolean b =>
        obtain rfl := List.mem_singleton.mp hfirst
        exact List.mem_cons_self
      | integer i =>
        obtain rfl := List.mem_singleton.mp hfirst
        exact List.mem_cons_of_mem _ List.mem_cons_self
      | string t =>
        obtain rfl := List.mem_singleton.mp hfirst
        exact List.mem_cons_of_mem _ (List.mem_cons_of_mem _ List.mem_cons_self)
    · exact ih node hrest

/-- The configuration that the expansion writes. -/
lemma configValues_withConfig {entries : List (Text × ValueTypeTuple)} {doc doc' : Nodes} (hsingle : SingleConfig doc)
    (h : withConfig (Hedge.ofRoots (entries.map fun entry => configEntry entry.1 entry.2)) doc = some doc') :
    (configNodes (removeExpressions doc')).map configValue = entries.map fun entry => (entry.1, image entry.2) := by
  obtain ⟨label, children, hroots, hone⟩ := hsingle
  obtain ⟨children', hreplace, hroots'⟩ := withConfig_rootsWith hroots h
  rw [configNodes_removeExpressions hroots', configNodes_of_rootsWith hroots',
    Hedge.childrenOf_of_rootsWith (replaceConfig_rootsWith hone hreplace), List.filter_eq_self.mpr,
    childElements_ofRoots_configEntry]
  intro node hnode
  exact decide_eq_true (tagName_configEntry entries node hnode)

/-! ### The references -/

/-- The text of the value that a name denotes in the policy. -/
def IsValueOf (values : Values) (doc : Nodes) (name value : Text) : Prop :=
  ∃ denoted, Denotes values (varsExprs doc) name denoted ∧ value = image denoted

lemma mem_of_denotes {values : Values} {configAndExprs : List Element} {name : Text} {value : ValueTypeTuple}
    (h : Denotes values configAndExprs name value) : ∃ node ∈ configAndExprs, node.name = name := by
  cases hlookup : (definitionsOf configAndExprs).lookup name with
  | none => exact absurd h (not_hasValue_of_lookup hlookup value)
  | some node =>
    obtain ⟨hnode, hname⟩ := lookup_definitionsOf hlookup
    exact ⟨node, hnode, hname⟩

/-- What the configuration has for each name after the expansion. -/
lemma configValues_expand {values : Values} {iteration : Iteration} {doc doc₁ : Nodes} (hsingle : SingleConfig doc)
    (hexpand : expand values iteration doc = .ok doc₁) {valueOf : Text → ValueTypeTuple}
    (hvalueOf : ∀ node ∈ varsExprs doc, Denotes values (varsExprs doc) node.name (valueOf node.name)) :
    ((configNodes (removeExpressions doc₁)).map configValue).Perm
      ((varsExprs doc).map fun node => (node.name, image (valueOf node.name))) := by
  obtain ⟨hempty, hentries⟩ := (expand_exact values iteration doc).2 doc₁ hexpand valueOf hvalueOf
  by_cases hvars : varsExprs doc = []
  · obtain rfl := hempty hvars
    obtain ⟨label, children, hroots, -⟩ := hsingle
    have hnone : configNodes doc₁ = [] := (List.append_eq_nil_iff.mp hvars).1
    rw [configNodes_removeExpressions hroots, hnone, hvars]
    exact List.Perm.refl _
  · obtain ⟨entries, hperm, hwith⟩ := hentries hvars
    have hmap : entries.Perm (((varsExprs doc).map fun node => (node.name, valueOf node.name)).map
        fun entry => configEntry entry.1 entry.2) := by
      rw [List.map_map]
      exact hperm
    obtain ⟨pairs, rfl, hpairs⟩ := (congrFun₂ (List.eq_map_comp_perm _) _ _).mpr hmap
    rw [configValues_withConfig hsingle hwith]
    have h := hpairs.map fun entry => (entry.1, image entry.2)
    rwa [List.map_map] at h

/-- The configuration after the expansion is what the definitions denote. -/
lemma configValueOf_expand {values : Values} {iteration : Iteration} {doc doc₁ : Nodes} (hsingle : SingleConfig doc)
    (hexpand : expand values iteration doc = .ok doc₁) :
    ((configNodes (removeExpressions doc₁)).map Element.name).Nodup ∧
      ∀ name value, configValueOf (removeExpressions doc₁) name = some value ↔ IsValueOf values doc name value := by
  obtain ⟨hnames, hvalues, -⟩ := (expand_exact values iteration doc).1.mp ⟨doc₁, hexpand⟩
  have hchoice : ∀ name, ∃ value, ∀ node ∈ varsExprs doc, node.name = name →
      Denotes values (varsExprs doc) name value := by
    intro name
    by_cases hname : ∃ node ∈ varsExprs doc, node.name = name
    · obtain ⟨node, hnode, rfl⟩ := hname
      obtain ⟨value, hvalue⟩ := hvalues node hnode
      exact ⟨value, fun _ _ _ => hvalue⟩
    · exact ⟨.boolean false, fun node hnode h => absurd ⟨node, hnode, h⟩ hname⟩
  choose valueOf hvalueOf using hchoice
  have hperm := configValues_expand hsingle hexpand fun node hnode => hvalueOf node.name node hnode rfl
  have hnodup : (((configNodes (removeExpressions doc₁)).map configValue).map Prod.fst).Nodup := by
    rw [(hperm.map Prod.fst).nodup_iff, List.map_map]
    exact hnames.2
  constructor
  · rw [List.map_map] at hnodup
    exact hnodup
  · intro name value
    have hmem := mem_entries_iff ⟨(configNodes (removeExpressions doc₁)).map configValue, hnodup⟩ name value
    apply Iff.trans hmem.symm
    apply Iff.trans hperm.mem_iff
    rw [List.mem_map]
    constructor
    · rintro ⟨node, hnode, heq⟩
      obtain ⟨rfl, rfl⟩ := Prod.mk.inj heq
      exact ⟨valueOf node.name, hvalueOf node.name node hnode rfl, rfl⟩
    · rintro ⟨denoted, hdenoted, rfl⟩
      obtain ⟨node, hnode, rfl⟩ := mem_of_denotes hdenoted
      exact ⟨node, hnode, Prod.ext rfl (congrArg image ((hvalueOf node.name node hnode rfl).unique hdenoted))⟩

/-- After the expansion of the expressions, the references of a policy are replaced exactly when each is to a
definition of the policy, outside of the attributes `variable`, and then by the value that the name denotes. -/
theorem processAttributes_expand {values : Values} {iteration : Iteration} {doc doc₁ : Nodes}
    (hsingle : SingleConfig doc) (hexpand : expand values iteration doc = .ok doc₁) :
    ∃ env : Text → Option Text, (∀ name value, env name = some value ↔ IsValueOf values doc name value) ∧
      ∀ doc₂, processAttributes (removeExpressions doc₁) = .ok doc₂ ↔
        ((removeExpressions doc₁).AllNodes fun label _ => LabelResolvable env label) ∧
          doc₂ = (removeExpressions doc₁).map (resolvedLabel env) := by
  obtain ⟨hnodup, hvalue⟩ := configValueOf_expand hsingle hexpand
  refine ⟨configValueOf (removeExpressions doc₁), hvalue, ?_⟩
  intro doc₂
  rw [processAttributes_eq_ok_iff]
  exact and_iff_right hnodup

/-- A policy with a component that is kept under a condition. -/
def examplePolicy : Nodes :=
  .cons (.element "system" [])
    (.cons (.element "config" [])
        (.cons (.element "integer" [("name", ['n']), ("value", ['3'])]) .nil
          (.cons (.element "boolean" [("name", ['b']), ("value", ['$', 'e'])]) .nil .nil))
      (.cons (.element "expressions" [])
          (.cons (.element "expression" [("name", ['e'])])
            (.cons (.element "gt" []) (.cons (.element "variable" [("name", ['n'])]) .nil
              (.cons (.element "integer" [("value", ['2'])]) .nil .nil)) .nil) .nil)
        (.cons (.element "subject" [("active", ['$', 'b'])]) .nil .nil))) .nil

def exampleExpanded : Nodes :=
  .cons (.element "system" [])
    (.cons (.element "config" [])
        (Hedge.ofRoots [configEntry ['b'] (.boolean true), configEntry ['e'] (.boolean true),
          configEntry ['n'] (.integer 3)])
      (.cons (.element "expressions" [])
          (.cons (.element "expression" [("name", ['e'])])
            (.cons (.element "gt" []) (.cons (.element "variable" [("name", ['n'])]) .nil
              (.cons (.element "integer" [("value", ['2'])]) .nil .nil)) .nil) .nil)
        (.cons (.element "subject" [("active", ['$', 'b'])]) .nil .nil))) .nil

theorem processAttributes_expand_example :
    expand exampleValues exampleIteration examplePolicy = .ok exampleExpanded ∧
      ∃ env : Text → Option Text, (∀ name value, env name = some value ↔ IsValueOf exampleValues examplePolicy name value) ∧
        ∀ doc₂, processAttributes (removeExpressions exampleExpanded) = .ok doc₂ ↔
          ((removeExpressions exampleExpanded).AllNodes fun label _ => LabelResolvable env label) ∧
            doc₂ = (removeExpressions exampleExpanded).map (resolvedLabel env) := by
  have hsingle : SingleConfig examplePolicy := ⟨_, _, rfl, by decide⟩
  have hrun : expand exampleValues exampleIteration examplePolicy = .ok exampleExpanded := rfl
  exact ⟨hrun, processAttributes_expand hsingle hrun⟩

end Muen.Tools.Mucfgmerge
