import Muen.Tools.XmlTemplates.Unfolding
import Mathlib.Data.List.Nodup

/-!
# Fresh names

The names that an instance defines get a prefix with its number. So they differ from each other and from all names of
the document, as long as no name that is written in the document or a template looks like one with such a prefix.
-/

namespace Muen.Tools.XmlTemplates
open Muen.Lib
open scoped List

/-! ### Names with a number -/

/-- There is a number between a `t` and an underscore in the name. -/
def Numbered (number : Nat) (name : Value) : Prop :=
  ∃ before after, name = before ++ 't' :: (Nat.toDigits 10 number ++ '_' :: after)

structure Plain (name : Value) : Prop where
  ne_nil : name ≠ []
  not_numbered : ∀ number, ¬Numbered number name

lemma plain_of_not_mem {name : Value} (hne : name ≠ []) (h : 't' ∉ name) : Plain name := by
  refine ⟨hne, ?_⟩
  rintro number ⟨before, after, rfl⟩
  exact h (List.mem_append_right _ List.mem_cons_self)

lemma callPrefix_append (templateCall : Label) (number : Nat) (name : Value) :
    callPrefix templateCall number ++ name =
      getAttribute templateCall.attributes "namePrefix" ++ 't' :: (Nat.toDigits 10 number ++ '_' :: name) := by
  unfold callPrefix
  rw [List.append_assoc, List.cons_append, List.append_assoc, List.singleton_append]

lemma numbered_callPrefix (templateCall : Label) (number : Nat) (name : Value) :
    Numbered number (callPrefix templateCall number ++ name) := ⟨_, _, callPrefix_append templateCall number name⟩

/-- A name with a prefix is neither one of the plain names nor a reference to one of them. -/
lemma callPrefix_not_known {knownNames : List Value} (hknown : ∀ name ∈ knownNames, Plain name) (templateCall : Label)
    (number : Nat) (name : Value) :
    callPrefix templateCall number ++ name ∉ knownNames ∧
      ∀ m, callPrefix templateCall number ++ name = '$' :: m → m ∉ knownNames := by
  constructor
  · intro hmem
    exact (hknown _ hmem).not_numbered number (numbered_callPrefix templateCall number name)
  · intro m hm hmem
    rw [callPrefix_append] at hm
    cases hstart : getAttribute templateCall.attributes "namePrefix" with
    | nil =>
      rw [hstart] at hm
      exact absurd (List.cons.inj hm).1 (by decide)
    | cons c before =>
      rw [hstart] at hm
      exact (hknown m hmem).not_numbered number ⟨before, name, (List.cons.inj hm).2.symm⟩

lemma callPrefix_ne_nil (templateCall : Label) (number : Nat) : callPrefix templateCall number ≠ [] := by
  unfold callPrefix
  simp

/-! ### The names of an instance -/

section Names

variable {knownNames : List Value} {newPrefix : Value}

/-- A marked node does not refer to variables in a special way. -/
def OrdinaryMarks (h : Marked) : Prop :=
  ∀ node ∈ h.roots, node.1.1 = true → ∀ tag ∈ specialTags, node.1.2.isElement tag = false

lemma names_cons (label : Label) (children siblings : Nodes) :
    names (.cons label children siblings) = (label.attributes.lookup "name").toList ++ names siblings := by
  unfold names
  rw [Hedge.roots, List.filterMap_cons]
  dsimp only
  cases label.attributes.lookup "name" <;> rfl

lemma name_of_definition {label : Bool × Label} {label' : Label} (hpre : newPrefix ≠ [])
    (hmark : label.1 = true → ∀ tag ∈ specialTags, label.2.isElement tag = false) (hnil : [] ∉ knownNames)
    (hknown : ∀ n, label.2.attributes.lookup "name" = some n →
      newPrefix ++ n ∉ knownNames ∧ ∀ m, newPrefix ++ n = '$' :: m → m ∉ knownNames)
    (h : prefixNode knownNames newPrefix (renameDefinition newPrefix label) = .ok label') :
    label'.attributes.lookup "name" = (label.2.attributes.lookup "name").map (newPrefix ++ ·) := by
  obtain ⟨mark, label⟩ := label
  cases renames_of_renameDefinition hpre hmark hknown h with
  | @element tagName attributes attributes' hrenamed =>
    have hname := hrenamed "name"
    unfold Label.attributes
    dsimp only
    cases hlookup : attributes.lookup "name" with
    | none =>
      rw [hlookup, AttributeRenamed, if_neg (by simp)] at hname
      apply hname
      unfold rename
      rw [if_neg hnil]
    | some n =>
      rw [hlookup, AttributeRenamed, if_pos ⟨rfl, rfl⟩] at hname
      exact hname
  | text value => rfl
  | other value => rfl

/-- The definitions of an instance have the names of the template with the prefix. -/
lemma names_of_definitions (hpre : newPrefix ≠ []) (hnil : [] ∉ knownNames) {h : Marked} {h' : Nodes}
    (hmarks : OrdinaryMarks h)
    (hknown : ∀ n, newPrefix ++ n ∉ knownNames ∧ ∀ m, newPrefix ++ n = '$' :: m → m ∉ knownNames)
    (hR : PrefixedTo knownNames newPrefix (h.mapRoots (renameDefinition newPrefix)) h') :
    names h' = (names (h.map Prod.snd)).map (newPrefix ++ ·) := by
  induction h generalizing h' with
  | nil =>
    cases hR
    rfl
  | cons label children siblings _ ih =>
    cases hR with
    | cons hlabel hchildren hsiblings =>
      have hsame := name_of_definition hpre (hmarks _ List.mem_cons_self) hnil (fun n _ => hknown n) hlabel
      have hrest := ih (fun node hnode => hmarks node (List.mem_cons_of_mem _ hnode)) hsiblings
      rw [names_cons, Hedge.map, names_cons, hsame, hrest, List.map_append]
      congr 1
      cases label.2.attributes.lookup "name" <;> rfl

end Names

/-- The names that a template defines: its configuration variables, its parameters and its expressions. -/
def templateNames (template : Node) : List Value :=
  names (sectionOf "config" template) ++ names (Hedge.ofRoots (parametersOf template.2)) ++
    names (sectionOf "expressions" template)

lemma lookup_newConfigNode (param : Node) (value : Value) :
    (newConfigNode param value).1.attributes.lookup "name" = param.1.attributes.lookup "name" := by
  obtain ⟨label, children⟩ := param
  cases label with
  | element tagName attributes =>
    unfold newConfigNode Label.attributes
    dsimp only
    rw [lookup_removeAttribute, if_neg (by decide), lookup_setAttribute, if_neg (by decide)]
  | text v => rfl
  | other v => rfl

lemma definedBy_boundParams (template : Node) (callChildren : Nodes) :
    definedBy template (boundParams template callChildren) = templateNames template := by
  unfold definedBy templateNames boundParams
  rw [names_ofRoots, List.filterMap_map]
  congr 2
  apply List.filterMap_congr
  intro param _
  exact lookup_newConfigNode param _

lemma ordinaryMarks_unmarked (nodes : Nodes) : OrdinaryMarks (unmarked nodes) := by
  intro node hnode hmark
  have hfalse := Hedge.find_eq_none_iff.mp (find_unmarked nodes)
  rw [(Hedge.AllNodes.of_mem_roots (a := node.1) hfalse hnode).1] at hmark
  cases hmark

lemma isParameter_newConfigNode (param : Node) (value : Value) :
    isParameter (newConfigNode param value).1 = isParameter param.1 := by
  obtain ⟨label, children⟩ := param
  cases label <;> rfl

lemma not_special_of_isParameter {label : Label} (h : isParameter label = true) {tag : String}
    (htag : tag ∈ specialTags) : label.isElement tag = false := by
  cases label with
  | element tagName attributes =>
    unfold isParameter Label.isElement at h
    unfold Label.isElement
    simp [specialTags] at htag
    rcases htag with rfl | rfl | rfl | rfl | rfl <;> simp at h ⊢ <;> rintro rfl <;> simp at h
  | text value => rfl
  | other value => rfl

lemma ordinaryMarks_configWith (template : Node) (callChildren : Nodes) :
    OrdinaryMarks (configWith template (boundParams template callChildren)) := by
  intro node hnode
  unfold configWith at hnode
  rw [Hedge.roots_append, List.mem_append] at hnode
  rcases hnode with hnode | hnode
  · exact ordinaryMarks_unmarked _ node hnode
  · intro _ tag htag
    unfold lockedParams at hnode
    rw [Hedge.roots_ofRoots] at hnode
    obtain ⟨param, hparam, rfl⟩ := List.mem_map.mp hnode
    obtain ⟨param', hparam', rfl⟩ := List.mem_map.mp hparam
    apply not_special_of_isParameter _ htag
    rw [isParameter_newConfigNode]
    exact (List.mem_filter.mp hparam').2

/-- The names that an instance adds to those of the document. -/
def Instance.names (i : Instance) : List Value :=
  (templateNames i.template).map (callPrefix i.templateCall i.number ++ ·)

lemma outputNames {i : Instance} (hi : i.WellFormed) (hplain : ∀ name ∈ templateNames i.template, Plain name) :
    XmlTemplates.names (i.output.config.getD .nil) ++ XmlTemplates.names (i.output.expressions.getD .nil) = i.names := by
  have hdefined := definedBy_boundParams i.template i.callChildren
  have hnil : [] ∉ templateNames i.template := fun hmem => (hplain [] hmem).ne_nil rfl
  have hknown := callPrefix_not_known hplain i.templateCall i.number
  have hpre := callPrefix_ne_nil i.templateCall i.number
  obtain ⟨config, hconfig, hconfigR⟩ := hi.parts.config
  rw [hdefined] at hconfigR
  have hconfigNames := names_of_definitions hpre hnil (ordinaryMarks_configWith _ _) hknown hconfigR
  have hparams : XmlTemplates.names (Hedge.ofRoots (boundParams i.template i.callChildren)) =
      XmlTemplates.names (Hedge.ofRoots (parametersOf i.template.2)) := by
    unfold boundParams
    rw [names_ofRoots, names_ofRoots, List.filterMap_map]
    apply List.filterMap_congr
    intro param _
    exact lookup_newConfigNode param _
  unfold configWith at hconfigNames
  rw [Hedge.map_append, map_unmarked, map_lockedParams, names_append, hparams] at hconfigNames
  have hexpressions : XmlTemplates.names (i.output.expressions.getD .nil) =
      (XmlTemplates.names (sectionOf "expressions" i.template)).map (callPrefix i.templateCall i.number ++ ·) := by
    rcases hi.parts.expressions with ⟨hnone, houtput⟩ | ⟨-, new, houtput, hR⟩
    · have hsection : sectionOf "expressions" i.template = .nil := Hedge.childrenOf_of_rootsWith_eq_nil hnone
      rw [houtput, hsection]
      rfl
    · rw [hdefined] at hR
      have hnew := names_of_definitions hpre hnil (ordinaryMarks_unmarked _) hknown hR
      rw [map_unmarked] at hnew
      rw [houtput]
      exact hnew
  unfold Instance.names templateNames
  rw [hconfig, hexpressions, List.map_append, ← hconfigNames]
  rfl

/-! ### The definitions of the document -/

section Definitions

variable {doc doc' : Nodes}

def sectionNames (tagName : String) (doc : Nodes) : List Value :=
  names ((doc.childrenOf (Label.isElement "system")).childrenOf (Label.isElement tagName))

lemma definitions_eq (doc : Nodes) : definitions doc = sectionNames "config" doc ++ sectionNames "expressions" doc := rfl

lemma childrenOf_congr {h k : Nodes} {tagName : String} (heq : elements tagName h = elements tagName k) :
    h.childrenOf (Label.isElement tagName) = k.childrenOf (Label.isElement tagName) := by
  unfold elements at heq
  rw [Hedge.childrenOf_eq, Hedge.childrenOf_eq, heq]

lemma sectionNames_of_system {label : Label} {children : Nodes} (hsystem : elements "system" doc = [(label, children)])
    (tagName : String) : sectionNames tagName doc = names (children.childrenOf (Label.isElement tagName)) := by
  unfold sectionNames
  rw [Hedge.childrenOf_of_rootsWith hsystem]

lemma system_onRoots {label : Label} {children : Nodes} (hsystem : elements "system" doc = [(label, children)])
    (f : Nodes → Nodes) : elements "system" (doc.onRoots (Label.isElement "system") f) = [(label, f children)] := by
  rw [elements_onRoots, if_pos rfl, hsystem]
  rfl

lemma sectionNames_addTo {label label' : Label} {children nodes : Nodes} {tagName : String}
    (hsystem : elements "system" doc = [(label, children)]) (hone : elements tagName children = [(label', nodes)])
    (new : Nodes) (tagName' : String) :
    sectionNames tagName' (addTo (Label.isElement "system") (Label.isElement tagName) new doc) =
      if tagName' = tagName then sectionNames tagName doc ++ names new else sectionNames tagName' doc := by
  have hsystem' := system_onRoots hsystem (·.onRoots (Label.isElement tagName) (· ++ new))
  unfold addTo
  rw [sectionNames_of_system hsystem']
  have helements : elements tagName' (children.onRoots (Label.isElement tagName) (· ++ new)) =
      if tagName' = tagName then (elements tagName children).map fun node => (node.1, node.2 ++ new)
      else elements tagName' children := elements_onRoots children
  by_cases htag : tagName' = tagName
  · rw [if_pos htag, hone, htag] at helements
    rw [if_pos htag, htag, sectionNames_of_system hsystem, Hedge.childrenOf_of_rootsWith hone,
      Hedge.childrenOf_of_rootsWith (a := label') (c := nodes ++ new) helements, names_append]
  · rw [if_neg htag] at helements
    rw [if_neg htag, sectionNames_of_system hsystem, childrenOf_congr helements]

lemma definitions_addTo {label label' : Label} {children nodes : Nodes} {tagName : String}
    (hsystem : elements "system" doc = [(label, children)]) (hone : elements tagName children = [(label', nodes)])
    (htag : tagName ∈ ["config", "expressions"]) (new : Nodes) :
    definitions (addTo (Label.isElement "system") (Label.isElement tagName) new doc) ~ definitions doc ++ names new := by
  rw [definitions_eq, definitions_eq, sectionNames_addTo hsystem hone, sectionNames_addTo hsystem hone]
  rcases List.mem_pair.mp htag with rfl | rfl
  · rw [if_pos rfl, if_neg (by decide), List.append_assoc, List.append_assoc]
    exact List.perm_append_comm.append_left _
  · rw [if_neg (by decide), if_pos rfl, List.append_assoc]

/-- The element for the expressions is there, and it has brought no names. -/
lemma ensureExpressions_spec (hdoc : DocumentWellFormed doc) :
    definitions (ensureExpressions doc) = definitions doc ∧ ∃ label children label' nodes,
      elements "system" (ensureExpressions doc) = [(label, children)] ∧
        elements "expressions" children = [(label', nodes)] := by
  obtain ⟨label, children, hsystem, hchildren⟩ := hdoc.system
  obtain ⟨label', config, hconfig⟩ := hchildren.config
  have hsystem' : elements "system" (ensureExpressions doc) = [(label, if elements "expressions" children = [] then
      children.afterRoots (Label.isElement "config") (.cons (.element "expressions" []) .nil .nil) else children)] :=
    system_onRoots hsystem _
  rw [definitions_eq, definitions_eq, sectionNames_of_system hsystem', sectionNames_of_system hsystem',
    sectionNames_of_system hsystem, sectionNames_of_system hsystem]
  by_cases hnil : elements "expressions" children = []
  · rw [if_pos hnil] at hsystem' ⊢
    have hexpressions : elements "expressions" (children.afterRoots (Label.isElement "config")
        (.cons (.element "expressions" []) .nil .nil)) = [(.element "expressions" [], .nil)] :=
      Hedge.rootsWith_afterRoots hconfig hnil
    refine ⟨?_, label, _, _, _, hsystem', hexpressions⟩
    rw [childrenOf_congr (elements_afterRoots_expressions (by decide) children),
      Hedge.childrenOf_of_rootsWith hexpressions, Hedge.childrenOf_of_rootsWith_eq_nil hnil]
  · rw [if_neg hnil] at hsystem' ⊢
    obtain ⟨node, rest, hcons⟩ := List.exists_cons_of_ne_nil hnil
    have hrest : rest = [] := by
      have hlength := hchildren.expressions
      rw [hcons, List.length_cons] at hlength
      exact List.eq_nil_of_length_eq_zero (Nat.le_zero.mp (Nat.le_of_succ_le_succ hlength))
    rw [hrest] at hcons
    exact ⟨rfl, label, children, node.1, node.2, hsystem', hcons⟩

lemma definitions_withDefinitions (hdoc : DocumentWellFormed doc) {template : Node} {output : Output}
    (houtput : OutputWellFormed template output) :
    definitions (withDefinitions output doc) ~
      definitions doc ++ (names (output.config.getD .nil) ++ names (output.expressions.getD .nil)) := by
  obtain ⟨label, children, hsystem, hchildren⟩ := hdoc.system
  obtain ⟨label', nodes, hconfig⟩ := hchildren.config
  obtain ⟨config, hoption, hnoCalls⟩ := houtput.config
  have hfirst := definitions_addTo hsystem hconfig (by simp) config
  unfold withDefinitions withExpressions
  rw [hoption, Option.getD_some]
  cases hexpressions : output.expressions with
  | none =>
    rw [Option.getD_none]
    have hnone : names (.nil : Nodes) = [] := rfl
    rw [hnone, List.append_nil]
    exact hfirst
  | some new =>
    obtain ⟨hsame, label₁, children₁, label₂, nodes₂, hsystem₁, hone⟩ :=
      ensureExpressions_spec (hdoc.addTo hnoCalls "config" (by simp))
    have hsecond := definitions_addTo hsystem₁ hone (by simp) new
    rw [hsame] at hsecond
    rw [Option.getD_some, ← List.append_assoc]
    exact hsecond.trans (hfirst.append_right _)

lemma definitions_replaced (hdoc : DocumentWellFormed doc) {templateCall : Label} {callChildren body : Nodes}
    (hcall : templateCall.isElement "useTemplate" = true)
    (hbody : ∀ tagName ∈ ["config", "expressions"], elements tagName body = [])
    (hR : Hedge.Replaced templateCall callChildren body doc doc') : definitions doc' = definitions doc := by
  obtain ⟨label, children, hsystem, hchildren⟩ := hdoc.system
  have hlabel : templateCall.isElement "system" = false := isElement_of_ne (by decide) templateCall hcall
  rcases hR.rootsWith hlabel fun hmem => absurd hmem (not_mem_roots hdoc hcall) with heq | ⟨l, r, b, k, k', hk, hl, hr⟩
  · have hsystem' : elements "system" doc' = [(label, children)] := heq.trans hsystem
    rw [definitions_eq, definitions_eq, sectionNames_of_system hsystem', sectionNames_of_system hsystem',
      sectionNames_of_system hsystem, sectionNames_of_system hsystem]
  · have hboth := hl.symm.trans hsystem
    cases l with
    | nil =>
      obtain ⟨hnode, rfl⟩ := List.cons.inj hboth
      obtain ⟨rfl, rfl⟩ := Prod.mk.inj hnode
      have hsystem' : elements "system" doc' = [(b, k')] := hr
      rw [definitions_eq, definitions_eq, sectionNames_of_system hsystem', sectionNames_of_system hsystem',
        sectionNames_of_system hsystem, sectionNames_of_system hsystem,
        childrenOf_congr (elements_replaced hchildren hcall hbody hk "config" (by simp)),
        childrenOf_congr (elements_replaced hchildren hcall hbody hk "expressions" (by simp))]
    | cons node l => simp at hboth

variable {templates : List Node} {instances : List Instance}

/-- The definitions of the document are those from before with those of the instances. -/
lemma Runs.definitions (hplain : ∀ template ∈ templates, ∀ name ∈ templateNames template, Plain name)
    (hdoc : DocumentWellFormed doc) (hruns : Runs templates doc instances doc') :
    (∀ i ∈ instances, i.template ∈ templates) ∧
      XmlTemplates.definitions doc' ~ XmlTemplates.definitions doc ++ instances.flatMap Instance.names := by
  induction hruns with
  | refl doc =>
    rw [List.flatMap_nil, List.append_nil]
    exact ⟨nofun, List.Perm.refl _⟩
  | @step doc doc₁ doc' i instances hstep hruns ih =>
    obtain ⟨htemplates, hperm⟩ := ih (hstep.documentWellFormed hdoc)
    have hmem := findTemplate_mem hstep.compiled.found
    obtain ⟨body, hbody, -, -, hroots⟩ := hstep.wellFormed.output.body
    have hroots' : ∀ tagName ∈ ["config", "expressions"], elements tagName i.body = [] := by
      unfold Instance.body
      rw [hbody]
      exact hroots
    have hsame := definitions_replaced (hdoc.withDefinitions hstep.wellFormed.output) hstep.compiled.call hroots'
      hstep.replaced
    have hadded := definitions_withDefinitions hdoc hstep.wellFormed.output
    rw [outputNames hstep.wellFormed (hplain i.template hmem), ← hsame] at hadded
    constructor
    · intro j hj
      rcases List.mem_cons.mp hj with rfl | hj
      · exact hmem
      · exact htemplates j hj
    · rw [List.flatMap_cons, ← List.append_assoc]
      exact hperm.trans (hadded.append_right _)

end Definitions

/-! ### References -/

section References

variable {template : Node} {callChildren : Nodes} {newPrefix : Value}

/-- The nodes with the references renamed. -/
abbrev ReferencesRenamed (σ : Value → Value) (newPrefix : Value) (h : Marked) (h' : Nodes) : Prop :=
  Hedge.Related (fun label label' => Renames σ newPrefix false label.1 label.2 label') h h'

/-- Definitions with their names and the references in them renamed. -/
inductive DefinitionsRenamed (σ : Value → Value) (newPrefix : Value) : Marked → Nodes → Prop
  | nil : DefinitionsRenamed σ newPrefix .nil .nil
  | cons {label : Bool × Label} {label' : Label} {children siblings : Marked} {children' siblings' : Nodes}
      (hlabel : Renames σ newPrefix true label.1 label.2 label')
      (hchildren : ReferencesRenamed σ newPrefix children children')
      (hsiblings : DefinitionsRenamed σ newPrefix siblings siblings') :
      DefinitionsRenamed σ newPrefix (.cons label children siblings) (.cons label' children' siblings')

/-- There are no marks below the siblings. -/
def ChildrenUnmarked (h : Marked) : Prop :=
  ∀ node ∈ h.roots, node.2.AllNodes fun label _ => label.1 = false

variable {knownNames : List Value}

lemma referencesRenamed_of_prefixed (hpre : newPrefix ≠ []) {h : Marked} {h' : Nodes}
    (hmarks : h.AllNodes fun label _ => label.1 = false) (hR : PrefixedTo knownNames newPrefix h h') :
    ReferencesRenamed (rename knownNames newPrefix) newPrefix h h' := by
  induction hR with
  | nil => exact Hedge.Related.nil
  | @cons label label' children siblings children' siblings' hlabel _ _ ihc ihs =>
    obtain ⟨ha, hc, hs⟩ := hmarks
    refine Hedge.Related.cons ?_ (ihc hc) (ihs hs)
    apply renames_of_prefixNode hpre _ hlabel
    intro hmark
    rw [ha] at hmark
    cases hmark

lemma definitionsRenamed_of_prefixed (hpre : newPrefix ≠ []) {h : Marked} {h' : Nodes} (hmarks : OrdinaryMarks h)
    (hchildren : ChildrenUnmarked h)
    (hknown : ∀ n, newPrefix ++ n ∉ knownNames ∧ ∀ m, newPrefix ++ n = '$' :: m → m ∉ knownNames)
    (hR : PrefixedTo knownNames newPrefix (h.mapRoots (renameDefinition newPrefix)) h') :
    DefinitionsRenamed (rename knownNames newPrefix) newPrefix h h' := by
  induction h generalizing h' with
  | nil =>
    cases hR
    exact DefinitionsRenamed.nil
  | cons label children siblings _ ih =>
    cases hR with
    | cons hlabel hbelow hsiblings =>
      refine DefinitionsRenamed.cons ?_ ?_ ?_
      · exact renames_of_renameDefinition hpre (hmarks _ List.mem_cons_self) (fun n _ => hknown n) hlabel
      · exact referencesRenamed_of_prefixed hpre (hchildren _ List.mem_cons_self) hbelow
      · exact ih (fun node hnode => hmarks node (List.mem_cons_of_mem _ hnode))
          (fun node hnode => hchildren node (List.mem_cons_of_mem _ hnode)) hsiblings

lemma allNodes_unmarked (nodes : Nodes) : (unmarked nodes).AllNodes fun label _ => label.1 = false :=
  Hedge.find_eq_none_iff.mp (find_unmarked nodes)

lemma childrenUnmarked_unmarked (nodes : Nodes) : ChildrenUnmarked (unmarked nodes) := fun node hnode =>
  (Hedge.AllNodes.of_mem_roots (a := node.1) (allNodes_unmarked nodes) hnode).2

lemma childrenUnmarked_configWith (template : Node) (params : List Node) :
    ChildrenUnmarked (configWith template params) := by
  intro node hnode
  unfold configWith at hnode
  rw [Hedge.roots_append, List.mem_append] at hnode
  rcases hnode with hnode | hnode
  · exact childrenUnmarked_unmarked _ node hnode
  · unfold lockedParams at hnode
    rw [Hedge.roots_ofRoots] at hnode
    obtain ⟨param, -, rfl⟩ := List.mem_map.mp hnode
    exact allNodes_unmarked param.2

/-- The parts of a template where the names that it defines, and the references to them, have a prefix. -/
structure RenamedParts (template : Node) (params : List Node) (newPrefix : Value) (output : Output) : Prop where
  config : ∃ config, output.config = some config ∧
    DefinitionsRenamed (rename (templateNames template) newPrefix) newPrefix (configWith template params) config
  expressions : elements "expressions" template.2 = [] ∧ output.expressions = none ∨
    ∃ expressions, output.expressions = some expressions ∧
      DefinitionsRenamed (rename (templateNames template) newPrefix) newPrefix
        (unmarked (sectionOf "expressions" template)) expressions
  body : ∃ body, output.body = some body ∧
    ReferencesRenamed (rename (templateNames template) newPrefix) newPrefix (unmarked (bodyOf template)) body

/-- A template is compiled for a call exactly if the call gives it the parameters that it declares, and the parts are
those of the template renamed with the prefix of the call. The parameters are definitions with the values of the call,
which are kept as they are. -/
theorem compileTemplate_renames (ht : TemplateWellFormed template) (hc : CallWellFormed callChildren)
    (hplain : ∀ name ∈ templateNames template, Plain name) (templateCall : Label) (runningNumber : Nat) :
    ((∃ e, compileTemplate template templateCall callChildren runningNumber = .error e) ↔
      BadParameters template (signature templateCall callChildren).parameters) ∧
    ∀ output, compileTemplate template templateCall callChildren runningNumber = .ok output →
      RenamedParts template (boundParams template callChildren) (callPrefix templateCall runningNumber) output := by
  obtain ⟨hbad, hgood⟩ := compileTemplate_spec ht hc templateCall runningNumber
  have hpre := callPrefix_ne_nil templateCall runningNumber
  have hknown := callPrefix_not_known hplain templateCall runningNumber
  constructor
  · constructor
    · rintro ⟨e, he⟩
      by_contra h
      obtain ⟨output, houtput, -⟩ := hgood h
      rw [houtput] at he
      cases he
    · exact hbad
  · intro output houtput
    have hnot : ¬BadParameters template (signature templateCall callChildren).parameters := by
      intro h
      obtain ⟨e, he⟩ := hbad h
      rw [houtput] at he
      cases he
    obtain ⟨output', houtput', hparts⟩ := hgood hnot
    obtain rfl := Except.ok.inj (houtput.symm.trans houtput')
    obtain ⟨config, hconfig, hconfigR⟩ := hparts.config
    obtain ⟨body, hbody, hbodyR⟩ := hparts.body
    have hexpressions := hparts.expressions
    rw [definedBy_boundParams] at hconfigR hbodyR hexpressions
    refine ⟨⟨config, hconfig, ?_⟩, ?_, body, hbody, ?_⟩
    · exact definitionsRenamed_of_prefixed hpre (ordinaryMarks_configWith _ _) (childrenUnmarked_configWith _ _) hknown
        hconfigR
    · rcases hexpressions with hnone | ⟨-, expressions, hsome, hR⟩
      · exact Or.inl hnone
      · exact Or.inr ⟨expressions, hsome, definitionsRenamed_of_prefixed hpre (ordinaryMarks_unmarked _)
          (childrenUnmarked_unmarked _) hknown hR⟩
    · exact referencesRenamed_of_prefixed hpre (allNodes_unmarked _) hbodyR

/-- A template with a call in its body, for a call that gives its parameter and for one that gives another one. -/
theorem compileTemplate_renames_example :
    (∃ output, compileTemplate nestingTemplate (.element "useTemplate" [("name", ['b'])]) nestingCallChildren 1 =
        .ok output ∧
      RenamedParts nestingTemplate (boundParams nestingTemplate nestingCallChildren) ['t', '1', '_'] output) ∧
    ∃ e, compileTemplate nestingTemplate (.element "useTemplate" [("name", ['b'])]) exampleCallChildren 1 =
      .error e := by
  have hplain : ∀ name ∈ templateNames nestingTemplate, Plain name := by
    have hnames : templateNames nestingTemplate = [['y']] := by decide
    rw [hnames]
    exact List.forall_mem_singleton.mpr (plain_of_not_mem (by decide) (by decide))
  have hparams : (parametersOf nestingTemplate.2).map (fun param => param.1.name) = [['y']] := by decide
  obtain ⟨herror, hrenamed⟩ := compileTemplate_renames nesting_template nesting_call hplain
    (.element "useTemplate" [("name", ['b'])]) 1
  obtain ⟨hother, -⟩ := compileTemplate_renames nesting_template example_call hplain
    (.element "useTemplate" [("name", ['b'])]) 1
  constructor
  · cases houtput : compileTemplate nestingTemplate (.element "useTemplate" [("name", ['b'])]) nestingCallChildren 1 with
    | ok output => exact ⟨output, rfl, hrenamed output houtput⟩
    | error e =>
      have hgood : ¬BadParameters nestingTemplate [['y']] := by
        unfold BadParameters
        decide
      exact absurd (herror.mp ⟨e, houtput⟩) hgood
  · apply hother.mpr
    exact Or.inr (Or.inr ⟨['x'], by decide, by rw [hparams]; decide⟩)

end References

end Muen.Tools.XmlTemplates
