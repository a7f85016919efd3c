import Muen.Tools.XmlTemplates.Calls

/-!
# Instances of templates

The parts of a compiled template call the same templates with the same parameters as the template does, and only in
its body. So a well-formed document stays well-formed when a call is replaced by an instance of its template.
-/

namespace Muen.Tools.XmlTemplates
open Muen.Lib

/-! ### Prefixed calls -/

section Prefixed

variable {knownNames : List Value} {newPrefix : Value}

lemma prefixNode_name_of_call {label : Bool × Label} {label' : Label}
    (h : prefixNode knownNames newPrefix label = .ok label') (hcall : isElement "useTemplate" label = true) :
    label'.name = label.2.name := by
  obtain ⟨mark, label⟩ := label
  cases label with
  | element tagName attributes =>
    have htag : tagName = "useTemplate" := of_decide_eq_true hcall
    obtain ⟨attributes', rfl, hattributes⟩ := prefixNode_element h
    have hname := hattributes "name"
    unfold Prefixed at hname
    rw [htag, if_neg (by decide), if_neg (by decide), if_neg (by decide), if_pos (Or.inl (by decide))] at hname
    unfold Label.name getAttribute Label.attributes
    dsimp only
    rw [hname]
  | text value => cases hcall
  | other value => cases hcall

lemma prefixed_parameter {mark : Bool} {attributes : List (String × Value)} {label' : Label}
    (h : prefixNode knownNames newPrefix (mark, .element "parameter" attributes) = .ok label')
    (hname : ∀ n, (Label.element "parameter" attributes).name ≠ '$' :: n) :
    label'.name = (Label.element "parameter" attributes).name ∧
      hasAttribute label'.attributes "value" = hasAttribute attributes "value" := by
  obtain ⟨attributes', rfl, hattributes⟩ := prefixNode_element h
  have hname' := hattributes "name"
  have hvalue := hattributes "value"
  unfold Prefixed at hname' hvalue
  rw [if_neg (by decide), if_neg (by decide), if_neg (by decide), if_neg (by simp [specialTags])] at hname'
  rw [if_neg (by decide), if_neg (by decide), if_neg (by decide)] at hvalue
  constructor
  · unfold Label.name getAttribute Label.attributes at hname ⊢
    dsimp only at hname ⊢
    rw [hname']
    cases hlookup : attributes.lookup "name" with
    | none => rfl
    | some v =>
      rw [hlookup] at hname
      exact prefixDollarRef_of_ne _ fun n hn => absurd hn (hname n)
  · unfold hasAttribute Label.attributes
    dsimp only
    split_ifs at hvalue
    · rw [hvalue]
    · rw [hvalue, Option.isSome_map]

variable {h : Marked} {h' : Nodes}

/-- What the renaming makes of each of the nodes. -/
abbrev PrefixedTo (knownNames : List Value) (newPrefix : Value) (h : Marked) (h' : Nodes) : Prop :=
  Hedge.Related (fun label label' => prefixNode knownNames newPrefix label = .ok label') h h'

lemma noCalls_of_prefixed (hR : PrefixedTo knownNames newPrefix h h') (hcalls : NoCalls (h.map Prod.snd)) :
    NoCalls h' := by
  induction hR with
  | nil => trivial
  | cons hlabel _ _ ihc ihs =>
    obtain ⟨ha, hc, hs⟩ := hcalls
    exact ⟨(isElement_prefixNode _ hlabel).symm.trans ha, ihc hc, ihs hs⟩

lemma elements_of_prefixed (hR : PrefixedTo knownNames newPrefix h h') (tagName : String) :
    List.Forall₂ (fun node node' => prefixNode knownNames newPrefix node.1 = .ok node'.1 ∧
      PrefixedTo knownNames newPrefix node.2 node'.2) (h.rootsWith (isElement tagName)) (elements tagName h') :=
  hR.rootsWith fun _ _ => isElement_prefixNode _

lemma elements_eq_nil_of_prefixed (hR : PrefixedTo knownNames newPrefix h h') {tagName : String}
    (hnil : elements tagName (h.map Prod.snd) = []) : elements tagName h' = [] := by
  have helements := elements_of_prefixed hR tagName
  rw [rootsWith_of_elements_eq_nil hnil, List.forall₂_nil_left_iff] at helements
  exact helements

lemma isBadNode_prefixNode {label : Bool × Label} {label' : Label}
    (h : prefixNode knownNames newPrefix label = .ok label') : isBadNode label' = isBadNode label.2 := by
  obtain ⟨mark, label⟩ := label
  cases label with
  | element tagName attributes =>
    obtain ⟨attributes', rfl, -⟩ := prefixNode_element h
    rfl
  | text value =>
    obtain rfl := (Except.ok.inj h).symm
    rfl
  | other value =>
    obtain rfl := (Except.ok.inj h).symm
    rfl

lemma elements_cons (tagName : String) (label : Label) (children siblings : Nodes) :
    elements tagName (.cons label children siblings) =
      if label.isElement tagName then (label, children) :: elements tagName siblings else elements tagName siblings :=
  Hedge.rootsWith_cons label children siblings

/-- The parameters of a call keep their names, and they still have values. -/
lemma parameters_of_prefixed (hR : PrefixedTo knownNames newPrefix h h')
    (hname : ∀ node ∈ elements "parameter" (h.map Prod.snd), ∀ n, node.1.name ≠ '$' :: n) :
    List.Forall₂ (fun node node' => node'.1.name = node.1.name ∧
        hasAttribute node'.1.attributes "value" = hasAttribute node.1.attributes "value")
      (elements "parameter" (h.map Prod.snd)) (elements "parameter" h') := by
  induction hR with
  | nil => exact List.Forall₂.nil
  | @cons a b children siblings children' siblings' hlabel _ _ _ ih =>
    rw [Hedge.map, elements_cons] at hname ⊢
    rw [elements_cons, ← isElement_prefixNode "parameter" hlabel]
    by_cases ha : isElement "parameter" a = true
    · have ha' : a.2.isElement "parameter" = true := ha
      rw [if_pos ha'] at hname
      rw [if_pos ha, if_pos ha']
      refine List.Forall₂.cons ?_ (ih fun node hnode => hname node (List.mem_cons_of_mem _ hnode))
      have hparameter := hname _ List.mem_cons_self
      obtain ⟨mark, label⟩ := a
      cases label with
      | element tagName attributes =>
        have htag : tagName = "parameter" := of_decide_eq_true ha'
        rw [htag] at hlabel hparameter ⊢
        exact prefixed_parameter hlabel hparameter
      | text value => cases ha'
      | other value => cases ha'
    · have ha' : ¬a.2.isElement "parameter" = true := ha
      rw [if_neg ha'] at hname
      rw [if_neg ha, if_neg ha']
      exact ih hname

lemma exists_of_forall₂ {α β : Type} {R : α → β → Prop} {l : List α} {l' : List β} (hl : List.Forall₂ R l l') {b : β}
    (hb : b ∈ l') : ∃ a ∈ l, R a b := by
  induction hl with
  | nil => cases hb
  | cons hab _ ih =>
    rcases List.mem_cons.mp hb with rfl | hb
    · exact ⟨_, List.mem_cons_self, hab⟩
    · obtain ⟨a, ha, hR⟩ := ih hb
      exact ⟨a, List.mem_cons_of_mem _ ha, hR⟩

lemma forall₂_map_eq {α β γ : Type} {R : α → β → Prop} {f : α → γ} {g : β → γ} {l : List α} {l' : List β}
    (hl : List.Forall₂ R l l') (hfg : ∀ a b, R a b → g b = f a) : l'.map g = l.map f := by
  induction hl with
  | nil => rfl
  | cons hab _ ih => rw [List.map_cons, List.map_cons, hfg _ _ hab, ih]

lemma signature_of_prefixed {label : Bool × Label} {label' : Label}
    (hlabel : prefixNode knownNames newPrefix label = .ok label') (hcall : isElement "useTemplate" label = true)
    (hR : PrefixedTo knownNames newPrefix h h') (hwf : CallWellFormed (h.map Prod.snd)) :
    signature label' h' = signature label.2 (h.map Prod.snd) := by
  unfold signature
  rw [prefixNode_name_of_call hlabel hcall]
  congr 1
  exact forall₂_map_eq (parameters_of_prefixed hR hwf.name) fun _ _ hnode => hnode.1

lemma callWellFormed_of_prefixed (hR : PrefixedTo knownNames newPrefix h h') (hwf : CallWellFormed (h.map Prod.snd)) :
    CallWellFormed h' := by
  have hparameters := parameters_of_prefixed hR hwf.name
  constructor
  · have honly := hwf.onlyParameters
    clear hwf hparameters
    induction hR with
    | nil => trivial
    | cons hlabel _ _ ihc ihs =>
      obtain ⟨ha, hc, hs⟩ := honly
      exact ⟨(isBadNode_prefixNode hlabel).trans ha, ihc hc, ihs hs⟩
  · intro node' hnode'
    obtain ⟨node, hnode, -, hvalue⟩ := exists_of_forall₂ hparameters hnode'
    exact hvalue.trans (hwf.value node hnode)
  · intro node' hnode' n
    obtain ⟨node, hnode, hname, -⟩ := exists_of_forall₂ hparameters hnode'
    rw [hname]
    exact hwf.name node hnode n

lemma templateCalls_cons (label : Label) (children siblings : Nodes) :
    templateCalls (.cons label children siblings) =
      (if label.isElement "useTemplate" then [(label, children)] else []) ++
        (templateCalls children ++ templateCalls siblings) := by
  unfold templateCalls
  rw [Hedge.nodes, List.filter_cons, List.filter_append]
  split_ifs <;> rfl

/-- The renamed nodes call the same templates with the same parameters. -/
lemma signatures_of_prefixed (hR : PrefixedTo knownNames newPrefix h h') (hwf : CallsWellFormed (h.map Prod.snd)) :
    CallsWellFormed h' ∧ signatures h' = signatures (h.map Prod.snd) := by
  induction hR with
  | nil => exact ⟨trivial, rfl⟩
  | @cons a b children siblings children' siblings' hlabel hchildren hsiblings ihc ihs =>
    obtain ⟨ha, hc, hs⟩ := hwf
    obtain ⟨hcwf, hcs⟩ := ihc hc
    obtain ⟨hswf, hss⟩ := ihs hs
    have htag := isElement_prefixNode "useTemplate" hlabel
    unfold signatures at hcs hss ⊢
    rw [Hedge.map, templateCalls_cons, templateCalls_cons, List.map_append, List.map_append, List.map_append,
      List.map_append, hcs, hss]
    by_cases hcall : isElement "useTemplate" a = true
    · have hcall' : a.2.isElement "useTemplate" = true := hcall
      refine ⟨⟨fun _ => callWellFormed_of_prefixed hchildren (ha hcall), hcwf, hswf⟩, ?_⟩
      rw [← htag, if_pos hcall, if_pos hcall', List.map_singleton, List.map_singleton,
        signature_of_prefixed hlabel hcall hchildren (ha hcall)]
    · have hcall' : ¬a.2.isElement "useTemplate" = true := hcall
      refine ⟨⟨fun hb => absurd (htag.trans hb) hcall, hcwf, hswf⟩, ?_⟩
      rw [← htag, if_neg hcall, if_neg hcall']

end Prefixed

/-! ### Instances -/

/-- What a call is replaced by: its template, compiled under a number. -/
structure Instance where
  template : Node
  templateCall : Label
  callChildren : Nodes
  number : Nat
  output : Output

namespace Instance

structure Compiled (templates : List Node) (i : Instance) : Prop where
  found : findTemplate templates i.templateCall.name = some i.template
  compiled : compileTemplate i.template i.templateCall i.callChildren i.number = .ok i.output
  call : i.templateCall.isElement "useTemplate" = true

def body (i : Instance) : Nodes := i.output.body.getD .nil

end Instance

section Output

variable {template : Node} {callChildren : Nodes} {newPrefix : Value} {output : Output}

/-- A compiled template calls other templates only in its body, and these in the same way as the template. -/
structure OutputWellFormed (template : Node) (output : Output) : Prop where
  config : ∃ config, output.config = some config ∧ NoCalls config
  expressions : ∀ expressions, output.expressions = some expressions → NoCalls expressions
  body : ∃ body, output.body = some body ∧ CallsWellFormed body ∧ signatures body = signatures (bodyOf template) ∧
    ∀ tagName ∈ ["config", "expressions"], elements tagName body = []

structure Instance.WellFormed (i : Instance) : Prop where
  template : TemplateWellFormed i.template
  parts : PartsOf i.template (boundParams i.template i.callChildren) (callPrefix i.templateCall i.number) i.output
  output : OutputWellFormed i.template i.output

lemma noCalls_mapRoots {nodes : Marked} (h : NoCalls (nodes.map Prod.snd)) :
    NoCalls ((nodes.mapRoots (renameDefinition newPrefix)).map Prod.snd) := by
  induction nodes with
  | nil => trivial
  | cons label children siblings _ ih =>
    obtain ⟨ha, hc, hs⟩ := h
    refine ⟨?_, hc, ih hs⟩
    obtain ⟨mark, label⟩ := label
    cases label with
    | element tagName attributes =>
      rw [renameDefinition]
      split_ifs
      · exact ha
      · exact ha
    | text value => rfl
    | other value => rfl

lemma noCalls_newConfigNode {param : Node} (hparam : isParameter param.1 = true) (hchildren : NoCalls param.2)
    (value : Value) :
    (newConfigNode param value).1.isElement "useTemplate" = false ∧ NoCalls (newConfigNode param value).2 := by
  obtain ⟨label, children⟩ := param
  cases label with
  | element tagName attributes =>
    refine ⟨?_, hchildren⟩
    by_contra hcall
    have htag : tagName = "useTemplate" := of_decide_eq_true (Bool.not_eq_false _ ▸ hcall)
    rw [htag] at hparam
    simp [isParameter, Label.isElement] at hparam
  | text value => exact ⟨rfl, hchildren⟩
  | other value => exact ⟨rfl, hchildren⟩

lemma noCalls_configWith (ht : TemplateWellFormed template) :
    NoCalls ((configWith template (boundParams template callChildren)).map Prod.snd) := by
  unfold configWith
  rw [Hedge.map_append, map_unmarked, map_lockedParams]
  refine Hedge.allNodes_append.mpr ⟨ht.callsInBody "config" (by simp), Hedge.allNodes_ofRoots ?_⟩
  intro node hnode
  obtain ⟨param, hparam, rfl⟩ := List.mem_map.mp hnode
  obtain ⟨hroot, hparameter⟩ := List.mem_filter.mp hparam
  have hsection := ht.callsInBody "parameters" (by simp)
  exact noCalls_newConfigNode hparameter (Hedge.AllNodes.of_mem_roots hsection hroot).2 _

lemma outputWellFormed_of_partsOf (ht : TemplateWellFormed template)
    (hparts : PartsOf template (boundParams template callChildren) newPrefix output) :
    OutputWellFormed template output := by
  constructor
  · obtain ⟨config, hconfig, hR⟩ := hparts.config
    exact ⟨config, hconfig, noCalls_of_prefixed hR (noCalls_mapRoots (noCalls_configWith ht))⟩
  · intro expressions hexpressions
    rcases hparts.expressions with ⟨-, hnone⟩ | ⟨-, new, hnew, hR⟩
    · rw [hnone] at hexpressions
      cases hexpressions
    · rw [hnew] at hexpressions
      obtain rfl := Option.some.inj hexpressions
      apply noCalls_of_prefixed hR (noCalls_mapRoots _)
      rw [map_unmarked]
      exact ht.callsInBody "expressions" (by simp)
  · obtain ⟨body, hbody, hR⟩ := hparts.body
    have hwf : CallsWellFormed ((unmarked (bodyOf template)).map Prod.snd) := by
      rw [map_unmarked]
      exact ht.calls
    obtain ⟨hcalls, hsignatures⟩ := signatures_of_prefixed hR hwf
    rw [map_unmarked] at hsignatures
    refine ⟨body, hbody, hcalls, hsignatures, ?_⟩
    intro tagName htag
    apply elements_eq_nil_of_prefixed hR
    rw [map_unmarked]
    exact ht.bodyRoots tagName htag

end Output

/-! ### Well-formedness is kept -/

section WellFormed

variable {doc doc' : Nodes} {output : Output}

lemma noCalls_append {h k : Nodes} (hh : NoCalls h) (hk : NoCalls k) : NoCalls (h ++ k) :=
  Hedge.allNodes_append.mpr ⟨hh, hk⟩

lemma roots_onRoots {α : Type} {p : α → Bool} {f : Hedge α → Hedge α} (h : Hedge α) :
    (h.onRoots p f).roots.map Prod.fst = h.roots.map Prod.fst := by
  induction h with
  | nil => rfl
  | cons a children siblings _ ih => rw [Hedge.onRoots, Hedge.roots, Hedge.roots, List.map_cons, List.map_cons, ih]

/-- Changing elements that are not calls keeps a property of calls, if it is kept among the children. -/
lemma callsWellFormed_onRoots {tagName : String} (htag : tagName ≠ "useTemplate") {f : Nodes → Nodes}
    (hf : ∀ k, CallsWellFormed k → CallsWellFormed (f k)) {h : Nodes} (hh : CallsWellFormed h) :
    CallsWellFormed (h.onRoots (Label.isElement tagName) f) := by
  induction h with
  | nil => trivial
  | cons a children siblings _ ih =>
    obtain ⟨ha, hc, hs⟩ := hh
    rw [Hedge.onRoots]
    by_cases hlabel : a.isElement tagName = true
    · rw [if_pos hlabel]
      have hcall := isElement_of_ne htag a hlabel
      refine ⟨fun h => ?_, hf children hc, ih hs⟩
      rw [hcall] at h
      cases h
    · rw [if_neg hlabel]
      exact ⟨ha, hc, ih hs⟩

lemma callsWellFormed_of_noCalls {h : Nodes} (hh : NoCalls h) : CallsWellFormed h :=
  hh.imp fun _ _ ha hcall => by rw [ha] at hcall; cases hcall

lemma DocumentWellFormed.onSystem (hdoc : DocumentWellFormed doc) {f : Nodes → Nodes}
    (hsystem : ∀ children, SystemWellFormed children → SystemWellFormed (f children))
    (hcalls : ∀ children, CallsWellFormed children → CallsWellFormed (f children)) :
    DocumentWellFormed (doc.onRoots (Label.isElement "system") f) := by
  constructor
  · obtain ⟨label, children, hroots, hchildren⟩ := hdoc.system
    refine ⟨label, f children, ?_, hsystem children hchildren⟩
    unfold elements at hroots ⊢
    rw [Hedge.rootsWith_onRoots, hroots, List.map_singleton]
  · intro node hnode
    have hmem := List.mem_map_of_mem (f := Prod.fst) hnode
    rw [roots_onRoots] at hmem
    obtain ⟨node', hnode', heq⟩ := List.mem_map.mp hmem
    rw [← heq]
    exact hdoc.roots node' hnode'
  · exact callsWellFormed_onRoots (by decide) hcalls hdoc.calls

lemma elements_onRoots {tagName tagName' : String} {f : Nodes → Nodes} (h : Nodes) :
    elements tagName' (h.onRoots (Label.isElement tagName) f) =
      if tagName' = tagName then (elements tagName h).map fun node => (node.1, f node.2) else elements tagName' h := by
  unfold elements
  by_cases htag : tagName' = tagName
  · rw [if_pos htag, htag, Hedge.rootsWith_onRoots]
  · rw [if_neg htag, Hedge.rootsWith_onRoots_of_disjoint fun a ha => isElement_of_ne htag a ha]

lemma SystemWellFormed.append {children new : Nodes} (h : SystemWellFormed children) (hnew : NoCalls new)
    {tagName : String} (htag : tagName ∈ ["config", "expressions"]) :
    SystemWellFormed (children.onRoots (Label.isElement tagName) (· ++ new)) := by
  constructor
  · obtain ⟨label, nodes, hconfig⟩ := h.config
    rw [elements_onRoots]
    split_ifs with heq
    · rw [← heq, hconfig]
      exact ⟨label, nodes ++ new, rfl⟩
    · exact ⟨label, nodes, hconfig⟩
  · rw [elements_onRoots]
    split_ifs with heq
    · rw [List.length_map, ← heq]
      exact h.expressions
    · exact h.expressions
  · intro tagName' htag' node hnode
    rw [elements_onRoots] at hnode
    split_ifs at hnode with heq
    · obtain ⟨node', hnode', rfl⟩ := List.mem_map.mp hnode
      exact noCalls_append (h.definitions tagName htag node' hnode') hnew
    · exact h.definitions tagName' htag' node hnode

lemma callsWellFormed_append {h k : Nodes} (hh : CallsWellFormed h) (hk : CallsWellFormed k) :
    CallsWellFormed (h ++ k) := Hedge.allNodes_append.mpr ⟨hh, hk⟩

lemma DocumentWellFormed.addTo (hdoc : DocumentWellFormed doc) {new : Nodes} (hnew : NoCalls new) (tagName : String)
    (htag : tagName ∈ ["config", "expressions"]) :
    DocumentWellFormed (addTo (Label.isElement "system") (Label.isElement tagName) new doc) := by
  have hne : tagName ≠ "useTemplate" := by
    rintro rfl
    simp at htag
  apply hdoc.onSystem
  · intro children hchildren
    exact hchildren.append hnew htag
  · intro children hchildren
    exact callsWellFormed_onRoots hne (fun k hk => callsWellFormed_append hk (callsWellFormed_of_noCalls hnew)) hchildren

lemma elements_afterRoots_expressions {tagName : String} (htag : tagName ≠ "expressions") (children : Nodes) :
    elements tagName (children.afterRoots (Label.isElement "config") (.cons (.element "expressions" []) .nil .nil)) =
      elements tagName children := by
  apply Hedge.rootsWith_afterRoots_of_nil
  rw [Hedge.rootsWith_cons]
  exact if_neg (by simp [Label.isElement, Ne.symm htag])

lemma DocumentWellFormed.ensureExpressions (hdoc : DocumentWellFormed doc) :
    DocumentWellFormed (ensureExpressions doc) := by
  apply hdoc.onSystem
  · intro children h
    split_ifs with hnil
    · obtain ⟨label, nodes, hconfig⟩ := h.config
      have hexpressions : elements "expressions" (children.afterRoots (Label.isElement "config")
          (.cons (.element "expressions" []) .nil .nil)) = [(.element "expressions" [], .nil)] :=
        Hedge.rootsWith_afterRoots hconfig hnil
      constructor
      · rw [elements_afterRoots_expressions (by decide)]
        exact ⟨label, nodes, hconfig⟩
      · rw [hexpressions]
        exact Nat.le_refl 1
      · intro tagName htag node hnode
        by_cases heq : tagName = "expressions"
        · rw [heq, hexpressions, List.mem_singleton] at hnode
          rw [hnode]
          trivial
        · rw [elements_afterRoots_expressions heq] at hnode
          exact h.definitions tagName htag node hnode
    · exact h
  · intro children hchildren
    split_ifs
    · apply Hedge.AllNodes.afterRoots hchildren
      exact ⟨nofun, trivial, trivial⟩
    · exact hchildren

lemma DocumentWellFormed.withDefinitions (hdoc : DocumentWellFormed doc) {template : Node}
    (houtput : OutputWellFormed template output) : DocumentWellFormed (withDefinitions output doc) := by
  obtain ⟨config, hconfig, hnoCalls⟩ := houtput.config
  have hfirst := hdoc.addTo hnoCalls "config" (by simp)
  unfold XmlTemplates.withDefinitions withExpressions
  rw [hconfig, Option.getD_some]
  cases hexpressions : output.expressions with
  | none => exact hfirst
  | some new => exact hfirst.ensureExpressions.addTo (houtput.expressions new hexpressions) "expressions" (by simp)

variable {templateCall : Label} {callChildren body : Nodes}

lemma not_replaced_of_noCalls {h h' : Nodes} (hcall : templateCall.isElement "useTemplate" = true) (hnone : NoCalls h) :
    ¬Hedge.Replaced templateCall callChildren body h h' := by
  intro hR
  have hfalse := not_mem_nodes_of_noCalls hnone hR.mem_nodes
  dsimp only at hfalse
  rw [hfalse] at hcall
  cases hcall

/-- A call is replaced outside of the definitions. -/
lemma elements_replaced {children children' : Nodes} (hsystem : SystemWellFormed children)
    (hcall : templateCall.isElement "useTemplate" = true)
    (hbody : ∀ tagName ∈ ["config", "expressions"], elements tagName body = [])
    (hR : Hedge.Replaced templateCall callChildren body children children') (tagName : String)
    (htag : tagName ∈ ["config", "expressions"]) : elements tagName children' = elements tagName children := by
  have hne : tagName ≠ "useTemplate" := by
    rintro rfl
    simp at htag
  have hlabel : templateCall.isElement tagName = false := isElement_of_ne (Ne.symm hne) templateCall hcall
  rcases hR.rootsWith hlabel fun _ => hbody tagName htag with heq | ⟨l, r, b, k, k', hk, hl, -⟩
  · exact heq
  · have hmem : (b, k) ∈ elements tagName children := by
      unfold elements
      rw [hl]
      exact List.mem_append_right _ List.mem_cons_self
    exact absurd hk (not_replaced_of_noCalls hcall (hsystem.definitions tagName htag _ hmem))

lemma SystemWellFormed.replaced {children children' : Nodes} (h : SystemWellFormed children)
    (hcall : templateCall.isElement "useTemplate" = true)
    (hbody : ∀ tagName ∈ ["config", "expressions"], elements tagName body = [])
    (hR : Hedge.Replaced templateCall callChildren body children children') : SystemWellFormed children' := by
  have hconfig := elements_replaced h hcall hbody hR "config" (by simp)
  have hexpressions := elements_replaced h hcall hbody hR "expressions" (by simp)
  constructor
  · rw [hconfig]
    exact h.config
  · rw [hexpressions]
    exact h.expressions
  · intro tagName htag node hnode
    rw [elements_replaced h hcall hbody hR tagName htag] at hnode
    exact h.definitions tagName htag node hnode

lemma not_mem_roots (hdoc : DocumentWellFormed doc) (hcall : templateCall.isElement "useTemplate" = true) :
    templateCall ∉ doc.roots.map Prod.fst := by
  intro hmem
  obtain ⟨node, hnode, rfl⟩ := List.mem_map.mp hmem
  rw [hdoc.roots node hnode] at hcall
  cases hcall

lemma DocumentWellFormed.replaced (hdoc : DocumentWellFormed doc) (hcall : templateCall.isElement "useTemplate" = true)
    (hbody : ∀ tagName ∈ ["config", "expressions"], elements tagName body = []) (hcalls : CallsWellFormed body)
    (hR : Hedge.Replaced templateCall callChildren body doc doc') : DocumentWellFormed doc' := by
  have hroot := not_mem_roots hdoc hcall
  constructor
  · obtain ⟨label, children, hsystem, hchildren⟩ := hdoc.system
    have hlabel : templateCall.isElement "system" = false := isElement_of_ne (by decide) templateCall hcall
    rcases hR.rootsWith hlabel fun hmem => absurd hmem hroot with heq | ⟨l, r, b, k, k', hk, hl, hr⟩
    · exact ⟨label, children, heq.trans hsystem, hchildren⟩
    · unfold elements at hsystem
      rw [hsystem] at hl
      cases l with
      | nil =>
        obtain ⟨hnode, rfl⟩ := List.cons.inj hl
        obtain ⟨rfl, rfl⟩ := Prod.mk.inj hnode
        exact ⟨label, k', hr, hchildren.replaced hcall hbody hk⟩
      | cons node l => simp at hl
  · intro node hnode
    have hmem := List.mem_map_of_mem (f := Prod.fst) hnode
    rw [hR.roots hroot] at hmem
    obtain ⟨node', hnode', heq⟩ := List.mem_map.mp hmem
    rw [← heq]
    exact hdoc.roots node' hnode'
  · apply hR.allNodes hdoc.calls hcalls
    intro b k k' hk hb hlabel
    exact absurd hk (not_replaced_of_noCalls hcall (hb hlabel).noCalls)

end WellFormed

end Muen.Tools.XmlTemplates
