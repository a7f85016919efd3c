import Muen.Tools.XmlTemplates.CompileTemplate

/-!
# Replacing a call

A call of a well-formed document is replaced by the body of its template, compiled for the call. The configuration
variables and the expressions of the template are added to those of the system.
-/

namespace Muen.Tools.XmlTemplates
open Muen.Lib

/-! ### Well-formed documents -/

structure SystemWellFormed (children : Nodes) : Prop where
  config : ∃ label nodes, elements "config" children = [(label, nodes)]
  expressions : (elements "expressions" children).length ≤ 1
  definitions : ∀ tagName ∈ ["config", "expressions"], ∀ node ∈ elements tagName children, NoCalls node.2

structure DocumentWellFormed (doc : Nodes) : Prop where
  system : ∃ label children, elements "system" doc = [(label, children)] ∧ SystemWellFormed children
  roots : ∀ node ∈ doc.roots, node.1.isElement "useTemplate" = false
  calls : CallsWellFormed doc

/-- Only calls are marked. -/
def OnlyCalls (doc : Marked) : Prop :=
  doc.AllNodes fun label _ => label.1 = true → isElement "useTemplate" label = true

/-! ### The calls of a document -/

/-- The calls, and whether they are still to be replaced in the round. -/
def calls (doc : Marked) : List (Bool × Signature) :=
  (doc.nodes.filter fun node => isElement "useTemplate" node.1).map fun node =>
    (node.1.1, signature node.1.2 (node.2.map Prod.snd))

def signatures (doc : Nodes) : List Signature := (templateCalls doc).map fun node => signature node.1 node.2

@[simp] lemma calls_append (h k : Marked) : calls (h ++ k) = calls h ++ calls k := by
  unfold calls
  rw [Hedge.nodes_append, List.filter_append, List.map_append]

lemma calls_cons_of_call {a : Bool × Label} (ha : isElement "useTemplate" a = true) (children siblings : Marked) :
    calls (.cons a children siblings) =
      (a.1, signature a.2 (children.map Prod.snd)) :: (calls children ++ calls siblings) := by
  unfold calls
  rw [Hedge.nodes, List.filter_cons_of_pos (by exact ha), List.filter_append, List.map_cons, List.map_append]

lemma calls_cons_of_not {a : Bool × Label} (ha : isElement "useTemplate" a = false) (children siblings : Marked) :
    calls (.cons a children siblings) = calls children ++ calls siblings := by
  unfold calls
  rw [Hedge.nodes, List.filter_cons_of_neg (by simp [ha]), List.filter_append, List.map_append]

lemma map_calls (doc : Marked) : (calls doc).map Prod.snd = signatures (doc.map Prod.snd) := by
  unfold calls signatures templateCalls
  rw [Hedge.nodes_map, List.filter_map, List.map_map, List.map_map]
  rfl

lemma calls_map_mark (mark : Label → Bool × Label) (hmark : ∀ label, (mark label).2 = label) (b : Bool)
    (hb : ∀ label, label.isElement "useTemplate" = true → (mark label).1 = b) (doc : Nodes) :
    calls (doc.map mark) = (signatures doc).map fun s => (b, s) := by
  unfold calls signatures templateCalls
  rw [Hedge.nodes_map, List.filter_map, List.map_map, List.map_map]
  have hfilter : (doc.nodes.filter fun node => isElement "useTemplate" (mark node.1)) =
      doc.nodes.filter fun node => node.1.isElement "useTemplate" := by
    unfold isElement
    simp only [hmark]
  calc _ = (doc.nodes.filter fun node => isElement "useTemplate" (mark node.1)).map fun node =>
        ((mark node.1).1, signature (mark node.1).2 ((node.2.map mark).map Prod.snd)) := rfl
    _ = _ := by
      rw [hfilter]
      apply List.map_congr_left
      intro node hnode
      have hid : Prod.snd ∘ mark = id := funext hmark
      rw [hb node.1 (List.mem_filter.mp hnode).2, hmark, Hedge.map_map, hid, Hedge.map_id]
      rfl

lemma calls_markCall (doc : Nodes) : calls (doc.map markCall) = (signatures doc).map fun s => (true, s) :=
  calls_map_mark markCall (fun _ => rfl) true (fun _ h => h) doc

lemma calls_unmarked (doc : Nodes) : calls (unmarked doc) = (signatures doc).map fun s => (false, s) :=
  calls_map_mark (fun label => (false, label)) (fun _ => rfl) false (fun _ _ => rfl) doc

lemma not_mem_nodes_of_noCalls {doc : Nodes} (h : NoCalls doc) {node : Node} (hnode : node ∈ doc.nodes) :
    node.1.isElement "useTemplate" = false := by
  obtain ⟨label, children⟩ := node
  exact (Hedge.AllNodes.of_mem_nodes h hnode).1

lemma templateCalls_of_noCalls {doc : Nodes} (h : NoCalls doc) : templateCalls doc = [] := by
  unfold templateCalls
  rw [List.filter_eq_nil_iff]
  intro node hnode
  simp [not_mem_nodes_of_noCalls h hnode]

lemma signatures_of_noCalls {doc : Nodes} (h : NoCalls doc) : signatures doc = [] := by
  unfold signatures
  rw [templateCalls_of_noCalls h]
  rfl

/-- There are only parameters below a call. -/
lemma CallWellFormed.noCalls {callChildren : Nodes} (h : CallWellFormed callChildren) : NoCalls callChildren := by
  apply h.onlyParameters.imp
  intro label _ hlabel
  cases label with
  | element tagName attributes =>
    have htag : tagName = "parameter" := by simpa [isBadNode] using hlabel
    rw [htag]
    rfl
  | text value => rfl
  | other value => rfl

lemma calls_of_noCalls {doc : Marked} (h : NoCalls (doc.map Prod.snd)) : calls doc = [] := by
  have hsnd : (calls doc).map Prod.snd = [] := by rw [map_calls, signatures_of_noCalls h]
  exact List.map_eq_nil_iff.mp hsnd

/-! ### Adding definitions -/

section Adding

variable {α : Type}

/-- Appends to all siblings with one label below the siblings with another one. -/
def addTo (p q : α → Bool) (new doc : Hedge α) : Hedge α := doc.onRoots p (·.onRoots q (· ++ new))

/-- The document where the system has an element for the expressions. -/
def ensureExpressions (doc : Nodes) : Nodes :=
  doc.onRoots (Label.isElement "system") fun children =>
    if elements "expressions" children = [] then
      children.afterRoots (Label.isElement "config") (.cons (.element "expressions" []) .nil .nil)
    else children

def withExpressions (expressions : Option Nodes) (doc : Nodes) : Nodes :=
  match expressions with
  | none => doc
  | some new => addTo (Label.isElement "system") (Label.isElement "expressions") new (ensureExpressions doc)

/-- The document with the definitions of a compiled template. -/
def withDefinitions (output : Output) (doc : Nodes) : Nodes :=
  withExpressions output.expressions
    (addTo (Label.isElement "system") (Label.isElement "config") (output.config.getD .nil) doc)

variable {p q : α → Bool}

lemma map_addTo {β : Type} {p q : β → Bool} (f : α → β) (new doc : Hedge α) :
    (addTo (fun a => p (f a)) (fun a => q (f a)) new doc).map f = addTo p q (new.map f) (doc.map f) := by
  unfold addTo
  apply Hedge.map_onRoots
  intro k
  apply Hedge.map_onRoots
  intro l
  exact Hedge.map_append f l new

lemma addTo_nil (doc : Hedge α) : addTo p q .nil doc = doc := by
  have hnil : (fun h : Hedge α => h ++ .nil) = id := funext Hedge.append_nil
  have hinner : (fun h : Hedge α => h.onRoots q id) = id := funext Hedge.onRoots_id
  unfold addTo
  rw [hnil, hinner, Hedge.onRoots_id]

end Adding

/-- The marks and the calls of a document are still the same. -/
structure Undisturbed (doc doc' : Marked) : Prop where
  find : doc'.find Prod.fst = doc.find Prod.fst
  calls : calls doc' = calls doc
  marks : OnlyCalls doc'

lemma Undisturbed.refl {doc : Marked} (hmarks : OnlyCalls doc) : Undisturbed doc doc := ⟨rfl, rfl, hmarks⟩

lemma Undisturbed.trans {doc doc' doc'' : Marked} (h : Undisturbed doc doc') (h' : Undisturbed doc' doc'') :
    Undisturbed doc doc'' := ⟨h'.find.trans h.find, h'.calls.trans h.calls, h'.marks⟩

lemma not_marked {a : Bool × Label} (ha : a.1 = true → isElement "useTemplate" a = true) {tagName : String}
    (htag : tagName ≠ "useTemplate") (hlabel : isElement tagName a = true) : a.1 = false := by
  have hfalse := isElement_disjoint htag a hlabel
  cases hmark : a.1 with
  | false => rfl
  | true => rw [ha hmark] at hfalse; cases hfalse

lemma onlyCalls_unmarked (nodes : Nodes) : OnlyCalls (unmarked nodes) := by
  unfold OnlyCalls unmarked
  induction nodes with
  | nil => trivial
  | cons label children siblings ihc ihs => exact ⟨nofun, ihc, ihs⟩

lemma find_unmarked (nodes : Nodes) : (unmarked nodes).find Prod.fst = none := by
  apply Hedge.find_eq_none
  unfold unmarked
  induction nodes with
  | nil => trivial
  | cons label children siblings ihc ihs => exact ⟨rfl, ihc, ihs⟩

lemma calls_onRoots {p : Bool × Label → Bool} (hp : ∀ a, p a = true → isElement "useTemplate" a = false)
    {f : Marked → Marked} (hf : ∀ k, OnlyCalls k → calls (f k) = calls k) {doc : Marked} (hmarks : OnlyCalls doc) :
    calls (doc.onRoots p f) = calls doc := by
  induction doc with
  | nil => rfl
  | cons a children siblings _ ih =>
    obtain ⟨-, hchildren, hsiblings⟩ := hmarks
    rw [Hedge.onRoots]
    by_cases ha : p a = true
    · rw [if_pos ha, calls_cons_of_not (hp a ha), calls_cons_of_not (hp a ha), hf children hchildren, ih hsiblings]
    · rw [if_neg ha]
      by_cases hcall : isElement "useTemplate" a = true
      · rw [calls_cons_of_call hcall, calls_cons_of_call hcall, ih hsiblings]
      · rw [calls_cons_of_not (Bool.not_eq_true _ ▸ hcall), calls_cons_of_not (Bool.not_eq_true _ ▸ hcall),
          ih hsiblings]

lemma calls_afterRoots {p : Bool × Label → Bool} {new : Marked} (hnew : calls new = []) (doc : Marked) :
    calls (doc.afterRoots p new) = calls doc := by
  induction doc with
  | nil => rfl
  | cons a children siblings _ ih =>
    rw [Hedge.afterRoots]
    have hsiblings : calls (if p a = true then new ++ siblings.afterRoots p new else siblings.afterRoots p new) =
        calls siblings := by
      split_ifs
      · rw [calls_append, hnew, ih, List.nil_append]
      · exact ih
    by_cases hcall : isElement "useTemplate" a = true
    · rw [calls_cons_of_call hcall, calls_cons_of_call hcall, hsiblings]
    · rw [calls_cons_of_not (Bool.not_eq_true _ ▸ hcall), calls_cons_of_not (Bool.not_eq_true _ ▸ hcall), hsiblings]

lemma onlyCalls_onRoots {p : Bool × Label → Bool} {f : Marked → Marked} (hf : ∀ k, OnlyCalls k → OnlyCalls (f k))
    {doc : Marked} (hmarks : OnlyCalls doc) : OnlyCalls (doc.onRoots p f) :=
  Hedge.AllNodes.onRoots (P := fun label : Bool × Label => label.1 = true → isElement "useTemplate" label = true)
    hmarks p hf

/-- Changing the children of elements that are not calls disturbs nothing if this is so for the children. -/
lemma undisturbed_onRoots {tagName : String} (htag : tagName ≠ "useTemplate") {f : Marked → Marked}
    (hf : ∀ k, OnlyCalls k → Undisturbed k (f k)) {doc : Marked} (hmarks : OnlyCalls doc) :
    Undisturbed doc (doc.onRoots (isElement tagName) f) where
  find := Hedge.find_onRoots (P := fun label : Bool × Label => label.1 = true → isElement "useTemplate" label = true)
    hmarks (fun _ ha hlabel => not_marked ha htag hlabel) fun k hk => (hf k hk).find
  calls := calls_onRoots (isElement_disjoint htag) (fun k hk => (hf k hk).calls) hmarks
  marks := onlyCalls_onRoots (fun k hk => (hf k hk).marks) hmarks

lemma undisturbed_append {new : Nodes} (hnew : NoCalls new) {doc : Marked} (hmarks : OnlyCalls doc) :
    Undisturbed doc (doc ++ unmarked new) where
  find := by rw [Hedge.find_append, find_unmarked, Option.or_none]
  calls := by rw [calls_append, calls_unmarked, signatures_of_noCalls hnew, List.map_nil, List.append_nil]
  marks := Hedge.allNodes_append.mpr ⟨hmarks, onlyCalls_unmarked new⟩

lemma undisturbed_addTo (tagName : String) (htag : tagName ≠ "useTemplate") {new : Nodes} (hnew : NoCalls new)
    {doc : Marked} (hmarks : OnlyCalls doc) :
    Undisturbed doc (addTo (isElement "system") (isElement tagName) (unmarked new) doc) :=
  undisturbed_onRoots (by decide)
    (fun _ hk => undisturbed_onRoots htag (fun _ hl => undisturbed_append hnew hl) hk) hmarks

lemma undisturbed_afterRoots {p : Bool × Label → Bool} (new : Nodes) (hnew : NoCalls new) {doc : Marked}
    (hmarks : OnlyCalls doc) : Undisturbed doc (doc.afterRoots p (unmarked new)) where
  find := Hedge.find_afterRoots (find_unmarked new) doc
  calls := by
    apply calls_afterRoots
    rw [calls_unmarked, signatures_of_noCalls hnew, List.map_nil]
  marks := Hedge.AllNodes.afterRoots hmarks p (onlyCalls_unmarked new)

/-! ### The code adds the definitions -/

lemma rootsWith_of_elements {tagName : String} {doc : Marked} {a : Label} {c : Nodes}
    (h : elements tagName (doc.map Prod.snd) = [(a, c)]) :
    ∃ mark children, doc.rootsWith (isElement tagName) = [((mark, a), children)] ∧ children.map Prod.snd = c := by
  rw [elements_map_snd] at h
  obtain ⟨⟨⟨mark, label'⟩, children⟩, hroots, hnode⟩ := List.map_eq_singleton_iff.mp h
  obtain ⟨rfl, rfl⟩ := Prod.mk.inj hnode
  exact ⟨mark, children, hroots, rfl⟩

lemma rootsWith_of_elements_eq_nil {tagName : String} {doc : Marked} (h : elements tagName (doc.map Prod.snd) = []) :
    doc.rootsWith (isElement tagName) = [] := by
  rw [elements_map_snd] at h
  exact List.map_eq_nil_iff.mp h

lemma exists_system {doc : Marked} (hdoc : DocumentWellFormed (doc.map Prod.snd)) :
    ∃ a children, doc.rootsWith (isElement "system") = [(a, children)] ∧ SystemWellFormed (children.map Prod.snd) := by
  obtain ⟨label, nodes, hsystem, hnodes⟩ := hdoc.system
  obtain ⟨mark, children, hroots, rfl⟩ := rootsWith_of_elements hsystem
  exact ⟨(mark, label), children, hroots, hnodes⟩

lemma appendTo_eq {tagName : String} {doc : Marked} {a b : Bool × Label} {children nodes : Marked}
    (hsystem : doc.rootsWith (isElement "system") = [(a, children)])
    (hroots : children.rootsWith (isElement tagName) = [(b, nodes)]) (new : Nodes) :
    appendTo tagName new doc = some (addTo (isElement "system") (isElement tagName) (unmarked new) doc) := by
  unfold appendTo addTo
  apply Hedge.onRoot_eq_some hsystem
  exact Hedge.onRoot_eq_some (f := (· ++ unmarked new)) hroots rfl

lemma map_addTo_snd (tagName : String) (new : Nodes) (doc : Marked) :
    (addTo (isElement "system") (isElement tagName) (unmarked new) doc).map Prod.snd =
      addTo (Label.isElement "system") (Label.isElement tagName) new (doc.map Prod.snd) := by
  have hmap := map_addTo (p := Label.isElement "system") (q := Label.isElement tagName) Prod.snd (unmarked new) doc
  rw [map_unmarked] at hmap
  exact hmap

lemma appendConfig_spec {doc : Marked} (hdoc : DocumentWellFormed (doc.map Prod.snd)) (hmarks : OnlyCalls doc)
    {new : Nodes} (hnew : NoCalls new) :
    ∃ doc', appendConfig (some new) doc = .ok doc' ∧ Undisturbed doc doc' ∧
      doc'.map Prod.snd = addTo (Label.isElement "system") (Label.isElement "config") new (doc.map Prod.snd) := by
  obtain ⟨a, children, hsystem, hchildren⟩ := exists_system hdoc
  obtain ⟨label, nodes, hconfig⟩ := hchildren.config
  obtain ⟨mark, config, hroots, -⟩ := rootsWith_of_elements hconfig
  have hundisturbed := undisturbed_addTo "config" (by decide) hnew hmarks
  have hmap := map_addTo_snd "config" new doc
  refine ⟨_, ?_, hundisturbed, hmap⟩
  have hnull : orNull (some new) = Except.ok (ε := ExpandError) new := rfl
  unfold appendConfig
  rw [hnull, ok_bind]
  by_cases hnil : new = .nil
  · rw [if_pos hnil, hnil]
    exact congrArg Except.ok (addTo_nil doc).symm
  · rw [if_neg hnil, appendTo_eq hsystem hroots]
    rfl

lemma insertExpressions_eq {doc : Marked} {a b : Bool × Label} {children config : Marked}
    (hsystem : doc.rootsWith (isElement "system") = [(a, children)])
    (hconfig : children.rootsWith (isElement "config") = [(b, config)]) (new : Nodes) :
    insertExpressions new doc = .ok (doc.onRoots (isElement "system")
      (·.afterRoots (isElement "config") (unmarked (.cons (.element "expressions" []) new .nil)))) := by
  unfold insertExpressions
  have hroot : (doc.roots.find? fun node => isElement "system" node.1) = some (a, children) := by
    rw [Hedge.find?_roots, hsystem]
    rfl
  rw [hroot]
  have hnull : orNull (some (a, children)) = Except.ok (ε := ExpandError) (a, children) := rfl
  rw [hnull, ok_bind, Hedge.insertAfter_eq_some hconfig]
  dsimp only
  rw [Hedge.onRoot_eq_some (f := (·.afterRoots (isElement "config")
    (unmarked (.cons (.element "expressions" []) new .nil)))) hsystem rfl]
  rfl

lemma appendExpressions_spec {doc : Marked} (hdoc : DocumentWellFormed (doc.map Prod.snd)) (hmarks : OnlyCalls doc)
    {expressions : Option Nodes} (hnew : ∀ new, expressions = some new → NoCalls new) :
    ∃ doc', appendExpressions expressions doc = .ok doc' ∧ Undisturbed doc doc' ∧
      doc'.map Prod.snd = withExpressions expressions (doc.map Prod.snd) := by
  cases expressions with
  | none => exact ⟨doc, rfl, Undisturbed.refl hmarks, rfl⟩
  | some new =>
    have hnew := hnew new rfl
    obtain ⟨label, nodes, helement, hnodes⟩ := hdoc.system
    obtain ⟨mark, children, hsystem, rfl⟩ := rootsWith_of_elements helement
    obtain ⟨label', config, hconfig⟩ := hnodes.config
    obtain ⟨mark', config', hconfigs, -⟩ := rootsWith_of_elements hconfig
    unfold appendExpressions withExpressions ensureExpressions
    dsimp only
    cases hexpressions : elements "expressions" (children.map Prod.snd) with
    | nil =>
      have hnone := rootsWith_of_elements_eq_nil hexpressions
      have happend : appendTo "expressions" new doc = none :=
        Hedge.onRoot_eq_none_of_children hsystem (Hedge.onRoot_eq_none hnone)
      rw [happend, insertExpressions_eq hsystem hconfigs]
      refine ⟨_, rfl, ?_, ?_⟩
      · apply undisturbed_onRoots (by decide) _ hmarks
        intro k hk
        exact undisturbed_afterRoots (.cons (.element "expressions" []) new .nil) ⟨rfl, hnew, trivial⟩ hk
      · unfold addTo
        rw [Hedge.onRoots_onRoots, Hedge.onRoots_congr ((·.afterRoots (Label.isElement "config")
          (.cons (.element "expressions" []) new .nil)))]
        · apply Hedge.map_onRoots
          intro k
          have hmap := Hedge.map_afterRoots (p := Label.isElement "config") Prod.snd
            (unmarked (.cons (.element "expressions" []) new .nil)) k
          rw [map_unmarked] at hmap
          exact hmap
        · intro node hnode
          unfold elements at helement
          rw [helement, List.mem_singleton] at hnode
          rw [hnode, if_pos hexpressions]
          have hinserted : (Hedge.cons (Label.element "expressions" []) .nil .nil).onRoots
              (Label.isElement "expressions") (· ++ new) = .cons (.element "expressions" []) new .nil := rfl
          exact Hedge.onRoots_afterRoots hexpressions hinserted
    | cons node rest =>
      have hrest : rest = [] := by
        have hlength := hnodes.expressions
        rw [hexpressions, List.length_cons] at hlength
        exact List.eq_nil_of_length_eq_zero (Nat.le_zero.mp (Nat.le_of_succ_le_succ hlength))
      rw [hrest] at hexpressions
      obtain ⟨mark'', nodes, hroots, -⟩ := rootsWith_of_elements (a := node.1) (c := node.2) hexpressions
      rw [appendTo_eq hsystem hroots]
      refine ⟨_, rfl, undisturbed_addTo "expressions" (by decide) hnew hmarks, ?_⟩
      have hsame : (doc.map Prod.snd).onRoots (Label.isElement "system") (fun children =>
          if elements "expressions" children = [] then
            children.afterRoots (Label.isElement "config") (.cons (.element "expressions" []) .nil .nil)
          else children) = doc.map Prod.snd := by
        rw [Hedge.onRoots_congr id, Hedge.onRoots_id]
        intro node' hnode
        unfold elements at helement
        rw [helement, List.mem_singleton] at hnode
        rw [hnode, hexpressions]
        rfl
      rw [map_addTo_snd, hsame]

end Muen.Tools.XmlTemplates
