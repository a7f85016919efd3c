import Muen.Lib.Fallible
import Mathlib.Data.List.Basic

/-!
# Hedges

A hedge is a sequence of siblings, each with a label and a hedge of children. Besides the operations, there are
relations between hedges: of the same shape with related labels, with a node replaced by a hedge in its place, and
with the children of one root changed.
-/

namespace Muen.Lib

inductive Hedge (α : Type)
  | nil
  | cons (label : α) (children siblings : Hedge α)
deriving DecidableEq

namespace Hedge

variable {α β ε : Type}

def append : Hedge α → Hedge α → Hedge α
  | nil, h => h
  | cons a children siblings, h => cons a children (siblings.append h)

instance : Append (Hedge α) := ⟨append⟩

/-- The siblings with their children. -/
def roots : Hedge α → List (α × Hedge α)
  | nil => []
  | cons a children siblings => (a, children) :: siblings.roots

/-- The nodes in the order of the document, each with its children. -/
def nodes : Hedge α → List (α × Hedge α)
  | nil => []
  | cons a children siblings => (a, children) :: (children.nodes ++ siblings.nodes)

def ofRoots : List (α × Hedge α) → Hedge α
  | [] => nil
  | (a, children) :: l => cons a children (ofRoots l)

def map (f : α → β) : Hedge α → Hedge β
  | nil => nil
  | cons a children siblings => cons (f a) (children.map f) (siblings.map f)

def mapM (f : α → Except ε β) : Hedge α → Except ε (Hedge β)
  | nil => .ok nil
  | cons a children siblings => do
    let b ← f a
    let children' ← children.mapM f
    let siblings' ← siblings.mapM f
    return cons b children' siblings'

/-- The siblings with changed labels. -/
def mapRoots (f : α → α) : Hedge α → Hedge α
  | nil => nil
  | cons a children siblings => cons (f a) children (siblings.mapRoots f)

variable (p : α → Bool)

/-- The siblings with a label. -/
def rootsWith (h : Hedge α) : List (α × Hedge α) := h.roots.filter fun node => p node.1

/-- The children of the siblings with a label. -/
def childrenOf : Hedge α → Hedge α
  | nil => nil
  | cons a children siblings => if p a then children ++ siblings.childrenOf else siblings.childrenOf

/-- The hedge where the children of each of the siblings with a label are changed. -/
def onRoots (f : Hedge α → Hedge α) : Hedge α → Hedge α
  | nil => nil
  | cons a children siblings => cons a (if p a then f children else children) (siblings.onRoots f)

/-- The hedge where the children of the first of the siblings with a label for which it is possible are changed. -/
def onRoot (f : Hedge α → Option (Hedge α)) : Hedge α → Option (Hedge α)
  | nil => none
  | cons a children siblings =>
    match if p a then f children else none with
    | some children' => some (cons a children' siblings)
    | none => (siblings.onRoot f).map (cons a children)

/-- The hedge with another one after the first of the siblings with a label. -/
def insertAfter : Hedge α → Hedge α → Option (Hedge α)
  | nil, _ => none
  | cons a children siblings, new =>
    if p a then some (cons a children (new ++ siblings)) else (siblings.insertAfter new).map (cons a children)

/-- The hedge with another one after each of the siblings with a label. -/
def afterRoots : Hedge α → Hedge α → Hedge α
  | nil, _ => nil
  | cons a children siblings, new =>
    cons a children (if p a then new ++ siblings.afterRoots new else siblings.afterRoots new)

def eraseRoot : Hedge α → Hedge α
  | nil => nil
  | cons a children siblings => if p a then siblings else cons a children siblings.eraseRoot

/-- The siblings without those with a label. -/
def eraseRoots : Hedge α → Hedge α
  | nil => nil
  | cons a children siblings => if p a then siblings.eraseRoots else cons a children siblings.eraseRoots

/-- The hedge without the nodes with a label and all below them. -/
def remove : Hedge α → Hedge α
  | nil => nil
  | cons a children siblings => if p a then siblings.remove else cons a children.remove siblings.remove

/-- The first node with a label in the order of the document. -/
def find : Hedge α → Option (α × Hedge α)
  | nil => none
  | cons a children siblings => if p a then some (a, children) else children.find.or siblings.find

/-- The hedge where another one takes the place of the first node with a label. -/
def replaceFirst : Hedge α → Hedge α → Hedge α
  | nil, _ => nil
  | cons a children siblings, new =>
    if p a then new ++ siblings
    else if (children.find p).isSome then cons a (children.replaceFirst new) siblings
    else cons a children (siblings.replaceFirst new)

/-! ### Properties of all nodes -/

/-- All nodes and their children have a property. -/
def AllNodes (P : α → Hedge α → Prop) : Hedge α → Prop
  | nil => True
  | cons a children siblings => P a children ∧ children.AllNodes P ∧ siblings.AllNodes P

@[simp] lemma nil_append (h : Hedge α) : nil ++ h = h := rfl

@[simp] lemma cons_append (a : α) (children siblings h : Hedge α) :
    cons a children siblings ++ h = cons a children (siblings ++ h) := rfl

@[simp] lemma append_nil (h : Hedge α) : h ++ nil = h := by
  induction h with
  | nil => rfl
  | cons a children siblings _ ih => rw [cons_append, ih]

@[simp] lemma map_append (f : α → β) (h k : Hedge α) : (h ++ k).map f = h.map f ++ k.map f := by
  induction h with
  | nil => rfl
  | cons a children siblings _ ih => rw [cons_append, map, ih, map, cons_append]

@[simp] lemma map_map {γ : Type} (f : α → β) (g : β → γ) (h : Hedge α) : (h.map f).map g = h.map (g ∘ f) := by
  induction h with
  | nil => rfl
  | cons a children siblings ihc ihs => rw [map, map, map, ihc, ihs]; rfl

@[simp] lemma map_id (h : Hedge α) : h.map id = h := by
  induction h with
  | nil => rfl
  | cons a children siblings ihc ihs => rw [map, ihc, ihs, id]

@[simp] lemma nodes_append (h k : Hedge α) : (h ++ k).nodes = h.nodes ++ k.nodes := by
  induction h with
  | nil => rfl
  | cons a children siblings _ ih => rw [cons_append, nodes, ih, nodes, List.cons_append, List.append_assoc]

lemma nodes_map (f : α → β) (h : Hedge α) : (h.map f).nodes = h.nodes.map fun node => (f node.1, node.2.map f) := by
  induction h with
  | nil => rfl
  | cons a children siblings ihc ihs => rw [map, nodes, ihc, ihs, nodes, List.map_cons, List.map_append]

lemma find_append (h k : Hedge α) : (h ++ k).find p = (h.find p).or (k.find p) := by
  induction h with
  | nil => rfl
  | cons a children siblings _ ih =>
    rw [cons_append, find, find, ih]
    split_ifs
    · rfl
    · rw [Option.or_assoc]

@[simp] lemma roots_ofRoots (l : List (α × Hedge α)) : (ofRoots l).roots = l := by
  induction l with
  | nil => rfl
  | cons node l ih => rw [ofRoots, roots, ih]

@[simp] lemma roots_append (h k : Hedge α) : (h ++ k).roots = h.roots ++ k.roots := by
  induction h with
  | nil => rfl
  | cons a children siblings _ ih => rw [cons_append, roots, ih, roots, List.cons_append]

variable {P Q : α → Hedge α → Prop} {p : α → Bool}

@[simp] lemma allNodes_append {h k : Hedge α} : (h ++ k).AllNodes P ↔ h.AllNodes P ∧ k.AllNodes P := by
  induction h with
  | nil => simp [AllNodes]
  | cons a children siblings _ ih => rw [cons_append, AllNodes, ih, AllNodes, and_assoc, and_assoc]

lemma AllNodes.imp {h : Hedge α} (hP : h.AllNodes P) (himp : ∀ a children, P a children → Q a children) :
    h.AllNodes Q := by
  induction h with
  | nil => trivial
  | cons a children siblings ihc ihs => exact ⟨himp a children hP.1, ihc hP.2.1, ihs hP.2.2⟩

lemma AllNodes.childrenOf {h : Hedge α} (hP : h.AllNodes P) (p : α → Bool) : (h.childrenOf p).AllNodes P := by
  induction h with
  | nil => trivial
  | cons a children siblings _ ih =>
    unfold Hedge.childrenOf
    by_cases ha : p a = true
    · rw [if_pos ha]
      exact allNodes_append.mpr ⟨hP.2.1, ih hP.2.2⟩
    · rw [if_neg ha]
      exact ih hP.2.2

lemma AllNodes.of_mem_roots {h : Hedge α} (hP : h.AllNodes P) {a : α} {children : Hedge α}
    (hmem : (a, children) ∈ h.roots) : P a children ∧ children.AllNodes P := by
  induction h with
  | nil => cases hmem
  | cons b children' siblings _ ih =>
    rcases List.mem_cons.mp hmem with heq | hmem
    · obtain ⟨rfl, rfl⟩ := Prod.mk.inj heq
      exact ⟨hP.1, hP.2.1⟩
    · exact ih hP.2.2 hmem

lemma AllNodes.eraseRoot {h : Hedge α} (hP : h.AllNodes P) (p : α → Bool) : (h.eraseRoot p).AllNodes P := by
  induction h with
  | nil => trivial
  | cons a children siblings _ ih =>
    unfold Hedge.eraseRoot
    by_cases ha : p a = true
    · rw [if_pos ha]
      exact hP.2.2
    · rw [if_neg ha]
      exact ⟨hP.1, hP.2.1, ih hP.2.2⟩

section Labels

variable {P : α → Prop} {Q : β → Prop}

lemma AllNodes.onRoots {h : Hedge α} (hP : h.AllNodes fun a _ => P a) (p : α → Bool) {f : Hedge α → Hedge α}
    (hf : ∀ k : Hedge α, (k.AllNodes fun a _ => P a) → (f k).AllNodes fun a _ => P a) :
    (h.onRoots p f).AllNodes fun a _ => P a := by
  induction h with
  | nil => trivial
  | cons a children siblings _ ih =>
    obtain ⟨ha, hc, hs⟩ := hP
    refine ⟨ha, ?_, ih hs⟩
    by_cases hp : p a = true
    · rw [if_pos hp]
      exact hf children hc
    · rw [if_neg hp]
      exact hc

lemma AllNodes.mapRoots {h : Hedge α} (hP : h.AllNodes fun a _ => P a) {f : α → α} (hf : ∀ a, P a → P (f a)) :
    (h.mapRoots f).AllNodes fun a _ => P a := by
  induction h with
  | nil => trivial
  | cons a children siblings _ ih => exact ⟨hf a hP.1, hP.2.1, ih hP.2.2⟩

lemma AllNodes.map {h : Hedge α} (hP : h.AllNodes fun a _ => P a) {f : α → β} (hf : ∀ a, P a → Q (f a)) :
    (h.map f).AllNodes fun b _ => Q b := by
  induction h with
  | nil => trivial
  | cons a children siblings ihc ihs => exact ⟨hf a hP.1, ihc hP.2.1, ihs hP.2.2⟩

lemma allNodes_ofRoots {l : List (α × Hedge α)} (hP : ∀ node ∈ l, P node.1 ∧ node.2.AllNodes fun a _ => P a) :
    (ofRoots l).AllNodes fun a _ => P a := by
  induction l with
  | nil => trivial
  | cons node l ih =>
    obtain ⟨ha, hc⟩ := hP node List.mem_cons_self
    exact ⟨ha, hc, ih fun node' hmem => hP node' (List.mem_cons_of_mem node hmem)⟩

end Labels

lemma find_eq_none_iff {h : Hedge α} : h.find p = none ↔ h.AllNodes fun a _ => p a = false := by
  induction h with
  | nil => exact ⟨fun _ => trivial, fun _ => rfl⟩
  | cons a children siblings ihc ihs =>
    rw [find, AllNodes, ← ihc, ← ihs]
    by_cases ha : p a = true
    · simp [ha]
    · simp [ha]

lemma find_eq_none {h : Hedge α} (hp : h.AllNodes fun a _ => p a = false) : h.find p = none :=
  find_eq_none_iff.mpr hp

lemma find_onRoots {P : α → Prop} {p q : α → Bool} {f : Hedge α → Hedge α} {h : Hedge α}
    (hP : h.AllNodes fun a _ => P a) (hpq : ∀ a, P a → p a = true → q a = false)
    (hf : ∀ k : Hedge α, (k.AllNodes fun a _ => P a) → (f k).find q = k.find q) :
    (h.onRoots p f).find q = h.find q := by
  induction h with
  | nil => rfl
  | cons a children siblings _ ih =>
    obtain ⟨ha, hc, hs⟩ := hP
    rw [onRoots, find, find, ih hs]
    by_cases hp : p a = true
    · have hq : ¬q a = true := by simp [hpq a ha hp]
      rw [if_pos hp, hf children hc, if_neg hq, if_neg hq]
    · rw [if_neg hp]

lemma find_afterRoots {p q : α → Bool} {new : Hedge α} (hnew : new.find q = none) (h : Hedge α) :
    (h.afterRoots p new).find q = h.find q := by
  induction h with
  | nil => rfl
  | cons a children siblings _ ih =>
    rw [afterRoots, find, find]
    by_cases hp : p a = true
    · rw [if_pos hp, find_append, hnew, Option.none_or, ih]
    · rw [if_neg hp, ih]

lemma find_spec {h : Hedge α} {a : α} {children : Hedge α} (hfind : h.find p = some (a, children)) :
    p a = true ∧ (a, children) ∈ h.nodes := by
  induction h with
  | nil => cases hfind
  | cons b k siblings ihc ihs =>
    rw [find] at hfind
    by_cases hb : p b = true
    · rw [if_pos hb] at hfind
      obtain ⟨rfl, rfl⟩ := Prod.mk.inj (Option.some.inj hfind)
      exact ⟨hb, List.mem_cons_self⟩
    · rw [if_neg hb, Option.or_eq_some_iff] at hfind
      rcases hfind with hfind | ⟨-, hfind⟩
      · exact ⟨(ihc hfind).1, List.mem_cons_of_mem _ (List.mem_append_left _ (ihc hfind).2)⟩
      · exact ⟨(ihs hfind).1, List.mem_cons_of_mem _ (List.mem_append_right _ (ihs hfind).2)⟩

lemma AllNodes.of_mem_nodes {h : Hedge α} (hP : h.AllNodes P) {a : α} {children : Hedge α}
    (hmem : (a, children) ∈ h.nodes) : P a children ∧ children.AllNodes P := by
  induction h with
  | nil => cases hmem
  | cons b k siblings ihc ihs =>
    rcases List.mem_cons.mp hmem with heq | hmem
    · obtain ⟨rfl, rfl⟩ := Prod.mk.inj heq
      exact ⟨hP.1, hP.2.1⟩
    · rcases List.mem_append.mp hmem with hmem | hmem
      · exact ihc hP.2.1 hmem
      · exact ihs hP.2.2 hmem

lemma AllNodes.afterRoots {h new : Hedge α} (hP : h.AllNodes P) (p : α → Bool) (hnew : new.AllNodes P) :
    (h.afterRoots p new).AllNodes P := by
  induction h with
  | nil => trivial
  | cons a children siblings _ ih =>
    obtain ⟨ha, hc, hs⟩ := hP
    rw [Hedge.afterRoots]
    refine ⟨ha, hc, ?_⟩
    split_ifs
    · exact allNodes_append.mpr ⟨hnew, ih hs⟩
    · exact ih hs

/-! ### Siblings with a label -/

section Roots

variable {q : α → Bool} {f : Hedge α → Hedge α}

@[simp] lemma rootsWith_append (h k : Hedge α) : (h ++ k).rootsWith p = h.rootsWith p ++ k.rootsWith p := by
  unfold rootsWith
  rw [roots_append, List.filter_append]

lemma rootsWith_cons (a : α) (children siblings : Hedge α) :
    (cons a children siblings).rootsWith p =
      if p a then (a, children) :: siblings.rootsWith p else siblings.rootsWith p := by
  unfold rootsWith
  rw [roots, List.filter_cons]

/-- The roots are the same ones after a change of the children of some. -/
lemma rootsWith_onRoots_eq (h : Hedge α) :
    (h.onRoots q f).rootsWith p = (h.rootsWith p).map fun node => (node.1, if q node.1 then f node.2 else node.2) := by
  induction h with
  | nil => rfl
  | cons a children siblings _ ih =>
    rw [onRoots, rootsWith_cons, rootsWith_cons, ih]
    by_cases ha : p a = true
    · rw [if_pos ha, if_pos ha, List.map_cons]
    · rw [if_neg ha, if_neg ha]

lemma rootsWith_onRoots (h : Hedge α) :
    (h.onRoots p f).rootsWith p = (h.rootsWith p).map fun node => (node.1, f node.2) := by
  rw [rootsWith_onRoots_eq]
  apply List.map_congr_left
  intro node hnode
  have hp : p node.1 = true := (List.mem_filter.mp hnode).2
  rw [if_pos hp]

lemma rootsWith_onRoots_of_disjoint (hpq : ∀ a, p a = true → q a = false) (h : Hedge α) :
    (h.onRoots q f).rootsWith p = h.rootsWith p := by
  rw [rootsWith_onRoots_eq]
  conv_rhs => rw [← List.map_id (h.rootsWith p)]
  apply List.map_congr_left
  intro node hnode
  have hp : p node.1 = true := (List.mem_filter.mp hnode).2
  rw [hpq node.1 hp, if_neg Bool.false_ne_true]
  rfl

lemma rootsWith_eraseRoot (hpq : ∀ a, p a = true → q a = false) (h : Hedge α) :
    (h.eraseRoot q).rootsWith p = h.rootsWith p := by
  induction h with
  | nil => rfl
  | cons a children siblings _ ih =>
    rw [Hedge.eraseRoot, rootsWith_cons]
    by_cases hq : q a = true
    · have ha : ¬p a = true := fun ha => by simp [hpq a ha] at hq
      rw [if_pos hq, if_neg ha]
    · rw [if_neg hq, rootsWith_cons, ih]

lemma rootsWith_eraseRoots (hpq : ∀ a, p a = true → q a = false) (h : Hedge α) :
    (h.eraseRoots q).rootsWith p = h.rootsWith p := by
  induction h with
  | nil => rfl
  | cons a children siblings _ ih =>
    rw [Hedge.eraseRoots, rootsWith_cons]
    by_cases hq : q a = true
    · have ha : ¬p a = true := fun ha => by simp [hpq a ha] at hq
      rw [if_pos hq, if_neg ha, ih]
    · rw [if_neg hq, rootsWith_cons, ih]

lemma rootsWith_map (g : α → β) (p : β → Bool) (h : Hedge α) :
    (h.map g).rootsWith p = (h.rootsWith fun a => p (g a)).map fun node => (g node.1, node.2.map g) := by
  induction h with
  | nil => rfl
  | cons a children siblings _ ih =>
    rw [map, rootsWith_cons, rootsWith_cons, ih]
    split_ifs <;> rfl

lemma childrenOf_eq (h : Hedge α) : h.childrenOf p = (h.rootsWith p).foldr (fun node k => node.2 ++ k) nil := by
  induction h with
  | nil => rfl
  | cons a children siblings _ ih =>
    rw [Hedge.childrenOf, rootsWith_cons, ih]
    split_ifs <;> rfl

lemma childrenOf_of_rootsWith_eq_nil {h : Hedge α} (hnil : h.rootsWith p = []) : h.childrenOf p = nil := by
  rw [childrenOf_eq, hnil]
  rfl

lemma childrenOf_of_rootsWith {h : Hedge α} {a : α} {c : Hedge α} (hone : h.rootsWith p = [(a, c)]) :
    h.childrenOf p = c := by
  rw [childrenOf_eq, hone, List.foldr_cons, List.foldr_nil, append_nil]

lemma onRoots_of_rootsWith_eq_nil {h : Hedge α} (hnil : h.rootsWith p = []) : h.onRoots p f = h := by
  induction h with
  | nil => rfl
  | cons a children siblings _ ih =>
    rw [rootsWith_cons] at hnil
    by_cases ha : p a = true
    · rw [if_pos ha] at hnil
      cases hnil
    · rw [if_neg ha] at hnil
      rw [onRoots, if_neg ha, ih hnil]

lemma afterRoots_of_rootsWith_eq_nil {h new : Hedge α} (hnil : h.rootsWith p = []) : h.afterRoots p new = h := by
  induction h with
  | nil => rfl
  | cons a children siblings _ ih =>
    rw [rootsWith_cons] at hnil
    by_cases ha : p a = true
    · rw [if_pos ha] at hnil
      cases hnil
    · rw [if_neg ha] at hnil
      rw [afterRoots, if_neg ha, ih hnil]

lemma onRoots_append (h k : Hedge α) : (h ++ k).onRoots p f = h.onRoots p f ++ k.onRoots p f := by
  induction h with
  | nil => rfl
  | cons a children siblings _ ih => rw [cons_append, onRoots, ih, onRoots, cons_append]

lemma append_assoc (h k l : Hedge α) : h ++ k ++ l = h ++ (k ++ l) := by
  induction h with
  | nil => rfl
  | cons a children siblings _ ih => rw [cons_append, cons_append, ih, cons_append]

lemma afterRoots_append (h k new : Hedge α) :
    (h ++ k).afterRoots p new = h.afterRoots p new ++ k.afterRoots p new := by
  induction h with
  | nil => rfl
  | cons a children siblings _ ih =>
    rw [cons_append, afterRoots, ih, afterRoots, cons_append]
    split_ifs
    · rw [append_assoc]
    · rfl

lemma map_onRoots {p : β → Bool} (g : α → β) {f' : Hedge β → Hedge β} (hf : ∀ k, (f k).map g = f' (k.map g))
    (h : Hedge α) : (h.onRoots (fun a => p (g a)) f).map g = (h.map g).onRoots p f' := by
  induction h with
  | nil => rfl
  | cons a children siblings _ ih =>
    rw [onRoots, map, ih, map, onRoots]
    split_ifs
    · rw [hf]
    · rfl

lemma map_afterRoots {p : β → Bool} (g : α → β) (new h : Hedge α) :
    (h.afterRoots (fun a => p (g a)) new).map g = (h.map g).afterRoots p (new.map g) := by
  induction h with
  | nil => rfl
  | cons a children siblings _ ih =>
    rw [afterRoots, map, map, afterRoots]
    split_ifs
    · rw [map_append, ih]
    · rw [ih]

variable {g : Hedge α → Option (Hedge α)} {a : α} {children : Hedge α}

lemma onRoot_eq_none {h : Hedge α} (hnil : h.rootsWith p = []) : h.onRoot p g = none := by
  induction h with
  | nil => rfl
  | cons b children' siblings _ ih =>
    rw [rootsWith_cons] at hnil
    by_cases hb : p b = true
    · rw [if_pos hb] at hnil
      cases hnil
    · rw [if_neg hb] at hnil
      rw [onRoot, if_neg hb, ih hnil]
      rfl

/-- The only one of the siblings with a label is the first one. -/
lemma onRoot_eq_some {h : Hedge α} (hone : h.rootsWith p = [(a, children)]) (hg : g children = some (f children)) :
    h.onRoot p g = some (h.onRoots p f) := by
  induction h with
  | nil => cases hone
  | cons b children' siblings _ ih =>
    rw [rootsWith_cons] at hone
    by_cases hb : p b = true
    · rw [if_pos hb] at hone
      obtain ⟨hnode, hrest⟩ := List.cons.inj hone
      obtain ⟨rfl, rfl⟩ := Prod.mk.inj hnode
      rw [onRoot, if_pos hb, hg, onRoots, if_pos hb, onRoots_of_rootsWith_eq_nil hrest]
    · rw [if_neg hb] at hone
      rw [onRoot, if_neg hb, ih hone, onRoots, if_neg hb]
      rfl

lemma onRoot_eq_none_of_children {h : Hedge α} (hone : h.rootsWith p = [(a, children)]) (hg : g children = none) :
    h.onRoot p g = none := by
  induction h with
  | nil => cases hone
  | cons b children' siblings _ ih =>
    rw [rootsWith_cons] at hone
    by_cases hb : p b = true
    · rw [if_pos hb] at hone
      obtain ⟨hnode, hrest⟩ := List.cons.inj hone
      obtain ⟨rfl, rfl⟩ := Prod.mk.inj hnode
      rw [onRoot, if_pos hb, hg, onRoot_eq_none hrest]
      rfl
    · rw [if_neg hb] at hone
      rw [onRoot, if_neg hb, ih hone]
      rfl

lemma onRoots_congr (f' : Hedge α → Hedge α) {h : Hedge α} (hf : ∀ node ∈ h.rootsWith p, f node.2 = f' node.2) :
    h.onRoots p f = h.onRoots p f' := by
  induction h with
  | nil => rfl
  | cons b k siblings _ ih =>
    rw [rootsWith_cons] at hf
    rw [onRoots, onRoots]
    by_cases hb : p b = true
    · rw [if_pos hb] at hf
      rw [if_pos hb, if_pos hb, hf (b, k) List.mem_cons_self,
        ih fun node hnode => hf node (List.mem_cons_of_mem _ hnode)]
    · rw [if_neg hb] at hf
      rw [if_neg hb, if_neg hb, ih hf]

lemma onRoots_id (h : Hedge α) : h.onRoots p id = h := by
  induction h with
  | nil => rfl
  | cons b k siblings _ ih =>
    rw [onRoots, ih, id, ite_self]

lemma onRoots_onRoots (f' : Hedge α → Hedge α) (h : Hedge α) :
    (h.onRoots p f).onRoots p f' = h.onRoots p fun k => f' (f k) := by
  induction h with
  | nil => rfl
  | cons b k siblings _ ih =>
    rw [onRoots, onRoots, onRoots, ih]
    split_ifs <;> rfl

/-- Changing the children of the siblings that were inserted. -/
lemma onRoots_afterRoots {h new new' : Hedge α} (hnil : h.rootsWith q = []) (hnew : new.onRoots q f = new') :
    (h.afterRoots p new).onRoots q f = h.afterRoots p new' := by
  induction h with
  | nil => rfl
  | cons b k siblings _ ih =>
    rw [rootsWith_cons] at hnil
    have hb : ¬q b = true := by
      intro hb
      rw [if_pos hb] at hnil
      cases hnil
    rw [if_neg hb] at hnil
    rw [afterRoots, onRoots, if_neg hb, afterRoots]
    split_ifs
    · rw [onRoots_append, hnew, ih hnil]
    · rw [ih hnil]

lemma insertAfter_eq_some {h new : Hedge α} (hone : h.rootsWith p = [(a, children)]) :
    h.insertAfter p new = some (h.afterRoots p new) := by
  induction h with
  | nil => cases hone
  | cons b children' siblings _ ih =>
    rw [rootsWith_cons] at hone
    by_cases hb : p b = true
    · rw [if_pos hb] at hone
      rw [insertAfter, if_pos hb, afterRoots, if_pos hb, afterRoots_of_rootsWith_eq_nil (List.cons.inj hone).2]
    · rw [if_neg hb] at hone
      rw [insertAfter, if_neg hb, ih hone, afterRoots, if_neg hb]
      rfl

lemma rootsWith_afterRoots_of_nil {h new : Hedge α} (hnew : new.rootsWith q = []) :
    (h.afterRoots p new).rootsWith q = h.rootsWith q := by
  induction h with
  | nil => rfl
  | cons a children siblings _ ih =>
    rw [afterRoots, rootsWith_cons, rootsWith_cons]
    by_cases ha : p a = true
    · rw [if_pos ha, rootsWith_append, hnew, ih]
      rfl
    · rw [if_neg ha, ih]

/-- Behind the only one of the siblings with a label there is the inserted one. -/
lemma rootsWith_afterRoots {h new : Hedge α} (hone : h.rootsWith p = [(a, children)]) (hnil : h.rootsWith q = []) :
    (h.afterRoots p new).rootsWith q = new.rootsWith q := by
  induction h with
  | nil => cases hone
  | cons b children' siblings _ ih =>
    rw [rootsWith_cons] at hone hnil
    have hb' : ¬q b = true := by
      intro hb
      rw [if_pos hb] at hnil
      cases hnil
    rw [if_neg hb'] at hnil
    rw [afterRoots, rootsWith_cons, if_neg hb']
    by_cases hb : p b = true
    · rw [if_pos hb] at hone
      rw [if_pos hb, rootsWith_append, afterRoots_of_rootsWith_eq_nil (List.cons.inj hone).2, hnil, List.append_nil]
    · rw [if_neg hb] at hone
      rw [if_neg hb, ih hone hnil]

lemma find?_roots {h : Hedge α} : h.roots.find? (fun node => p node.1) = (h.rootsWith p).head? := by
  unfold rootsWith
  rw [List.head?_filter]

end Roots

/-! ### A node in whose place there is a hedge -/

inductive Replaced (a : α) (children new : Hedge α) : Hedge α → Hedge α → Prop
  | here (siblings : Hedge α) : Replaced a children new (cons a children siblings) (new ++ siblings)
  | child {b : α} {h h' siblings : Hedge α} (hR : Replaced a children new h h') :
      Replaced a children new (cons b h siblings) (cons b h' siblings)
  | sibling {b : α} {k h h' : Hedge α} (hR : Replaced a children new h h') :
      Replaced a children new (cons b k h) (cons b k h')

section Replaced

variable {a : α} {children new h h' : Hedge α} {q : α → Bool}

lemma replaced_of_find (hfind : h.find p = some (a, children)) (new : Hedge α) :
    Replaced a children new h (h.replaceFirst p new) := by
  induction h with
  | nil => cases hfind
  | cons b k siblings ihc ihs =>
    rw [find] at hfind
    rw [replaceFirst]
    by_cases hb : p b = true
    · rw [if_pos hb] at hfind ⊢
      obtain ⟨rfl, rfl⟩ := Prod.mk.inj (Option.some.inj hfind)
      exact Replaced.here siblings
    · rw [if_neg hb] at hfind ⊢
      cases hk : k.find p with
      | none =>
        rw [hk, Option.none_or] at hfind
        rw [if_neg (by simp)]
        exact Replaced.sibling (ihs hfind)
      | some node =>
        rw [hk, Option.some_or] at hfind
        rw [if_pos (by simp)]
        exact Replaced.child (ihc (hk.trans hfind))

lemma Replaced.map (f : α → β) (hR : Replaced a children new h h') :
    Replaced (f a) (children.map f) (new.map f) (h.map f) (h'.map f) := by
  induction hR with
  | here siblings =>
    rw [map_append]
    exact Replaced.here _
  | child _ ih => exact Replaced.child ih
  | sibling _ ih => exact Replaced.sibling ih

lemma Replaced.append_left (hR : Replaced a children new h h') (l : Hedge α) :
    Replaced a children new (l ++ h) (l ++ h') := by
  induction l with
  | nil => exact hR
  | cons b k siblings _ ih => exact Replaced.sibling ih

lemma Replaced.allNodes {P : α → Hedge α → Prop} (hR : Replaced a children new h h') (hP : h.AllNodes P)
    (hnew : new.AllNodes P) (hstable : ∀ b k k', Replaced a children new k k' → P b k → P b k') : h'.AllNodes P := by
  induction hR with
  | here siblings => exact allNodes_append.mpr ⟨hnew, hP.2.2⟩
  | child hR ih => exact ⟨hstable _ _ _ hR hP.1, ih hP.2.1, hP.2.2⟩
  | sibling _ ih => exact ⟨hP.1, hP.2.1, ih hP.2.2⟩

lemma Replaced.mem_nodes (hR : Replaced a children new h h') : (a, children) ∈ h.nodes := by
  induction hR with
  | here siblings => exact List.mem_cons_self
  | child _ ih => exact List.mem_cons_of_mem _ (List.mem_append_left _ ih)
  | sibling _ ih => exact List.mem_cons_of_mem _ (List.mem_append_right _ ih)

lemma Replaced.roots (hR : Replaced a children new h h') (ha : a ∉ h.roots.map Prod.fst) :
    h'.roots.map Prod.fst = h.roots.map Prod.fst := by
  induction hR with
  | here siblings => exact absurd List.mem_cons_self ha
  | child _ _ => rfl
  | @sibling b _ _ _ _ ih =>
    have htail := ih fun hmem => ha (List.mem_cons_of_mem b hmem)
    rw [Hedge.roots, Hedge.roots, List.map_cons, List.map_cons, htail]

/-- The siblings with a label stay as long as there are none of them in the new hedge, except that the children of
one of them may change in the same way. -/
lemma Replaced.rootsWith (hR : Replaced a children new h h') (ha : p a = false)
    (hnew : a ∈ h.roots.map Prod.fst → new.rootsWith p = []) :
    h'.rootsWith p = h.rootsWith p ∨ ∃ l r b k k', Replaced a children new k k' ∧
      h.rootsWith p = l ++ (b, k) :: r ∧ h'.rootsWith p = l ++ (b, k') :: r := by
  induction hR with
  | here siblings =>
    left
    rw [rootsWith_append, hnew List.mem_cons_self, rootsWith_cons, if_neg (by simp [ha])]
    rfl
  | @child b k k' siblings hR _ =>
    rw [rootsWith_cons, rootsWith_cons]
    by_cases hb : p b = true
    · right
      rw [if_pos hb, if_pos hb]
      exact ⟨[], _, b, k, k', hR, rfl, rfl⟩
    · left
      rw [if_neg hb, if_neg hb]
  | @sibling b k _ _ hR ih =>
    rw [rootsWith_cons, rootsWith_cons]
    rcases ih fun hmem => hnew (List.mem_cons_of_mem b hmem) with heq | ⟨l, r, c, m, m', hm, hl, hr⟩
    · left
      rw [heq]
    · right
      by_cases hb : p b = true
      · rw [if_pos hb, if_pos hb, hl, hr]
        exact ⟨(b, k) :: l, r, c, m, m', hm, rfl, rfl⟩
      · rw [if_neg hb, if_neg hb]
        exact ⟨l, r, c, m, m', hm, hl, hr⟩

/-- Replacing a node and changing the children of siblings with another label are independent. -/
lemma Replaced.onRoots {f : Hedge α → Hedge α} (hR : Replaced a children new h h') (ha : p a = false)
    (hnew : a ∈ h.roots.map Prod.fst → new.rootsWith p = [])
    (hf : ∀ b k k', (b, k) ∈ h.rootsWith p → Replaced a children new k k' → Replaced a children new (f k) (f k')) :
    Replaced a children new (h.onRoots p f) (h'.onRoots p f) := by
  induction hR with
  | here siblings =>
    rw [onRoots_append, onRoots_of_rootsWith_eq_nil (hnew List.mem_cons_self), Hedge.onRoots, if_neg (by simp [ha])]
    exact Replaced.here _
  | @child b k k' siblings hR _ =>
    rw [Hedge.onRoots, Hedge.onRoots]
    by_cases hb : p b = true
    · rw [if_pos hb, if_pos hb]
      refine Replaced.child (hf b k k' ?_ hR)
      rw [rootsWith_cons, if_pos hb]
      exact List.mem_cons_self
    · rw [if_neg hb, if_neg hb]
      exact Replaced.child hR
  | @sibling b k _ _ hR ih =>
    rw [Hedge.onRoots, Hedge.onRoots]
    refine Replaced.sibling (ih (fun hmem => hnew (List.mem_cons_of_mem b hmem)) fun c m m' hmem => hf c m m' ?_)
    rw [rootsWith_cons]
    split_ifs
    · exact List.mem_cons_of_mem _ hmem
    · exact hmem

lemma Replaced.afterRoots {inserted : Hedge α} (hR : Replaced a children new h h') (ha : p a = false)
    (hnew : a ∈ h.roots.map Prod.fst → new.rootsWith p = []) :
    Replaced a children new (h.afterRoots p inserted) (h'.afterRoots p inserted) := by
  induction hR with
  | here siblings =>
    rw [afterRoots_append, afterRoots_of_rootsWith_eq_nil (hnew List.mem_cons_self), Hedge.afterRoots,
      if_neg (by simp [ha])]
    exact Replaced.here _
  | child hR _ =>
    rw [Hedge.afterRoots, Hedge.afterRoots]
    exact Replaced.child hR
  | @sibling b _ _ _ _ ih =>
    have hsiblings := ih fun hmem => hnew (List.mem_cons_of_mem b hmem)
    rw [Hedge.afterRoots, Hedge.afterRoots]
    split_ifs
    · exact Replaced.sibling (hsiblings.append_left inserted)
    · exact Replaced.sibling hsiblings

end Replaced

/-! ### Hedges of the same shape -/

inductive Related (R : α → β → Prop) : Hedge α → Hedge β → Prop
  | nil : Related R nil nil
  | cons {a : α} {b : β} {children siblings : Hedge α} {children' siblings' : Hedge β} (hlabel : R a b)
      (hchildren : Related R children children') (hsiblings : Related R siblings siblings') :
      Related R (cons a children siblings) (cons b children' siblings')

section Related

variable {R S : α → β → Prop} {h k : Hedge α} {h' : Hedge β}

lemma mapM_related {f : α → Except ε β} (hm : h.mapM f = .ok h') : Related (fun a b => f a = .ok b) h h' := by
  induction h generalizing h' with
  | nil =>
    obtain rfl := Except.ok.inj hm
    exact Related.nil
  | cons a children siblings ihc ihs =>
    obtain ⟨b, hb, hm⟩ := bind_eq_ok hm
    obtain ⟨children', hchildren, hm⟩ := bind_eq_ok hm
    obtain ⟨siblings', hsiblings, hm⟩ := bind_eq_ok hm
    obtain rfl := Except.ok.inj hm
    exact Related.cons hb (ihc hchildren) (ihs hsiblings)

lemma mapM_ok {f : α → Except ε β} (hf : h.AllNodes fun a _ => ∃ b, f a = .ok b) : ∃ k, h.mapM f = .ok k := by
  induction h with
  | nil => exact ⟨nil, rfl⟩
  | cons a children siblings ihc ihs =>
    obtain ⟨⟨b, hb⟩, hc, hs⟩ := hf
    obtain ⟨children', hchildren⟩ := ihc hc
    obtain ⟨siblings', hsiblings⟩ := ihs hs
    refine ⟨cons b children' siblings', ?_⟩
    rw [mapM, hb, hchildren, hsiblings]
    rfl

/-- A change of labels that is possible for some of them. -/
lemma mapM_eq_ok_iff {f : α → Except ε β} {P : α → Prop} {g : α → β} (hf : ∀ a b, f a = .ok b ↔ P a ∧ b = g a) :
    h.mapM f = .ok h' ↔ (h.AllNodes fun a _ => P a) ∧ h' = h.map g := by
  constructor
  · intro hm
    have hrelated := mapM_related hm
    clear hm
    induction hrelated with
    | nil => exact ⟨trivial, rfl⟩
    | cons hlabel _ _ ihc ihs =>
      obtain ⟨hP, rfl⟩ := (hf _ _).mp hlabel
      obtain ⟨hPc, rfl⟩ := ihc
      obtain ⟨hPs, rfl⟩ := ihs
      exact ⟨⟨hP, hPc, hPs⟩, rfl⟩
  · rintro ⟨hP, rfl⟩
    induction h with
    | nil => rfl
    | cons a children siblings ihc ihs =>
      obtain ⟨ha, hc, hs⟩ := hP
      rw [mapM, (hf a (g a)).mpr ⟨ha, rfl⟩, ihc hc, ihs hs]
      rfl

/-- Two passes over the labels are one. -/
lemma mapM_bind_mapM_eq_ok_iff {γ : Type} {f : α → Except ε β} {g : β → Except ε γ} {l : Hedge γ} :
    (h.mapM f >>= fun k => k.mapM g) = .ok l ↔ h.mapM (fun a => f a >>= g) = .ok l := by
  induction h generalizing l with
  | nil => rfl
  | cons a children siblings ihc ihs =>
    constructor
    · intro hm
      obtain ⟨k, hk, hkg⟩ := bind_eq_ok hm
      obtain ⟨b, hb, hk⟩ := bind_eq_ok hk
      obtain ⟨children', hchildren, hk⟩ := bind_eq_ok hk
      obtain ⟨siblings', hsiblings, hk⟩ := bind_eq_ok hk
      obtain rfl := Except.ok.inj hk
      obtain ⟨c, hc, hkg⟩ := bind_eq_ok hkg
      obtain ⟨children'', hchildren', hkg⟩ := bind_eq_ok hkg
      obtain ⟨siblings'', hsiblings', hkg⟩ := bind_eq_ok hkg
      rw [mapM, hb, ok_bind, hc, ok_bind, ihc.mp (by rw [hchildren]; exact hchildren'), ok_bind,
        ihs.mp (by rw [hsiblings]; exact hsiblings'), ok_bind]
      exact hkg
    · intro hm
      obtain ⟨c, hbc, hm⟩ := bind_eq_ok hm
      obtain ⟨children'', hchildren, hm⟩ := bind_eq_ok hm
      obtain ⟨siblings'', hsiblings, hm⟩ := bind_eq_ok hm
      obtain ⟨b, hb, hc⟩ := bind_eq_ok hbc
      obtain ⟨children', hchildren, hchildren'⟩ := bind_eq_ok (ihc.mpr hchildren)
      obtain ⟨siblings', hsiblings, hsiblings'⟩ := bind_eq_ok (ihs.mpr hsiblings)
      rw [mapM, hb, ok_bind, hchildren, ok_bind, hsiblings, ok_bind]
      change mapM g (cons b children' siblings') = _
      rw [mapM, hc, ok_bind, hchildren', ok_bind, hsiblings', ok_bind]
      exact hm

lemma Related.rootsWith {p : α → Bool} {q : β → Bool} (hR : Related R h h') (hpq : ∀ a b, R a b → p a = q b) :
    List.Forall₂ (fun node node' => R node.1 node'.1 ∧ Related R node.2 node'.2) (h.rootsWith p) (h'.rootsWith q) := by
  induction hR with
  | nil => exact List.Forall₂.nil
  | cons hlabel hchildren _ _ ih =>
    rw [rootsWith_cons, rootsWith_cons, hpq _ _ hlabel]
    split_ifs
    · exact List.Forall₂.cons ⟨hlabel, hchildren⟩ ih
    · exact ih

end Related

end Hedge

end Muen.Lib
