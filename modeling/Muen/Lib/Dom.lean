import Mathlib.Data.List.Nodup
import Mathlib.Logic.Function.Basic

/-!
# Document trees with moving nodes

Nodes are numbered and linked to their children and their parent. The links of a document can be changed while it is
walked along. What they say of the nodes below a node is a forest, where each node comes with the forest below it and
the rest of its siblings.
-/

namespace Muen.Lib

/-- Nodes with labels and links, where the parent of a node is the one that it is a child of. -/
structure Dom (α : Type) where
  label : Nat → α
  children : Nat → List Nat
  parent : Nat → Option Nat
  mem_children : ∀ a b, b ∈ children a ↔ parent b = some a
  nodup_children : ∀ a, (children a).Nodup

/-- A node in front of another one of a list. -/
def insertIn (c ref : Nat) : List Nat → List Nat
  | [] => [c]
  | b :: l => if b = ref then c :: b :: l else b :: insertIn c ref l

lemma mem_insertIn {a c ref : Nat} {l : List Nat} : a ∈ insertIn c ref l ↔ a = c ∨ a ∈ l := by
  induction l with
  | nil => simp [insertIn]
  | cons b l ih =>
    unfold insertIn
    by_cases hb : b = ref
    · rw [if_pos hb, List.mem_cons]
    · rw [if_neg hb, List.mem_cons, List.mem_cons, ih]
      exact or_left_comm

lemma nodup_insertIn {c ref : Nat} {l : List Nat} (hl : l.Nodup) (hc : c ∉ l) : (insertIn c ref l).Nodup := by
  induction l with
  | nil => exact List.nodup_singleton c
  | cons b l ih =>
    obtain ⟨hb, hrest⟩ := List.nodup_cons.mp hl
    unfold insertIn
    by_cases heq : b = ref
    · rw [if_pos heq]
      exact List.nodup_cons.mpr ⟨hc, hl⟩
    · rw [if_neg heq]
      refine List.nodup_cons.mpr ⟨?_, ih hrest fun hmem => hc (List.mem_cons_of_mem b hmem)⟩
      intro hmem
      rcases mem_insertIn.mp hmem with rfl | hmem
      · exact hc List.mem_cons_self
      · exact hb hmem

lemma insertIn_append {c ref : Nat} {l r : List Nat} (hl : ref ∉ l) :
    insertIn c ref (l ++ ref :: r) = l ++ c :: ref :: r := by
  induction l with
  | nil => simp [insertIn]
  | cons b l ih =>
    rw [List.mem_cons, not_or] at hl
    obtain ⟨hb, hrest⟩ := hl
    rw [List.cons_append, insertIn, if_neg (Ne.symm hb), ih hrest]
    rfl

namespace Dom

variable {α : Type}

def firstChild (d : Dom α) (a : Nat) : Option Nat := (d.children a).head?

def nextSibling (d : Dom α) (b : Nat) : Option Nat :=
  match d.parent b with
  | none => none
  | some a => ((d.children a).dropWhile (· ≠ b)).tail.head?

/-- The document without the link to the parent of a node. -/
def detach (d : Dom α) (b : Nat) : Dom α where
  label := d.label
  children a := (d.children a).erase b
  parent := Function.update d.parent b none
  mem_children a c := by
    rw [(d.nodup_children a).mem_erase_iff, d.mem_children]
    by_cases hc : c = b
    · simp [hc]
    · simp [hc]
  nodup_children a := (d.nodup_children a).erase b

def removeChild (d : Dom α) (a b : Nat) : Dom α := if b ∈ d.children a then d.detach b else d

/-- The document where a node is moved in front of a child of another one, if that child is there. -/
def insertBefore (d : Dom α) (a c ref : Nat) : Option (Dom α) :=
  if ref ∈ (d.detach c).children a then
    some {
      label := d.label
      children := Function.update (d.detach c).children a (insertIn c ref ((d.detach c).children a))
      parent := Function.update d.parent c (some a)
      mem_children := by
        intro b x
        by_cases hb : b = a
        · rw [hb, Function.update_self, mem_insertIn, (d.detach c).mem_children]
          by_cases hx : x = c
          · simp [hx]
          · simp [detach, hx]
        · rw [Function.update_of_ne hb, (d.detach c).mem_children]
          by_cases hx : x = c
          · simp [detach, hx, Ne.symm hb]
          · simp [detach, hx]
      nodup_children := by
        intro b
        by_cases hb : b = a
        · rw [hb, Function.update_self]
          apply nodup_insertIn ((d.detach c).nodup_children a)
          exact (d.nodup_children a).not_mem_erase
        · rw [Function.update_of_ne hb]
          exact (d.detach c).nodup_children b }
  else none

/-- The document whose nodes are counted in their order and come with their parents. -/
def ofParents (label : Nat → α) (parents : List (Option Nat)) : Dom α where
  label := label
  children a := (List.range parents.length).filter fun b => parents[b]?.join = some a
  parent b := parents[b]?.join
  mem_children a b := by
    rw [List.mem_filter, List.mem_range, decide_eq_true_eq]
    refine ⟨And.right, fun h => ⟨?_, h⟩⟩
    by_contra hle
    rw [List.getElem?_eq_none (Nat.le_of_not_lt hle)] at h
    cases h
  nodup_children _ := List.nodup_range.filter _

lemma not_mem_children_of_ne {d : Dom α} {a a' b : Nat} (h : b ∈ d.children a) (hne : a' ≠ a) :
    b ∉ d.children a' := by
  rw [d.mem_children] at h ⊢
  rw [h]
  exact fun heq => hne (Option.some.inj heq).symm

lemma not_mem_of_split {d : Dom α} {a b : Nat} {l r : List Nat} (h : d.children a = l ++ b :: r) : b ∉ l := by
  have hnodup := d.nodup_children a
  rw [h] at hnodup
  exact fun hmem => (List.disjoint_of_nodup_append hnodup) hmem List.mem_cons_self

lemma nextSibling_of_split {d : Dom α} {a b : Nat} {l r : List Nat} (h : d.children a = l ++ b :: r) :
    d.nextSibling b = r.head? := by
  have hparent : d.parent b = some a := by
    rw [← d.mem_children, h]
    simp
  have hb := not_mem_of_split h
  have hdrop : (l ++ b :: r).dropWhile (· ≠ b) = b :: r := by
    rw [List.dropWhile_append_of_pos]
    · simp
    · intro c hc
      simpa using fun heq : c = b => hb (heq ▸ hc)
  unfold nextSibling
  rw [hparent]
  dsimp only
  rw [h, hdrop, List.tail_cons]

lemma removeChild_spec {d : Dom α} {a b : Nat} {l r : List Nat} (h : d.children a = l ++ b :: r) :
    (d.removeChild a b).children a = l ++ r ∧ (d.removeChild a b).label = d.label ∧
      ∀ c ≠ a, (d.removeChild a b).children c = d.children c := by
  have hmem : b ∈ d.children a := by
    rw [h]
    simp
  have hb := not_mem_of_split h
  unfold removeChild
  rw [if_pos hmem]
  refine ⟨?_, rfl, ?_⟩
  · change (d.children a).erase b = l ++ r
    rw [h, List.erase_append_right _ hb, List.erase_cons_head]
  · intro c hc
    exact List.erase_of_not_mem (not_mem_children_of_ne hmem hc)

lemma insertBefore_spec {d : Dom α} {a c ref : Nat} {l r : List Nat} (h : d.children a = l ++ ref :: r)
    (hc : c ∉ d.children a) :
    ∃ d', d.insertBefore a c ref = some d' ∧ d'.children a = l ++ c :: ref :: r ∧ d'.label = d.label ∧
      ∀ b ≠ a, d'.children b = (d.children b).erase c := by
  have hdetached : (d.detach c).children a = l ++ ref :: r := by
    change (d.children a).erase c = _
    rw [List.erase_of_not_mem hc, h]
  have href := not_mem_of_split h
  have hmem : ref ∈ (d.detach c).children a := by
    rw [hdetached]
    simp
  unfold insertBefore
  rw [if_pos hmem]
  refine ⟨_, rfl, ?_, rfl, ?_⟩
  · dsimp only
    rw [Function.update_self, hdetached, insertIn_append href]
  · intro b hb
    dsimp only
    rw [Function.update_of_ne hb]
    rfl

end Dom

/-! ### Forests -/

inductive Forest
  | nil
  | cons (id : Nat) (children rest : Forest)

namespace Forest

def roots : Forest → List Nat
  | nil => []
  | cons id _ rest => id :: rest.roots

/-- The nodes in the order of the document. -/
def ids : Forest → List Nat
  | nil => []
  | cons id children rest => id :: (children.ids ++ rest.ids)

def append : Forest → Forest → Forest
  | nil, forest => forest
  | cons id children rest, forest => cons id children (rest.append forest)

instance : Append Forest := ⟨append⟩

/-- The forest is what the links say of the nodes below its roots. -/
def Repr {α : Type} (d : Dom α) : Forest → Prop
  | nil => True
  | cons id children rest => d.children id = children.roots ∧ children.Repr d ∧ rest.Repr d

@[simp] lemma nil_append (forest : Forest) : nil ++ forest = forest := rfl

@[simp] lemma cons_append (id : Nat) (children rest forest : Forest) :
    cons id children rest ++ forest = cons id children (rest ++ forest) := rfl

@[simp] lemma append_nil (forest : Forest) : forest ++ nil = forest := by
  induction forest with
  | nil => rfl
  | cons id children rest _ ih => rw [cons_append, ih]

@[simp] lemma roots_append (forest forest' : Forest) : (forest ++ forest').roots = forest.roots ++ forest'.roots := by
  induction forest with
  | nil => rfl
  | cons id children rest _ ih =>
    rw [cons_append, roots, ih]
    rfl

@[simp] lemma ids_append (forest forest' : Forest) : (forest ++ forest').ids = forest.ids ++ forest'.ids := by
  induction forest with
  | nil => rfl
  | cons id children rest _ ih =>
    rw [cons_append, ids, ih]
    simp [ids]

lemma roots_sublist (forest : Forest) : forest.roots.Sublist forest.ids := by
  induction forest with
  | nil => exact List.Sublist.slnil
  | cons id children rest _ ih => exact (ih.trans (List.sublist_append_right _ _)).cons_cons id

variable {α : Type} {d d' : Dom α}

lemma repr_append {forest forest' : Forest} (h : forest.Repr d) (h' : forest'.Repr d) :
    (forest ++ forest').Repr d := by
  induction forest with
  | nil => exact h'
  | cons id children rest _ ih => exact ⟨h.1, h.2.1, ih h.2.2⟩

/-- A forest stays when the links of its nodes do. -/
lemma Repr.congr {forest : Forest} (h : forest.Repr d) (hchildren : ∀ a ∈ forest.ids, d'.children a = d.children a) :
    forest.Repr d' := by
  induction forest with
  | nil => trivial
  | cons id children rest ihChildren ihRest =>
    obtain ⟨hid, hbelow, hrest⟩ := h
    refine ⟨(hchildren id List.mem_cons_self).trans hid, ihChildren hbelow ?_, ihRest hrest ?_⟩
    · intro a ha
      exact hchildren a (List.mem_cons_of_mem _ (List.mem_append_left _ ha))
    · intro a ha
      exact hchildren a (List.mem_cons_of_mem _ (List.mem_append_right _ ha))

end Forest

end Muen.Lib
