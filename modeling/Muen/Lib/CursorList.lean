import Mathlib.Data.List.Basic
import Mathlib.Data.List.Nodup
import Mathlib.Tactic

/-!
# Doubly linked lists with cursors

The container that Ada calls a doubly linked list. A node keeps its identity while its
neighbours are inserted, deleted and replaced, so a cursor is the number its node got on
insertion; a cursor whose node has been deleted designates nothing any more. Every
operation is described by what it does to the split of the node list at the cursor.
-/

namespace Muen.Lib

/-- A position in a list. `none` is `No_Element`. -/
abbrev Cursor := Option Nat

/-- A list of numbered nodes. `fresh` is above the number of every node. -/
structure CursorList (α : Type) where
  nodes : List (Nat × α)
  fresh : Nat
  nodup : (nodes.map Prod.fst).Nodup
  bound : ∀ n ∈ nodes, n.1 < fresh

namespace CursorList

variable {α : Type}

/-- The number of the first node of a chain of nodes. -/
def headCursor (ns : List (Nat × α)) : Cursor := ns.head?.map Prod.fst

@[simp] lemma headCursor_nil : headCursor ([] : List (Nat × α)) = none := rfl

@[simp] lemma headCursor_cons (n : Nat × α) (ns : List (Nat × α)) :
    headCursor (n :: ns) = some n.1 := rfl

def nextIn (k : Nat) : List (Nat × α) → Cursor
  | [] => none
  | n :: ns => if n.1 = k then headCursor ns else nextIn k ns

def elementIn (k : Nat) : List (Nat × α) → Option α
  | [] => none
  | n :: ns => if n.1 = k then some n.2 else elementIn k ns

def insertIn (k : Nat) (m : Nat × α) : List (Nat × α) → List (Nat × α)
  | [] => [m]
  | n :: ns => if n.1 = k then m :: n :: ns else n :: insertIn k m ns

def updateIn (k : Nat) (f : α → α) (ns : List (Nat × α)) : List (Nat × α) :=
  ns.map (fun n => if n.1 = k then (n.1, f n.2) else n)

def deleteIn (k : Nat) (ns : List (Nat × α)) : List (Nat × α) :=
  ns.filter (fun n => n.1 ≠ k)

lemma insertIn_perm (k : Nat) (m : Nat × α) (ns : List (Nat × α)) :
    (insertIn k m ns).Perm (m :: ns) := by
  induction ns with
  | nil => simp [insertIn]
  | cons n ns ih =>
    rw [insertIn]
    by_cases h : n.1 = k
    · rw [if_pos h]
    · rw [if_neg h]
      exact (ih.cons n).trans (List.Perm.swap m n ns)

lemma updateIn_map_fst (k : Nat) (f : α → α) (ns : List (Nat × α)) :
    (updateIn k f ns).map Prod.fst = ns.map Prod.fst := by
  rw [updateIn, List.map_map]
  apply List.map_congr_left
  intro n _
  by_cases h : n.1 = k <;> simp [h]

/-- The list without nodes. -/
def empty : CursorList α := ⟨[], 0, by simp, by simp⟩

/-- The elements in list order. -/
def elems (l : CursorList α) : List α := l.nodes.map Prod.snd

def first (l : CursorList α) : Cursor := headCursor l.nodes

/-- The node after the given one; `No_Element` has no successor but itself. -/
def next (l : CursorList α) (c : Cursor) : Cursor := c.bind (fun k => nextIn k l.nodes)

/-- The element designated by a cursor. `none` is the exception that Ada raises for
`No_Element` and for a cursor whose node is gone. -/
def element (l : CursorList α) (c : Cursor) : Option α := c.bind (fun k => elementIn k l.nodes)

def updateElement (l : CursorList α) (k : Nat) (f : α → α) : CursorList α where
  nodes := updateIn k f l.nodes
  fresh := l.fresh
  nodup := by rw [updateIn_map_fst]; exact l.nodup
  bound := by
    intro n hn
    have hm : n.1 ∈ l.nodes.map Prod.fst := by
      rw [← updateIn_map_fst k f l.nodes]
      exact List.mem_map_of_mem hn
    obtain ⟨m, hm, he⟩ := List.mem_map.mp hm
    rw [← he]
    exact l.bound m hm

def replaceElement (l : CursorList α) (k : Nat) (x : α) : CursorList α :=
  l.updateElement k (fun _ => x)

def delete (l : CursorList α) (k : Nat) : CursorList α where
  nodes := deleteIn k l.nodes
  fresh := l.fresh
  nodup := l.nodup.sublist (List.filter_sublist.map Prod.fst)
  bound := fun n hn => l.bound n (List.mem_of_mem_filter hn)

lemma fresh_notMem (l : CursorList α) : l.fresh ∉ l.nodes.map Prod.fst := by
  intro h
  obtain ⟨n, hn, he⟩ := List.mem_map.mp h
  have := l.bound n hn
  omega

/-- A new node before the given one, or behind the last one for `No_Element`. -/
def insertBefore (l : CursorList α) (c : Cursor) (x : α) : CursorList α where
  nodes := match c with
    | none => l.nodes ++ [(l.fresh, x)]
    | some k => insertIn k (l.fresh, x) l.nodes
  fresh := l.fresh + 1
  nodup := by
    have hcons : ((l.fresh, x) :: l.nodes).map Prod.fst |>.Nodup :=
      List.nodup_cons.mpr ⟨l.fresh_notMem, l.nodup⟩
    cases c with
    | none => exact ((List.perm_append_singleton (l.fresh, x) l.nodes).map Prod.fst).nodup_iff.mpr hcons
    | some k => exact ((insertIn_perm k (l.fresh, x) l.nodes).map Prod.fst).nodup_iff.mpr hcons
  bound := by
    have hcons : ∀ n ∈ (l.fresh, x) :: l.nodes, n.1 < l.fresh + 1 := by
      intro n hn
      rcases List.mem_cons.mp hn with rfl | hn
      · exact Nat.lt_succ_self _
      · exact Nat.lt_succ_of_lt (l.bound n hn)
    cases c with
    | none => exact fun n hn => hcons n ((List.perm_append_singleton _ _).mem_iff.mp hn)
    | some k => exact fun n hn => hcons n ((insertIn_perm k _ _).mem_iff.mp hn)

/-! ### The operations at a split of the node list -/

section Split

variable {l : CursorList α} {pre post : List (Nat × α)} {k : Nat} {x : α}

lemma key_notMem_left (h : l.nodes = pre ++ (k, x) :: post) : ∀ n ∈ pre, n.1 ≠ k := by
  have hd := l.nodup
  rw [h, List.map_append, List.map_cons, List.nodup_append] at hd
  intro n hn he
  exact hd.2.2 n.1 (List.mem_map_of_mem hn) k (List.mem_cons_self) he

lemma key_notMem_right (h : l.nodes = pre ++ (k, x) :: post) : ∀ n ∈ post, n.1 ≠ k := by
  have hd := l.nodup
  rw [h, List.map_append, List.map_cons, List.nodup_append, List.nodup_cons] at hd
  intro n hn he
  exact hd.2.1.1 (List.mem_map.mpr ⟨n, hn, he⟩)

lemma nextIn_append (hp : ∀ n ∈ pre, n.1 ≠ k) :
    nextIn k (pre ++ (k, x) :: post) = headCursor post := by
  induction pre with
  | nil => simp [nextIn]
  | cons n pre ih =>
    rw [List.cons_append, nextIn, if_neg (hp n List.mem_cons_self)]
    exact ih (fun m hm => hp m (List.mem_cons_of_mem n hm))

lemma elementIn_append (hp : ∀ n ∈ pre, n.1 ≠ k) :
    elementIn k (pre ++ (k, x) :: post) = some x := by
  induction pre with
  | nil => simp [elementIn]
  | cons n pre ih =>
    rw [List.cons_append, elementIn, if_neg (hp n List.mem_cons_self)]
    exact ih (fun m hm => hp m (List.mem_cons_of_mem n hm))

lemma insertIn_append (m : Nat × α) (hp : ∀ n ∈ pre, n.1 ≠ k) :
    insertIn k m (pre ++ (k, x) :: post) = pre ++ m :: (k, x) :: post := by
  induction pre with
  | nil => simp [insertIn]
  | cons n pre ih =>
    rw [List.cons_append, insertIn, if_neg (hp n List.mem_cons_self),
      ih (fun m hm => hp m (List.mem_cons_of_mem n hm)), List.cons_append]

lemma updateIn_of_forall_ne (f : α → α) (hp : ∀ n ∈ pre, n.1 ≠ k) : updateIn k f pre = pre := by
  have h : pre.map (fun n => if n.1 = k then (n.1, f n.2) else n) = pre.map id :=
    List.map_congr_left (fun n hn => if_neg (hp n hn))
  rw [updateIn, h, List.map_id]

lemma deleteIn_of_forall_ne (hp : ∀ n ∈ pre, n.1 ≠ k) : deleteIn k pre = pre := by
  apply List.filter_eq_self.mpr
  intro n hn
  simpa using hp n hn

lemma element_of_split (h : l.nodes = pre ++ (k, x) :: post) : l.element (some k) = some x := by
  change elementIn k l.nodes = some x
  rw [h]
  exact elementIn_append (key_notMem_left h)

lemma next_of_split (h : l.nodes = pre ++ (k, x) :: post) : l.next (some k) = headCursor post := by
  change nextIn k l.nodes = headCursor post
  rw [h]
  exact nextIn_append (key_notMem_left h)

lemma updateElement_nodes (h : l.nodes = pre ++ (k, x) :: post) (f : α → α) :
    (l.updateElement k f).nodes = pre ++ (k, f x) :: post := by
  change updateIn k f l.nodes = _
  have hl := updateIn_of_forall_ne f (key_notMem_left h)
  have hr := updateIn_of_forall_ne f (key_notMem_right h)
  unfold updateIn at hl hr ⊢
  rw [h, List.map_append, List.map_cons, hl, hr]
  simp

lemma replaceElement_nodes (h : l.nodes = pre ++ (k, x) :: post) (y : α) :
    (l.replaceElement k y).nodes = pre ++ (k, y) :: post :=
  updateElement_nodes h (fun _ => y)

lemma delete_nodes (h : l.nodes = pre ++ (k, x) :: post) : (l.delete k).nodes = pre ++ post := by
  change deleteIn k l.nodes = _
  have hl := deleteIn_of_forall_ne (key_notMem_left h)
  have hr := deleteIn_of_forall_ne (key_notMem_right h)
  unfold deleteIn at hl hr ⊢
  rw [h, List.filter_append, List.filter_cons, hl, hr]
  simp

lemma insertBefore_nodes (h : l.nodes = pre ++ post) (y : α) :
    (l.insertBefore (headCursor post) y).nodes = pre ++ (l.fresh, y) :: post := by
  cases post with
  | nil =>
    change l.nodes ++ [(l.fresh, y)] = _
    rw [h, List.append_nil]
  | cons n post =>
    change insertIn n.1 (l.fresh, y) l.nodes = _
    obtain ⟨k, x⟩ := n
    rw [h]
    exact insertIn_append _ (key_notMem_left h)

end Split

end CursorList

end Muen.Lib
