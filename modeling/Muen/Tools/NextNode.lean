import Muen.Tools.XmlNode

/-!
# Muxml.Utils: traversal of subtrees

`Next_Node` goes from a node to its first child, or else to the next sibling of the nearest node on the way up to the
stop node that has one. Applied again and again from the root of a subtree on, it passes the nodes of the subtree in
the order of the document.
-/

namespace Muen.Tools.Xml
open Muen.Lib

variable (d : Document) (onlyElementNodes : Bool) (stopNode : Option Nat)

/-- The way up to the first node with a next sibling; without a result the calls are nested too deep. -/
def backtrackUntilSibling : Nat → Nat → Option (Option Nat)
  | 0, _ => none
  | fuel + 1, node =>
    if some node = stopNode then some none
    else
      match d.nextSibling node with
      | some sibling => some (some sibling)
      | none =>
        match d.parent node with
        | some parent => backtrackUntilSibling fuel parent
        | none => some none

def recurseUntilElement (nextNode : Nat → Option (Option Nat)) (node : Option Nat) : Option (Option Nat) :=
  if node = stopNode then some none
  else
    match node with
    | none => some none
    | some n => if onlyElementNodes && !(d.label n).isElement then nextNode n else some (some n)

/-- The node that comes next when the nodes are not looked at. -/
def nextCandidate (fuel currentNode : Nat) : Option (Option Nat) :=
  match d.firstChild currentNode with
  | some child => some (some child)
  | none =>
    match d.nextSibling currentNode with
    | some sibling => some (some sibling)
    | none =>
      match d.parent currentNode with
      | some parent => backtrackUntilSibling d stopNode fuel parent
      | none => some none

def nextNode : Nat → Nat → Option (Option Nat)
  | 0, _ => none
  | fuel + 1, currentNode => do
    let node ← nextCandidate d stopNode fuel currentNode
    recurseUntilElement d onlyElementNodes stopNode (nextNode fuel) node

def nextNodeInSubtree (fuel rootNode currentNode : Nat) : Option (Option Nat) :=
  if currentNode ≠ rootNode ∨ d.children currentNode ≠ [] then
    nextNode d onlyElementNodes (some rootNode) fuel currentNode
  else some none

/-- The nodes that follow a node up to the end of the traversal. -/
def traverse (fuel rootNode : Nat) : Nat → Nat → Option (List Nat)
  | 0, _ => none
  | steps + 1, currentNode => do
    match ← nextNodeInSubtree d onlyElementNodes fuel rootNode currentNode with
    | none => return []
    | some node => return node :: (← traverse fuel rootNode steps node)

variable {d onlyElementNodes stopNode}

lemma backtrackUntilSibling_of_split {fuel p id : Nat} {l r : List Nat} (hparent : d.children p = l ++ id :: r)
    (hstop : stopNode ≠ some id) :
    backtrackUntilSibling d stopNode (fuel + 1) id =
      if r = [] then backtrackUntilSibling d stopNode fuel p else some r.head? := by
  have hup : d.parent id = some p := by
    rw [← d.mem_children, hparent]
    simp
  rw [backtrackUntilSibling, if_neg (Ne.symm hstop), Dom.nextSibling_of_split hparent]
  cases r with
  | nil =>
    rw [if_pos rfl, hup]
    rfl
  | cons s r => rw [if_neg (List.cons_ne_nil s r), List.head?_cons]

lemma head_roots (forest : Forest) : forest.roots.head? = forest.ids.head? := by
  cases forest <;> rfl

lemma roots_eq_nil {forest : Forest} : forest.roots = [] ↔ forest.ids = [] := by
  cases forest with
  | nil => exact Iff.rfl
  | cons id children rest => exact ⟨nofun, nofun⟩

/-- Behind the nodes of a forest comes what the way up from their parent leads to. -/
lemma nextCandidate_spec {forest : Forest} {p : Nat} {l : List Nat} (hparent : d.children p = l ++ forest.roots)
    (hrepr : forest.Repr d) (hstop : ∀ a ∈ forest.ids, stopNode ≠ some a) {k : Option Nat} {depth : Nat}
    (hend : ∀ fuel, depth ≤ fuel → backtrackUntilSibling d stopNode fuel p = some k) {u v : List Nat} {x : Nat}
    (hsplit : forest.ids = u ++ x :: v) {fuel : Nat} (hfuel : depth + forest.ids.length ≤ fuel) :
    nextCandidate d stopNode fuel x = some (v.head?.or k) := by
  induction forest generalizing p l k depth u v with
  | nil => simp [Forest.ids] at hsplit
  | cons id children rest ihChildren ihRest =>
    obtain ⟨hid, hreprChildren, hreprRest⟩ := hrepr
    simp only [Forest.ids, List.mem_cons, List.mem_append] at hstop
    have hlength : depth + (children.ids.length + rest.ids.length + 1) ≤ fuel := by
      simpa only [Forest.ids, List.length_cons, List.length_append] using hfuel
    have hup : d.parent id = some p := by
      rw [← d.mem_children, hparent]
      simp [Forest.roots]
    -- Where the way up from the node leads to.
    have hafter : ∀ n, depth + 1 ≤ n → backtrackUntilSibling d stopNode n id = some (rest.ids.head?.or k) := by
      intro n hn
      obtain ⟨n, rfl⟩ : ∃ m, n = m + 1 := ⟨n - 1, by omega⟩
      rw [backtrackUntilSibling_of_split hparent (hstop id (Or.inl rfl)), hend n (by omega), head_roots]
      cases hrest : rest.ids with
      | nil => rw [if_pos (roots_eq_nil.mpr hrest)]; rfl
      | cons s _ =>
        rw [if_neg fun h => by rw [roots_eq_nil.mp h] at hrest; cases hrest]
        rfl
    cases u with
    | nil =>
      obtain ⟨rfl, rfl⟩ := List.cons.inj hsplit
      unfold nextCandidate Dom.firstChild
      rw [hid, head_roots, Dom.nextSibling_of_split hparent, head_roots, hup]
      cases hchildren : children.ids with
      | cons c _ => rfl
      | nil =>
        cases hrest : rest.ids with
        | cons s _ => rfl
        | nil => exact hend fuel (by omega)
    | cons a u =>
      obtain ⟨rfl, hbelow⟩ := List.cons.inj hsplit
      rcases List.append_eq_append_iff.mp hbelow with ⟨w, hu, hrest⟩ | ⟨w, hchildren, hv⟩
      · have hsplitRest : (rest.ids : List Nat) = w ++ x :: v := hrest
        have hparent' : d.children p = (l ++ [id]) ++ rest.roots := by
          rw [hparent]
          simp [Forest.roots]
        exact ihRest hparent' hreprRest (fun a ha => hstop a (Or.inr (Or.inr ha))) hend hsplitRest (by omega)
      · cases w with
        | nil =>
          have hsplitRest : (rest.ids : List Nat) = [] ++ x :: v := hv.symm
          have hparent' : d.children p = (l ++ [id]) ++ rest.roots := by
            rw [hparent]
            simp [Forest.roots]
          exact ihRest hparent' hreprRest (fun a ha => hstop a (Or.inr (Or.inr ha))) hend hsplitRest (by omega)
        | cons y w =>
          obtain ⟨rfl, rfl⟩ := List.cons.inj hv
          have h := ihChildren (l := []) hid hreprChildren (fun a ha => hstop a (Or.inr (Or.inl ha))) hafter
            hchildren (by omega)
          rw [h]
          change _ = some ((w ++ rest.ids).head?.or k)
          rw [List.head?_append, Option.or_assoc]

/-- The nodes below a node are those of a forest. -/
structure IsSubtree (d : Document) (rootNode : Nat) (forest : Forest) : Prop where
  repr : (Forest.cons rootNode forest .nil).Repr d
  nodup : (rootNode :: forest.ids).Nodup

/-- The nodes that a traversal does not pass over. -/
def wanted (d : Document) (onlyElementNodes : Bool) (node : Nat) : Bool :=
  !onlyElementNodes || (d.label node).isElement

section Subtree

variable {rootNode : Nat} {forest : Forest} (hsubtree : IsSubtree d rootNode forest)

include hsubtree

lemma nextCandidate_of_split {u v : List Nat} {x : Nat} (hsplit : forest.ids = u ++ x :: v) {fuel : Nat}
    (hfuel : forest.ids.length + 1 ≤ fuel) : nextCandidate d (some rootNode) fuel x = some v.head? := by
  obtain ⟨hchildren, hrepr, -⟩ := hsubtree.repr
  have hroot := (List.nodup_cons.mp hsubtree.nodup).1
  have hstop : ∀ a ∈ forest.ids, some rootNode ≠ some a := by
    rintro a ha h
    exact hroot (Option.some.inj h ▸ ha)
  -- The way up ends at the root, whatever there is around it.
  have hend : ∀ n, 1 ≤ n → backtrackUntilSibling d (some rootNode) n rootNode = some none := by
    intro n hn
    obtain ⟨n, rfl⟩ : ∃ m, n = m + 1 := ⟨n - 1, by omega⟩
    rw [backtrackUntilSibling, if_pos rfl]
  have hbound : 1 + forest.ids.length ≤ fuel := by omega
  have h := nextCandidate_spec (l := []) hchildren hrepr hstop hend hsplit hbound
  rw [h, Option.or_none]

lemma recurseUntilElement_spec {u v : List Nat} (hsplit : forest.ids = u ++ v) {fuel : Nat}
    (hfuel : forest.ids.length + 1 + v.length ≤ fuel) :
    recurseUntilElement d onlyElementNodes (some rootNode) (nextNode d onlyElementNodes (some rootNode) fuel) v.head? =
      some (v.filter (wanted d onlyElementNodes)).head? := by
  induction v generalizing u fuel with
  | nil =>
    unfold recurseUntilElement
    rw [if_neg (by simp)]
    rfl
  | cons y v ih =>
    have hy : y ∈ forest.ids := by
      rw [hsplit]
      simp
    have hne : ¬some y = some rootNode := by
      intro h
      exact (List.nodup_cons.mp hsubtree.nodup).1 (Option.some.inj h ▸ hy)
    unfold recurseUntilElement
    rw [List.head?_cons, if_neg hne]
    dsimp only
    by_cases hwanted : wanted d onlyElementNodes y = true
    · rw [List.filter_cons_of_pos hwanted, if_neg]
      · rfl
      · unfold wanted at hwanted
        cases onlyElementNodes with
        | false => simp
        | true => simpa using hwanted
    · rw [List.filter_cons_of_neg hwanted, if_pos]
      · rw [List.length_cons] at hfuel
        obtain ⟨n, rfl⟩ : ∃ m, fuel = m + 1 := ⟨fuel - 1, by omega⟩
        have hsplit' : forest.ids = (u ++ [y]) ++ v := by
          rw [hsplit]
          simp
        rw [nextNode, nextCandidate_of_split hsubtree hsplit (by omega)]
        exact ih hsplit' (by omega)
      · unfold wanted at hwanted
        cases onlyElementNodes with
        | false => simp at hwanted
        | true => simpa using hwanted

lemma nextNodeInSubtree_of_split {u v : List Nat} {x : Nat} (hsplit : rootNode :: forest.ids = u ++ x :: v)
    {fuel : Nat} (hfuel : 2 * forest.ids.length + 2 ≤ fuel) :
    nextNodeInSubtree d onlyElementNodes fuel rootNode x = some (v.filter (wanted d onlyElementNodes)).head? := by
  obtain ⟨hchildren, -, -⟩ := hsubtree.repr
  obtain ⟨n, rfl⟩ : ∃ m, fuel = m + 1 := ⟨fuel - 1, by omega⟩
  unfold nextNodeInSubtree
  cases u with
  | nil =>
    obtain ⟨rfl, rfl⟩ := List.cons.inj hsplit
    by_cases hids : forest.ids = []
    · rw [hids, if_neg]
      · rfl
      · rw [hchildren, roots_eq_nil.mpr hids]
        simp
    · rw [if_pos]
      · have hcandidate : nextCandidate d (some rootNode) n rootNode = some forest.ids.head? := by
          unfold nextCandidate Dom.firstChild
          rw [hchildren, head_roots]
          obtain ⟨c, l, h⟩ := List.exists_cons_of_ne_nil hids
          rw [h]
          rfl
        rw [nextNode, hcandidate]
        exact recurseUntilElement_spec hsubtree (u := []) rfl (by omega)
      · rw [hchildren]
        exact Or.inr fun h => hids (roots_eq_nil.mp h)
  | cons a u =>
    obtain ⟨rfl, hids⟩ := List.cons.inj hsplit
    have hids : forest.ids = u ++ x :: v := hids
    have hx : x ∈ forest.ids := by
      rw [hids]
      simp
    have hlength : forest.ids.length = u.length + (v.length + 1) := by rw [hids]; simp
    have hne : x ≠ rootNode := by
      rintro rfl
      exact (List.nodup_cons.mp hsubtree.nodup).1 hx
    have hsplit' : forest.ids = (u ++ [x]) ++ v := by
      rw [hids]
      simp
    rw [if_pos (Or.inl hne), nextNode, nextCandidate_of_split hsubtree hids (by omega)]
    exact recurseUntilElement_spec hsubtree hsplit' (by omega)

lemma traverse_of_split {u v : List Nat} {x : Nat} (hsplit : rootNode :: forest.ids = u ++ x :: v) {fuel : Nat}
    (hfuel : 2 * forest.ids.length + 2 ≤ fuel) {steps : Nat} (hsteps : v.length < steps) :
    traverse d onlyElementNodes fuel rootNode steps x = some (v.filter (wanted d onlyElementNodes)) := by
  induction steps generalizing u v x with
  | zero => exact absurd hsteps (Nat.not_lt_zero _)
  | succ steps ih =>
    unfold traverse
    rw [nextNodeInSubtree_of_split hsubtree hsplit hfuel]
    cases hfilter : v.filter (wanted d onlyElementNodes) with
    | nil => rfl
    | cons y rest =>
      obtain ⟨a, b, rfl, -, -, rfl⟩ := List.filter_eq_cons_iff.mp hfilter
      have hsplit' : rootNode :: forest.ids = (u ++ x :: a) ++ y :: b := by
        rw [hsplit]
        simp
      rw [List.length_append, List.length_cons] at hsteps
      have h := ih hsplit' (by omega)
      simp only [List.head?_cons, Option.bind_eq_bind, Option.bind_some, h]
      rfl

end Subtree

/-- Every node of a forest has a subtree. -/
lemma exists_isSubtree {forest : Forest} (hrepr : forest.Repr d) (hnodup : forest.ids.Nodup) {a : Nat}
    (ha : a ∈ forest.ids) : ∃ below, IsSubtree d a below := by
  induction forest with
  | nil => cases ha
  | cons id children rest ihChildren ihRest =>
    obtain ⟨hid, hreprChildren, hreprRest⟩ := hrepr
    obtain ⟨hidNot, hbelow⟩ := List.nodup_cons.mp hnodup
    rcases List.mem_cons.mp ha with rfl | ha
    · refine ⟨children, ⟨hid, hreprChildren, trivial⟩, List.nodup_cons.mpr ⟨?_, hbelow.of_append_left⟩⟩
      exact fun hmem => hidNot (List.mem_append_left _ hmem)
    · rcases List.mem_append.mp ha with ha | ha
      · exact ihChildren hreprChildren hbelow.of_append_left ha
      · exact ihRest hreprRest hbelow.of_append_right ha

/-- From any node of a tree on, each node below it that is not passed over comes once in the order of the document. -/
theorem traverse_exact {top : Nat} {tree : Forest} (htree : IsSubtree d top tree) {rootNode : Nat}
    (hroot : rootNode ∈ top :: tree.ids) :
    ∃ forest, IsSubtree d rootNode forest ∧
      ∀ fuel steps, 2 * forest.ids.length + 2 ≤ fuel → forest.ids.length < steps →
        traverse d onlyElementNodes fuel rootNode steps rootNode =
          some (forest.ids.filter (wanted d onlyElementNodes)) := by
  have hall : (Forest.cons top tree .nil).ids = top :: tree.ids := by simp [Forest.ids]
  obtain ⟨forest, hforest⟩ := exists_isSubtree htree.repr (hall ▸ htree.nodup) (hall ▸ hroot)
  exact ⟨forest, hforest, fun fuel steps hfuel hsteps => traverse_of_split hforest (u := []) rfl hfuel hsteps⟩

/-- A node with a text and an element in it, that has a sibling behind it and one more behind its parent. -/
def siblingsDocument : Document :=
  Dom.ofParents (fun
    | 3 => .other "#text" "text"
    | _ => .element "element" [])
    [none, some 0, some 1, some 2, some 2, some 4, some 1, some 0]

theorem traverse_exact_siblings : ∃ forest, IsSubtree siblingsDocument 2 forest ∧
    ∀ fuel steps, 2 * forest.ids.length + 2 ≤ fuel → forest.ids.length < steps →
      traverse siblingsDocument true fuel 2 steps 2 = some (forest.ids.filter (wanted siblingsDocument true)) := by
  have htree : IsSubtree siblingsDocument 0
      (.cons 1 (.cons 2 (.cons 3 .nil (.cons 4 (.cons 5 .nil .nil) .nil)) (.cons 6 .nil .nil)) (.cons 7 .nil .nil)) := by
    refine ⟨⟨rfl, ⟨rfl, ⟨rfl, ⟨rfl, trivial, rfl, ⟨rfl, trivial, trivial⟩, trivial⟩, rfl, trivial, trivial⟩, rfl, trivial,
      trivial⟩, trivial⟩, by decide⟩
  exact traverse_exact htree (by decide)

end Muen.Tools.Xml
