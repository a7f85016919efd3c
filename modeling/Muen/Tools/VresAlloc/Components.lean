import Muen.Tools.VresAlloc.Resources
import Mathlib.Order.CompletePartialOrder

/-!
# Comp_Vres_Alloc

The allocation of the virtual resources of a component. The nodes that have their resource block its interval, the
others are put on a list, and are then served from what is left. An array has the interval of all of its elements.
-/

namespace Muen.Tools.VresAlloc
open Muen.Lib Intervals Xml

section Components

variable (r : Runtime)

/-- A node that has its resource takes its interval, another one is put on the list. -/
def includeResource (kind : ResourceKind) (readOnly : Bool) (total : Unsigned64 → Unsigned64)
    (s : Available × List Element) (node : Element) : Except Error (Available × List Element) := do
  let attrValue ← getResourceValue node kind
  let size ← getResourceSize r node kind
  if isUnset attrValue then
    if readOnly then .error (.validation "Invalid attribute value")
    else .ok (s.1, s.2 ++ [node])
  else do
    let address ← r.unsigned64 attrValue
    if kind = .virtualAddresses ∧ isAligned address size = false then
      .error (.validation "Virtual resource not aligned")
    else do
      let av ← s.1.subtract address (total size)
      .ok (av, s.2)

def includeSingleNode (kind : ResourceKind) (readOnly : Bool) (s : Available × List Element) (node : Element) :
    Except Error (Available × List Element) :=
  includeResource r kind readOnly (fun size => size) s node

def includeArray (kind : ResourceKind) (readOnly : Bool) (s : Available × List Element) (node : Element) :
    Except Error (Available × List Element) :=
  includeResource r kind readOnly (fun size => size * BitVec.ofNat 64 (node.countElementChildren nameFilter)) s node

def includeNodeList (kind : ResourceKind) (readOnly : Bool) (nodeList : List Element)
    (s : Available × List Element) : Except Error (Available × List Element) :=
  nodeList.foldlM (fun s node =>
    if node.tagName ≠ "array" then includeSingleNode r kind readOnly s node
    else includeArray r kind readOnly s node) s

def elementCount (node : Element) : Nat :=
  if node.tagName = "array" then node.countElementChildren nameFilter else 1

/-- The numbers of a node that starts at the given one, in unbounded integers. -/
def nodeExtent (kind : ResourceKind) (x : Element × Unsigned64) : Set Nat :=
  {n | ∃ size, getResourceSize r x.1 kind = .ok size ∧ n ∈ extent x.2.toNat (elementCount x.1 * size.toNat)}

/-- The size of a node is a 64-bit number. -/
def Bounded (kind : ResourceKind) (node : Element) : Prop :=
  ∀ size, getResourceSize r node kind = .ok size → elementCount node * size.toNat < 2 ^ 64

/-- A node has the given value of its resource. -/
def HasValue (kind : ResourceKind) (node : Element) (a : Unsigned64) : Prop :=
  ∃ text, getResourceValue node kind = .ok text ∧ isUnset text = false ∧ r.value text = some a

/-- A node has no value of its resource. -/
def lacksValue (kind : ResourceKind) (node : Element) : Bool :=
  match getResourceValue node kind with
  | .ok text => isUnset text
  | .error _ => false

end Components

variable {r : Runtime} {kind : ResourceKind}

lemma nodeExtent_eq {node : Element} {a size : Unsigned64} (h : getResourceSize r node kind = .ok size) :
    nodeExtent r kind (node, a) = extent a.toNat (elementCount node * size.toNat) := by
  ext n
  unfold nodeExtent
  rw [Set.mem_ofPred_eq]
  constructor
  · rintro ⟨size', hsize, hn⟩
    rw [h] at hsize
    obtain rfl := Except.ok.inj hsize
    exact hn
  · exact fun hn => ⟨size, h, hn⟩

lemma unsigned64_eq {text : String} {n : Unsigned64} (h : r.unsigned64 text = .ok n) : r.value text = some n := by
  unfold Runtime.unsigned64 at h
  split at h
  · next hvalue =>
    obtain rfl := Except.ok.inj h
    exact hvalue
  · cases h

variable (r kind) in
/-- What is left of a domain after some nodes, and which of them are on the list. -/
structure Included (domain : Set Nat) (s : Available × List Element) (done : List Element) : Prop where
  free : s.1.free ⊆ domain
  blocked : ∀ node ∈ done, ∀ a, HasValue r kind node a → Disjoint (nodeExtent r kind (node, a)) s.1.free
  closed : kind = .virtualAddresses → PageClosed s.1.free
  todo : s.2 = done.filter (lacksValue kind)
  sized : ∀ node ∈ s.2, ∃ size, getResourceSize r node kind = .ok size

/-- A node with a value leaves less free, one without goes on the list. -/
lemma includeResource_cases {readOnly : Bool} {total : Unsigned64 → Unsigned64} {s s' : Available × List Element}
    {node : Element} (h : includeResource r kind readOnly total s node = .ok s') :
    ∃ size, getResourceSize r node kind = .ok size ∧
      ((lacksValue kind node = true ∧ (∀ a, ¬HasValue r kind node a) ∧ s' = (s.1, s.2 ++ [node])) ∨
        ∃ a av, lacksValue kind node = false ∧ (∀ b, HasValue r kind node b → b = a) ∧
          (kind = .virtualAddresses → isAligned a size = true) ∧ s.1.subtract a (total size) = .ok av ∧
            s' = (av, s.2)) := by
  unfold includeResource at h
  obtain ⟨text, htext, h⟩ := bind_eq_ok h
  obtain ⟨size, hsize, h⟩ := bind_eq_ok h
  refine ⟨size, hsize, ?_⟩
  have hlacks : lacksValue kind node = isUnset text := by
    unfold lacksValue
    rw [htext]
  by_cases hunset : isUnset text = true
  · rw [if_pos hunset] at h
    cases readOnly with
    | true => cases h
    | false =>
      left
      refine ⟨hlacks.trans hunset, ?_, (Except.ok.inj h).symm⟩
      rintro a ⟨text', htext', hset, -⟩
      rw [htext] at htext'
      obtain rfl := Except.ok.inj htext'
      rw [hunset] at hset
      cases hset
  · rw [if_neg hunset] at h
    obtain ⟨a, ha, h⟩ := bind_eq_ok h
    right
    by_cases haligned : kind = .virtualAddresses ∧ isAligned a size = false
    · rw [if_pos haligned] at h
      cases h
    · rw [if_neg haligned] at h
      obtain ⟨av, hav, h⟩ := bind_eq_ok h
      refine ⟨a, av, hlacks.trans (by simpa using hunset), ?_, ?_, hav, (Except.ok.inj h).symm⟩
      · rintro b ⟨text', htext', -, hb⟩
        rw [htext] at htext'
        obtain rfl := Except.ok.inj htext'
        rw [unsigned64_eq ha] at hb
        exact (Option.some.inj hb).symm
      · intro hkind
        by_contra hne
        exact haligned ⟨hkind, by simpa using hne⟩

lemma Included.node {domain : Set Nat} {readOnly : Bool} {total : Unsigned64 → Unsigned64}
    {s s' : Available × List Element} {done : List Element} {node : Element}
    (hs : Included r kind domain s done)
    (htotal : ∀ size, getResourceSize r node kind = .ok size → (total size).toNat = elementCount node * size.toNat)
    (h : includeResource r kind readOnly total s node = .ok s') : Included r kind domain s' (done ++ [node]) := by
  obtain ⟨size, hsize, ⟨hlacks, hnone, rfl⟩ | ⟨a, av, hlacks, hvalue, haligned, hav, rfl⟩⟩ := includeResource_cases h
  · refine ⟨hs.free, ?_, hs.closed, ?_, ?_⟩
    · intro d hd b hb
      rcases List.mem_append.mp hd with hd | hd
      · exact hs.blocked d hd b hb
      · rw [List.mem_singleton.mp hd] at hb
        exact absurd hb (hnone b)
    · simp only [List.filter_append, hs.todo, List.filter_cons_of_pos hlacks, List.filter_nil]
    · intro d hd
      rcases List.mem_append.mp hd with hd | hd
      · exact hs.sized d hd
      · rw [List.mem_singleton.mp hd]
        exact ⟨size, hsize⟩
  · have hfree := Available.subtract_free hav
    rw [htotal size hsize] at hfree
    have hsub : av.free ⊆ s.1.free := by
      rw [hfree]
      exact Set.sdiff_subset
    refine ⟨hsub.trans hs.free, ?_, ?_, ?_, hs.sized⟩
    · intro d hd b hb
      rcases List.mem_append.mp hd with hd | hd
      · exact (hs.blocked d hd b hb).mono_right hsub
      · rw [List.mem_singleton.mp hd] at hb ⊢
        rw [hvalue b hb, nodeExtent_eq hsize]
        change Disjoint _ av.free
        rw [hfree]
        exact Set.disjoint_sdiff_right
    · intro hkind
      obtain ⟨ha, hmod, -⟩ := isAligned_iff.mp (haligned hkind)
      change PageClosed av.free
      rw [hfree]
      apply (hs.closed hkind).sdiff ha
      rw [Nat.mul_mod, hmod, Nat.mul_zero, Nat.zero_mod]
    · simp only [List.filter_append, hs.todo, List.filter_cons_of_neg (by simp [hlacks] : ¬lacksValue kind node = true),
        List.filter_nil, List.append_nil]

/-- The product of an array is the right one if it is a 64-bit number. -/
lemma arrayTotal_toNat {node : Element} {size : Unsigned64} (harray : node.tagName = "array")
    (hbound : elementCount node * size.toNat < 2 ^ 64) :
    (size * BitVec.ofNat 64 (node.countElementChildren nameFilter)).toNat = elementCount node * size.toNat := by
  have hcount : elementCount node = node.countElementChildren nameFilter := if_pos harray
  rw [BitVec.toNat_mul, BitVec.toNat_ofNat, ← hcount, Nat.mul_mod_mod, Nat.mul_comm, Nat.mod_eq_of_lt hbound]

lemma Included.nodes {domain : Set Nat} {readOnly : Bool} {s s' : Available × List Element}
    {done nodeList : List Element} (hs : Included r kind domain s done) (hbound : ∀ node ∈ nodeList, Bounded r kind node)
    (h : includeNodeList r kind readOnly nodeList s = .ok s') : Included r kind domain s' (done ++ nodeList) := by
  unfold includeNodeList at h
  induction nodeList generalizing s done with
  | nil =>
    obtain rfl := Except.ok.inj h
    rw [List.append_nil]
    exact hs
  | cons node nodeList ih =>
    rw [List.foldlM_cons] at h
    obtain ⟨s₁, hnode, hrest⟩ := bind_eq_ok h
    have hnext : Included r kind domain s₁ (done ++ [node]) := by
      by_cases harray : node.tagName = "array"
      · rw [if_neg (not_not.mpr harray)] at hnode
        apply hs.node _ hnode
        exact fun size hsize => arrayTotal_toNat harray (hbound node List.mem_cons_self size hsize)
      · rw [if_pos harray] at hnode
        apply hs.node _ hnode
        intro size _
        have hone : elementCount node = 1 := if_neg harray
        rw [hone, Nat.one_mul]
    have hall := ih hnext (fun d hd => hbound d (List.mem_cons_of_mem node hd)) hrest
    rwa [List.append_assoc, List.singleton_append] at hall

/-! ### The nodes that are served -/

variable (r kind) in
/-- The nodes without a value have intervals of their size in the domain, at the start of a page if they are addresses,
and disjoint from each other and from those of the given nodes. -/
structure Allocates (domain : Set Nat) (nodes given : List Element) (assigned : List (Element × Unsigned64)) :
    Prop where
  nodes_eq : assigned.map Prod.fst = nodes
  sized : ∀ node ∈ nodes, ∃ size, getResourceSize r node kind = .ok size
  inside : ∀ x ∈ assigned, nodeExtent r kind x ⊆ domain
  aligned : kind = .virtualAddresses → ∀ x ∈ assigned, (nodeExtent r kind x).Nonempty → x.2.toNat % 4096 = 0
  disjoint : assigned.Pairwise (fun x y => Disjoint (nodeExtent r kind x) (nodeExtent r kind y))
  fresh : ∀ x ∈ assigned, ∀ node ∈ given, ∀ a, HasValue r kind node a →
    Disjoint (nodeExtent r kind x) (nodeExtent r kind (node, a))

def numbers (i : Interval) : Set Nat := {n | i.firstElement.toNat ≤ n ∧ n ≤ i.lastElement.toNat}

end Muen.Tools.VresAlloc
