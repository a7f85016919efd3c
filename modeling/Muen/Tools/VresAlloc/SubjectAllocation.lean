import Muen.Tools.VresAlloc.Subjects
import Mathlib.Order.CompletePartialOrder

/-!
# The allocation for subjects

The entries of a component are the intervals that it declares. The nodes of a subject without a value have such an
interval or a newly reserved one, and those are disjoint from each other and from all that is given or declared.
-/

namespace Muen.Tools.VresAlloc
open Muen.Lib Intervals Xml

/-! ### Mappings -/

section Entries

variable (r : Runtime) (kind : ResourceKind)

/-- A node declares an interval for a logical name, in unbounded integers. -/
def NodeDeclares (node : Element) (logical : String) (first size : Nat) : Prop :=
  ∃ text a size', getResourceValue node kind = .ok text ∧ r.value text = some a ∧
    getResourceSize r node kind = .ok size' ∧ size = size'.toNat ∧
      if node.tagName = "array" then
        ∃ x ∈ (node.elementChildren nameFilter).zipIdx, logical = x.1.getAttribute "logical" ∧
          first = a.toNat + size * x.2
      else logical = node.getAttribute "logical" ∧ first = a.toNat

variable {r kind}

variable (r kind) in
/-- A component declares an interval for a logical name. -/
def Declares (component : Element) (logical : String) (first size : Nat) : Prop :=
  ∃ node ∈ targetsBelow (cReadWriteTargets kind ++ cReadOnlyTargets kind) component,
    NodeDeclares r kind node logical first size

end Entries

/-! ### Components -/

section Components

variable {r : Runtime}

end Components

/-! ### Subjects -/

section Subjects

variable (r : Runtime) (sizes : Sizes) (kind : ResourceKind)

/-- The numbers of a node of a subject that starts at the given one. -/
def subjectExtent (x : Element × Unsigned64) : Set Nat :=
  {n | ∃ size, physicalSize r sizes x.1 kind = .ok size ∧ n ∈ extent x.2.toNat size.toNat}

/-- What is left after some nodes, which of them are to be served, and which have been set. -/
structure Known (mapping : Mapping) (domain : Set Nat) (s : SubjectState) (done : List Element) : Prop where
  free : s.available.free ⊆ domain
  blocked : ∀ node ∈ done, ∀ a, HasValue r kind node a →
    Disjoint (subjectExtent r sizes kind (node, a)) s.available.free
  closed : kind = .virtualAddresses → PageClosed s.available.free
  nodes : (s.known.map Prod.fst ++ s.todoList).Perm (done.filter (lacksValue kind))
  known : ∀ x ∈ s.known, ∃ item, mapping.lookup (x.1.getAttribute "logical") = some item ∧ x.2 = item.firstAddress

variable {r sizes kind}

lemma subjectExtent_eq {node : Element} {a size : Unsigned64} (h : physicalSize r sizes node kind = .ok size) :
    subjectExtent r sizes kind (node, a) = extent a.toNat size.toNat := by
  ext n
  unfold subjectExtent
  rw [Set.mem_ofPred_eq]
  constructor
  · rintro ⟨size', hsize, hn⟩
    rw [h] at hsize
    obtain rfl := Except.ok.inj hsize
    exact hn
  · exact fun hn => ⟨size, h, hn⟩

lemma hasValue_unique {node : Element} {text : String} {a : Unsigned64} (htext : getResourceValue node kind = .ok text)
    (ha : r.value text = some a) {b : Unsigned64} (hb : HasValue r kind node b) : b = a := by
  obtain ⟨text', htext', -, hb⟩ := hb
  rw [htext] at htext'
  obtain rfl := Except.ok.inj htext'
  rw [ha] at hb
  exact (Option.some.inj hb).symm

lemma not_hasValue {node : Element} {text : String} {a : Unsigned64} (htext : getResourceValue node kind = .ok text)
    (hunset : isUnset text = true) : ¬HasValue r kind node a := by
  rintro ⟨text', htext', hset, -⟩
  rw [htext] at htext'
  obtain rfl := Except.ok.inj htext'
  rw [hunset] at hset
  cases hset

lemma lacksValue_eq {node : Element} {text : String} (htext : getResourceValue node kind = .ok text) :
    lacksValue kind node = isUnset text := by
  unfold lacksValue
  rw [htext]

lemma Known.node {mapping : Mapping} {domain : Set Nat} {readOnly : Bool} {s s' : SubjectState} {done : List Element}
    {node : Element} (hs : Known r sizes kind mapping domain s done)
    (h : assignResource r sizes mapping readOnly kind s node = .ok s') :
    Known r sizes kind mapping domain s' (done ++ [node]) := by
  obtain ⟨text, htext, h⟩ := bind_eq_ok h
  by_cases hunset : isUnset text = true
  · rw [if_pos hunset] at h
    have hblocked : ∀ d ∈ done ++ [node], ∀ b, HasValue r kind d b →
        Disjoint (subjectExtent r sizes kind (d, b)) s.available.free := by
      intro d hd b hb
      rcases List.mem_append.mp hd with hd | hd
      · exact hs.blocked d hd b hb
      · rw [List.mem_singleton.mp hd] at hb
        exact absurd hb (not_hasValue htext hunset)
    have hfilter : (done ++ [node]).filter (lacksValue kind) = done.filter (lacksValue kind) ++ [node] := by
      rw [List.filter_append, List.filter_cons_of_pos ((lacksValue_eq htext).trans hunset), List.filter_nil]
    cases readOnly with
    | true => cases h
    | false =>
      rw [if_neg (by simp)] at h
      split at h
      · next item hitem =>
        by_cases haligned : kind = .virtualAddresses ∧ isAligned item.firstAddress 0x1000 = false
        · rw [if_pos haligned] at h
          cases h
        · rw [if_neg haligned] at h
          obtain rfl := Except.ok.inj h
          refine ⟨hs.free, hblocked, hs.closed, ?_, ?_⟩
          · rw [hfilter, List.map_append, List.append_assoc]
            have hswap : ([(node, item.firstAddress)].map Prod.fst ++ s.todoList).Perm (s.todoList ++ [node]) :=
              List.perm_append_comm
            exact ((List.Perm.append_left _ hswap).trans (List.append_assoc _ _ _ ▸ List.Perm.refl _)).trans
              (hs.nodes.append_right [node])
          · intro x hx
            rcases List.mem_append.mp hx with hx | hx
            · exact hs.known x hx
            · obtain rfl := List.mem_singleton.mp hx
              exact ⟨item, hitem, rfl⟩
      · obtain rfl := Except.ok.inj h
        refine ⟨hs.free, hblocked, hs.closed, ?_, hs.known⟩
        rw [hfilter, ← List.append_assoc]
        exact hs.nodes.append_right [node]
  · rw [if_neg hunset] at h
    obtain ⟨size, hsize, h⟩ := bind_eq_ok h
    obtain ⟨a, ha, h⟩ := bind_eq_ok h
    by_cases haligned : kind = .virtualAddresses ∧ isAligned a size = false
    · rw [if_pos haligned] at h
      cases h
    · rw [if_neg haligned] at h
      obtain ⟨av, hav, h⟩ := bind_eq_ok h
      obtain rfl := Except.ok.inj h
      have hfree := Available.subtract_free hav
      have hsub : av.free ⊆ s.available.free := by
        rw [hfree]
        exact Set.sdiff_subset
      refine ⟨hsub.trans hs.free, ?_, ?_, ?_, hs.known⟩
      · intro d hd b hb
        rcases List.mem_append.mp hd with hd | hd
        · exact (hs.blocked d hd b hb).mono_right hsub
        · rw [List.mem_singleton.mp hd] at hb ⊢
          rw [hasValue_unique htext (unsigned64_eq ha) hb, subjectExtent_eq hsize]
          change Disjoint _ av.free
          rw [hfree]
          exact Set.disjoint_sdiff_right
      · intro hkind
        have halign : isAligned a size = true := by
          by_contra hne
          exact haligned ⟨hkind, by simpa using hne⟩
        obtain ⟨hmod, hsizeMod, -⟩ := isAligned_iff.mp halign
        change PageClosed av.free
        rw [hfree]
        exact (hs.closed hkind).sdiff hmod hsizeMod
      · have hnot : ¬lacksValue kind node = true := by rwa [lacksValue_eq htext]
        rw [List.filter_append, List.filter_cons_of_neg hnot, List.filter_nil, List.append_nil]
        exact hs.nodes

lemma Known.nodeList {mapping : Mapping} {domain : Set Nat} {readOnly : Bool} {s s' : SubjectState}
    {done targets : List Element} (hs : Known r sizes kind mapping domain s done)
    (h : assignResourcesIfKnown r sizes mapping readOnly kind targets s = .ok s') :
    Known r sizes kind mapping domain s' (done ++ targets) := by
  unfold assignResourcesIfKnown at h
  induction targets generalizing s done with
  | nil =>
    obtain rfl := Except.ok.inj h
    rw [List.append_nil]
    exact hs
  | cons node targets ih =>
    rw [List.foldlM_cons] at h
    obtain ⟨s₁, hnode, hrest⟩ := bind_eq_ok h
    have hall := ih (hs.node hnode) hrest
    rwa [List.append_assoc, List.singleton_append] at hall

end Subjects

end Muen.Tools.VresAlloc
