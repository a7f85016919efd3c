import Mathlib.Algebra.GroupWithZero.Nat
import Mathlib.Data.List.Chain
import Mathlib.Data.List.Nodup
import Mathlib.Logic.Relation
import Mathlib.Order.Bounds.Basic
import Mathlib.Order.WellFounded

/-!
# Heaviest paths

The weight of a path in a graph is the sum of the weights of its nodes. From a node without a cycle behind it, a
heaviest path goes on along a heaviest path from one of the next nodes.
-/

namespace Muen.Lib

variable {α : Type} {next : α → α → Prop} {weight : α → Nat}

/-- A path from a node, the node included. -/
structure PathFrom (next : α → α → Prop) (a : α) (path : List α) : Prop where
  head : path.head? = some a
  chain : path.IsChain next

def pathWeight (weight : α → Nat) (path : List α) : Nat := (path.map weight).sum

/-- The greatest weight of the paths from a node. -/
def HeaviestFrom (next : α → α → Prop) (weight : α → Nat) (a : α) (w : Nat) : Prop :=
  IsGreatest {w | ∃ path, PathFrom next a path ∧ pathWeight weight path = w} w

lemma PathFrom.single (a : α) : PathFrom next a [a] := ⟨rfl, List.IsChain.singleton a⟩

lemma PathFrom.cons {a b : α} {path : List α} (hab : next a b) (h : PathFrom next b path) :
    PathFrom next a (a :: path) := by
  refine ⟨rfl, List.IsChain.cons h.chain ?_⟩
  intro c hc
  rw [h.head] at hc
  rw [← Option.mem_some.mp hc]
  exact hab

lemma PathFrom.cases {a : α} {path : List α} (h : PathFrom next a path) :
    path = [a] ∨ ∃ b rest, path = a :: rest ∧ next a b ∧ PathFrom next b rest := by
  obtain ⟨hhead, hchain⟩ := h
  cases path with
  | nil => cases hhead
  | cons c rest =>
    obtain rfl := Option.some.inj hhead
    cases rest with
    | nil => exact Or.inl rfl
    | cons b rest =>
      obtain ⟨hcb, hrest⟩ := List.isChain_cons_cons.mp hchain
      exact Or.inr ⟨b, b :: rest, rfl, hcb, rfl, hrest⟩

lemma PathFrom.reaches {a b : α} {path : List α} (h : PathFrom next a path) (hb : b ∈ path) :
    Relation.ReflTransGen next a b := by
  induction path generalizing a with
  | nil => exact absurd hb List.not_mem_nil
  | cons c rest ih =>
    rcases h.cases with heq | ⟨d, rest', heq, hnext, hrest⟩
    · rw [heq] at hb
      rw [List.mem_singleton.mp hb]
    · obtain ⟨rfl, rfl⟩ := List.cons.inj heq
      rcases List.mem_cons.mp hb with rfl | hb
      · exact Relation.ReflTransGen.refl
      · exact Relation.ReflTransGen.head hnext (ih hrest hb)

/-- A node from which all paths end is on no cycle. -/
lemma not_transGen_of_acc {a : α} (h : Acc (fun b a => next a b) a) : ¬Relation.TransGen next a a := by
  induction h with
  | intro a _ ih =>
    intro hcycle
    obtain ⟨b, hab, hba⟩ := Relation.TransGen.head'_iff.mp hcycle
    exact ih b hab (Relation.TransGen.tail' hba hab)

/-- Paths meet no node twice where they all end. -/
lemma PathFrom.nodup {a : α} (hacc : Acc (fun b a => next a b) a) {path : List α} (h : PathFrom next a path) :
    path.Nodup := by
  induction hacc generalizing path with
  | intro a hnexts ih =>
    rcases h.cases with rfl | ⟨b, rest, rfl, hnext, hrest⟩
    · exact List.nodup_singleton a
    · refine List.nodup_cons.mpr ⟨?_, ih b hnext hrest⟩
      intro hmem
      exact not_transGen_of_acc (Acc.intro a hnexts) (Relation.TransGen.head' hnext (hrest.reaches hmem))

/-- The heaviest path goes on with the heaviest of the ones from the next nodes. -/
lemma HeaviestFrom.of_next {a : α} {m : Nat} (hle : ∀ b, next a b → ∃ w, HeaviestFrom next weight b w ∧ w ≤ m)
    (hmax : m = 0 ∨ ∃ b, next a b ∧ HeaviestFrom next weight b m) : HeaviestFrom next weight a (weight a + m) := by
  constructor
  · rcases hmax with rfl | ⟨b, hnext, ⟨path, hpath, hweight⟩, -⟩
    · exact ⟨[a], PathFrom.single a, rfl⟩
    · refine ⟨a :: path, hpath.cons hnext, ?_⟩
      rw [← hweight]
      rfl
  · rintro w ⟨path, hpath, rfl⟩
    rcases hpath.cases with rfl | ⟨b, rest, rfl, hnext, hrest⟩
    · exact Nat.le_add_right _ _
    · obtain ⟨w, hw, hwm⟩ := hle b hnext
      exact Nat.add_le_add_left ((hw.2 ⟨rest, hrest, rfl⟩).trans hwm) _

lemma HeaviestFrom.unique {a : α} {w w' : Nat} (h : HeaviestFrom next weight a w)
    (h' : HeaviestFrom next weight a w') : w = w' := IsGreatest.unique h h'

end Muen.Lib
