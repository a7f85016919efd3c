import Muen.Tools.Mucfgcheck.Overlap
import Muen.Tools.SystemPolicy

/-!
# Mucfgcheck

The loops that checks of a policy are made of. A check returns the errors it has recorded, or nothing when an exception
ends it; a check that returns no errors says that the policy has a property.
-/

namespace Muen.Tools.Mucfgcheck

open Scheduling (each each_nil img)
open SystemPolicy

variable {α β : Type}

/-- Records an error, unless a condition holds. -/
def unlessThat (condition : Prop) [Decidable condition] (message : String) : List String :=
  if condition then [] else [message]

lemma unlessThat_eq_nil {condition : Prop} [Decidable condition] {message : String} :
    unlessThat condition message = [] ↔ condition := by
  unfold unlessThat
  by_cases h : condition
  · rw [if_pos h]
    exact iff_of_true rfl h
  · rw [if_neg h]
    exact iff_of_false (List.cons_ne_nil _ _) h

/-- Two results without errors. -/
lemma bind_eq_nil {x y : Option (List String)} (h : (do let e ← x; let e' ← y; some (e ++ e')) = some []) :
    x = some [] ∧ y = some [] := by
  obtain ⟨e, hx, h⟩ := Option.bind_eq_some_iff.mp h
  obtain ⟨e', hy, h⟩ := Option.bind_eq_some_iff.mp h
  obtain ⟨rfl, rfl⟩ := List.append_eq_nil_iff.mp (Option.some.inj h)
  exact ⟨hx, hy⟩

/-- A loop over nodes. -/
def checkEach (check : α → Option (List String)) (nodes : List α) : Option (List String) :=
  each (fun _ node => check node) 0 nodes

lemma checkEach_nil {check : α → Option (List String)} {nodes : List α} (h : checkEach check nodes = some []) :
    ∀ node ∈ nodes, check node = some [] := by
  intro node hnode
  obtain ⟨-, hcheck⟩ := each_nil h node hnode
  exact hcheck

/-! ### Pairs of nodes -/

section Pairs

variable (comparator : α → α → Option (List String))

/-- `Compare_All` with a comparator that records errors. -/
def comparePairs (nodes : List α) : Option (List String) :=
  compareAll (fun errors left right => do
    let recorded ← errors
    let found ← comparator left right
    some (recorded ++ found)) nodes (some [])

variable {comparator}

/-- All rounds of a loop without errors are without errors. -/
lemma foldl_rounds {γ : Type} {round : Option (List String) → γ → Option (List String)} {P : γ → Prop}
    (hround : ∀ s c, round s c = some [] → s = some [] ∧ P c) {l : List γ} {s : Option (List String)}
    (h : l.foldl round s = some []) : s = some [] ∧ ∀ c ∈ l, P c := by
  induction l generalizing s with
  | nil => exact ⟨h, fun c hc => absurd hc List.not_mem_nil⟩
  | cons c l ih =>
    obtain ⟨hs, hrest⟩ := ih h
    obtain ⟨hfirst, hc⟩ := hround s c hs
    exact ⟨hfirst, List.forall_mem_cons.mpr ⟨hc, hrest⟩⟩

lemma comparePairs_nil {nodes : List α} (h : comparePairs comparator nodes = some []) {left right : α}
    (hpair : Pair nodes left right) : comparator left right = some [] := by
  obtain ⟨i, j, hlt, hleft, hright⟩ := hpair
  have hj : j < nodes.length := (List.getElem?_eq_some_iff.mp hright).1
  unfold comparePairs compareAll at h
  rw [if_neg (by omega)] at h
  have hrounds := (foldl_rounds (P := fun i => ∀ j ∈ List.range' (i + 1) (nodes.length - 1 - i), ∀ left right,
    nodes[i]? = some left → nodes[j]? = some right → comparator left right = some []) ?_ h).2
  · have hi : i ∈ List.range (nodes.length - 1) := List.mem_range.mpr (by omega)
    have hjmem : j ∈ List.range' (i + 1) (nodes.length - 1 - i) := List.mem_range'_1.mpr (by omega)
    exact hrounds i hi j hjmem left right hleft hright
  · intro s i hs
    apply foldl_rounds _ hs
    intro s j hs
    split at hs
    · rename_i left right hleft hright
      obtain ⟨hrecorded, hfound⟩ := bind_eq_nil hs
      refine ⟨hrecorded, ?_⟩
      rintro left' right' hleft' hright'
      rw [← Option.some.inj (hleft.symm.trans hleft'), ← Option.some.inj (hright.symm.trans hright')]
      exact hfound
    · rename_i hnone
      exact ⟨hs, fun left right hleft hright => absurd hright (hnone left right hleft)⟩

lemma foldl_without_errors {γ : Type} {round : Option (List String) → γ → Option (List String)} {l : List γ}
    (h : ∀ c ∈ l, round (some []) c = some []) : l.foldl round (some []) = some [] := by
  induction l with
  | nil => rfl
  | cons c l ih =>
    rw [List.foldl_cons, h c List.mem_cons_self]
    exact ih fun c' hc' => h c' (List.mem_cons_of_mem c hc')

/-- A comparison without errors in each pair has none. -/
lemma comparePairs_of_pairs {nodes : List α}
    (h : ∀ left right, Pair nodes left right → comparator left right = some []) :
    comparePairs comparator nodes = some [] := by
  unfold comparePairs compareAll
  split
  · rfl
  · apply foldl_without_errors
    intro i _
    apply foldl_without_errors
    intro j hj
    have hlt : i < j := (List.mem_range'_1.mp hj).1
    split
    · rename_i left right hleft hright
      dsimp only
      rw [h left right ⟨i, j, hlt, hleft, hright⟩]
      rfl
    · rfl

/-- The values of all nodes are different if those of each pair are. -/
lemma nodup_of_pairs {nodes : List α} {f : α → β} (h : ∀ left right, Pair nodes left right → f left ≠ f right) :
    (nodes.map f).Nodup := by
  rw [List.nodup_iff_pairwise_ne, List.pairwise_map, List.pairwise_iff_getElem]
  intro i j hi hj hlt
  exact h _ _ ⟨i, j, hlt, List.getElem?_eq_getElem hi, List.getElem?_eq_getElem hj⟩

/-- There is nothing to compare in a list of less than two nodes. -/
lemma nodup_of_short {nodes : List α} (f : α → β) (h : ¬ nodes.length > 1) : (nodes.map f).Nodup := by
  rw [List.nodup_iff_pairwise_ne, List.pairwise_iff_getElem]
  intro i j hi hj hlt
  rw [List.length_map] at hi hj
  omega

/-- The values of several nodes are different if there is a check for them. -/
lemma nodup_of_several {nodes : List α} {f : α → β} {check : Option (List String)}
    (h : (if nodes.length > 1 then check else some []) = some []) (hcheck : check = some [] → (nodes.map f).Nodup) :
    (nodes.map f).Nodup := by
  by_cases hlength : nodes.length > 1
  · rw [if_pos hlength] at h
    exact hcheck h
  · exact nodup_of_short f hlength

end Pairs

/-- Records an error for each pair of nodes with equal texts. -/
def uniqueTexts (text : α → String) (message : α → α → String) (nodes : List α) : Option (List String) :=
  comparePairs (fun left right => some (unlessThat (text left ≠ text right) (message left right))) nodes

lemma uniqueTexts_nil {text : α → String} {message : α → α → String} {nodes : List α}
    (h : uniqueTexts text message nodes = some []) : (nodes.map text).Nodup :=
  nodup_of_pairs fun _ _ hpair => unlessThat_eq_nil.mp (Option.some.inj (comparePairs_nil h hpair))

section Numbers

variable (value : String → Option ℕ)

/-- The error of two nodes with equal numbers. -/
def differentNumbers (number : α → String) (message : α → α → ℕ → String) (left right : α) : Option (List String) := do
  let leftID ← natural value (number left)
  let rightID ← natural value (number right)
  some (unlessThat (leftID ≠ rightID) (message left right leftID))

/-- Records an error for each pair of nodes with equal numbers. -/
def uniqueNumbers (number : α → String) (message : α → α → ℕ → String) (nodes : List α) : Option (List String) :=
  comparePairs (differentNumbers value number message) nodes

variable {value}

lemma differentNumbers_nil {number : α → String} {message : α → α → ℕ → String} {left right : α}
    (h : differentNumbers value number message left right = some []) :
    ∃ n m, natural value (number left) = some n ∧ natural value (number right) = some m ∧ n ≠ m := by
  obtain ⟨n, hn, h⟩ := Option.bind_eq_some_iff.mp h
  obtain ⟨m, hm, h⟩ := Option.bind_eq_some_iff.mp h
  exact ⟨n, m, hn, hm, unlessThat_eq_nil.mp (Option.some.inj h)⟩

/-- The numbers of nodes are different. -/
lemma nodup_of_differentNumbers {number : α → String} {message : α → α → ℕ → String} {nodes : List α}
    (h : ∀ left right, Pair nodes left right → differentNumbers value number message left right = some []) :
    (nodes.map fun node => natural value (number node)).Nodup := by
  apply nodup_of_pairs
  intro left right hpair
  obtain ⟨n, m, hn, hm, hne⟩ := differentNumbers_nil (h left right hpair)
  rw [hn, hm]
  exact fun heq => hne (Option.some.inj heq)

lemma uniqueNumbers_nil {number : α → String} {message : α → α → ℕ → String} {nodes : List α}
    (h : uniqueNumbers value number message nodes = some []) :
    (nodes.map fun node => natural value (number node)).Nodup :=
  nodup_of_differentNumbers fun _ _ hpair => comparePairs_nil h hpair

/-- The tests of `Check_Attribute`. -/
def checkAttribute (value : String → Option ℕ) (nodeType attr errorMsg : String) (nameOf attrOf : α → String)
    (test : Unsigned64 → Bool) (nodes : List α) : Option (List String) :=
  checkEach (fun node => do
    let attrValue ← unsigned64 value (attrOf node)
    some (unlessThat (test attrValue = true) ("Attribute '" ++ attr ++ " => " ++ attrOf node ++ "' of '" ++
      nameOf node ++ "' " ++ nodeType ++ " element " ++ errorMsg))) nodes

lemma checkAttribute_nil {nodeType attr errorMsg : String} {nameOf attrOf : α → String} {test : Unsigned64 → Bool}
    {nodes : List α} (h : checkAttribute value nodeType attr errorMsg nameOf attrOf test nodes = some []) :
    ∀ node ∈ nodes, ∃ n, unsigned64 value (attrOf node) = some n ∧ test n = true := by
  intro node hnode
  obtain ⟨n, hn, htest⟩ := Option.bind_eq_some_iff.mp (checkEach_nil h node hnode)
  exact ⟨n, hn, unlessThat_eq_nil.mp (Option.some.inj htest)⟩

end Numbers

/-! ### References -/

section Matches

variable (refersTo : α → β → Option Bool)

/-- The loop `Find_Match`. -/
def findMatch (node : α) : List β → Option Bool
  | [] => some false
  | ref :: refs => do
    let found ← refersTo node ref
    if found then some true else findMatch node refs

/-- `For_Each_Match`: the errors for nodes without a reference that they match. A fatal error raises. -/
def forEachMatch (sourceNodes : List α) (refNodes : List β) (error : α → Option String) (fatal : Bool) :
    Option (List String) :=
  checkEach (fun node => do
    let found ← findMatch refersTo node refNodes
    if found then some []
    else if fatal then none
    else (error node).map fun message => [message]) sourceNodes

variable {refersTo}

lemma findMatch_true {node : α} {refs : List β} (h : findMatch refersTo node refs = some true) :
    ∃ ref ∈ refs, refersTo node ref = some true := by
  induction refs with
  | nil => cases h
  | cons ref refs ih =>
    obtain ⟨found, hfound, h⟩ := Option.bind_eq_some_iff.mp h
    cases found with
    | true => exact ⟨ref, List.mem_cons_self, hfound⟩
    | false =>
      obtain ⟨ref', href', hmatch⟩ := ih h
      exact ⟨ref', List.mem_cons_of_mem _ href', hmatch⟩

lemma forEachMatch_nil {sourceNodes : List α} {refNodes : List β} {error : α → Option String} {fatal : Bool}
    (h : forEachMatch refersTo sourceNodes refNodes error fatal = some []) :
    ∀ node ∈ sourceNodes, ∃ ref ∈ refNodes, refersTo node ref = some true := by
  intro node hnode
  obtain ⟨found, hfound, hrest⟩ := Option.bind_eq_some_iff.mp (checkEach_nil h node hnode)
  cases found with
  | true => exact findMatch_true hfound
  | false =>
    cases fatal with
    | true => cases hrest
    | false =>
      obtain ⟨message, -, hmessage⟩ := Option.map_eq_some_iff.mp hrest
      cases hmessage

end Matches

end Muen.Tools.Mucfgcheck
