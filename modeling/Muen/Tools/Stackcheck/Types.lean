import Muen.Lib.Fallible
import Muen.Lib.HeaviestPath
import Muen.Lib.PathSearch
import Muen.Tools.Expanders.Utils
import Mathlib.Data.List.Nodup

/-!
# Stackcheck.Types: control flow graphs

The nodes of a control flow graph are subprograms with their stack usage and the names of the subprograms they call.
`Calculate_Stack_Usage` walks along the calls of each subprogram. It marks the subprograms on its path as active and the
ones it has left as done.
-/

namespace Muen.Tools.Stackcheck
open Muen.Lib
open Muen.Tools.Expanders.Utils (naturalLast)

inductive StackError
  | duplicateSubprogram (message : String)
  | missingSubprogram (message : String)
  | circularGraph (message : String)
  | constraintError
  /-- Calls of a subprogram of the tool that are nested too deep. -/
  | storageError
deriving DecidableEq

structure Subprogram where
  name : String
  activeFlag : Bool
  doneFlag : Bool
  ownStackUsage : Nat
  maxStackUsage : Nat
  calls : List String
  dynamicFlag : Bool
  boundedFlag : Bool

def nullSubprogram : Subprogram := ⟨"", false, false, 0, 0, [], false, false⟩

namespace Subprogram

def create (name : String) (stackUsage : Nat) (dynamicStack boundedStack : Bool) : Subprogram :=
  ⟨name, false, false, stackUsage, stackUsage, [], dynamicStack, boundedStack⟩

def addCall (subprogram : Subprogram) (calleeName : String) : Subprogram :=
  { subprogram with calls := subprogram.calls ++ [calleeName] }

def setActive (node : Subprogram) (state : Bool) : Subprogram := { node with activeFlag := state }

def setDone (node : Subprogram) (state : Bool) : Subprogram := { node with doneFlag := state }

def setMaxStackUsage (subprogram : Subprogram) (value : Nat) : Subprogram :=
  { subprogram with maxStackUsage := value }

end Subprogram

/-- A map of subprograms by name, with its keys in the order of iteration. A node that is passed to a subprogram which
updates it is passed as its key. -/
structure Graph where
  keys : List String
  element : String → Subprogram
  keys_nodup : keys.Nodup

/-- The place of a new key of a hashed map in the order of iteration, where an insertion can move the others. -/
structure Hashing where
  insert : String → List String → List String
  insert_perm : ∀ key keys, (insert key keys).Perm (key :: keys)

namespace Graph

def empty : Graph := ⟨[], fun _ => nullSubprogram, List.nodup_nil⟩

def updateElement (graph : Graph) (key : String) (process : Subprogram → Subprogram) : Graph :=
  { graph with element := Function.update graph.element key (process (graph.element key)) }

def addNode (hashing : Hashing) (graph : Graph) (subprogram : Subprogram) : Except StackError Graph :=
  if h : subprogram.name ∈ graph.keys then
    .error (.duplicateSubprogram ("Node with name '" ++ subprogram.name ++ "' already in graph"))
  else
    .ok {
      keys := hashing.insert subprogram.name graph.keys
      element := Function.update graph.element subprogram.name subprogram
      keys_nodup := (hashing.insert_perm _ _).nodup_iff.mpr (List.nodup_cons.mpr ⟨h, graph.keys_nodup⟩) }

def missing (name : String) : StackError :=
  .missingSubprogram ("No subprogram with name '" ++ name ++ "' in control flow graph")

def addCall (graph : Graph) (sourceName targetName : String) : Except StackError Graph :=
  if sourceName ∈ graph.keys then .ok (graph.updateElement sourceName fun s => s.addCall targetName)
  else .error (missing sourceName)

def updateNode (graph : Graph) (name : String) (process : String → Graph → Except StackError Graph) :
    Except StackError Graph :=
  if name ∈ graph.keys then process name graph else .error (missing name)

def getMaxStackUsage (graph : Graph) (nodeName : String) : Except StackError Nat :=
  if nodeName ∈ graph.keys then .ok (graph.element nodeName).maxStackUsage else .error (missing nodeName)

def iterate (graph : Graph) (process : String → Graph → Except StackError Graph) : Except StackError Graph :=
  graph.keys.foldlM (fun graph key => process key graph) graph

end Graph

/-- `Process_Calls` for the calls of a subprogram in turn, with the greatest usage of a callee so far. -/
def processCalls (calculate : String → Graph → Except StackError Graph) :
    List String → Nat → Graph → Except StackError (Nat × Graph)
  | [], curMaxStackUsage, graph => .ok (curMaxStackUsage, graph)
  | callee :: calls, curMaxStackUsage, graph => do
    let graph ← graph.updateNode callee calculate
    let calleeStackUsage ← graph.getMaxStackUsage callee
    processCalls calculate calls
      (if calleeStackUsage > curMaxStackUsage then calleeStackUsage else curMaxStackUsage) graph

/-- The handler of the exceptions of the calls. -/
def prependName (name : String) : StackError → StackError
  | .circularGraph message => .circularGraph (name ++ "->" ++ message)
  | e => e

/-- `Calculate_Stack_Usage` of a node, with a bound on the depth of its calls. -/
def calculateNode : Nat → String → Graph → Except StackError Graph
  | 0, _, _ => .error .storageError
  | fuel + 1, key, graph =>
    let node := graph.element key
    if node.activeFlag then .error (.circularGraph (node.name ++ ": Recursive call detected"))
    else if node.doneFlag then .ok graph
    else
      match processCalls (calculateNode fuel) node.calls 0 (graph.updateElement key (·.setActive true)) with
      | .error e => .error (prependName node.name e)
      | .ok (curMaxStackUsage, graph) =>
        let value := (graph.element key).ownStackUsage + curMaxStackUsage
        if value > naturalLast then .error .constraintError
        else .ok (graph.updateElement key fun s => ((s.setMaxStackUsage value).setDone true).setActive false)

def calculateStackUsage (graph : Graph) : Except StackError Graph :=
  graph.iterate (calculateNode (graph.keys.length + 1))

/-! ### Calls -/

namespace Graph

/-- A subprogram of the graph calls another one. -/
def Calls (graph : Graph) (caller callee : String) : Prop :=
  caller ∈ graph.keys ∧ callee ∈ (graph.element caller).calls

def ownUsage (graph : Graph) (key : String) : Nat :=
  if key ∈ graph.keys then (graph.element key).ownStackUsage else 0

def Cyclic (graph : Graph) : Prop := ∃ key, Relation.TransGen graph.Calls key key

/-- The greatest sum of own usages over the call paths that start at a subprogram. -/
def WorstCase (graph : Graph) (key : String) (usage : Nat) : Prop :=
  HeaviestFrom graph.Calls graph.ownUsage key usage

def CalleesPresent (graph : Graph) : Prop := ∀ caller callee, graph.Calls caller callee → callee ∈ graph.keys

/-- The sums of own usages along call paths that meet no subprogram twice. -/
def SumsFit (graph : Graph) : Prop :=
  ∀ key ∈ graph.keys, ∀ path, PathFrom graph.Calls key path → path.Nodup →
    pathWeight graph.ownUsage path ≤ naturalLast

/-- All call paths from a subprogram end. -/
def Ends (graph : Graph) (key : String) : Prop := Acc (fun callee caller => graph.Calls caller callee) key

/-- The graphs have the same subprograms, which differ in their flags and maximum usages only. -/
structure Frame (graph graph' : Graph) : Prop where
  keys : graph'.keys = graph.keys
  name : ∀ key, (graph'.element key).name = (graph.element key).name
  own : ∀ key, (graph'.element key).ownStackUsage = (graph.element key).ownStackUsage
  calls : ∀ key, (graph'.element key).calls = (graph.element key).calls

lemma Frame.refl (graph : Graph) : Frame graph graph := ⟨rfl, fun _ => rfl, fun _ => rfl, fun _ => rfl⟩

lemma Frame.updateElement {graph graph' : Graph} (h : Frame graph graph') {key : String}
    {process : Subprogram → Subprogram} (hname : ∀ s, (process s).name = s.name)
    (hown : ∀ s, (process s).ownStackUsage = s.ownStackUsage) (hcalls : ∀ s, (process s).calls = s.calls) :
    Frame graph (graph'.updateElement key process) := by
  have hupdate : ∀ {β : Type} (field : Subprogram → β), (∀ s, field (process s) = field s) →
      ∀ k, field ((graph'.updateElement key process).element k) = field (graph'.element k) := by
    intro β field hfield k
    by_cases heq : k = key
    · rw [heq]
      simp [Graph.updateElement, hfield]
    · simp [Graph.updateElement, Function.update_of_ne heq]
  exact ⟨h.keys, fun k => (hupdate _ hname k).trans (h.name k), fun k => (hupdate _ hown k).trans (h.own k),
    fun k => (hupdate _ hcalls k).trans (h.calls k)⟩

end Graph

/-! ### The walk -/

/-- The walk so far has given subprograms that are done their worst-case usage. -/
structure Good (graph₀ graph : Graph) : Prop where
  frame : graph₀.Frame graph
  done : ∀ key ∈ graph₀.keys, (graph.element key).doneFlag = true →
    graph₀.Ends key ∧ graph₀.WorstCase key (graph.element key).maxStackUsage

/-- What a finished walk from a subprogram keeps. -/
structure Ext (graph graph' : Graph) : Prop where
  active : ∀ key, (graph'.element key).activeFlag = (graph.element key).activeFlag
  done : ∀ key, (graph.element key).doneFlag = true → (graph'.element key).doneFlag = true

lemma Ext.refl (graph : Graph) : Ext graph graph := ⟨fun _ => rfl, fun _ h => h⟩

lemma Ext.trans {graph graph' graph'' : Graph} (h : Ext graph graph') (h' : Ext graph' graph'') : Ext graph graph'' :=
  ⟨fun key => (h'.active key).trans (h.active key), fun key hdone => h'.done key (h.done key hdone)⟩

def Circular (graph : Graph) (e : StackError) : Prop := (∃ message, e = .circularGraph message) ∧ graph.Cyclic

/-- The walk from a subprogram leaves it done. -/
def Visits (graph₀ : Graph) (key : String) (graph : Graph) (result : Except StackError Graph) : Prop :=
  Outcome (fun graph' => Good graph₀ graph' ∧ Ext graph graph' ∧ (graph'.element key).doneFlag = true)
    (Circular graph₀) result

/-- The number of subprograms that are not active. -/
def inactive (graph : Graph) : Nat :=
  (graph.keys.toFinset.filter fun key => (graph.element key).activeFlag = false).card

lemma inactive_setActive {graph : Graph} {key : String} (hkey : key ∈ graph.keys)
    (hactive : (graph.element key).activeFlag = false) :
    inactive (graph.updateElement key (·.setActive true)) < inactive graph := by
  have hless : (graph.keys.toFinset.filter fun k =>
      Function.update (fun k => (graph.element k).activeFlag) key true k = false).card < inactive graph :=
    card_unmarked_lt (List.mem_toFinset.mpr hkey) hactive
  have hflag : ∀ k, ((graph.updateElement key (·.setActive true)).element k).activeFlag =
      Function.update (fun k => (graph.element k).activeFlag) key true k := by
    intro k
    by_cases heq : k = key
    · rw [heq]
      simp [Graph.updateElement, Subprogram.setActive]
    · simp [Graph.updateElement, Function.update_of_ne heq]
  unfold inactive
  simp only [hflag]
  exact hless

section Walk

variable {graph₀ : Graph}

lemma processCalls_spec (hcallees : graph₀.CalleesPresent) {calculate : String → Graph → Except StackError Graph}
    {caller : String} {graph₁ : Graph}
    (hcalculate : ∀ callee graph, graph₀.Calls caller callee → Good graph₀ graph → Ext graph₁ graph →
      Visits graph₀ callee graph (calculate callee graph))
    {calls : List String} (hcalls : ∀ callee ∈ calls, graph₀.Calls caller callee) (cur : Nat) {graph : Graph}
    (hgood : Good graph₀ graph) (hext : Ext graph₁ graph) :
    Outcome (fun result => Good graph₀ result.2 ∧ Ext graph₁ result.2 ∧ cur ≤ result.1 ∧
        (result.1 = cur ∨ ∃ callee, graph₀.Calls caller callee ∧ graph₀.WorstCase callee result.1) ∧
        ∀ callee ∈ calls, graph₀.Ends callee ∧ ∃ usage, graph₀.WorstCase callee usage ∧ usage ≤ result.1)
      (Circular graph₀) (processCalls calculate calls cur graph) := by
  induction calls generalizing cur graph with
  | nil => exact ⟨hgood, hext, le_rfl, Or.inl rfl, nofun⟩
  | cons callee calls ih =>
    have hcall := hcalls callee List.mem_cons_self
    have hpresent := hcallees caller callee hcall
    unfold processCalls Graph.updateNode
    rw [if_pos (hgood.frame.keys.symm ▸ hpresent)]
    apply Outcome.bind (hcalculate callee graph hcall hgood hext)
    rintro graph' ⟨hgood', hext', hdone⟩
    obtain ⟨hends, hworst⟩ := hgood'.done callee hpresent hdone
    unfold Graph.getMaxStackUsage
    rw [if_pos (hgood'.frame.keys.symm ▸ hpresent), ok_bind]
    generalize hcur' : (if (graph'.element callee).maxStackUsage > cur then (graph'.element callee).maxStackUsage
      else cur) = cur'
    have hle : cur ≤ cur' ∧ (graph'.element callee).maxStackUsage ≤ cur' := by
      rw [← hcur']
      split <;> omega
    have hcases : cur' = cur ∨ cur' = (graph'.element callee).maxStackUsage := by
      rw [← hcur']
      split
      · exact Or.inr rfl
      · exact Or.inl rfl
    apply (ih (fun c hc => hcalls c (List.mem_cons_of_mem callee hc)) cur' hgood' (hext.trans hext')).imp
    rintro ⟨max, graph''⟩ ⟨hgood'', hext'', hmax, hfrom, hrest⟩
    refine ⟨hgood'', hext'', hle.1.trans hmax, ?_, ?_⟩
    · rcases hfrom with heq | hfrom
      · rcases hcases with hcase | hcase
        · exact Or.inl (heq.trans hcase)
        · refine Or.inr ⟨callee, hcall, ?_⟩
          rw [heq, hcase]
          exact hworst
      · exact Or.inr hfrom
    · intro c hc
      rcases List.mem_cons.mp hc with rfl | hc
      · exact ⟨hends, _, hworst, hle.2.trans hmax⟩
      · exact hrest c hc

lemma Good.setActive {graph : Graph} (h : Good graph₀ graph) (key : String) :
    Good graph₀ (graph.updateElement key (·.setActive true)) := by
  refine ⟨h.frame.updateElement (fun _ => rfl) (fun _ => rfl) (fun _ => rfl), ?_⟩
  intro k hk hdone
  by_cases heq : k = key
  · subst heq
    simp only [Graph.updateElement, Function.update_self, Subprogram.setActive] at hdone ⊢
    exact h.done k hk hdone
  · simp only [Graph.updateElement, Function.update_of_ne heq] at hdone ⊢
    exact h.done k hk hdone

/-- A subprogram whose callees are done becomes done. -/
lemma Good.setDone {graph : Graph} (h : Good graph₀ graph) {key : String} (hends : graph₀.Ends key) {value : Nat}
    (hworst : graph₀.WorstCase key value) :
    Good graph₀ (graph.updateElement key fun s => ((s.setMaxStackUsage value).setDone true).setActive false) := by
  refine ⟨h.frame.updateElement (fun _ => rfl) (fun _ => rfl) (fun _ => rfl), ?_⟩
  intro k hk hdone
  by_cases heq : k = key
  · subst heq
    simp only [Graph.updateElement, Function.update_self]
    exact ⟨hends, hworst⟩
  · simp only [Graph.updateElement, Function.update_of_ne heq] at hdone ⊢
    exact h.done k hk hdone

lemma calculateNode_spec (hcallees : graph₀.CalleesPresent) (hsums : graph₀.SumsFit) {fuel : Nat} {key : String}
    (hkey : key ∈ graph₀.keys) {graph : Graph} (hgood : Good graph₀ graph)
    (hactive : ∀ k, (graph.element k).activeFlag = true → Relation.TransGen graph₀.Calls k key)
    (hfuel : inactive graph < fuel) : Visits graph₀ key graph (calculateNode fuel key graph) := by
  induction fuel generalizing key graph with
  | zero => exact absurd hfuel (Nat.not_lt_zero _)
  | succ fuel ih =>
    unfold calculateNode
    dsimp only
    by_cases hflag : (graph.element key).activeFlag = true
    · rw [if_pos hflag]
      exact ⟨⟨_, rfl⟩, key, hactive key hflag⟩
    rw [if_neg hflag]
    by_cases hdone : (graph.element key).doneFlag = true
    · rw [if_pos hdone]
      exact ⟨hgood, Ext.refl graph, hdone⟩
    rw [if_neg hdone]
    have hfalse : (graph.element key).activeFlag = false := by simpa using hflag
    have hcalls : ∀ callee ∈ (graph.element key).calls, graph₀.Calls key callee := by
      intro callee hcallee
      exact ⟨hkey, hgood.frame.calls key ▸ hcallee⟩
    have hless := inactive_setActive (hgood.frame.keys.symm ▸ hkey) hfalse
    have hmarks : ∀ k, ((graph.updateElement key (·.setActive true)).element k).activeFlag =
        if k = key then true else (graph.element k).activeFlag := by
      intro k
      by_cases heq : k = key
      · rw [heq]
        simp [Graph.updateElement, Subprogram.setActive]
      · simp [Graph.updateElement, heq]
    have hcalculate : ∀ callee graph', graph₀.Calls key callee → Good graph₀ graph' →
        Ext (graph.updateElement key (·.setActive true)) graph' →
        Visits graph₀ callee graph' (calculateNode fuel callee graph') := by
      intro callee graph' hcall hgood' hext'
      apply ih (hcallees key callee hcall) hgood'
      · intro k hk
        rw [hext'.active k, hmarks k] at hk
        by_cases heq : k = key
        · rw [heq]
          exact Relation.TransGen.single hcall
        · rw [if_neg heq] at hk
          exact (hactive k hk).tail hcall
      · have hsame : inactive graph' = inactive (graph.updateElement key (·.setActive true)) := by
          unfold inactive
          rw [hgood'.frame.keys, (hgood.setActive key).frame.keys]
          simp only [hext'.active]
        omega
    have hcalled := processCalls_spec hcallees hcalculate hcalls 0 (hgood.setActive key) (Ext.refl _)
    cases hresult : processCalls (calculateNode fuel) (graph.element key).calls 0
        (graph.updateElement key (·.setActive true)) with
    | error e =>
      rw [hresult] at hcalled
      obtain ⟨⟨message, rfl⟩, hcyclic⟩ := hcalled
      exact ⟨⟨_, rfl⟩, hcyclic⟩
    | ok result =>
      obtain ⟨max, graph'⟩ := result
      rw [hresult] at hcalled
      obtain ⟨hgood', hext', -, hfrom, hcallee⟩ := hcalled
      dsimp only at hgood' hext' hfrom hcallee ⊢
      have hnext : ∀ callee, graph₀.Calls key callee → callee ∈ (graph.element key).calls := by
        intro callee hcall
        rw [hgood.frame.calls key]
        exact hcall.2
      have hends : graph₀.Ends key := Acc.intro key fun callee hcall => (hcallee callee (hnext callee hcall)).1
      have hown : (graph'.element key).ownStackUsage = graph₀.ownUsage key := by
        unfold Graph.ownUsage
        rw [if_pos hkey, hgood'.frame.own key]
      have hworst : graph₀.WorstCase key (graph₀.ownUsage key + max) :=
        HeaviestFrom.of_next (fun callee hcall => (hcallee callee (hnext callee hcall)).2) hfrom
      have hfits : graph₀.ownUsage key + max ≤ naturalLast := by
        obtain ⟨⟨path, hpath, hweight⟩, -⟩ := hworst
        rw [← hweight]
        exact hsums key hkey path hpath (hpath.nodup hends)
      rw [hown, if_neg (by omega)]
      refine ⟨hgood'.setDone hends hworst, ⟨?_, ?_⟩, ?_⟩
      · intro k
        by_cases heq : k = key
        · subst heq
          simp only [Graph.updateElement, Function.update_self]
          exact hfalse.symm
        · simp only [Graph.updateElement, Function.update_of_ne heq]
          rw [hext'.active k, hmarks k, if_neg heq]
      · intro k hk
        by_cases heq : k = key
        · subst heq
          simp only [Graph.updateElement, Function.update_self]
          rfl
        · simp only [Graph.updateElement, Function.update_of_ne heq]
          apply hext'.done
          simpa only [Graph.updateElement, Function.update_of_ne heq] using hk
      · simp only [Graph.updateElement, Function.update_self]
        rfl

/-- The walks from some subprograms in turn. -/
lemma iterate_calculateNode_spec (hcallees : graph₀.CalleesPresent) (hsums : graph₀.SumsFit) {keys : List String}
    (hkeys : ∀ key ∈ keys, key ∈ graph₀.keys) {graph : Graph} (hgood : Good graph₀ graph)
    (hactive : ∀ key, (graph.element key).activeFlag = false) :
    Outcome (fun graph' => Good graph₀ graph' ∧ Ext graph graph' ∧
        ∀ key ∈ keys, (graph'.element key).doneFlag = true) (Circular graph₀)
      (keys.foldlM (fun graph key => calculateNode (graph₀.keys.length + 1) key graph) graph) := by
  induction keys generalizing graph with
  | nil => exact ⟨hgood, Ext.refl graph, nofun⟩
  | cons key keys ih =>
    have hfuel : inactive graph < graph₀.keys.length + 1 := by
      apply Nat.lt_succ_of_le
      rw [← hgood.frame.keys]
      exact (Finset.card_filter_le _ _).trans (List.toFinset_card_le _)
    have hmarked : ∀ k, (graph.element k).activeFlag = true → Relation.TransGen graph₀.Calls k key := by
      intro k hk
      rw [hactive k] at hk
      cases hk
    rw [List.foldlM_cons]
    apply Outcome.bind (calculateNode_spec hcallees hsums (hkeys key List.mem_cons_self) hgood hmarked hfuel)
    rintro graph' ⟨hgood', hext, hdone⟩
    have hrest := ih (fun k hk => hkeys k (List.mem_cons_of_mem key hk)) hgood' fun k => (hext.active k).trans (hactive k)
    apply hrest.imp
    rintro graph'' ⟨hgood'', hext', hdone'⟩
    refine ⟨hgood'', hext.trans hext', ?_⟩
    intro k hk
    rcases List.mem_cons.mp hk with rfl | hk
    · exact hext'.done k hdone
    · exact hdone' k hk

end Walk

/-- The flags of the subprograms of a graph before its stack usage is calculated. -/
def Graph.Fresh (graph : Graph) : Prop :=
  ∀ key, (graph.element key).activeFlag = false ∧ (graph.element key).doneFlag = false

lemma calculateStackUsage_spec {graph : Graph} (hfresh : graph.Fresh) (hcallees : graph.CalleesPresent)
    (hsums : graph.SumsFit) :
    Outcome (fun graph' => graph.Frame graph' ∧
        ∀ key ∈ graph.keys, graph.Ends key ∧ graph.WorstCase key (graph'.element key).maxStackUsage)
      (Circular graph) (calculateStackUsage graph) := by
  have hgood : Good graph graph := by
    refine ⟨Graph.Frame.refl graph, ?_⟩
    intro key _ hdone
    rw [(hfresh key).2] at hdone
    cases hdone
  apply (iterate_calculateNode_spec hcallees hsums (fun _ h => h) hgood fun key => (hfresh key).1).imp
  rintro graph' ⟨hgood', -, hdone⟩
  exact ⟨hgood'.frame, fun key hkey => hgood'.done key hkey (hdone key hkey)⟩

/-- The graph is rejected if and only if it has a cycle. -/
lemma calculateStackUsage_circular_iff {graph : Graph} (hfresh : graph.Fresh) (hcallees : graph.CalleesPresent)
    (hsums : graph.SumsFit) :
    (∃ message, calculateStackUsage graph = .error (.circularGraph message)) ↔ graph.Cyclic := by
  have hspec := calculateStackUsage_spec hfresh hcallees hsums
  cases hresult : calculateStackUsage graph with
  | error e =>
    rw [hresult] at hspec
    obtain ⟨⟨message, rfl⟩, hcyclic⟩ := hspec
    exact ⟨fun _ => hcyclic, fun _ => ⟨message, rfl⟩⟩
  | ok graph' =>
    rw [hresult] at hspec
    constructor
    · rintro ⟨message, h⟩
      cases h
    · rintro ⟨key, hcycle⟩
      obtain ⟨callee, ⟨hkey, -⟩, -⟩ := Relation.TransGen.head'_iff.mp hcycle
      exact absurd hcycle (not_transGen_of_acc (hspec.2 key hkey).1)

end Muen.Tools.Stackcheck
