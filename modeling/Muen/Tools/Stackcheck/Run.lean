import Muen.Tools.Stackcheck.Types
import Mathlib.Algebra.Order.BigOperators.Group.List
import Mathlib.Data.List.Perm.Subperm

/-!
# Stackcheck: check of the worst-case stack usage

The lines of control flow information add nodes and calls to a graph. The worst-case usages that are calculated do not
depend on the order in which they do so.
-/

namespace Muen.Tools.Stackcheck
open Muen.Lib
open Muen.Tools.Expanders.Utils (naturalLast)

/-- A node with calls of its own, or a call of a node that the graph has. -/
inductive Addition
  | node (name : String) (stackUsage : Nat) (dynamicStack boundedStack : Bool) (calls : List String)
  | call (sourceName targetName : String)

def Graph.add (hashing : Hashing) (graph : Graph) : Addition → Except StackError Graph
  | .node name stackUsage dynamicStack boundedStack calls =>
    graph.addNode hashing (calls.foldl Subprogram.addCall (.create name stackUsage dynamicStack boundedStack))
  | .call sourceName targetName => graph.addCall sourceName targetName

def build (hashing : Hashing) (additions : List Addition) : Except StackError Graph :=
  additions.foldlM (Graph.add hashing) Graph.empty

/-- The subprograms provided by the runtime system. -/
def rtsSubprograms : List Addition :=
  ["memcmp", "memcpy", "memset"].map fun name => .node name 0 false false []

def checkForDynamicStack (dynamic : Bool) (node : Subprogram) : Bool :=
  dynamic || (node.dynamicFlag && !node.boundedFlag)

def checkStackUsage (max : Nat × String) (node : Subprogram) : Nat × String :=
  if node.maxStackUsage > max.1 then (node.maxStackUsage, node.name) else max

structure Checked where
  overflow : Bool
  dynamic : Bool

def run (hashing : Hashing) (additions : List Addition) (limit : Nat) : Except StackError Checked := do
  let cfg ← build hashing (additions ++ rtsSubprograms)
  let dynamic := cfg.keys.foldl (fun dynamic key => checkForDynamicStack dynamic (cfg.element key)) false
  let cfg ← calculateStackUsage cfg
  let max := cfg.keys.foldl (fun max key => checkStackUsage max (cfg.element key)) (0, "")
  return ⟨decide (max.1 > limit), dynamic⟩

/-! ### What a graph is built from -/

lemma foldl_addCall (s : Subprogram) (calls : List String) :
    calls.foldl Subprogram.addCall s = { s with calls := s.calls ++ calls } := by
  induction calls generalizing s with
  | nil => simp
  | cons c calls ih => simp [ih, Subprogram.addCall]

/-- A call is added on its own or with its node. -/
def HasCall (additions : List Addition) (caller callee : String) : Prop :=
  Addition.call caller callee ∈ additions ∨
    ∃ usage dynamic bounded calls, Addition.node caller usage dynamic bounded calls ∈ additions ∧ callee ∈ calls

def HasNode (additions : List Addition) (name : String) (usage : Nat) : Prop :=
  ∃ dynamic bounded calls, Addition.node name usage dynamic bounded calls ∈ additions

/-- A graph has the nodes and calls that were added to it. -/
structure Describes (graph : Graph) (additions : List Addition) : Prop where
  nodes : ∀ key, key ∈ graph.keys ↔ ∃ usage, HasNode additions key usage
  usage : ∀ key usage, HasNode additions key usage → (graph.element key).ownStackUsage = usage
  calls : ∀ key ∈ graph.keys, ∀ callee, callee ∈ (graph.element key).calls ↔ HasCall additions key callee
  callers : ∀ caller callee, HasCall additions caller callee → caller ∈ graph.keys
  fresh : graph.Fresh

lemma hasNode_append {additions : List Addition} {addition : Addition} {key : String} {usage : Nat} :
    HasNode (additions ++ [addition]) key usage ↔
      HasNode additions key usage ∨ ∃ dynamic bounded calls, addition = .node key usage dynamic bounded calls := by
  constructor
  · rintro ⟨dynamic, bounded, calls, h⟩
    rcases List.mem_append.mp h with h | h
    · exact Or.inl ⟨dynamic, bounded, calls, h⟩
    · exact Or.inr ⟨dynamic, bounded, calls, (List.mem_singleton.mp h).symm⟩
  · rintro (⟨dynamic, bounded, calls, h⟩ | ⟨dynamic, bounded, calls, rfl⟩)
    · exact ⟨dynamic, bounded, calls, List.mem_append_left _ h⟩
    · exact ⟨dynamic, bounded, calls, by simp⟩

lemma hasCall_append {additions : List Addition} {addition : Addition} {caller callee : String} :
    HasCall (additions ++ [addition]) caller callee ↔
      HasCall additions caller callee ∨ HasCall [addition] caller callee := by
  unfold HasCall
  simp only [List.mem_append, or_and_right, exists_or]
  exact or_or_or_comm

lemma Describes.addNode {hashing : Hashing} {graph graph' : Graph} {additions : List Addition}
    (h : Describes graph additions) {name : String} {usage : Nat} {dynamic bounded : Bool} {calls : List String}
    (hadd : graph.add hashing (.node name usage dynamic bounded calls) = .ok graph') :
    Describes graph' (additions ++ [.node name usage dynamic bounded calls]) := by
  unfold Graph.add Graph.addNode at hadd
  simp only [foldl_addCall, Subprogram.create, List.nil_append] at hadd
  by_cases hname : name ∈ graph.keys
  · rw [dif_pos hname] at hadd
    cases hadd
  · rw [dif_neg hname] at hadd
    obtain rfl := Except.ok.inj hadd
    have hkeys : ∀ key, key ∈ hashing.insert name graph.keys ↔ key = name ∨ key ∈ graph.keys := by
      intro key
      rw [(hashing.insert_perm name graph.keys).mem_iff, List.mem_cons]
    constructor
    · intro key
      simp only [hkeys, h.nodes key, hasNode_append]
      constructor
      · rintro (rfl | ⟨u, hu⟩)
        · exact ⟨usage, Or.inr ⟨dynamic, bounded, calls, rfl⟩⟩
        · exact ⟨u, Or.inl hu⟩
      · rintro ⟨u, hu | ⟨d, b, cs, heq⟩⟩
        · exact Or.inr ⟨u, hu⟩
        · cases heq
          exact Or.inl rfl
    · intro key u huse
      rcases hasNode_append.mp huse with hu | ⟨d, b, cs, heq⟩
      · have hne : key ≠ name := by
          rintro rfl
          exact hname ((h.nodes key).mpr ⟨u, hu⟩)
        simp only [Function.update_of_ne hne]
        exact h.usage key u hu
      · cases heq
        simp only [Function.update_self]
    · intro key hkey callee
      rw [hasCall_append]
      by_cases heq : key = name
      · subst heq
        have hnone : ¬HasCall additions key callee := fun hcall => hname (h.callers key callee hcall)
        simp only [Function.update_self, hnone, false_or]
        simp [HasCall]
      · have hsingle : ¬HasCall [.node name usage dynamic bounded calls] key callee := by
          simp [HasCall, heq]
        have hold := ((hkeys key).mp hkey).resolve_left heq
        simp only [Function.update_of_ne heq, hsingle, or_false]
        exact h.calls key hold callee
    · intro caller callee hcall
      refine (hkeys caller).mpr ?_
      rcases hasCall_append.mp hcall with hcall | hcall
      · exact Or.inr (h.callers caller callee hcall)
      · simp only [HasCall, List.mem_singleton, reduceCtorEq, Addition.node.injEq, false_or] at hcall
        obtain ⟨_, _, _, _, ⟨rfl, _⟩, _⟩ := hcall
        exact Or.inl rfl
    · intro key
      by_cases heq : key = name
      · subst heq
        simp only [Function.update_self, and_self]
      · simp only [Function.update_of_ne heq]
        exact h.fresh key

lemma Describes.addCall {hashing : Hashing} {graph graph' : Graph} {additions : List Addition}
    (h : Describes graph additions) {source target : String}
    (hadd : graph.add hashing (.call source target) = .ok graph') :
    Describes graph' (additions ++ [.call source target]) := by
  unfold Graph.add Graph.addCall at hadd
  dsimp only at hadd
  by_cases hsource : source ∈ graph.keys
  · rw [if_pos hsource] at hadd
    obtain rfl := Except.ok.inj hadd
    have hnode : ∀ key usage, HasNode (additions ++ [.call source target]) key usage ↔ HasNode additions key usage := by
      intro key usage
      rw [hasNode_append]
      simp
    have helement : ∀ key, (graph.updateElement source (·.addCall target)).element key =
        if key = source then (graph.element key).addCall target else graph.element key := by
      intro key
      by_cases heq : key = source
      · rw [heq]
        simp [Graph.updateElement]
      · simp [Graph.updateElement, heq]
    constructor
    · intro key
      simp only [hnode]
      exact h.nodes key
    · intro key usage husage
      rw [helement key]
      have hold := h.usage key usage ((hnode key usage).mp husage)
      split <;> exact hold
    · intro key hkey callee
      rw [helement key, hasCall_append, ← h.calls key hkey callee]
      by_cases heq : key = source
      · subst heq
        rw [if_pos rfl]
        simp [Subprogram.addCall, HasCall]
      · rw [if_neg heq]
        simp [HasCall, heq]
    · intro caller callee hcall
      rcases hasCall_append.mp hcall with hcall | hcall
      · exact h.callers caller callee hcall
      · simp only [HasCall, List.mem_singleton, Addition.call.injEq, reduceCtorEq, false_and, exists_const,
          or_false] at hcall
        rw [hcall.1]
        exact hsource
    · intro key
      rw [helement key]
      split <;> exact h.fresh key
  · rw [if_neg hsource] at hadd
    cases hadd

lemma build_describes {hashing : Hashing} {additions : List Addition} {graph : Graph}
    (hbuild : build hashing additions = .ok graph) : Describes graph additions := by
  apply foldlM_ok (Describes · ·) _ _ hbuild
  · constructor
    · simp [Graph.empty, HasNode]
    · simp [HasNode]
    · simp [Graph.empty]
    · simp [HasCall]
    · exact fun _ => ⟨rfl, rfl⟩
  · intro done addition graph graph' hdescribes hadd
    cases addition with
    | node name usage dynamic bounded calls => exact hdescribes.addNode hadd
    | call source target => exact hdescribes.addCall hadd

/-- The order of the additions does not matter to the calls and the usages. -/
lemma Describes.perm {graph graph' : Graph} {additions additions' : List Addition} (h : Describes graph additions)
    (h' : Describes graph' additions') (hperm : additions'.Perm additions) :
    (∀ key, key ∈ graph'.keys ↔ key ∈ graph.keys) ∧ graph'.Calls = graph.Calls ∧
      graph'.ownUsage = graph.ownUsage := by
  have hnode : ∀ key usage, HasNode additions' key usage ↔ HasNode additions key usage := by
    intro key usage
    unfold HasNode
    simp only [hperm.mem_iff]
  have hcall : ∀ caller callee, HasCall additions' caller callee ↔ HasCall additions caller callee := by
    intro caller callee
    unfold HasCall
    simp only [hperm.mem_iff]
  have hkeys : ∀ key, key ∈ graph'.keys ↔ key ∈ graph.keys := by
    intro key
    rw [h.nodes key, h'.nodes key]
    simp only [hnode]
  refine ⟨hkeys, ?_, ?_⟩
  · funext caller callee
    apply propext
    unfold Graph.Calls
    rw [hkeys caller]
    apply and_congr_right
    intro hmem
    rw [h'.calls caller ((hkeys caller).mpr hmem), h.calls caller hmem]
    exact hcall caller callee
  · funext key
    unfold Graph.ownUsage
    by_cases hmem : key ∈ graph.keys
    · obtain ⟨usage, husage⟩ := (h.nodes key).mp hmem
      rw [if_pos hmem, if_pos ((hkeys key).mpr hmem), h.usage key usage husage,
        h'.usage key usage ((hnode key usage).mpr husage)]
    · rw [if_neg hmem, if_neg (fun hmem' => hmem ((hkeys key).mp hmem'))]

/-! ### Exactness -/

lemma foldl_checkStackUsage_gt (element : String → Subprogram) (limit : Nat) (keys : List String)
    (max : Nat × String) :
    limit < (keys.foldl (fun max key => checkStackUsage max (element key)) max).1 ↔
      limit < max.1 ∨ ∃ key ∈ keys, limit < (element key).maxStackUsage := by
  induction keys generalizing max with
  | nil => simp
  | cons key keys ih =>
    rw [List.foldl_cons, ih]
    have hstep : limit < (checkStackUsage max (element key)).1 ↔
        limit < max.1 ∨ limit < (element key).maxStackUsage := by
      unfold checkStackUsage
      split
      · dsimp only
        omega
      · omega
    rw [hstep]
    simp [or_assoc]

/-- The calculation comes to the same usages, or rejects both graphs. -/
def SameUsages (keys : List String) (result result' : Except StackError Graph) : Prop :=
  ((∃ message, result = .error (.circularGraph message)) ↔ ∃ message, result' = .error (.circularGraph message)) ∧
    ∀ graph graph', result = .ok graph → result' = .ok graph' →
      ∀ key ∈ keys, key ∈ graph'.keys ∧ (graph'.element key).maxStackUsage = (graph.element key).maxStackUsage

lemma sameUsages_of_perm {graph graph' : Graph} {additions additions' : List Addition}
    (h : Describes graph additions) (h' : Describes graph' additions') (hperm : additions'.Perm additions)
    (hcallees : graph.CalleesPresent) (hsums : graph.SumsFit) :
    SameUsages graph.keys (calculateStackUsage graph) (calculateStackUsage graph') := by
  obtain ⟨hkeys, hcalls, hown⟩ := h.perm h' hperm
  have hcallees' : graph'.CalleesPresent := by
    intro caller callee hcall
    rw [hcalls] at hcall
    exact (hkeys callee).mpr (hcallees caller callee hcall)
  have hsums' : graph'.SumsFit := by
    intro key hkey path hpath hnodup
    rw [hcalls] at hpath
    rw [hown]
    exact hsums key ((hkeys key).mp hkey) path hpath hnodup
  constructor
  · rw [calculateStackUsage_circular_iff h.fresh hcallees hsums,
      calculateStackUsage_circular_iff h'.fresh hcallees' hsums']
    unfold Graph.Cyclic
    rw [hcalls]
  · intro result result' hresult hresult' key hkey
    have hspec := calculateStackUsage_spec h.fresh hcallees hsums
    have hspec' := calculateStackUsage_spec h'.fresh hcallees' hsums'
    rw [hresult] at hspec
    rw [hresult'] at hspec'
    refine ⟨hspec'.1.keys.symm ▸ (hkeys key).mpr hkey, ?_⟩
    have hworst := (hspec'.2 key ((hkeys key).mpr hkey)).2
    unfold Graph.WorstCase at hworst
    rw [hcalls, hown] at hworst
    exact hworst.unique (hspec.2 key hkey).2

lemma run_of_build {hashing : Hashing} {additions : List Addition} {graph : Graph}
    (hbuild : build hashing (additions ++ rtsSubprograms) = .ok graph) (limit : Nat) :
    (∀ e, calculateStackUsage graph = .error e → run hashing additions limit = .error e) ∧
      ∀ graph', calculateStackUsage graph = .ok graph' → ∃ dynamic, run hashing additions limit =
        .ok ⟨decide (∃ key ∈ graph'.keys, limit < (graph'.element key).maxStackUsage), dynamic⟩ := by
  constructor
  · intro e he
    unfold run
    rw [hbuild, ok_bind]
    dsimp only
    rw [he]
    rfl
  · intro graph' hgraph'
    unfold run
    rw [hbuild, ok_bind]
    dsimp only
    rw [hgraph', ok_bind]
    refine ⟨graph.keys.foldl (fun dynamic key => checkForDynamicStack dynamic (graph.element key)) false, ?_⟩
    have hmax := foldl_checkStackUsage_gt graph'.element limit graph'.keys (0, "")
    simp only [Nat.not_lt_zero, false_or] at hmax
    simp only [gt_iff_lt, hmax]
    rfl

/-- Cycles are found, usages are those of the worst paths whatever the order of the additions, and an overflow is one
of a worst path. -/
theorem calculateStackUsage_exact {hashing : Hashing} {additions : List Addition} {graph : Graph}
    (hbuild : build hashing additions = .ok graph) (hcallees : graph.CalleesPresent) (hsums : graph.SumsFit) :
    ((∃ message, calculateStackUsage graph = .error (.circularGraph message)) ↔ graph.Cyclic) ∧
      (¬graph.Cyclic → ∃ graph', calculateStackUsage graph = .ok graph' ∧ graph.Frame graph' ∧
        ∀ key ∈ graph.keys, graph.WorstCase key (graph'.element key).maxStackUsage) ∧
      (∀ hashing' additions' graph', additions'.Perm additions → build hashing' additions' = .ok graph' →
        SameUsages graph.keys (calculateStackUsage graph) (calculateStackUsage graph')) ∧
      ∀ parsed limit, additions = parsed ++ rtsSubprograms →
        ((∃ message, run hashing parsed limit = .error (.circularGraph message)) ↔ graph.Cyclic) ∧
        (¬graph.Cyclic → ∃ overflow dynamic, run hashing parsed limit = .ok ⟨overflow, dynamic⟩ ∧
          (overflow = true ↔ ∃ key ∈ graph.keys, ∃ usage, graph.WorstCase key usage ∧ limit < usage)) := by
  have hdescribes := build_describes hbuild
  have hcircular := calculateStackUsage_circular_iff hdescribes.fresh hcallees hsums
  have hspec := calculateStackUsage_spec hdescribes.fresh hcallees hsums
  refine ⟨hcircular, ?_, ?_, ?_⟩
  · intro hacyclic
    cases hresult : calculateStackUsage graph with
    | error e =>
      rw [hresult] at hspec
      exact absurd hspec.2 hacyclic
    | ok graph' =>
      rw [hresult] at hspec
      exact ⟨graph', rfl, hspec.1, fun key hkey => (hspec.2 key hkey).2⟩
  · intro hashing' additions' graph' hperm hbuild'
    exact sameUsages_of_perm hdescribes (build_describes hbuild') hperm hcallees hsums
  · rintro parsed limit rfl
    obtain ⟨herror, hok⟩ := run_of_build hbuild limit
    cases hresult : calculateStackUsage graph with
    | error e =>
      rw [hresult] at hspec
      obtain ⟨⟨message, rfl⟩, hcyclic⟩ := hspec
      rw [herror _ hresult]
      exact ⟨iff_of_true ⟨message, rfl⟩ hcyclic, fun hacyclic => absurd hcyclic hacyclic⟩
    | ok graph' =>
      rw [hresult] at hspec
      obtain ⟨dynamic, hrun⟩ := hok graph' hresult
      rw [hresult] at hcircular
      rw [hrun]
      refine ⟨?_, ?_⟩
      · rw [← hcircular]
        constructor
        · rintro ⟨message, h⟩
          cases h
        · rintro ⟨message, h⟩
          cases h
      · intro _
        refine ⟨_, dynamic, rfl, ?_⟩
        rw [decide_eq_true_eq, hspec.1.keys]
        constructor
        · rintro ⟨key, hkey, hless⟩
          exact ⟨key, hkey, _, (hspec.2 key hkey).2, hless⟩
        · rintro ⟨key, hkey, usage, hworst, hless⟩
          refine ⟨key, hkey, ?_⟩
          rw [(hspec.2 key hkey).2.unique hworst]
          exact hless

lemma sumsFit_of_total {graph : Graph} (hcallees : graph.CalleesPresent)
    (htotal : (graph.keys.map graph.ownUsage).sum ≤ naturalLast) : graph.SumsFit := by
  intro key hkey path hpath hnodup
  have hsubset : path ⊆ graph.keys := by
    intro k hk
    cases Relation.ReflTransGen.cases_tail (hpath.reaches hk) with
    | inl heq => exact heq ▸ hkey
    | inr h =>
      obtain ⟨caller, -, hcall⟩ := h
      exact hcallees caller k hcall
  obtain ⟨keys, hperm, hsublist⟩ := List.subperm_of_subset hnodup hsubset
  refine le_trans ?_ htotal
  unfold pathWeight
  rw [← (hperm.map graph.ownUsage).sum_eq]
  exact (hsublist.map graph.ownUsage).sum_le_sum (fun _ _ => Nat.zero_le _)

/-- A subprogram that calls two others, one of which calls the other one. -/
def diamondCalls : List Addition :=
  [.node "Main" 0 false false ["A", "B"], .node "A" 12 false false [], .call "A" "B", .node "B" 44 false false []]

def diamond : List Addition := diamondCalls ++ rtsSubprograms

def prepend : Hashing := ⟨List.cons, fun _ _ => List.Perm.refl _⟩

def diamondGraph : Graph := (build prepend diamond).toOption.getD Graph.empty

def append : Hashing := ⟨fun key keys => keys ++ [key], fun _ _ => List.perm_append_singleton _ _⟩

/-- The additions in another order, visited in another order. -/
def swappedGraph : Graph := (build append (rtsSubprograms ++ diamondCalls)).toOption.getD Graph.empty

/-- The worst path of the first subprogram is that over both others, with 56 bytes. -/
theorem calculateStackUsage_exact_diamond :
    ¬diamondGraph.Cyclic ∧ diamondGraph.WorstCase "Main" 56 ∧
      SameUsages diamondGraph.keys (calculateStackUsage diamondGraph) (calculateStackUsage swappedGraph) ∧
      (∃ key ∈ diamondGraph.keys, ∃ usage, diamondGraph.WorstCase key usage ∧ 55 < usage) ∧
      ¬∃ key ∈ diamondGraph.keys, ∃ usage, diamondGraph.WorstCase key usage ∧ 56 < usage := by
  have hbuild : build prepend diamond = .ok diamondGraph := by rfl
  have hcallees : diamondGraph.CalleesPresent := by
    have hall : ∀ caller ∈ diamondGraph.keys, ∀ callee ∈ (diamondGraph.element caller).calls,
        callee ∈ diamondGraph.keys := by decide
    exact fun caller callee hcall => hall caller hcall.1 callee hcall.2
  have hsums := sumsFit_of_total hcallees (by decide)
  obtain ⟨hcircular, husages, horder, hruns⟩ := calculateStackUsage_exact hbuild hcallees hsums
  have hmain : (calculateStackUsage diamondGraph).map (fun graph' => (graph'.element "Main").maxStackUsage) =
      .ok 56 := by rfl
  have hacyclic : ¬diamondGraph.Cyclic := by
    intro hcyclic
    obtain ⟨message, hmessage⟩ := hcircular.mpr hcyclic
    rw [hmessage] at hmain
    cases hmain
  obtain ⟨graph', hgraph', -, hworst⟩ := husages hacyclic
  have husage : (graph'.element "Main").maxStackUsage = 56 := by
    rw [hgraph'] at hmain
    exact Except.ok.inj hmain
  have hoverflow : ∀ limit overflow, run prepend diamondCalls limit = .ok ⟨overflow, false⟩ →
      (overflow = true ↔ ∃ key ∈ diamondGraph.keys, ∃ usage, diamondGraph.WorstCase key usage ∧ limit < usage) := by
    intro limit overflow hrun
    obtain ⟨overflow', dynamic, hrun', hiff⟩ := (hruns diamondCalls limit rfl).2 hacyclic
    rw [hrun] at hrun'
    cases hrun'
    exact hiff
  refine ⟨hacyclic, husage ▸ hworst "Main" (by decide), horder append _ _ List.perm_append_comm (by rfl),
    (hoverflow 55 true (by rfl)).mp rfl, fun h => absurd ((hoverflow 56 false (by rfl)).mpr h) (by decide)⟩

end Muen.Tools.Stackcheck
