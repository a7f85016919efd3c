import Muen.Tools.Expressions.Definitions

/-!
# Expanding expressions

`Expand` gives each name the value that its definition means, or fails when some name has none. The order in which
the definitions are looked at does not matter, and the nested evaluations end.
-/

namespace Muen.Tools.Expressions
open Muen.Lib
open Muen.Tools.XmlTemplates (Label Nodes getAttribute hasAttribute)

variable {values : Values} {input : List (Text × Element)} {evaluators : Evaluators} {fuel : Nat}

/-! ### The loop -/

/-- The values of all names of a list. -/
def allMeaning : List Text → Meaning Unit
  | [] => .done ()
  | name :: names => do
    askAs name fun _ => some ()
    allMeaning names

lemma yields_allMeaning {F : Text → Meaning ValueTypeTuple} (names : List Text) :
    Yields F (allMeaning names) () ↔ ∀ name ∈ names, ∃ value, HasValue F name value := by
  induction names with
  | nil => simp [allMeaning, yields_done]
  | cons name names ih =>
    unfold allMeaning
    rw [yields_bind, List.forall_mem_cons, ← ih]
    constructor
    · rintro ⟨_, hname, hnames⟩
      obtain ⟨value, hvalue, -⟩ := yields_askAs.mp hname
      exact ⟨⟨value, hvalue⟩, hnames⟩
    · rintro ⟨⟨value, hvalue⟩, hnames⟩
      exact ⟨(), yields_askAs.mpr ⟨value, hvalue, rfl⟩, hnames⟩

section Loop

variable (hspec : EvaluatorsSpec values input evaluators fuel)
include hspec

lemma means_visit {name : Text} {node : Element} (hlookup : input.lookup name = some node) :
    Means values input fuel (askAs name fun _ => some ())
      (knownOr (fun s => (getValueIfContained s name).map fun _ => ()) (evaluators.single node)) := by
  refine (hspec.single name node hlookup).knownOr ?_ ?_
  · intro s u h
    obtain ⟨value, hvalue, -⟩ := Option.map_eq_some_iff.mp h
    exact ⟨value, recorded_of_getValueIfContained hvalue, rfl⟩
  · intro s value h hvalue
    exact absurd hvalue (absent_of_getValueIfContained (Option.map_eq_none_iff.mp h) value)

lemma means_expandNodes {nodes : List (Text × Element)} (hnodes : ∀ entry ∈ nodes, input.lookup entry.1 = some entry.2) :
    Means values input fuel (allMeaning (nodes.map Prod.fst)) (expandNodes evaluators nodes) := by
  induction nodes with
  | nil => exact Computes.done ()
  | cons entry nodes ih =>
    obtain ⟨name, node⟩ := entry
    have hrest := ih fun entry hentry => hnodes entry (List.mem_cons_of_mem _ hentry)
    exact (means_visit hspec (hnodes _ List.mem_cons_self)).bind fun _ => hrest

/-- Every name of the loop has a recorded value after it. -/
lemma recorded_expandNodes {nodes : List (Text × Element)}
    (hnodes : ∀ entry ∈ nodes, input.lookup entry.1 = some entry.2) {s s' : State}
    (hs : store.Sound (equations values input) s) (h : expandNodes evaluators nodes s = .ok ((), s')) :
    ∀ entry ∈ nodes, ∃ value, Recorded s' entry.1 value := by
  induction nodes generalizing s with
  | nil => exact fun entry hentry => absurd hentry List.not_mem_nil
  | cons entry nodes ih =>
    obtain ⟨name, node⟩ := entry
    have hlookup := hnodes _ List.mem_cons_self
    have hnodes' : ∀ entry ∈ nodes, input.lookup entry.1 = some entry.2 :=
      fun entry hentry => hnodes entry (List.mem_cons_of_mem _ hentry)
    obtain ⟨⟨⟨⟩, t⟩, hvisit, hrest⟩ := bind_eq_ok h
    obtain ⟨-, ht, -⟩ := (means_visit hspec hlookup).sound s () t hs hvisit
    obtain ⟨-, -, hkept⟩ := (means_expandNodes hspec hnodes').sound t () s' ht hrest
    have hhead : ∃ value, Recorded t name value := by
      cases hknown : getValueIfContained s name with
      | some value =>
        have hget : (getValueIfContained s name).map (fun _ => ()) = some () := by rw [hknown]; rfl
        have hrun : knownOr (fun s => (getValueIfContained s name).map fun _ => ()) (evaluators.single node) s =
            .ok ((), s) := knownOr_some hget
        obtain ⟨-, rfl⟩ := Prod.mk.inj (Except.ok.inj (hrun.symm.trans hvisit))
        exact ⟨value, recorded_of_getValueIfContained hknown⟩
      | none =>
        have hget : (getValueIfContained s name).map (fun _ => ()) = none := by rw [hknown]; rfl
        have hrun : knownOr (fun s => (getValueIfContained s name).map fun _ => ()) (evaluators.single node) s =
            evaluators.single node s := knownOr_none hget
        obtain ⟨⟨value, -, hvalue⟩, -⟩ :=
          (hspec.single name node hlookup).sound s () t hs (hrun.symm.trans hvisit)
        exact ⟨value, hvalue⟩
    intro entry hentry
    rcases List.mem_cons.mp hentry with rfl | hentry
    · obtain ⟨value, hvalue⟩ := hhead
      exact ⟨value, hkept name value hvalue⟩
    · exact ih hnodes' ht hrest entry hentry

end Loop

/-! ### The input -/

/-- The definitions by their names. -/
def definitionsOf (configAndExprs : List Element) : List (Text × Element) :=
  configAndExprs.map fun node => (node.name, node)

def NamesValid (configAndExprs : List Element) : Prop :=
  (∀ node ∈ configAndExprs, node.name ≠ []) ∧ (configAndExprs.map Element.name).Nodup

lemma lookup_definitionsOf {configAndExprs : List Element} {name : Text} {node : Element}
    (h : (definitionsOf configAndExprs).lookup name = some node) : node ∈ configAndExprs ∧ node.name = name := by
  obtain ⟨before, after, heq, -⟩ := List.lookup_eq_some_iff.mp h
  have hmem : (name, node) ∈ definitionsOf configAndExprs := by
    rw [heq]
    simp
  obtain ⟨node', hnode', hpair⟩ := List.mem_map.mp hmem
  obtain ⟨rfl, rfl⟩ := Prod.mk.inj hpair
  exact ⟨hnode', rfl⟩

lemma lookup_definitionsOf_eq_none {configAndExprs : List Element} {name : Text} :
    (definitionsOf configAndExprs).lookup name = none ↔ name ∉ configAndExprs.map Element.name := by
  rw [List.lookup_eq_none_iff]
  unfold definitionsOf
  simp only [List.mem_map, forall_exists_index, and_imp, forall_apply_eq_imp_iff₂, bne_iff_ne, not_exists, not_and]
  exact forall₂_congr fun node _ => ne_comm

lemma lookup_definitionsOf_of_mem {configAndExprs : List Element} (hnodup : (configAndExprs.map Element.name).Nodup)
    {node : Element} (h : node ∈ configAndExprs) : (definitionsOf configAndExprs).lookup node.name = some node := by
  cases hlookup : (definitionsOf configAndExprs).lookup node.name with
  | none => exact absurd (List.mem_map_of_mem h) (lookup_definitionsOf_eq_none.mp hlookup)
  | some node' =>
    obtain ⟨hmem, hname⟩ := lookup_definitionsOf hlookup
    rw [List.inj_on_of_nodup_map hnodup hmem h hname]

lemma insertNode_eq (done : List Element) (node : Element) :
    (node.name ≠ [] ∧ node.name ∉ done.map Element.name ∧
      insertNode (definitionsOf done) node = .ok (definitionsOf (done ++ [node]))) ∨
    ¬(node.name ≠ [] ∧ node.name ∉ done.map Element.name) ∧
      ∃ e, insertNode (definitionsOf done) node = .error e ∧ e ≠ .storageError := by
  unfold insertNode
  by_cases hempty : node.name = []
  · rw [if_pos hempty]
    exact Or.inr ⟨fun h => h.1 hempty, _, rfl, nofun⟩
  rw [if_neg hempty]
  by_cases hmem : node.name ∈ done.map Element.name
  · have hsome : ((definitionsOf done).lookup node.name).isSome = true := by
      rw [Option.isSome_iff_ne_none, Ne, lookup_definitionsOf_eq_none]
      exact not_not_intro hmem
    rw [if_pos hsome]
    exact Or.inr ⟨fun h => h.2 hmem, _, rfl, nofun⟩
  · rw [lookup_definitionsOf_eq_none.mpr hmem]
    refine Or.inl ⟨hempty, hmem, ?_⟩
    simp [definitionsOf]

lemma foldlM_insertNode (nodes done : List Element) (hdone : (done.map Element.name).Nodup) :
    ((∀ node ∈ nodes, node.name ≠ []) ∧ ((done ++ nodes).map Element.name).Nodup ∧
      nodes.foldlM insertNode (definitionsOf done) = .ok (definitionsOf (done ++ nodes))) ∨
    ¬((∀ node ∈ nodes, node.name ≠ []) ∧ ((done ++ nodes).map Element.name).Nodup) ∧
      ∃ e, nodes.foldlM insertNode (definitionsOf done) = .error e ∧ e ≠ .storageError := by
  induction nodes generalizing done with
  | nil =>
    rw [List.append_nil]
    exact Or.inl ⟨nofun, hdone, rfl⟩
  | cons node nodes ih =>
    rw [List.foldlM_cons, List.forall_mem_cons]
    have happend : done ++ node :: nodes = (done ++ [node]) ++ nodes := by simp
    rcases insertNode_eq done node with ⟨hempty, hmem, hrun⟩ | ⟨hnot, e, hrun, he⟩
    · have hnext : ((done ++ [node]).map Element.name).Nodup := by
        rw [List.map_append]
        exact hdone.append (List.nodup_singleton _) (List.disjoint_singleton.mpr hmem)
      rw [hrun, ok_bind, happend]
      rcases ih (done ++ [node]) hnext with ⟨hnonempty, hnodup, hrest⟩ | ⟨hnot, herror⟩
      · exact Or.inl ⟨⟨hempty, hnonempty⟩, hnodup, hrest⟩
      · exact Or.inr ⟨fun h => hnot ⟨h.1.2, h.2⟩, herror⟩
    · refine Or.inr ⟨?_, e, ?_, he⟩
      · rintro ⟨⟨hempty, -⟩, hnodup⟩
        refine hnot ⟨hempty, ?_⟩
        intro hmem
        rw [List.map_append, List.map_cons] at hnodup
        exact List.disjoint_of_nodup_append hnodup hmem List.mem_cons_self
      · rw [hrun]
        rfl

/-- The map of the definitions is built exactly when their names are not empty and differ. -/
lemma initializeNodeAccess_spec (configAndExprs : List Element) :
    (NamesValid configAndExprs ∧ initializeNodeAccess configAndExprs = .ok (definitionsOf configAndExprs)) ∨
      ¬NamesValid configAndExprs ∧ ∃ e, initializeNodeAccess configAndExprs = .error e ∧ e ≠ .storageError := by
  rcases foldlM_insertNode configAndExprs [] List.nodup_nil with ⟨hempty, hnodup, hrun⟩ | ⟨hnot, herror⟩
  · exact Or.inl ⟨⟨hempty, hnodup⟩, hrun⟩
  · exact Or.inr ⟨hnot, herror⟩

lemma inputWellFormed (configAndExprs : List Element) : InputWellFormed (definitionsOf configAndExprs) :=
  fun _ _ h => (lookup_definitionsOf h).2

/-! ### All definitions -/

/-- The values that the definitions give to the names. -/
def Denotes (values : Values) (configAndExprs : List Element) (name : Text) (value : ValueTypeTuple) : Prop :=
  HasValue (equations values (definitionsOf configAndExprs)) name value

lemma recorded_iff {s : State} (hs : store.Sound (equations values input) s) {name : Text} {value : ValueTypeTuple} :
    Recorded s name value ↔ getValueIfContained s name = some value := by
  constructor
  · intro h
    obtain ⟨value', hvalue'⟩ := getValueIfContained_isSome h
    rw [hvalue', (hs name value' (recorded_of_getValueIfContained hvalue')).unique (hs name value h)]
  · exact recorded_of_getValueIfContained

lemma initial_ready (n : Nat) : store.Ready (equations values input) n initialState := by
  refine ⟨?_, fun _ hname => absurd hname List.not_mem_nil, fun _ hname => absurd hname List.not_mem_nil⟩
  intro name value hvalue
  cases value with
  | boolean b => cases hvalue
  | integer i => cases hvalue
  | string t => cases hvalue

lemma initial_room : store.Room (input.map Prod.fst) (input.length + 1) initialState := by
  refine ⟨List.nodup_nil, List.nil_subset _, ?_⟩
  rw [List.length_map]
  exact Nat.lt_succ_self _

lemma lookup_of_order (iteration : Iteration)
    {configAndExprs : List Element} (hnames : NamesValid configAndExprs) :
    ∀ entry ∈ iteration.order (definitionsOf configAndExprs), (definitionsOf configAndExprs).lookup entry.1 = some entry.2 := by
  intro entry hentry
  obtain ⟨node, hnode, rfl⟩ := List.mem_map.mp ((iteration.perm _).mem_iff.mp hentry)
  exact lookup_definitionsOf_of_mem hnames.2 hnode

/-- The names and their values after all definitions have been evaluated. -/
lemma evaluateAll_spec (iteration : Iteration)
    {configAndExprs : List Element} (hnames : NamesValid configAndExprs) :
    ((∃ s, evaluateAll values iteration configAndExprs = .ok s) ↔
      ∀ node ∈ configAndExprs, ∃ value, Denotes values configAndExprs node.name value) ∧
    (∀ s, evaluateAll values iteration configAndExprs = .ok s →
      store.Sound (equations values (definitionsOf configAndExprs)) s ∧
        ∀ node ∈ configAndExprs, ∃ value, Recorded s node.name value) ∧
    evaluateAll values iteration configAndExprs ≠ .error .storageError := by
  have hinit : initializeNodeAccess configAndExprs = .ok (definitionsOf configAndExprs) := by
    rcases initializeNodeAccess_spec configAndExprs with ⟨-, hinit⟩ | ⟨hnot, -⟩
    · exact hinit
    · exact absurd hnames hnot
  have hspec : EvaluatorsSpec values (definitionsOf configAndExprs)
      (evaluatorsUpTo values (definitionsOf configAndExprs) ((definitionsOf configAndExprs).length + 1))
      ((definitionsOf configAndExprs).length + 1) :=
    evaluatorsSpec (inputWellFormed configAndExprs) _
  have hlookup := lookup_of_order iteration hnames
  have hmeans := means_expandNodes hspec hlookup
  have hall : (∀ name ∈ (iteration.order (definitionsOf configAndExprs)).map Prod.fst,
      ∃ value, HasValue (equations values (definitionsOf configAndExprs)) name value) ↔
      ∀ node ∈ configAndExprs, ∃ value, Denotes values configAndExprs node.name value := by
    constructor
    · intro h node hnode
      have hentry : (node.name, node) ∈ definitionsOf configAndExprs := List.mem_map_of_mem hnode
      exact h node.name (List.mem_map_of_mem ((iteration.perm _).mem_iff.mpr hentry))
    · intro h name hname
      obtain ⟨entry, hentry, rfl⟩ := List.mem_map.mp hname
      obtain ⟨node, hnode, rfl⟩ := List.mem_map.mp ((iteration.perm _).mem_iff.mp hentry)
      exact h node hnode
  have hrun : evaluateAll values iteration configAndExprs =
      expandNodes (evaluatorsUpTo values (definitionsOf configAndExprs) ((definitionsOf configAndExprs).length + 1))
        (iteration.order (definitionsOf configAndExprs)) initialState >>= fun r => .ok r.2 := by
    unfold evaluateAll
    rw [hinit]
    rfl
  refine ⟨?_, ?_, ?_⟩
  · rw [hrun, ← hall, ← yields_allMeaning]
    constructor
    · rintro ⟨s, h⟩
      obtain ⟨⟨⟨⟩, t⟩, hexpand, -⟩ := bind_eq_ok h
      exact (hmeans.sound _ () t (initial_ready 0).sound hexpand).1
    · rintro ⟨n, hn⟩
      obtain ⟨s, hs, -⟩ := hmeans.complete n _ () hn (initial_ready n) initial_room
      rw [hs]
      exact ⟨s, rfl⟩
  · intro s h
    rw [hrun] at h
    obtain ⟨⟨⟨⟩, t⟩, hexpand, hpure⟩ := bind_eq_ok h
    obtain rfl := Except.ok.inj hpure
    refine ⟨(hmeans.sound _ () t (initial_ready 0).sound hexpand).2.1, ?_⟩
    intro node hnode
    have hentry : (node.name, node) ∈ definitionsOf configAndExprs := List.mem_map_of_mem hnode
    exact recorded_expandNodes hspec hlookup (initial_ready 0).sound hexpand (node.name, node)
      ((iteration.perm _).mem_iff.mpr hentry)
  · intro h
    rw [hrun] at h
    rcases bind_eq_error h with hexpand | ⟨r, -, hpure⟩
    · exact hmeans.bounded _ initial_room hexpand
    · cases hpure

lemma recorded_iff_denotes {iteration : Iteration} {configAndExprs : List Element} {s : State}
    (hrun : evaluateAll values iteration configAndExprs = .ok s) :
    NamesValid configAndExprs ∧
      ∀ name value, Recorded s name value ↔ Denotes values configAndExprs name value := by
  have hnames : NamesValid configAndExprs := by
    rcases initializeNodeAccess_spec configAndExprs with ⟨hnames, -⟩ | ⟨-, e, hinit, -⟩
    · exact hnames
    · unfold evaluateAll at hrun
      rw [hinit] at hrun
      cases hrun
  obtain ⟨hsound, hrecorded⟩ := (evaluateAll_spec iteration hnames).2.1 s hrun
  refine ⟨hnames, fun name value => ⟨hsound name value, ?_⟩⟩
  intro hvalue
  cases hlookup : (definitionsOf configAndExprs).lookup name with
  | none => exact absurd hvalue (not_hasValue_of_lookup hlookup value)
  | some node =>
    obtain ⟨hnode, rfl⟩ := lookup_definitionsOf hlookup
    obtain ⟨value', hvalue'⟩ := hrecorded node hnode
    rw [hvalue.unique (hsound _ _ hvalue')]
    exact hvalue'

/-- All definitions are evaluated exactly when each of them means a value, and what is recorded are these values. The
evaluations never have to be nested deeper than there are names. -/
theorem evaluateAll_exact (values : Values) (iteration : Iteration) (configAndExprs : List Element) :
    ((∃ s, evaluateAll values iteration configAndExprs = .ok s) ↔
      NamesValid configAndExprs ∧ ∀ node ∈ configAndExprs, ∃ value, Denotes values configAndExprs node.name value) ∧
    (∀ s, evaluateAll values iteration configAndExprs = .ok s →
      ∀ name value, Recorded s name value ↔ Denotes values configAndExprs name value) ∧
    evaluateAll values iteration configAndExprs ≠ .error .storageError := by
  refine ⟨?_, fun s hrun => (recorded_iff_denotes hrun).2, ?_⟩
  · constructor
    · rintro ⟨s, hrun⟩
      have hnames := (recorded_iff_denotes hrun).1
      exact ⟨hnames, (evaluateAll_spec iteration hnames).1.mp ⟨s, hrun⟩⟩
    · rintro ⟨hnames, hvalues⟩
      exact (evaluateAll_spec iteration hnames).1.mpr hvalues
  · rcases initializeNodeAccess_spec configAndExprs with ⟨hnames, -⟩ | ⟨-, e, hinit, he⟩
    · exact (evaluateAll_spec iteration hnames).2.2
    · unfold evaluateAll
      rw [hinit]
      exact fun h => he (Except.error.inj h)

/-- The recorded values satisfy all definitions, and no others do. -/
theorem evaluateAll_unique_solution {values : Values} {iteration : Iteration} {configAndExprs : List Element} {s : State}
    (hrun : evaluateAll values iteration configAndExprs = .ok s) :
    (∀ node ∈ configAndExprs, ∃ value, getValueIfContained s node.name = some value ∧
      (definition values node).run (getValueIfContained s) = some value) ∧
    ∀ env : Text → Option ValueTypeTuple,
      (∀ node ∈ configAndExprs, (definition values node).run env = env node.name) →
      ∀ node ∈ configAndExprs, env node.name = getValueIfContained s node.name := by
  obtain ⟨hnames, hrecorded⟩ := recorded_iff_denotes hrun
  have hsound : store.Sound (equations values (definitionsOf configAndExprs)) s :=
    fun name value h => (hrecorded name value).mp h
  have hvalues := (evaluateAll_spec iteration hnames).1.mp ⟨s, hrun⟩
  have hknown : ∀ n, Extends (approx (equations values (definitionsOf configAndExprs)) n) (getValueIfContained s) :=
    fun n name value h => (recorded_iff hsound).mp ((hrecorded name value).mpr ⟨n, h⟩)
  have hequation : ∀ node ∈ configAndExprs,
      equations values (definitionsOf configAndExprs) node.name = definition values node :=
    fun node hnode => equations_of_lookup (lookup_definitionsOf_of_mem hnames.2 hnode)
  constructor
  · intro node hnode
    obtain ⟨value, hvalue⟩ := hvalues node hnode
    obtain ⟨n, hn⟩ := hasValue_iff.mp hvalue
    rw [hequation node hnode] at hn
    exact ⟨value, (recorded_iff hsound).mp ((hrecorded _ _).mpr hvalue), Query.run_mono (hknown n) _ hn⟩
  · intro env henv node hnode
    obtain ⟨value, hvalue⟩ := hvalues node hnode
    have hsolves : ∀ name value', (equations values (definitionsOf configAndExprs) name).run env = some value' →
        env name = some value' := by
      intro name value' hname
      cases hlookup : (definitionsOf configAndExprs).lookup name with
      | none =>
        unfold equations at hname
        rw [hlookup] at hname
        cases hname
      | some node' =>
        obtain ⟨hnode', rfl⟩ := lookup_definitionsOf hlookup
        rw [hequation node' hnode', henv node' hnode'] at hname
        exact hname
    rw [HasValue.least hsolves hvalue, (recorded_iff hsound).mp ((hrecorded _ _).mpr hvalue)]

/-- Texts of some values. -/
def exampleValues : Values where
  boolean text := if text = "true".toList then some true else if text = "false".toList then some false else none
  integer text := if text = ['3'] then some 3 else if text = ['2'] then some 2 else none

def exampleIteration : Iteration := ⟨List.reverse, List.reverse_perm⟩

/-- A variable that refers to a comparison, and the number that is compared. -/
def exampleDefinitions : List Element :=
  [⟨"integer", [("name", ['n']), ("value", ['3'])], .nil⟩,
    ⟨"boolean", [("name", ['b']), ("value", ['$', 'e'])], .nil⟩,
    ⟨"expression", [("name", ['e'])], .cons (.element "gt" [])
      (.cons (.element "variable" [("name", ['n'])]) .nil (.cons (.element "integer" [("value", ['2'])]) .nil .nil))
      .nil⟩]

def exampleState : State :=
  ⟨[], ⟨[(['e'], true), (['b'], true)], by decide⟩, ⟨[(['n'], 3)], by decide⟩, .empty⟩

theorem evaluateAll_unique_solution_example :
    evaluateAll exampleValues exampleIteration exampleDefinitions = .ok exampleState ∧
      ∀ env : Text → Option ValueTypeTuple,
        (∀ node ∈ exampleDefinitions, (definition exampleValues node).run env = env node.name) →
        ∀ node ∈ exampleDefinitions, env node.name = getValueIfContained exampleState node.name := by
  have hrun : evaluateAll exampleValues exampleIteration exampleDefinitions = .ok exampleState := rfl
  exact ⟨hrun, (evaluateAll_unique_solution hrun).2⟩

/-! ### The configuration -/

section Configuration

variable {α : Type}

lemma mem_entries_iff (map : Map α) (name : Text) (a : α) : (name, a) ∈ map.entries ↔ map.lookup name = some a := by
  obtain ⟨entries, hnodup⟩ := map
  unfold Map.lookup
  dsimp only
  induction entries with
  | nil => simp
  | cons entry entries ih =>
    obtain ⟨key, b⟩ := entry
    rw [List.map_cons, List.nodup_cons] at hnodup
    rw [List.mem_cons, List.lookup_cons, ih hnodup.2]
    by_cases hkey : name = key
    · rw [hkey, beq_self_eq_true]
      have hnot : entries.lookup key ≠ some a := by
        intro h
        obtain ⟨before, after, heq, -⟩ := List.lookup_eq_some_iff.mp h
        apply hnodup.1
        rw [heq]
        simp
      simp [hnot, eq_comm]
    · rw [beq_false_of_ne hkey]
      simp [hkey]

/-- The names with their values, as they are written. -/
def outputs (s : State) : List (Text × ValueTypeTuple) :=
  s.outputBoolean.entries.map (fun entry => (entry.1, .boolean entry.2)) ++
    s.outputInteger.entries.map (fun entry => (entry.1, .integer entry.2)) ++
    s.outputString.entries.map fun entry => (entry.1, .string entry.2)

lemma mem_outputs {s : State} {name : Text} {value : ValueTypeTuple} :
    (name, value) ∈ outputs s ↔ Recorded s name value := by
  unfold outputs
  rw [List.mem_append, List.mem_append, List.mem_map, List.mem_map, List.mem_map]
  cases value with
  | boolean b =>
    rw [Recorded, ← mem_entries_iff]
    simp
  | integer i =>
    rw [Recorded, ← mem_entries_iff]
    simp
  | string t =>
    rw [Recorded, ← mem_entries_iff]
    simp

lemma nodup_outputs (s : State) : (outputs s).Nodup := by
  have hkind : ∀ {β : Type} (map : Map β) (embed : β → ValueTypeTuple), (∀ a b, embed a = embed b → a = b) →
      (map.entries.map fun entry => (entry.1, embed entry.2)).Nodup := by
    intro β map embed hinjective
    apply map.nodup.of_map.map
    intro entry entry' heq
    obtain ⟨hname, hvalue⟩ := Prod.mk.inj heq
    exact Prod.ext hname (hinjective _ _ hvalue)
  unfold outputs
  refine List.Nodup.append (List.Nodup.append ?_ ?_ ?_) ?_ ?_
  · exact hkind s.outputBoolean .boolean fun _ _ h => ValueTypeTuple.boolean.inj h
  · exact hkind s.outputInteger .integer fun _ _ h => ValueTypeTuple.integer.inj h
  · intro entry hb hi
    obtain ⟨b, -, rfl⟩ := List.mem_map.mp hb
    obtain ⟨i, -, heq⟩ := List.mem_map.mp hi
    cases (Prod.mk.inj heq).2
  · exact hkind s.outputString .string fun _ _ h => ValueTypeTuple.string.inj h
  · intro entry hleft ht
    obtain ⟨t, -, rfl⟩ := List.mem_map.mp ht
    rcases List.mem_append.mp hleft with hb | hi
    · obtain ⟨b, -, heq⟩ := List.mem_map.mp hb
      cases (Prod.mk.inj heq).2
    · obtain ⟨i, -, heq⟩ := List.mem_map.mp hi
      cases (Prod.mk.inj heq).2

lemma configEntries_perm (iteration : Iteration) (s : State) :
    (configEntries iteration s).Perm ((outputs s).map fun output => configEntry output.1 output.2) := by
  unfold configEntries outputs
  rw [List.map_append, List.map_append, List.map_map, List.map_map, List.map_map]
  exact (((iteration.perm _).map _).append ((iteration.perm _).map _)).append ((iteration.perm _).map _)

/-- The outputs are the definitions with their values. -/
lemma outputs_perm {iteration : Iteration} {configAndExprs : List Element} {s : State}
    (hrun : evaluateAll values iteration configAndExprs = .ok s) (valueOf : Text → ValueTypeTuple)
    (hvalueOf : ∀ node ∈ configAndExprs, Denotes values configAndExprs node.name (valueOf node.name)) :
    (outputs s).Perm (configAndExprs.map fun node => (node.name, valueOf node.name)) := by
  obtain ⟨hnames, hrecorded⟩ := recorded_iff_denotes hrun
  have hnodup : (configAndExprs.map fun node => (node.name, valueOf node.name)).Nodup := by
    apply List.Nodup.of_map Prod.fst
    rw [List.map_map]
    exact hnames.2
  rw [List.perm_ext_iff_of_nodup (nodup_outputs s) hnodup]
  rintro ⟨name, value⟩
  rw [mem_outputs, hrecorded, List.mem_map]
  constructor
  · intro hvalue
    cases hlookup : (definitionsOf configAndExprs).lookup name with
    | none => exact absurd hvalue (not_hasValue_of_lookup hlookup value)
    | some node =>
      obtain ⟨hnode, rfl⟩ := lookup_definitionsOf hlookup
      exact ⟨node, hnode, Prod.ext rfl ((hvalueOf node hnode).unique hvalue)⟩
  · rintro ⟨node, hnode, heq⟩
    obtain ⟨rfl, rfl⟩ := Prod.mk.inj heq
    exact hvalueOf node hnode

lemma replaceConfig_isSome (new new' nodes : Nodes) :
    (replaceConfig new nodes).isSome = (replaceConfig new' nodes).isSome := by
  induction nodes with
  | nil => rfl
  | cons label children siblings _ ih =>
    rw [replaceConfig, replaceConfig]
    by_cases hconfig : label.isElement "config" = true
    · rw [if_pos hconfig, if_pos hconfig]
      rfl
    · rw [if_neg hconfig, if_neg hconfig, Option.isSome_map, Option.isSome_map, ih]

/-- Whether there is a configuration does not depend on the new one. -/
lemma withConfig_isSome (new new' nodes : Nodes) : (withConfig new nodes).isSome = (withConfig new' nodes).isSome := by
  induction nodes with
  | nil => rfl
  | cons label children siblings _ ih =>
    rw [withConfig, withConfig]
    by_cases hsystem : isSystem label = true
    · rw [if_pos hsystem, if_pos hsystem, Option.isSome_map, Option.isSome_map]
      exact replaceConfig_isSome new new' children
    · rw [if_neg hsystem, if_neg hsystem, Option.isSome_map, Option.isSome_map, ih]

lemma outputs_eq_nil {s : State} : outputs s = [] ↔
    s.outputBoolean.entries = [] ∧ s.outputInteger.entries = [] ∧ s.outputString.entries = [] := by
  unfold outputs
  rw [List.append_eq_nil_iff, List.append_eq_nil_iff, List.map_eq_nil_iff, List.map_eq_nil_iff, List.map_eq_nil_iff,
    and_assoc]

/-- What the configuration section becomes when there are values to write. -/
lemma substituteConfigSection_eq (iteration : Iteration) (s : State) (doc : Nodes) :
    (outputs s = [] ∧ substituteConfigSection iteration s doc = .ok doc) ∨
    outputs s ≠ [] ∧
      ((∃ doc', withConfig (Hedge.ofRoots (configEntries iteration s)) doc = some doc' ∧
        substituteConfigSection iteration s doc = .ok doc') ∨
      withConfig (Hedge.ofRoots (configEntries iteration s)) doc = none ∧
        ∃ e, substituteConfigSection iteration s doc = .error e) := by
  unfold substituteConfigSection
  by_cases hempty : outputs s = []
  · rw [if_pos (outputs_eq_nil.mp hempty)]
    exact Or.inl ⟨hempty, rfl⟩
  · rw [if_neg (mt outputs_eq_nil.mpr hempty)]
    refine Or.inr ⟨hempty, ?_⟩
    cases withConfig (Hedge.ofRoots (configEntries iteration s)) doc with
    | none => exact Or.inr ⟨rfl, _, rfl⟩
    | some doc' => exact Or.inl ⟨doc', rfl, rfl⟩

/-- A document is expanded exactly when each definition means a value and there is a configuration to write to, if
there are definitions. The new configuration has each name once, with its value, in some order, and the rest of the
document is as before. -/
theorem expand_exact (values : Values) (iteration : Iteration) (doc : Nodes) :
    ((∃ doc', expand values iteration doc = .ok doc') ↔
      NamesValid (varsExprs doc) ∧ (∀ node ∈ varsExprs doc, ∃ value, Denotes values (varsExprs doc) node.name value) ∧
        (varsExprs doc ≠ [] → ∃ doc', withConfig .nil doc = some doc')) ∧
    ∀ doc', expand values iteration doc = .ok doc' →
      ∀ valueOf : Text → ValueTypeTuple,
        (∀ node ∈ varsExprs doc, Denotes values (varsExprs doc) node.name (valueOf node.name)) →
        (varsExprs doc = [] → doc' = doc) ∧
        (varsExprs doc ≠ [] → ∃ entries,
          entries.Perm ((varsExprs doc).map fun node => configEntry node.name (valueOf node.name)) ∧
          withConfig (Hedge.ofRoots entries) doc = some doc') := by
  have hempty : ∀ s, evaluateAll values iteration (varsExprs doc) = .ok s →
      (outputs s = [] ↔ varsExprs doc = []) := by
    intro s hrun
    obtain ⟨hnames, -⟩ := recorded_iff_denotes hrun
    have hvalues := (evaluateAll_spec iteration hnames).1.mp ⟨s, hrun⟩
    constructor
    · intro hnil
      by_contra hne
      obtain ⟨node, hnode⟩ := List.exists_mem_of_ne_nil _ hne
      obtain ⟨value, hvalue⟩ := (evaluateAll_spec iteration hnames).2.1 s hrun |>.2 node hnode
      have hmem := mem_outputs.mpr hvalue
      rw [hnil] at hmem
      exact List.not_mem_nil hmem
    · intro hnil
      have hperm := outputs_perm hrun (fun _ => .boolean false) (by rw [hnil]; exact nofun)
      rw [hnil] at hperm
      exact hperm.eq_nil
  constructor
  · constructor
    · rintro ⟨doc', h⟩
      obtain ⟨s, hrun, hsubstitute⟩ := bind_eq_ok h
      obtain ⟨hnames, -⟩ := recorded_iff_denotes hrun
      refine ⟨hnames, (evaluateAll_spec iteration hnames).1.mp ⟨s, hrun⟩, ?_⟩
      intro hne
      rcases substituteConfigSection_eq iteration s doc with
        ⟨hnil, -⟩ | ⟨-, ⟨doc'', hwith, -⟩ | ⟨-, e, herror⟩⟩
      · exact absurd ((hempty s hrun).mp hnil) hne
      · apply Option.isSome_iff_exists.mp
        rw [withConfig_isSome .nil (Hedge.ofRoots (configEntries iteration s)), hwith]
        rfl
      · cases herror.symm.trans hsubstitute
    · rintro ⟨hnames, hvalues, hconfig⟩
      obtain ⟨s, hrun⟩ := (evaluateAll_spec iteration hnames).1.mpr hvalues
      unfold expand
      rw [hrun, ok_bind]
      rcases substituteConfigSection_eq iteration s doc with
        ⟨-, hok⟩ | ⟨hne, ⟨doc', -, hok⟩ | ⟨hnone, -⟩⟩
      · exact ⟨doc, hok⟩
      · exact ⟨doc', hok⟩
      · obtain ⟨doc', hdoc'⟩ := hconfig (mt (hempty s hrun).mpr hne)
        have hsome := withConfig_isSome (Hedge.ofRoots (configEntries iteration s)) .nil doc
        rw [hnone, hdoc'] at hsome
        cases hsome
  · intro doc' h valueOf hvalueOf
    obtain ⟨s, hrun, hsubstitute⟩ := bind_eq_ok h
    rcases substituteConfigSection_eq iteration s doc with
      ⟨hnil, hok⟩ | ⟨hne, ⟨doc'', hwith, hok⟩ | ⟨-, e, herror⟩⟩
    · have hvars := (hempty s hrun).mp hnil
      exact ⟨fun _ => Except.ok.inj (hsubstitute.symm.trans hok), fun hne => absurd hvars hne⟩
    · obtain rfl := Except.ok.inj (hok.symm.trans hsubstitute)
      refine ⟨fun hvars => absurd ((hempty s hrun).mpr hvars) hne, fun _ => ⟨_, ?_, hwith⟩⟩
      have hperm := (outputs_perm hrun valueOf hvalueOf).map fun output => configEntry output.1 output.2
      rw [List.map_map] at hperm
      exact (configEntries_perm iteration s).trans hperm
    · cases herror.symm.trans hsubstitute

end Configuration

end Muen.Tools.Expressions
