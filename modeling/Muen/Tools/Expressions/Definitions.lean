import Muen.Tools.Expressions.CaseExpressions

/-!
# The values of definitions

The evaluation of a definition gives the value of its name, whatever the names that are evaluated before.
-/

namespace Muen.Tools.Expressions
open Muen.Lib
open Muen.Tools.XmlTemplates (Label Nodes getAttribute hasAttribute)

/-- A type of values, with the map that its values are inserted into. -/
structure ValueKind (α : Type) where
  select : ValueTypeTuple → Option α
  embed : α → ValueTypeTuple
  insert : Text → α → Eval Unit
  select_eq_some : ∀ value a, select value = some a ↔ value = embed a
  inserts : ∀ name a, Inserts store .storageError name (embed a) (insert name a)

def booleanKind : ValueKind Bool where
  select := ValueTypeTuple.boolean?
  embed := .boolean
  insert := insertBoolean
  select_eq_some value b := by cases value <;> simp [ValueTypeTuple.boolean?]
  inserts := inserts_boolean

def integerKind : ValueKind Int where
  select := ValueTypeTuple.integer?
  embed := .integer
  insert := insertInteger
  select_eq_some value i := by cases value <;> simp [ValueTypeTuple.integer?]
  inserts := inserts_integer

def stringKind : ValueKind Text where
  select := ValueTypeTuple.string?
  embed := .string
  insert := insertString
  select_eq_some value t := by cases value <;> simp [ValueTypeTuple.string?]
  inserts := inserts_string

def anyKind : ValueKind ValueTypeTuple where
  select := some
  embed := id
  insert := insertValue
  select_eq_some _ _ := Option.some_inj
  inserts := inserts_value

variable {values : Values} {input : List (Text × Element)} {evaluators : Evaluators} {fuel : Nat}

abbrev RecordsAs {α : Type} (values : Values) (input : List (Text × Element)) (fuel : Nat) (name : Text)
    (select : ValueTypeTuple → Option α) (m : Eval α) : Prop :=
  Records (equations values input) store (input.map Prod.fst) .storageError fuel name select m

abbrev EvaluatesAs {α : Type} (values : Values) (input : List (Text × Element)) (fuel : Nat) (name : Text)
    (select : ValueTypeTuple → Option α) (m : Eval α) : Prop :=
  Evaluates (equations values input) store (input.map Prod.fst) .storageError fuel name select m

lemma mem_keys_of_lookup {name : Text} {node : Element} (h : input.lookup name = some node) :
    name ∈ input.map Prod.fst := by
  obtain ⟨before, after, rfl, -⟩ := List.lookup_eq_some_iff.mp h
  simp

/-! ### Values that are recorded -/

section Records

variable {α : Type} {name : Text}

lemma run_embed (env : Text → Option ValueTypeTuple) (q : Meaning α) (embed : α → ValueTypeTuple) :
    (q >>= fun a => (.done (embed a) : Meaning ValueTypeTuple)).run env = (q.run env).map embed := by
  rw [Query.run_bind]
  cases q.run env with
  | none => rfl
  | some a => rfl

lemma yields_embed {F : Text → Meaning ValueTypeTuple} {q : Meaning α} {embed : α → ValueTypeTuple}
    {value : ValueTypeTuple} (h : Yields F (q >>= fun a => .done (embed a)) value) : ∃ a, value = embed a := by
  obtain ⟨a, -, ha⟩ := yields_bind.mp h
  exact ⟨a, (yields_done.mp ha).symm⟩

/-- A value of the kind is computed and inserted. -/
lemma records_value (kind : ValueKind α) {q : Meaning α} {m : Eval α} (hm : Means values input fuel q m)
    (hname : ∀ env, (equations values input name).run env = (q.run env).map kind.embed) :
    RecordsAs values input fuel name kind.select (do let a ← m; kind.insert name a; return a) := by
  refine hm.records ?_ kind.select_eq_some (kind.inserts name)
  intro env
  rw [hname]
  cases q.run env with
  | none => rfl
  | some a => exact (kind.select_eq_some _ _).mpr rfl

/-- The value of another name is taken over. -/
lemma records_reference (kind : ValueKind α) {reference : Text} {m : Eval α}
    (hm : Means values input fuel (askAs reference kind.select) m) (hname : equations values input name = ask reference) :
    RecordsAs values input fuel name kind.select (do let a ← m; kind.insert name a; return a) := by
  refine hm.records ?_ kind.select_eq_some (kind.inserts name)
  intro env
  rw [hname, run_askAs, ask, Query.run]
  cases env reference with
  | none => rfl
  | some value => rfl

/-- Values of another kind are an error. -/
lemma records_mismatch {β : Type} (kind : ValueKind α) (kind' : ValueKind β) {q : Meaning β} {e : EvalError}
    (he : e ≠ .storageError) (hname : equations values input name = q >>= fun b => .done (kind'.embed b))
    (hne : ∀ b, kind.select (kind'.embed b) = none) :
    RecordsAs values input fuel name kind.select (throw e) := by
  apply Records.fail he
  intro value hvalue
  rw [hname] at hvalue
  obtain ⟨b, rfl⟩ := yields_embed hvalue
  exact hne b

/-- Without a meaning there is no value. -/
lemma records_fail {select : ValueTypeTuple → Option α} {e : EvalError} (he : e ≠ .storageError)
    (hname : equations values input name = .fail) : RecordsAs values input fuel name select (throw e) := by
  apply Records.fail he
  intro value hvalue
  rw [hname] at hvalue
  exact absurd hvalue not_yields_fail

lemma getExprType_ne_storageError (node : Element) : getExprType node ≠ .error .storageError := by
  unfold getExprType
  split
  · exact nofun
  · repeat' split
    all_goals exact nofun

end Records

/-! ### Evaluations of definitions -/

/-- What runs while a name is in the backtrace. -/
lemma guarded_eq {α : Type} (name : Text) (m : Eval α) :
    (do addToBacktrace name; let result ← m; deleteLast; return result) =
      guarded store (fun s => cyclicDependency s.backtrace name) name m := by
  funext s
  unfold guarded
  change (addToBacktrace name s >>= fun r => (do let result ← m; deleteLast; return result : Eval α) r.2) = _
  unfold addToBacktrace
  by_cases hmem : name ∈ s.backtrace
  · have hstack : name ∈ store.stack s := hmem
    rw [if_pos hmem, if_pos hstack]
    rfl
  · have hstack : name ∉ store.stack s := hmem
    rw [if_neg hmem, if_neg hstack]
    rfl

section Functions

variable (hspec : EvaluatorsSpec values input evaluators fuel)
include hspec

lemma records_caseExpressionEvaluation {node : Element}
    (hname : equations values input node.name = caseExpressionMeaning values node) :
    RecordsAs values input fuel node.name some (caseExpressionEvaluation values input evaluators node) := by
  unfold caseExpressionMeaning at hname
  unfold caseExpressionEvaluation
  generalize (childElements node.children).filter (fun child => child.tagName = "case") = children at hname ⊢
  rcases children with _ | ⟨caseNode, _ | ⟨other, children⟩⟩
  · exact records_fail nofun hname
  · obtain ⟨-, hfst, hsnd⟩ := means_options hspec caseNode.children
    refine records_value anyKind (means_evaluateCaseNode hspec caseNode hfst hsnd) ?_
    intro env
    rw [hname]
    exact (Option.map_id_fun ▸ rfl)
  · exact records_fail nofun hname

omit hspec in
lemma means_variableValue {α : Type} {image : Text → Option α} {asked : Text → Meaning α} {reference : Text → Eval α}
    (h : ∀ name, Means values input fuel (asked name) (reference name)) (text : Text) :
    Means values input fuel (variableMeaning image asked text) (variableValue image reference text) := by
  cases text with
  | nil => exact Computes.fail nofun
  | cons c text =>
    rw [variableMeaning, variableValue]
    cases reference? (c :: text) with
    | none => exact Computes.ofOption nofun
    | some name => exact h name

lemma evaluates_evaluateBoolean {node : Element} (hnode : input.lookup node.name = some node) :
    EvaluatesAs values input (fuel + 1) node.name ValueTypeTuple.boolean?
      (evaluateBoolean values input evaluators node) := by
  have hname : equations values input node.name = definition values node := equations_of_lookup hnode
  unfold definition at hname
  unfold evaluateBoolean
  rw [guarded_eq]
  refine Records.evaluates ?_ (mem_keys_of_lookup hnode) fun _ => nofun
  by_cases hboolean : node.tagName = "boolean"
  · rw [if_pos hboolean] at hname ⊢
    exact records_value booleanKind (means_variableValue (means_booleanReference hspec) _)
      fun env => hname ▸ run_embed env _ _
  rw [if_neg hboolean] at hname ⊢
  by_cases hinteger : node.tagName = "integer"
  · rw [if_pos hinteger] at hname
    rw [if_neg (by rw [hinteger]; decide)]
    exact records_mismatch booleanKind integerKind nofun hname fun _ => rfl
  rw [if_neg hinteger] at hname
  by_cases hstring : node.tagName = "string"
  · rw [if_pos hstring] at hname
    rw [if_neg (by rw [hstring]; decide)]
    exact records_mismatch booleanKind stringKind nofun hname fun _ => rfl
  rw [if_neg hstring] at hname
  by_cases hexpression : node.tagName = "expression"
  swap
  · rw [if_neg hexpression] at hname ⊢
    exact records_fail nofun hname
  rw [if_pos hexpression] at hname ⊢
  cases htype : getExprType node with
  | error e =>
    rw [htype] at hname
    apply records_fail _ hname
    rintro rfl
    exact getExprType_ne_storageError node htype
  | ok type =>
    rw [htype] at hname
    cases type with
    | booleanExprType =>
      exact records_value booleanKind
        (means_booleanExpression hspec node (means_booleanExpressions hspec node.children))
        fun env => hname ▸ run_embed env _ _
    | stringExprType => exact records_mismatch booleanKind stringKind nofun hname fun _ => rfl
    | caseExprType => exact (records_caseExpressionEvaluation hspec hname).select fun _ => nofun
    | variableExprType => exact records_reference booleanKind (means_booleanReference hspec _) hname

lemma evaluates_evaluateInteger {node : Element} (hnode : input.lookup node.name = some node) :
    EvaluatesAs values input (fuel + 1) node.name ValueTypeTuple.integer?
      (evaluateInteger values input evaluators node) := by
  have hname : equations values input node.name = definition values node := equations_of_lookup hnode
  unfold definition at hname
  unfold evaluateInteger
  rw [guarded_eq]
  refine Records.evaluates ?_ (mem_keys_of_lookup hnode) fun _ => nofun
  by_cases hboolean : node.tagName = "boolean"
  · rw [if_pos hboolean] at hname
    rw [if_neg (by rw [hboolean]; decide), if_neg (by rw [hboolean]; decide)]
    exact records_mismatch integerKind booleanKind nofun hname fun _ => rfl
  rw [if_neg hboolean] at hname
  by_cases hinteger : node.tagName = "integer"
  · rw [if_pos hinteger] at hname ⊢
    exact records_value integerKind (means_variableValue (means_integerReference hspec) _)
      fun env => hname ▸ run_embed env _ _
  rw [if_neg hinteger] at hname ⊢
  by_cases hstring : node.tagName = "string"
  · rw [if_pos hstring] at hname
    rw [if_neg (by rw [hstring]; decide)]
    exact records_mismatch integerKind stringKind nofun hname fun _ => rfl
  rw [if_neg hstring] at hname
  by_cases hexpression : node.tagName = "expression"
  swap
  · rw [if_neg hexpression] at hname ⊢
    exact records_fail nofun hname
  rw [if_pos hexpression] at hname ⊢
  cases htype : getExprType node with
  | error e =>
    rw [htype] at hname
    apply records_fail _ hname
    rintro rfl
    exact getExprType_ne_storageError node htype
  | ok type =>
    rw [htype] at hname
    cases type with
    | booleanExprType => exact records_mismatch integerKind booleanKind nofun hname fun _ => rfl
    | stringExprType => exact records_mismatch integerKind stringKind nofun hname fun _ => rfl
    | caseExprType => exact (records_caseExpressionEvaluation hspec hname).select fun _ => nofun
    | variableExprType => exact records_reference integerKind (means_integerReference hspec _) hname

lemma evaluates_evaluateString {node : Element} (hnode : input.lookup node.name = some node) :
    EvaluatesAs values input (fuel + 1) node.name ValueTypeTuple.string?
      (evaluateString values input evaluators node) := by
  have hname : equations values input node.name = definition values node := equations_of_lookup hnode
  unfold definition at hname
  unfold evaluateString
  rw [guarded_eq]
  refine Records.evaluates ?_ (mem_keys_of_lookup hnode) fun _ => nofun
  by_cases hboolean : node.tagName = "boolean"
  · rw [if_pos hboolean] at hname
    rw [if_neg (by rw [hboolean]; decide), if_neg (by rw [hboolean]; decide)]
    exact records_mismatch stringKind booleanKind nofun hname fun _ => rfl
  rw [if_neg hboolean] at hname
  by_cases hinteger : node.tagName = "integer"
  · rw [if_pos hinteger] at hname
    rw [if_neg (by rw [hinteger]; decide), if_neg (by rw [hinteger]; decide)]
    exact records_mismatch stringKind integerKind nofun hname fun _ => rfl
  rw [if_neg hinteger] at hname
  by_cases hstring : node.tagName = "string"
  · rw [if_pos hstring] at hname ⊢
    have hm : Means values input fuel ((reference? (node.attr "value")).elim (.done (node.attr "value")) askString)
        ((reference? (node.attr "value")).elim (pure (node.attr "value")) (stringReference input evaluators)) := by
      cases reference? (node.attr "value") with
      | none => exact Computes.done _
      | some reference => exact means_stringReference hspec reference
    exact records_value stringKind hm fun env => hname ▸ run_embed env _ _
  rw [if_neg hstring] at hname ⊢
  by_cases hexpression : node.tagName = "expression"
  swap
  · rw [if_neg hexpression] at hname ⊢
    exact records_fail nofun hname
  rw [if_pos hexpression] at hname ⊢
  cases htype : getExprType node with
  | error e =>
    rw [htype] at hname
    apply records_fail _ hname
    rintro rfl
    exact getExprType_ne_storageError node htype
  | ok type =>
    rw [htype] at hname
    cases type with
    | booleanExprType => exact records_mismatch stringKind booleanKind nofun hname fun _ => rfl
    | stringExprType =>
      exact records_value stringKind (means_stringExpression hspec node) fun env => hname ▸ run_embed env _ _
    | caseExprType => exact (records_caseExpressionEvaluation hspec hname).select fun _ => nofun
    | variableExprType => exact records_reference stringKind (means_stringReference hspec _) hname

omit hspec in
lemma definition_isSome {α : Type} (kind : ValueKind α) {name : Text} {q : Meaning α}
    (hname : equations values input name = q >>= fun a => .done (kind.embed a)) {value : ValueTypeTuple}
    (hvalue : HasValue (equations values input) name value) : (kind.select value).isSome := by
  rw [hasValue_iff, hname] at hvalue
  obtain ⟨a, rfl⟩ := yields_embed hvalue
  rw [(kind.select_eq_some _ _).mpr rfl]
  rfl

omit hspec in
/-- The evaluation of a case expression, without its value. -/
lemma discard_guarded (name : Text) {α : Type} (m : Eval α) :
    (do addToBacktrace name; let _ ← m; deleteLast : Eval Unit) =
      (do let _ ← (do addToBacktrace name; let result ← m; deleteLast; return result : Eval α)) := by
  funext s
  rw [stateT_bind, stateT_bind, stateT_bind]
  cases addToBacktrace name s with
  | error e => rfl
  | ok r =>
    rw [ok_bind, ok_bind, stateT_bind, stateT_bind]
    cases m r.2 with
    | error e => rfl
    | ok r' => rfl

end Functions

/-! ### Names that stand for others -/

section Variables

variable {node : Element} {s : State}

lemma expandIfKnown_some {value : ValueTypeTuple} (h : getValueIfContained s (firstChildName node) = some value)
    (otherwise : Eval Unit) :
    (do
      let success ← expandIfKnown node.name (firstChildName node)
      if success then return () else otherwise : Eval Unit) s = insertValue node.name value s := by
  have hknown : expandIfKnown node.name (firstChildName node) s =
      insertValue node.name value s >>= fun r => .ok (true, r.2) := by
    unfold expandIfKnown
    rw [h]
    rfl
  rw [stateT_bind, hknown]
  cases insertValue node.name value s with
  | error e => rfl
  | ok r => rfl

lemma expandIfKnown_none (h : getValueIfContained s (firstChildName node) = none) (otherwise : Eval Unit) :
    (do
      let success ← expandIfKnown node.name (firstChildName node)
      if success then return () else otherwise : Eval Unit) s = otherwise s := by
  have hunknown : expandIfKnown node.name (firstChildName node) s = .ok (false, s) := by
    unfold expandIfKnown
    rw [h]
  rw [stateT_bind, hunknown]
  rfl

/-- The value of the variable is inserted once it is known. -/
def insertKnown (node : Element) (t : State) : Except EvalError (Unit × State) :=
  match getValueIfContained t (firstChildName node) with
  | some value => insertValue node.name value t
  | none => .error
      (.programError ("Unexpected exception when expanding expression with name " ++ quote node.name))

lemma expandVariable_known {value : ValueTypeTuple} (h : getValueIfContained s (firstChildName node) = some value) :
    expandVariable input evaluators node s = insertValue node.name value s :=
  expandIfKnown_some h _

lemma expandVariable_undefined (h : getValueIfContained s (firstChildName node) = none)
    (hnext : input.lookup (firstChildName node) = none) :
    expandVariable input evaluators node s = .error (.validationError
      ("A variable or expression points to " ++ quote (firstChildName node) ++ " which does not exit")) := by
  unfold expandVariable
  rw [expandIfKnown_none h]
  unfold getDefiningNode
  rw [hnext]
  rfl

lemma expandVariable_unknown (h : getValueIfContained s (firstChildName node) = none) {next : Element}
    (hnext : input.lookup (firstChildName node) = some next) :
    expandVariable input evaluators node s =
      if node.name ∈ s.backtrace then .error (cyclicDependency s.backtrace node.name)
      else evaluators.single next { s with backtrace := s.backtrace ++ [node.name] } >>= fun r =>
        insertKnown node { r.2 with backtrace := r.2.backtrace.dropLast } := by
  unfold expandVariable
  rw [expandIfKnown_none h]
  unfold getDefiningNode
  rw [hnext]
  change (addToBacktrace node.name s >>= fun r => _) = _
  unfold addToBacktrace
  by_cases hmem : node.name ∈ s.backtrace
  · rw [if_pos hmem, if_pos hmem]
    rfl
  · rw [if_neg hmem, if_neg hmem, ok_bind]
    change (evaluators.single next _ >>= fun r => _) = _
    apply congrArg
    funext r
    rw [stateT_bind]
    unfold insertKnown deleteLast
    rw [ok_bind]
    cases hvalue : getValueIfContained { r.2 with backtrace := r.2.backtrace.dropLast } (firstChildName node) with
    | none => exact expandIfKnown_none hvalue _
    | some value => exact expandIfKnown_some hvalue _

lemma insertKnown_ok {t t' : State} (h : insertKnown node t = .ok ((), t')) :
    ∃ value, getValueIfContained t (firstChildName node) = some value ∧
      insertValue node.name value t = .ok ((), t') := by
  unfold insertKnown at h
  cases hvalue : getValueIfContained t (firstChildName node) with
  | none =>
    rw [hvalue] at h
    cases h
  | some value =>
    rw [hvalue] at h
    exact ⟨value, rfl, h⟩

lemma insertKnown_ne_storageError (t : State) : insertKnown node t ≠ .error .storageError := by
  unfold insertKnown
  cases getValueIfContained t (firstChildName node) with
  | none => exact nofun
  | some value => exact (inserts_value node.name value).bounded t

/-- What a run of the evaluation that ends does. -/
lemma expandVariable_ok {s' : State} (h : expandVariable input evaluators node s = .ok ((), s')) :
    (∃ value, getValueIfContained s (firstChildName node) = some value ∧
      insertValue node.name value s = .ok ((), s')) ∨
    ∃ next t value, input.lookup (firstChildName node) = some next ∧
      evaluators.single next { s with backtrace := s.backtrace ++ [node.name] } = .ok ((), t) ∧
      getValueIfContained t (firstChildName node) = some value ∧
      insertValue node.name value { t with backtrace := t.backtrace.dropLast } = .ok ((), s') := by
  cases hknown : getValueIfContained s (firstChildName node) with
  | some value =>
    rw [expandVariable_known hknown] at h
    exact Or.inl ⟨value, rfl, h⟩
  | none =>
    cases hnext : input.lookup (firstChildName node) with
    | none =>
      rw [expandVariable_undefined hknown hnext] at h
      cases h
    | some next =>
      rw [expandVariable_unknown hknown hnext] at h
      split at h
      · cases h
      · obtain ⟨⟨⟨⟩, t⟩, hsingle, hinsert⟩ := bind_eq_ok h
        obtain ⟨value, hvalue, hinsert⟩ := insertKnown_ok hinsert
        exact Or.inr ⟨next, t, value, rfl, hsingle, hvalue, hinsert⟩

lemma evaluates_expandVariable (hspec : EvaluatorsSpec values input evaluators fuel)
    (hnode : input.lookup node.name = some node)
    (hname : equations values input node.name = ask (firstChildName node)) :
    EvaluatesAs values input (fuel + 1) node.name (fun _ => some ()) (expandVariable input evaluators node) := by
  have hkey := mem_keys_of_lookup hnode
  have hvalue : ∀ value, HasValue (equations values input) (firstChildName node) value →
      HasValue (equations values input) node.name value := by
    intro value h
    rw [hasValue_iff, hname]
    exact yields_ask.mpr ⟨value, h, yields_done.mpr rfl⟩
  refine ⟨?_, ?_, ?_, ?_⟩
  · intro s u s' h
    rcases expandVariable_ok h with ⟨value, -, hinsert⟩ | ⟨next, t, value, hnext, hsingle, -, hinsert⟩
    · exact (inserts_value node.name value).stack s s' hinsert
    · have hstack : t.backtrace = s.backtrace ++ [node.name] := (hspec.single _ next hnext).stack _ () t hsingle
      have hinserted := (inserts_value node.name value).stack _ s' hinsert
      rw [hinserted]
      change t.backtrace.dropLast = s.backtrace
      rw [hstack, List.dropLast_concat]
  · intro s u s' hs h
    rcases expandVariable_ok h with ⟨value, hknown, hinsert⟩ | ⟨next, t, value, hnext, hsingle, hknown, hinsert⟩
    · have hvalue' := hvalue value (hs _ value (recorded_of_getValueIfContained hknown))
      obtain ⟨hrecorded, hrest⟩ := (inserts_value node.name value).sound hs hvalue' hinsert
      exact ⟨⟨value, rfl, hrecorded⟩, hrest⟩
    · obtain ⟨-, ht, hkept⟩ := (hspec.single _ next hnext).sound _ () t (hs.withStack _) hsingle
      have hvalue' := hvalue value (ht _ value (recorded_of_getValueIfContained hknown))
      obtain ⟨hrecorded, hs', hkept'⟩ :=
        (inserts_value node.name value).sound (ht.withStack t.backtrace.dropLast) hvalue' hinsert
      refine ⟨⟨value, rfl, hrecorded⟩, hs', ?_⟩
      intro name w hw
      exact hkept' name w ((store.recorded_withStack t _ name w).mpr
        (hkept name w ((store.recorded_withStack s _ name w).mpr hw)))
  · intro n s value u hn _ hs hroom habsent
    obtain ⟨hnot, l, hrun, hready⟩ := hs.push hn habsent
    have hne : ∀ name ∈ s.backtrace, name ≠ node.name := fun name hmem heq => hnot (heq ▸ hmem)
    cases hknown : getValueIfContained s (firstChildName node) with
    | some w =>
      obtain ⟨s', hinsert⟩ := (inserts_value node.name w).absent s habsent
      refine ⟨s', (expandVariable_known hknown).trans hinsert, ?_⟩
      exact fun name hmem => (inserts_value node.name w).absent_of_ne hinsert (hne name hmem) (hs.absent name hmem)
    | none =>
      have hreference : approx (equations values input) l (firstChildName node) = some value := by
        rw [hname, ask, Query.run] at hrun
        cases happrox : approx (equations values input) l (firstChildName node) with
        | none =>
          rw [happrox] at hrun
          cases hrun
        | some w =>
          rw [happrox] at hrun
          exact hrun
      cases hnext : input.lookup (firstChildName node) with
      | none => exact absurd ⟨l, hreference⟩ (not_hasValue_of_lookup hnext value)
      | some next =>
        obtain ⟨t, hsingle, hothers⟩ := (hspec.single _ next hnext).complete l _ value () hreference rfl hready
          (hroom.withStack hkey hnot) (Store.absent_withStack.mpr (absent_of_getValueIfContained hknown))
        have hstack : t.backtrace = s.backtrace ++ [node.name] := (hspec.single _ next hnext).stack _ () t hsingle
        obtain ⟨⟨w, -, hw⟩, -, -⟩ := (hspec.single _ next hnext).sound _ () t hready.sound hsingle
        obtain ⟨w', hw'⟩ := getValueIfContained_isSome hw
        have hothers' : ∀ name ∈ s.backtrace ++ [node.name],
            store.Absent { t with backtrace := t.backtrace.dropLast } name :=
          fun name hmem => Store.absent_withStack.mpr (hothers name hmem)
        obtain ⟨s', hinsert⟩ := (inserts_value node.name w').absent _ (hothers' node.name (by simp))
        refine ⟨s', ?_, ?_⟩
        · have hbacktrace : node.name ∉ s.backtrace := hnot
          rw [expandVariable_unknown hknown hnext, if_neg hbacktrace]
          have hinsertKnown : insertKnown node { t with backtrace := t.backtrace.dropLast } = .ok ((), s') := by
            unfold insertKnown
            have hknown' : getValueIfContained { t with backtrace := t.backtrace.dropLast } (firstChildName node) =
                some w' := hw'
            rw [hknown']
            exact hinsert
          exact (congrArg (· >>= _) hsingle).trans hinsertKnown
        · intro name hmem
          exact (inserts_value node.name w').absent_of_ne hinsert (hne name hmem)
            (hothers' name (List.mem_append_left _ hmem))
  · intro s hroom h
    cases hknown : getValueIfContained s (firstChildName node) with
    | some value =>
      rw [expandVariable_known hknown] at h
      exact (inserts_value node.name value).bounded s h
    | none =>
      cases hnext : input.lookup (firstChildName node) with
      | none =>
        rw [expandVariable_undefined hknown hnext] at h
        cases h
      | some next =>
        rw [expandVariable_unknown hknown hnext] at h
        by_cases hmem : node.name ∈ s.backtrace
        · rw [if_pos hmem] at h
          cases h
        · rw [if_neg hmem] at h
          rcases bind_eq_error h with hsingle | ⟨r, -, hinsert⟩
          · exact (hspec.single _ next hnext).bounded _ (hroom.withStack hkey hmem) hsingle
          · exact insertKnown_ne_storageError _ hinsert

end Variables

/-! ### Single definitions -/

lemma evaluates_expandSingleNode (hspec : EvaluatorsSpec values input evaluators fuel) {node : Element}
    (hnode : input.lookup node.name = some node) :
    EvaluatesAs values input (fuel + 1) node.name (fun _ => some ())
      (expandSingleNode values input evaluators node) := by
  have hname : equations values input node.name = definition values node := equations_of_lookup hnode
  unfold definition at hname
  unfold expandSingleNode
  by_cases hboolean : node.tagName = "boolean"
  · rw [if_pos hboolean] at hname ⊢
    exact (evaluates_evaluateBoolean hspec hnode).discard fun value => definition_isSome booleanKind hname
  rw [if_neg hboolean] at hname ⊢
  by_cases hinteger : node.tagName = "integer"
  · rw [if_pos hinteger] at hname ⊢
    exact (evaluates_evaluateInteger hspec hnode).discard fun value => definition_isSome integerKind hname
  rw [if_neg hinteger] at hname ⊢
  by_cases hstring : node.tagName = "string"
  · rw [if_pos hstring] at hname ⊢
    exact (evaluates_evaluateString hspec hnode).discard fun value => definition_isSome stringKind hname
  rw [if_neg hstring] at hname ⊢
  have hfail : ∀ {e : EvalError}, e ≠ .storageError → equations values input node.name = .fail →
      EvaluatesAs values input (fuel + 1) node.name (fun _ => some ()) (throw e) := by
    intro e he hfail
    apply Evaluates.fail he
    intro value hvalue
    rw [hasValue_iff, hfail] at hvalue
    exact absurd hvalue not_yields_fail
  by_cases hexpression : node.tagName = "expression"
  swap
  · rw [if_neg hexpression] at hname ⊢
    exact hfail nofun hname
  rw [if_pos hexpression] at hname ⊢
  cases htype : getExprType node with
  | error e =>
    rw [htype] at hname
    apply hfail _ hname
    rintro rfl
    exact getExprType_ne_storageError node htype
  | ok type =>
    rw [htype] at hname
    cases type with
    | booleanExprType =>
      exact (evaluates_evaluateBoolean hspec hnode).discard fun value => definition_isSome booleanKind hname
    | stringExprType =>
      exact (evaluates_evaluateString hspec hnode).discard fun value => definition_isSome stringKind hname
    | variableExprType => exact evaluates_expandVariable hspec hnode hname
    | caseExprType =>
      dsimp only
      rw [discard_guarded, guarded_eq]
      have hevaluates : EvaluatesAs values input (fuel + 1) node.name some
          (guarded store (fun s => cyclicDependency s.backtrace node.name) node.name
            (caseExpressionEvaluation values input evaluators node)) :=
        (records_caseExpressionEvaluation hspec hname).evaluates (mem_keys_of_lookup hnode) fun _ => nofun
      exact hevaluates.discard fun _ _ => rfl

/-- The names are those of the definitions. -/
def InputWellFormed (input : List (Text × Element)) : Prop :=
  ∀ name node, input.lookup name = some node → node.name = name

lemma evaluatorsSpec (hinput : InputWellFormed input) (fuel : Nat) :
    EvaluatorsSpec values input (evaluatorsUpTo values input fuel) fuel := by
  induction fuel with
  | zero =>
    exact ⟨fun _ _ _ => Evaluates.zero, fun _ _ _ => Evaluates.zero, fun _ _ _ => Evaluates.zero,
      fun _ _ _ => Evaluates.zero⟩
  | succ fuel ih =>
    refine ⟨?_, ?_, ?_, ?_⟩
    · intro name node hlookup
      obtain rfl := hinput name node hlookup
      exact evaluates_evaluateBoolean ih hlookup
    · intro name node hlookup
      obtain rfl := hinput name node hlookup
      exact evaluates_evaluateInteger ih hlookup
    · intro name node hlookup
      obtain rfl := hinput name node hlookup
      exact evaluates_evaluateString ih hlookup
    · intro name node hlookup
      obtain rfl := hinput name node hlookup
      exact evaluates_expandSingleNode ih hlookup

end Muen.Tools.Expressions
