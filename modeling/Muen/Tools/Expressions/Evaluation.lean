import Muen.Tools.Expressions.Meaning

/-!
# What the functions evaluate

Each of the functions gives what its argument means, as far as the evaluations of other names do. The values that are
recorded are those of the maps for the three types.
-/

namespace Muen.Tools.Expressions
open Muen.Lib
open Muen.Tools.XmlTemplates (Label Nodes getAttribute hasAttribute)

/-! ### Values in the maps -/

lemma lookup_append_singleton {α : Type} (entries : List (Text × α)) (key other : Text) (a : α)
    (h : entries.lookup key = none) :
    (entries ++ [(key, a)]).lookup other = if other = key then some a else entries.lookup other := by
  rw [List.lookup_append]
  by_cases hother : other = key
  · rw [if_pos hother, hother, h]
    simp
  · rw [if_neg hother]
    simp [List.lookup_cons, beq_eq_false_iff_ne.mpr hother]

namespace Map

variable {α : Type}

/-- What a map has after an element is added, which it did not have before. -/
lemma insert_eq_ok {map map' : Map α} {key : Text} {a : α} (h : map.insert key a = .ok map') :
    map.lookup key = none ∧ ∀ other, map'.lookup other = if other = key then some a else map.lookup other := by
  unfold insert at h
  by_cases hkey : map.entries.lookup key = none
  · rw [dif_pos hkey] at h
    obtain rfl := Except.ok.inj h
    exact ⟨hkey, fun other => lookup_append_singleton map.entries key other a hkey⟩
  · rw [dif_neg hkey] at h
    cases h

lemma insert_of_absent {map : Map α} {key : Text} (a : α) (h : map.lookup key = none) :
    ∃ map', map.insert key a = .ok map' := by
  refine ⟨⟨map.entries ++ [(key, a)], ?_⟩, ?_⟩
  · rw [List.map_append]
    exact map.nodup.append (List.nodup_singleton key) (List.disjoint_singleton.mpr (mem_keys_of_mem h))
  · exact dif_pos h

lemma insert_ne_storageError (map : Map α) (key : Text) (a : α) : map.insert key a ≠ .error .storageError := by
  unfold insert
  by_cases hkey : map.entries.lookup key = none
  · rw [dif_pos hkey]
    exact nofun
  · rw [dif_neg hkey]
    exact nofun

end Map

/-- The value is in the map for its type. -/
def Recorded (s : State) (name : Text) : ValueTypeTuple → Prop
  | .boolean b => s.outputBoolean.lookup name = some b
  | .integer i => s.outputInteger.lookup name = some i
  | .string t => s.outputString.lookup name = some t

def store : Store State Text ValueTypeTuple where
  recorded := Recorded
  stack := State.backtrace
  withStack s l := { s with backtrace := l }
  stack_withStack _ _ := rfl
  recorded_withStack s l name value := by cases value <;> exact Iff.rfl

lemma recorded_of_getValueIfContained {s : State} {name : Text} {value : ValueTypeTuple}
    (h : getValueIfContained s name = some value) : Recorded s name value := by
  unfold getValueIfContained at h
  cases hb : s.outputBoolean.lookup name with
  | some b =>
    rw [hb] at h
    obtain rfl := Option.some.inj h
    exact hb
  | none =>
    rw [hb] at h
    dsimp only at h
    cases hi : s.outputInteger.lookup name with
    | some i =>
      rw [hi] at h
      obtain rfl := Option.some.inj h
      exact hi
    | none =>
      rw [hi] at h
      obtain ⟨t, ht, rfl⟩ := Option.map_eq_some_iff.mp h
      exact ht

lemma getValueIfContained_isSome {s : State} {name : Text} {value : ValueTypeTuple} (h : Recorded s name value) :
    ∃ value', getValueIfContained s name = some value' := by
  unfold getValueIfContained
  cases hb : s.outputBoolean.lookup name with
  | some b => exact ⟨_, rfl⟩
  | none =>
    cases hi : s.outputInteger.lookup name with
    | some i => exact ⟨_, rfl⟩
    | none =>
      cases ht : s.outputString.lookup name with
      | some t => exact ⟨_, rfl⟩
      | none =>
        cases value with
        | boolean b => cases hb.symm.trans h
        | integer i => cases hi.symm.trans h
        | string t => cases ht.symm.trans h

lemma absent_of_getValueIfContained {s : State} {name : Text} (h : getValueIfContained s name = none) :
    store.Absent s name := by
  intro value hvalue
  obtain ⟨value', hsome⟩ := getValueIfContained_isSome hvalue
  rw [h] at hsome
  cases hsome

/-- What adding an element to one of the maps records. -/
lemma inserts_of {α : Type} (get : State → Map α) (set : State → Map α → State) {embed : α → ValueTypeTuple}
    (hstack : ∀ s map, (set s map).backtrace = s.backtrace) (hget : ∀ s map, get (set s map) = map)
    (hembed : ∀ s name a, Recorded s name (embed a) ↔ (get s).lookup name = some a)
    (hothers : ∀ s map name value, (∀ a, value ≠ embed a) → (Recorded (set s map) name value ↔ Recorded s name value))
    (hinjective : ∀ a b, embed a = embed b → a = b) (name : Text) (a : α) :
    Inserts store .storageError name (embed a) fun s => do return ((), set s (← (get s).insert name a)) := by
  have hrun : ∀ s s', (do return ((), set s (← (get s).insert name a)) : Except EvalError (Unit × State)) =
      .ok ((), s') → ∃ map, (get s).insert name a = .ok map ∧ s' = set s map := by
    intro s s' h
    obtain ⟨map, hmap, hrest⟩ := bind_eq_ok h
    exact ⟨map, hmap, (Prod.mk.inj (Except.ok.inj hrest)).2.symm⟩
  refine ⟨?_, ?_, ?_, ?_⟩
  · intro s s' h
    obtain ⟨map, -, rfl⟩ := hrun s s' h
    exact hstack s map
  · intro s s' h other value
    obtain ⟨map, hmap, rfl⟩ := hrun s s' h
    obtain ⟨hnone, hlookup⟩ := Map.insert_eq_ok hmap
    change Recorded (set s map) other value ↔ Recorded s other value ∨ _
    by_cases hvalue : ∃ b, value = embed b
    · obtain ⟨b, rfl⟩ := hvalue
      rw [hembed, hembed, hget, hlookup]
      by_cases hother : other = name
      · rw [if_pos hother, hother, hnone]
        constructor
        · intro heq
          exact Or.inr ⟨rfl, congrArg embed (Option.some.inj heq).symm⟩
        · rintro (heq | ⟨-, heq⟩)
          · cases heq
          · rw [hinjective _ _ heq]
      · rw [if_neg hother]
        simp [hother]
    · rw [hothers s map other value fun b hb => hvalue ⟨b, hb⟩]
      refine (or_iff_left ?_).symm
      rintro ⟨-, heq⟩
      exact hvalue ⟨a, heq⟩
  · intro s habsent
    have hnone : (get s).lookup name = none := by
      cases hlookup : (get s).lookup name with
      | none => rfl
      | some b => exact absurd ((hembed s name b).mpr hlookup) (habsent (embed b))
    obtain ⟨map, hmap⟩ := Map.insert_of_absent a hnone
    refine ⟨set s map, ?_⟩
    rw [hmap]
    rfl
  · intro s h
    rcases bind_eq_error h with hmap | ⟨map, -, hrest⟩
    · exact Map.insert_ne_storageError _ _ _ hmap
    · cases hrest

lemma inserts_boolean (name : Text) (b : Bool) :
    Inserts store .storageError name (.boolean b) (insertBoolean name b) := by
  refine inserts_of State.outputBoolean (fun s map => { s with outputBoolean := map }) (fun _ _ => rfl)
    (fun _ _ => rfl) (fun _ _ _ => Iff.rfl) ?_ (fun _ _ h => ValueTypeTuple.boolean.inj h) name b
  intro s map other value hvalue
  cases value with
  | boolean c => exact absurd rfl (hvalue c)
  | integer i => exact Iff.rfl
  | string t => exact Iff.rfl

lemma inserts_integer (name : Text) (i : Int) :
    Inserts store .storageError name (.integer i) (insertInteger name i) := by
  refine inserts_of State.outputInteger (fun s map => { s with outputInteger := map }) (fun _ _ => rfl)
    (fun _ _ => rfl) (fun _ _ _ => Iff.rfl) ?_ (fun _ _ h => ValueTypeTuple.integer.inj h) name i
  intro s map other value hvalue
  cases value with
  | boolean b => exact Iff.rfl
  | integer j => exact absurd rfl (hvalue j)
  | string t => exact Iff.rfl

lemma inserts_string (name t : Text) : Inserts store .storageError name (.string t) (insertString name t) := by
  refine inserts_of State.outputString (fun s map => { s with outputString := map }) (fun _ _ => rfl)
    (fun _ _ => rfl) (fun _ _ _ => Iff.rfl) ?_ (fun _ _ h => ValueTypeTuple.string.inj h) name t
  intro s map other value hvalue
  cases value with
  | boolean b => exact Iff.rfl
  | integer i => exact Iff.rfl
  | string u => exact absurd rfl (hvalue u)

lemma inserts_value (name : Text) (value : ValueTypeTuple) :
    Inserts store .storageError name value (insertValue name value) := by
  cases value with
  | boolean b => exact inserts_boolean name b
  | integer i => exact inserts_integer name i
  | string t => exact inserts_string name t

/-! ### References -/

section Functions

variable (values : Values) (input : List (Text × Element)) (evaluators : Evaluators) (fuel : Nat)

/-- A function gives what a definition or a part of it means. -/
abbrev Means {α : Type} (q : Meaning α) (m : Eval α) : Prop :=
  Computes (equations values input) store (input.map Prod.fst) .storageError fuel q m

/-- The functions that evaluate the definition of a name give the values of their types. -/
structure EvaluatorsSpec : Prop where
  boolean : ∀ name node, input.lookup name = some node →
    Evaluates (equations values input) store (input.map Prod.fst) .storageError fuel name ValueTypeTuple.boolean?
      (evaluators.boolean node)
  integer : ∀ name node, input.lookup name = some node →
    Evaluates (equations values input) store (input.map Prod.fst) .storageError fuel name ValueTypeTuple.integer?
      (evaluators.integer node)
  string : ∀ name node, input.lookup name = some node →
    Evaluates (equations values input) store (input.map Prod.fst) .storageError fuel name ValueTypeTuple.string?
      (evaluators.string node)
  single : ∀ name node, input.lookup name = some node →
    Evaluates (equations values input) store (input.map Prod.fst) .storageError fuel name (fun _ => some ())
      (evaluators.single node)

variable {values input evaluators fuel}

lemma equations_of_lookup {name : Text} {node : Element} (h : input.lookup name = some node) :
    equations values input name = definition values node := by
  unfold equations
  rw [h]

lemma not_hasValue_of_lookup {name : Text} (h : input.lookup name = none) (value : ValueTypeTuple) :
    ¬HasValue (equations values input) name value := by
  rw [hasValue_iff]
  unfold equations
  rw [h]
  exact not_yields_fail

/-- What the evaluation of a definition gives is what the evaluation of a name does. -/
lemma evaluates_getDefiningNode {α : Type} {select : ValueTypeTuple → Option α} {evaluate : Element → Eval α}
    {name : Text} (h : ∀ node, input.lookup name = some node →
      Evaluates (equations values input) store (input.map Prod.fst) .storageError fuel name select (evaluate node)) :
    Evaluates (equations values input) store (input.map Prod.fst) .storageError fuel name select
      (getDefiningNode input name >>= evaluate) := by
  unfold getDefiningNode
  cases hlookup : input.lookup name with
  | some node => exact h node hlookup
  | none => exact Evaluates.fail nofun fun value hvalue => absurd hvalue (not_hasValue_of_lookup hlookup value)

variable (hspec : EvaluatorsSpec values input evaluators fuel)
include hspec

lemma means_booleanReference (name : Text) :
    Means values input fuel (askBoolean name) (booleanReference input evaluators name) := by
  refine (evaluates_getDefiningNode (hspec.boolean name)).knownOr ?_ ?_
  · exact fun s b h => ⟨.boolean b, h, rfl⟩
  · intro s value hnone hvalue
    cases value with
    | boolean b => cases hnone.symm.trans hvalue
    | integer i => rfl
    | string t => rfl

lemma means_integerReference (name : Text) :
    Means values input fuel (askInteger name) (integerReference input evaluators name) := by
  refine (evaluates_getDefiningNode (hspec.integer name)).knownOr ?_ ?_
  · exact fun s i h => ⟨.integer i, h, rfl⟩
  · intro s value hnone hvalue
    cases value with
    | boolean b => rfl
    | integer i => cases hnone.symm.trans hvalue
    | string t => rfl

lemma means_stringReference (name : Text) :
    Means values input fuel (askString name) (stringReference input evaluators name) := by
  refine (evaluates_getDefiningNode (hspec.string name)).knownOr ?_ ?_
  · exact fun s t h => ⟨.string t, h, rfl⟩
  · intro s value hnone hvalue
    cases value with
    | boolean b => rfl
    | integer i => rfl
    | string t => cases hnone.symm.trans hvalue

lemma means_getValueOfReference (name : Text) :
    Means values input fuel (ask name) (getValueOfReference input evaluators name) := by
  have hevaluates : Evaluates (equations values input) store (input.map Prod.fst) .storageError fuel name some
      (getDefiningNode input name >>= fun node => evaluators.single node >>= fun _ =>
        knownOr (fun s => getValueIfContained s name) (throw (.invalidExpression
          ("Found Reference to non-existing variable with name " ++ quote name)))) := by
    apply evaluates_getDefiningNode
    intro node hlookup
    exact (hspec.single name node hlookup).thenKnownOr nofun (fun s value => recorded_of_getValueIfContained)
      fun s => absent_of_getValueIfContained
  exact hevaluates.knownOr (fun s value h => ⟨value, recorded_of_getValueIfContained h, rfl⟩)
    fun s value hnone hvalue => absurd hvalue (absent_of_getValueIfContained hnone value)

omit hspec

lemma means_assureFirstCharNotDollar (text : Text) :
    Means values input fuel (plainMeaning text) (assureFirstCharNotDollar text) := by
  unfold plainMeaning assureFirstCharNotDollar
  by_cases h : (reference? text).isSome = true
  · rw [if_pos h, if_pos h]
    exact Computes.fail nofun
  · rw [if_neg h, if_neg h]
    exact Computes.done ()

lemma means_constantValue {α : Type} (image : Text → Option α) (text : Text) :
    Means values input fuel (constantMeaning image text) (constantValue image text) :=
  (means_assureFirstCharNotDollar text).bind fun _ => Computes.ofOption nofun

lemma means_evalBooleans (op : Bool → Bool → Bool) (opName : String) {meanings : List (Meaning Bool)}
    {operands : List (Eval Bool)} (h : List.Forall₂ (Means values input fuel) meanings operands) :
    Means values input fuel (booleansMeaning op meanings) (evalBooleans op opName operands) := by
  cases h with
  | nil => exact Computes.fail nofun
  | cons hx htail =>
    cases htail with
    | nil => exact Computes.fail nofun
    | cons hy _ => exact hx.bind fun x => hy.bind fun y => Computes.done (op x y)

lemma means_evalNot {meanings : List (Meaning Bool)} {operands : List (Eval Bool)}
    (h : List.Forall₂ (Means values input fuel) meanings operands) :
    Means values input fuel (notMeaning meanings) (evalNot operands) := by
  cases h with
  | nil => exact Computes.fail nofun
  | cons hx _ => exact hx.bind fun x => Computes.done !x

lemma means_evalExpr (node : Element) {meanings : List (Meaning Bool)} {operands : List (Eval Bool)}
    (h : List.Forall₂ (Means values input fuel) meanings operands) :
    Means values input fuel (meanings.headD .fail) (evalExpr node operands) := by
  cases h with
  | nil => exact Computes.fail nofun
  | cons hx _ =>
    apply hx.withError
    intro e he
    cases e with
    | storageError => exact absurd rfl he
    | _ => exact nofun

include hspec

lemma means_boolValue (node : Element) :
    Means values input fuel (boolMeaning values node) (boolValue values input evaluators node) := by
  unfold boolMeaning boolValue
  cases kindValue boolKinds node.tagName with
  | none => exact Computes.fail nofun
  | some kind =>
    cases kind with
    | valueKind => exact means_constantValue values.boolean _
    | variableKind =>
      exact (means_assureFirstCharNotDollar node.name).bind fun _ => means_booleanReference hspec node.name

lemma means_intValue (node : Element) :
    Means values input fuel (intMeaning values node) (intValue values input evaluators node) := by
  unfold intMeaning intValue
  cases kindValue intKinds node.tagName with
  | none => exact Computes.fail nofun
  | some kind =>
    cases kind with
    | valueKind => exact means_constantValue values.integer _
    | variableKind =>
      exact (means_assureFirstCharNotDollar node.name).bind fun _ => means_integerReference hspec node.name

lemma means_evalIntegers (op : Int → Int → Bool) (opName : String) (node : Element) :
    Means values input fuel (integersMeaning values op node) (evalIntegers values input evaluators op opName node) := by
  unfold integersMeaning evalIntegers
  cases childElements node.children with
  | nil => exact Computes.fail nofun
  | cons x rest =>
    cases rest with
    | nil => exact Computes.fail nofun
    | cons y _ =>
      exact (means_intValue hspec x).bind fun i => (means_intValue hspec y).bind fun j => Computes.done (op i j)

lemma means_booleanExpression (node : Element) {meanings : List (Meaning Bool)} {operands : List (Eval Bool)}
    (h : List.Forall₂ (Means values input fuel) meanings operands) :
    Means values input fuel (booleanMeaning values node meanings)
      (booleanExpression values input evaluators node operands) := by
  unfold booleanMeaning booleanExpression
  cases kindValue expressionKinds node.tagName with
  | none => exact Computes.fail nofun
  | some kind =>
    cases kind with
    | exprEq => exact means_evalIntegers hspec _ "eq" node
    | exprGt => exact means_evalIntegers hspec _ "gt" node
    | exprLt => exact means_evalIntegers hspec _ "lt" node
    | exprNe => exact means_evalIntegers hspec _ "ne" node
    | exprNot => exact means_evalNot h
    | exprAnd => exact means_evalBooleans _ "and" h
    | exprOr => exact means_evalBooleans _ "or" h
    | exprExpression => exact means_evalExpr node h
    | exprBoolean => exact means_boolValue hspec node
    | exprVariable => exact means_boolValue hspec node

lemma means_booleanExpressions (nodes : Nodes) :
    List.Forall₂ (Means values input fuel) (booleanMeanings values nodes)
      (booleanExpressions values input evaluators nodes) := by
  induction nodes with
  | nil => exact List.Forall₂.nil
  | cons label children siblings ihchildren ihsiblings =>
    cases label with
    | element tagName attributes =>
      exact List.Forall₂.cons (means_booleanExpression hspec ⟨tagName, attributes, children⟩ ihchildren) ihsiblings
    | text value => exact ihsiblings
    | other value => exact ihsiblings

/-! ### String expressions -/

lemma means_stringValue (node : Element) :
    Means values input fuel (stringMeaning node) (stringValue input evaluators node) := by
  unfold stringMeaning stringValue
  by_cases hstring : node.tagName = "string"
  · rw [if_pos hstring, if_pos hstring]
    exact (means_assureFirstCharNotDollar _).bind fun _ => Computes.done _
  · rw [if_neg hstring, if_neg hstring]
    by_cases hvariable : node.tagName = "variable"
    · rw [if_pos hvariable, if_pos hvariable]
      exact (means_assureFirstCharNotDollar _).bind fun _ => means_stringReference hspec node.name
    · rw [if_neg hvariable, if_neg hvariable]
      exact Computes.fail nofun

omit hspec in
/-- A text in front of the results of computations one after the other. -/
lemma run_concatMeaning_cons (env : Text → Option ValueTypeTuple) (part : Meaning Text) (parts : List (Meaning Text))
    (result : Text) :
    (concatMeaning (part :: parts) >>= fun texts => (.done (result ++ texts) : Meaning Text)).run env =
      (part >>= fun text => concatMeaning parts >>= fun texts =>
        (.done (result ++ text ++ texts) : Meaning Text)).run env := by
  rw [concatMeaning, Query.run_bind, Query.run_bind, Query.run_bind, Option.bind_assoc]
  apply congrArg
  funext text
  rw [Query.run_bind, Query.run_bind, Option.bind_assoc]
  apply congrArg
  funext texts
  rw [List.append_assoc]
  rfl

lemma means_appendValues (children : List Element) (result : Text) :
    Means values input fuel (concatMeaning (children.map stringMeaning) >>= fun texts => .done (result ++ texts))
      (appendValues input evaluators children result) := by
  induction children generalizing result with
  | nil =>
    rw [appendValues]
    have hdone : Means values input fuel (.done (result ++ [])) (pure result) := by
      rw [List.append_nil]
      exact Computes.done result
    exact hdone
  | cons child children ih =>
    rw [appendValues]
    apply Computes.congr _ fun env => run_concatMeaning_cons env (stringMeaning child) (children.map stringMeaning) result
    exact (means_stringValue hspec child).bind fun text => ih (result ++ text)

lemma means_appendFragments (fragments : List Fragment) (result : Text) :
    Means values input fuel (concatMeaning (fragments.map fragmentMeaning) >>= fun texts => .done (result ++ texts))
      (appendFragments input evaluators fragments result) := by
  induction fragments generalizing result with
  | nil =>
    rw [appendFragments]
    have hdone : Means values input fuel (.done (result ++ [])) (pure result) := by
      rw [List.append_nil]
      exact Computes.done result
    exact hdone
  | cons fragment fragments ih =>
    rw [appendFragments]
    apply Computes.congr _ fun env =>
      run_concatMeaning_cons env (fragmentMeaning fragment) (fragments.map fragmentMeaning) result
    unfold fragmentMeaning
    cases fragment.valueType with
    | textType => exact ih (result ++ fragment.value)
    | referenceType => exact (means_stringReference hspec fragment.value).bind fun text => ih (result ++ text)

omit hspec in
lemma run_bind_done {α : Type} (env : Text → Option ValueTypeTuple) (q : Meaning α) :
    (q >>= fun a => (.done a : Meaning α)).run env = q.run env := by
  rw [Query.run_bind]
  cases q.run env with
  | none => rfl
  | some a => rfl

lemma means_evaluateConcatenation (exprName : Text) (node : Element) :
    Means values input fuel (concatenationMeaning node) (evaluateConcatenation input evaluators exprName node) := by
  unfold concatenationMeaning evaluateConcatenation
  dsimp only
  split
  · exact Computes.fail nofun
  · exact (means_appendValues hspec _ []).congr fun env => (run_bind_done env _).symm

lemma means_evaluateEvalString (node : Element) :
    Means values input fuel (evalStringMeaning node) (evaluateEvalString input evaluators node) := by
  unfold evalStringMeaning evaluateEvalString
  cases parseDollarBracedReferences ⟨1, node.attr "value", Nat.one_pos⟩ with
  | error e =>
    apply Computes.fail
    cases e with
    | _ => exact nofun
  | ok fragments =>
    dsimp only
    by_cases hvalue : node.has "value" = true
    · rw [if_pos hvalue, if_neg (not_not_intro hvalue)]
      exact (means_appendFragments hspec fragments []).congr fun env => (run_bind_done env _).symm
    · rw [if_neg hvalue, if_pos hvalue]
      exact Computes.fail nofun

lemma means_stringExpression (node : Element) :
    Means values input fuel (stringExpressionMeaning node) (stringExpression input evaluators node) := by
  unfold stringExpressionMeaning stringExpression
  generalize ((childElements node.children).filter fun child =>
    child.tagName ∈ ["concatenation", "evalString"]) = children
  rcases children with _ | ⟨child, _ | ⟨other, children⟩⟩
  · exact Computes.fail nofun
  · dsimp only
    split
    · exact means_evaluateConcatenation hspec node.name child
    · exact means_evaluateEvalString hspec child
  · exact Computes.fail nofun

end Functions

end Muen.Tools.Expressions
