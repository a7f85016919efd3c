import Muen.Lib.Memo
import Muen.Tools.XmlTemplates.Document

/-!
# Mutools.Expressions

`Expand` evaluates the configuration variables and expressions of a document. The value of a name is recorded in the
map for its type, and a name that is asked for and has no value yet is evaluated on the spot. The names under
evaluation are kept, so that a value that depends on itself is found.
-/

namespace Muen.Tools.Expressions
open Muen.Lib
open Muen.Tools.XmlTemplates (Label Nodes getAttribute hasAttribute)

abbrev Text := List Char

inductive EvalError
  | invalidExpression (message : String)
  | validationError (message : String)
  | programError (message : String)
  | constraintError
  | indexError
  /-- Evaluations that are nested too deep. -/
  | storageError
deriving DecidableEq

/-- The values that texts are images of. -/
structure Values where
  boolean : Text → Option Bool
  integer : Text → Option Int

def quote (text : Text) : String := "'" ++ String.ofList text ++ "'"

/-! ### Nodes -/

structure Element where
  tagName : String
  attributes : List (String × Text)
  children : Nodes

namespace Element

def attr (node : Element) (name : String) : Text := getAttribute node.attributes name

def has (node : Element) (name : String) : Bool := hasAttribute node.attributes name

def name (node : Element) : Text := node.attr "name"

end Element

def childElements : Nodes → List Element
  | .nil => []
  | .cons (.element tagName attributes) children siblings => ⟨tagName, attributes, children⟩ :: childElements siblings
  | .cons (.text _) _ siblings => childElements siblings
  | .cons (.other _) _ siblings => childElements siblings

/-- The name after a dollar sign at the start. -/
def reference? : Text → Option Text
  | '$' :: name => some name
  | _ => none

/-! ### Values and their maps -/

inductive VariableType
  | booleanType
  | integerType
  | stringType
deriving DecidableEq

def VariableType.image : VariableType → String
  | booleanType => "BOOLEAN_TYPE"
  | integerType => "INTEGER_TYPE"
  | stringType => "STRING_TYPE"

inductive ValueTypeTuple
  | boolean (value : Bool)
  | integer (value : Int)
  | string (value : Text)
deriving DecidableEq

namespace ValueTypeTuple

def valueType : ValueTypeTuple → VariableType
  | boolean _ => .booleanType
  | integer _ => .integerType
  | string _ => .stringType

def boolean? : ValueTypeTuple → Option Bool
  | boolean value => some value
  | _ => none

def integer? : ValueTypeTuple → Option Int
  | integer value => some value
  | _ => none

def string? : ValueTypeTuple → Option Text
  | string value => some value
  | _ => none

def image (value : ValueTypeTuple) : String :=
  value.valueType.image ++ " " ++
    match value with
    | boolean b => if b then "TRUE" else "FALSE"
    | integer i => toString i
    | string s => String.ofList s

/-- The value of a type that a text is the image of. -/
def cast (values : Values) (text : Text) : VariableType → Option ValueTypeTuple
  | .booleanType => (values.boolean text).map boolean
  | .integerType => (values.integer text).map integer
  | .stringType => some (string text)

end ValueTypeTuple

/-- A map has one element for each of its keys. -/
structure Map (α : Type) where
  entries : List (Text × α)
  nodup : (entries.map Prod.fst).Nodup

namespace Map

variable {α : Type}

def empty : Map α := ⟨[], List.nodup_nil⟩

def lookup (map : Map α) (key : Text) : Option α := map.entries.lookup key

def contains (map : Map α) (key : Text) : Bool := (map.lookup key).isSome

lemma mem_keys_of_mem {entries : List (Text × α)} {key : Text} (h : entries.lookup key = none) :
    key ∉ entries.map Prod.fst := by
  intro hmem
  obtain ⟨⟨k, a⟩, hentry, rfl⟩ := List.mem_map.mp hmem
  have hne := List.lookup_eq_none_iff.mp h (k, a) hentry
  simp at hne

/-- A key that the map has already is an error. -/
def insert (map : Map α) (key : Text) (newItem : α) : Except EvalError (Map α) :=
  if h : map.entries.lookup key = none then
    .ok ⟨map.entries ++ [(key, newItem)], by
      rw [List.map_append]
      exact map.nodup.append (List.nodup_singleton key) (List.disjoint_singleton.mpr (mem_keys_of_mem h))⟩
  else .error .constraintError

end Map

structure State where
  backtrace : List Text
  outputBoolean : Map Bool
  outputInteger : Map Int
  outputString : Map Text

abbrev Eval (α : Type) := StateT State (Except EvalError) α

/-- The path from the first evaluation of the name to the next one. -/
def cyclicDependency (backtrace : List Text) (name : Text) : EvalError :=
  .invalidExpression ("Resolving the value of node with name " ++ quote name ++ " lead to cyclic dependency: " ++
    String.ofList ((backtrace.dropWhile (· ≠ name)).flatMap (· ++ " > ".toList) ++ name))

def addToBacktrace (name : Text) : Eval Unit := fun s =>
  if name ∈ s.backtrace then .error (cyclicDependency s.backtrace name)
  else .ok ((), { s with backtrace := s.backtrace ++ [name] })

def deleteLast : Eval Unit := fun s => .ok ((), { s with backtrace := s.backtrace.dropLast })

def assureFirstCharNotDollar (input : Text) : Eval Unit :=
  if (reference? input).isSome then
    throw (.invalidExpression ("Argument with value " ++ quote input ++
      " must not start with '$' within expressions"))
  else return ()

def insertBoolean (name : Text) (value : Bool) : Eval Unit := fun s => do
  return ((), { s with outputBoolean := ← s.outputBoolean.insert name value })

def insertInteger (name : Text) (value : Int) : Eval Unit := fun s => do
  return ((), { s with outputInteger := ← s.outputInteger.insert name value })

def insertString (name : Text) (value : Text) : Eval Unit := fun s => do
  return ((), { s with outputString := ← s.outputString.insert name value })

def insertValue (name : Text) : ValueTypeTuple → Eval Unit
  | .boolean value => insertBoolean name value
  | .integer value => insertInteger name value
  | .string value => insertString name value

def getValueIfContained (s : State) (name : Text) : Option ValueTypeTuple :=
  match s.outputBoolean.lookup name with
  | some b => some (.boolean b)
  | none =>
    match s.outputInteger.lookup name with
    | some i => some (.integer i)
    | none => (s.outputString.lookup name).map .string

/-! ### Kinds of nodes -/

inductive ExpressionToplevelType
  | booleanExprType
  | stringExprType
  | caseExprType
  | variableExprType
deriving DecidableEq

def getExprType (expr : Element) : Except EvalError ExpressionToplevelType :=
  match childElements expr.children with
  | [] => .error (.invalidExpression ("Expression with name " ++ quote expr.name ++ " is empty"))
  | child :: _ =>
    if child.tagName ∈ ["concatenation", "evalString"] then .ok .stringExprType
    else if child.tagName ∈ ["eq", "ne", "gt", "lt", "and", "or", "not"] then .ok .booleanExprType
    else if child.tagName = "case" then .ok .caseExprType
    else if child.tagName = "variable" then .ok .variableExprType
    else .error (.invalidExpression ("Expression with name " ++ quote expr.name ++
      " begins with illegal operator '" ++ child.tagName ++ "'"))

/-- The kind that a name is an image of, in whatever case. -/
def kindValue {κ : Type} (kinds : List (String × κ)) (tagName : String) : Option κ :=
  (kinds.find? fun kind => kind.1.toList.map Char.toUpper = tagName.toList.map Char.toUpper).map Prod.snd

inductive ExpressionKind
  | exprAnd | exprBoolean | exprExpression | exprEq | exprGt | exprLt | exprNe | exprNot | exprOr | exprVariable
deriving DecidableEq

def expressionKinds : List (String × ExpressionKind) :=
  [("and", .exprAnd), ("boolean", .exprBoolean), ("expression", .exprExpression), ("eq", .exprEq), ("gt", .exprGt), ("lt", .exprLt),
    ("ne", .exprNe), ("not", .exprNot), ("or", .exprOr), ("variable", .exprVariable)]

/-- A constant or a variable. -/
inductive OperandKind
  | valueKind | variableKind
deriving DecidableEq

def boolKinds : List (String × OperandKind) := [("boolean", .valueKind), ("variable", .variableKind)]

def intKinds : List (String × OperandKind) := [("integer", .valueKind), ("variable", .variableKind)]

/-! ### References -/

/-- The functions that evaluate the definition of a name. -/
structure Evaluators where
  boolean : Element → Eval Bool
  integer : Element → Eval Int
  string : Element → Eval Text
  single : Element → Eval Unit

section Functions

variable (values : Values) (input : List (Text × Element)) (evaluators : Evaluators)

def getDefiningNode (varName : Text) : Eval Element :=
  match input.lookup varName with
  | some node => return node
  | none => throw (.validationError ("A variable or expression points to " ++ quote varName ++ " which does not exit"))

/-- The value of a Boolean name, which is evaluated when it is not known yet. -/
def booleanReference (name : Text) : Eval Bool :=
  knownOr (fun s => s.outputBoolean.lookup name) do evaluators.boolean (← getDefiningNode input name)

def integerReference (name : Text) : Eval Int :=
  knownOr (fun s => s.outputInteger.lookup name) do evaluators.integer (← getDefiningNode input name)

def stringReference (name : Text) : Eval Text :=
  knownOr (fun s => s.outputString.lookup name) do evaluators.string (← getDefiningNode input name)

def getValueOfReference (refName : Text) : Eval ValueTypeTuple :=
  knownOr (fun s => getValueIfContained s refName) do
    evaluators.single (← getDefiningNode input refName)
    knownOr (fun s => getValueIfContained s refName)
      (throw (.invalidExpression ("Found Reference to non-existing variable with name " ++ quote refName)))

/-! ### Boolean and integer expressions -/

def constantValue {α : Type} (image : Text → Option α) (text : Text) : Eval α := do
  assureFirstCharNotDollar text
  (image text).elim (throw .constraintError) pure

def boolValue (node : Element) : Eval Bool :=
  match kindValue boolKinds node.tagName with
  | none => throw (.invalidExpression ("Invalid boolean type '" ++ node.tagName ++ "'"))
  | some .valueKind => constantValue values.boolean (node.attr "value")
  | some .variableKind => do
    assureFirstCharNotDollar node.name
    booleanReference input evaluators node.name

def intValue (node : Element) : Eval Int :=
  match kindValue intKinds node.tagName with
  | none => throw (.invalidExpression ("Invalid integer type '" ++ node.tagName ++ "'"))
  | some .valueKind => constantValue values.integer (node.attr "value")
  | some .variableKind => do
    assureFirstCharNotDollar node.name
    integerReference input evaluators node.name

def evalIntegers (op : Int → Int → Bool) (opName : String) (node : Element) : Eval Bool :=
  match childElements node.children with
  | x :: y :: _ => do
    let x ← intValue values input evaluators x
    let y ← intValue values input evaluators y
    return op x y
  | _ => throw (.invalidExpression ("Operator '" ++ opName ++ "' requires two child elements"))

/-- Both operands are evaluated in any case. -/
def evalBooleans (op : Bool → Bool → Bool) (opName : String) (operands : List (Eval Bool)) : Eval Bool :=
  match operands with
  | x :: y :: _ => do
    let x ← x
    let y ← y
    return op x y
  | _ => throw (.invalidExpression ("Operator '" ++ opName ++ "' requires two child elements"))

def evalNot (operands : List (Eval Bool)) : Eval Bool :=
  match operands with
  | x :: _ => do
    let x ← x
    return !x
  | [] => throw (.invalidExpression "Operator 'not' requires one child element")

/-- The error with the name of the expression in front. -/
def inExpression (exprName : Text) : EvalError → EvalError
  | .invalidExpression message => .invalidExpression ("Expression " ++ quote exprName ++ ": " ++ message)
  | e => e

def evalExpr (node : Element) (operands : List (Eval Bool)) : Eval Bool :=
  match operands with
  | x :: _ => withError (inExpression node.name) x
  | [] => throw (.invalidExpression ("Expression " ++ quote node.name ++ ": Missing operator"))

/-- `Boolean_Expression` of a node, from those of its children. -/
def booleanExpression (node : Element) (operands : List (Eval Bool)) : Eval Bool :=
  match kindValue expressionKinds node.tagName with
  | none => throw (.invalidExpression ("Invalid expression term '" ++ node.tagName ++ "'"))
  | some .exprEq => evalIntegers values input evaluators (fun x y => x = y) "eq" node
  | some .exprGt => evalIntegers values input evaluators (fun x y => x > y) "gt" node
  | some .exprLt => evalIntegers values input evaluators (fun x y => x < y) "lt" node
  | some .exprNe => evalIntegers values input evaluators (fun x y => x ≠ y) "ne" node
  | some .exprNot => evalNot operands
  | some .exprAnd => evalBooleans (fun x y => x && y) "and" operands
  | some .exprOr => evalBooleans (fun x y => x || y) "or" operands
  | some .exprExpression => evalExpr node operands
  | some .exprBoolean => boolValue values input evaluators node
  | some .exprVariable => boolValue values input evaluators node

/-- `Boolean_Expression` of each of the siblings that are elements. -/
def booleanExpressions : Nodes → List (Eval Bool)
  | .nil => []
  | .cons (.element tagName attributes) children siblings =>
    booleanExpression values input evaluators ⟨tagName, attributes, children⟩ (booleanExpressions children) ::
      booleanExpressions siblings
  | .cons (.text _) _ siblings => booleanExpressions siblings
  | .cons (.other _) _ siblings => booleanExpressions siblings

/-! ### String expressions -/

def stringValue (node : Element) : Eval Text :=
  if node.tagName = "string" then do
    assureFirstCharNotDollar (node.attr "value")
    return node.attr "value"
  else if node.tagName = "variable" then do
    assureFirstCharNotDollar node.name
    stringReference input evaluators node.name
  else throw (.invalidExpression ("Invalid string type '" ++ node.tagName ++ "'"))

/-- The loop over the children of a concatenation. -/
def appendValues : List Element → Text → Eval Text
  | [], result => return result
  | child :: children, result => do
    let value ← stringValue input evaluators child
    appendValues children (result ++ value)

def evaluateConcatenation (exprName : Text) (node : Element) : Eval Text :=
  let children := (childElements node.children).filter fun child => child.tagName ∈ ["string", "variable"]
  if children.length < 2 then
    throw (.invalidExpression ("Concatenation-expression " ++ quote exprName ++ " has less than two children"))
  else appendValues input evaluators children []

def parseError : ParseError → EvalError
  | .indexError => .indexError
  | .constraintError => .constraintError
  | .invalidExpression message => .invalidExpression message

/-- The loop over the fragments of a string. -/
def appendFragments : List Fragment → Text → Eval Text
  | [], result => return result
  | fragment :: fragments, result =>
    match fragment.valueType with
    | .textType => appendFragments fragments (result ++ fragment.value)
    | .referenceType => do
      let refValue ← stringReference input evaluators fragment.value
      appendFragments fragments (result ++ refValue)

def evaluateEvalString (node : Element) : Eval Text :=
  match parseDollarBracedReferences ⟨1, node.attr "value", Nat.one_pos⟩ with
  | .error e => throw (parseError e)
  | .ok fragments =>
    if ¬node.has "value" then
      throw (.invalidExpression "String-expression has evalString child without 'value' attribute")
    else appendFragments input evaluators fragments []

def stringExpression (node : Element) : Eval Text :=
  match (childElements node.children).filter fun child => child.tagName ∈ ["concatenation", "evalString"] with
  | [child] =>
    if child.tagName = "concatenation" then evaluateConcatenation input evaluators node.name child
    else evaluateEvalString input evaluators child
  | _ => throw (.invalidExpression ("String-expression " ++ quote node.name ++
      " is missing a unique legal child node"))

/-! ### Case expressions -/

def getTypeAndValue (node : Element) : Eval ValueTypeTuple :=
  if ¬node.has "value" then
    throw (.invalidExpression ("Found node with name '" ++ node.tagName ++ "' without necessary 'value' attribute"))
  else if (reference? (node.attr "value")).isSome then
    throw (.invalidExpression ("Node with name '" ++ node.tagName ++
      "' must not have value starting with '$' within expressions"))
  else if node.tagName = "boolean" then
    (ValueTypeTuple.cast values (node.attr "value") .booleanType).elim (throw .constraintError) pure
  else if node.tagName = "integer" then
    (ValueTypeTuple.cast values (node.attr "value") .integerType).elim (throw .constraintError) pure
  else if node.tagName = "string" then
    (ValueTypeTuple.cast values (node.attr "value") .stringType).elim (throw .constraintError) pure
  else throw (.invalidExpression ("Cannot determine type and value of node with name '" ++ node.tagName ++
    "'. Invalid node name."))

def evaluateWhenOption (rawValue : Text) (caseValue : ValueTypeTuple) : Eval ValueTypeTuple :=
  match reference? rawValue with
  | some refName => do
    let whenValue ← getValueOfReference input evaluators refName
    if whenValue.valueType ≠ caseValue.valueType then
      throw (.invalidExpression ("Found case node where variable types do not match. Case-variable type is '" ++
        caseValue.valueType.image ++ "' when-variable type is '" ++ whenValue.valueType.image ++ "'"))
    else return whenValue
  | none =>
    (ValueTypeTuple.cast values rawValue caseValue.valueType).elim
      (throw (.invalidExpression ("Found when-node with value " ++ quote rawValue ++ " which cannot be cast to " ++
        caseValue.valueType.image))) pure

/-- The loop over the options of a case, with the position of the matching one so far. -/
def optionsLoop (caseValue : ValueTypeTuple) : Nat → List Element → Option Nat → Eval (Option Nat)
  | _, [], returnNode => return returnNode
  | i, whenNode :: options, returnNode =>
    if whenNode.tagName = "others" then
      if options ≠ [] then
        throw (.invalidExpression "Found 'others'-node which is not the last child of 'case'")
      else optionsLoop caseValue (i + 1) options (if returnNode = none then some i else returnNode)
    else if ¬whenNode.has "value" then throw (.invalidExpression "Found when-node without 'value' attribute")
    else do
      let whenValue ← evaluateWhenOption values input evaluators (whenNode.attr "value") caseValue
      if whenValue = caseValue then
        if returnNode = none then optionsLoop caseValue (i + 1) options (some i)
        else throw (.invalidExpression ("Found case node where multiple values match. Case-variable value is '" ++
          caseValue.image ++ "'"))
      else optionsLoop caseValue (i + 1) options returnNode

def evaluateCaseNodeFrame (caseNode : Element) (options : List Element) : Eval (Option Nat) :=
  if ¬caseNode.has "variable" then throw (.invalidExpression "Found case-node without 'variable' attribute")
  else do
    let caseValue ← getValueOfReference input evaluators (caseNode.attr "variable")
    if options = [] then throw (.invalidExpression "Found case-node without when-children")
    else optionsLoop values input evaluators caseValue 0 options none

/-- The loop over the values of the options, with the type of the first one and the value of the matching one. -/
def childrenLoop (returnNode : Nat) :
    Nat → List (List (Eval ValueTypeTuple)) → Option VariableType → ValueTypeTuple → Eval ValueTypeTuple
  | _, [], _, valueOfCase => return valueOfCase
  | i, children :: options, childType, valueOfCase =>
    match children with
    | [child] => do
      let childValue ← child
      let valueOfCase := if i = returnNode then childValue else valueOfCase
      match childType with
      | none => childrenLoop returnNode (i + 1) options (some childValue.valueType) valueOfCase
      | some type =>
        if type ≠ childValue.valueType then
          throw (.invalidExpression ("Case expression contains values of multiple types: '" ++ type.image ++
            "' and '" ++ childValue.valueType.image ++ "'"))
        else childrenLoop returnNode (i + 1) options (some type) valueOfCase
    | _ => throw (.invalidExpression ("When-Node inside of Case has " ++ toString children.length ++
        " child nodes. Should have one."))

/-- `Evaluate_Case_Node` from the options, each with the evaluations of its children. -/
def evaluateCaseNode (caseNode : Element) (options : List (Element × List (Eval ValueTypeTuple))) :
    Eval ValueTypeTuple := do
  match ← evaluateCaseNodeFrame values input evaluators caseNode (options.map Prod.fst) with
  | none => throw (.invalidExpression
      ("Found case-node in expression where none of the actuals matches. Case-variable has name " ++
        quote (caseNode.attr "variable")))
  | some returnNode => childrenLoop returnNode 0 (options.map Prod.snd) none (.boolean false)

mutual

/-- The evaluations of the siblings that may be the value of an option. -/
def whenChildren : Nodes → List (Eval ValueTypeTuple)
  | .nil => []
  | .cons (.element tagName attributes) children siblings =>
    if tagName = "case" then
      evaluateCaseNode values input evaluators ⟨tagName, attributes, children⟩ (caseOptions children) ::
        whenChildren siblings
    else if tagName = "variable" then
      getValueOfReference input evaluators (getAttribute attributes "name") :: whenChildren siblings
    else if tagName ∈ ["boolean", "integer", "string"] then
      getTypeAndValue values ⟨tagName, attributes, children⟩ :: whenChildren siblings
    else whenChildren siblings
  | .cons (.text _) _ siblings => whenChildren siblings
  | .cons (.other _) _ siblings => whenChildren siblings

/-- The siblings that are options, with the evaluations of their children. -/
def caseOptions : Nodes → List (Element × List (Eval ValueTypeTuple))
  | .nil => []
  | .cons (.element tagName attributes) children siblings =>
    if tagName ∈ ["when", "others"] then
      (⟨tagName, attributes, children⟩, whenChildren children) :: caseOptions siblings
    else caseOptions siblings
  | .cons (.text _) _ siblings => caseOptions siblings
  | .cons (.other _) _ siblings => caseOptions siblings

end

def caseExpressionEvaluation (exprNode : Element) : Eval ValueTypeTuple :=
  match (childElements exprNode.children).filter fun child => child.tagName = "case" with
  | [caseNode] => do
    let value ← evaluateCaseNode values input evaluators caseNode (caseOptions values input evaluators caseNode.children)
    insertValue exprNode.name value
    return value
  | children => throw (.invalidExpression ("Case-expression " ++ quote exprNode.name ++ " has " ++
      toString children.length ++ " case-child nodes. Should have exactly one."))

/-! ### Definitions -/

/-- The name in the first child of an expression. -/
def firstChildName (node : Element) : Text :=
  match childElements node.children with
  | child :: _ => child.name
  | [] => []

def notValued (node : Element) (article type : String) : EvalError :=
  .validationError (article ++ " variable or expression points to expression with name " ++ quote node.name ++
    " which is not " ++ type ++ " valued")

def wrongType (node : Element) (article type : String) : EvalError :=
  .validationError (article ++ " variable or expression points to node with type '" ++ node.tagName ++
    "' which is not " ++ type ++ " valued")

/-- The value that a text is the image of, or that of the name after a dollar sign. An empty text is an error. -/
def variableValue {α : Type} (image : Text → Option α) (reference : Text → Eval α) : Text → Eval α
  | [] => throw .constraintError
  | c :: text =>
    match reference? (c :: text) with
    | none => (image (c :: text)).elim (throw .constraintError) pure
    | some name => reference name

def evaluateBoolean (node : Element) : Eval Bool := do
  addToBacktrace node.name
  let result ← (
    if node.tagName = "boolean" then do
      let result ← variableValue values.boolean (booleanReference input evaluators) (node.attr "value")
      insertBoolean node.name result
      return result
    else if node.tagName = "expression" then
      match getExprType node with
      | .error e => throw e
      | .ok .caseExprType => do
        let result ← caseExpressionEvaluation values input evaluators node
        result.boolean?.elim (throw (notValued node "A Boolean" "Boolean")) pure
      | .ok .booleanExprType => do
        let result ← booleanExpression values input evaluators node
          (booleanExpressions values input evaluators node.children)
        insertBoolean node.name result
        return result
      | .ok .variableExprType => do
        let result ← booleanReference input evaluators (firstChildName node)
        insertBoolean node.name result
        return result
      | .ok .stringExprType => throw (notValued node "A Boolean" "Boolean")
    else throw (wrongType node "A Boolean" "Boolean") : Eval Bool)
  deleteLast
  return result

def evaluateInteger (node : Element) : Eval Int := do
  addToBacktrace node.name
  let result ← (
    if node.tagName = "integer" then do
      let result ← variableValue values.integer (integerReference input evaluators) (node.attr "value")
      insertInteger node.name result
      return result
    else if node.tagName = "expression" then
      match getExprType node with
      | .error e => throw e
      | .ok .caseExprType => do
        let result ← caseExpressionEvaluation values input evaluators node
        result.integer?.elim (throw (notValued node "An integer" "integer")) pure
      | .ok .variableExprType => do
        let result ← integerReference input evaluators (firstChildName node)
        insertInteger node.name result
        return result
      | .ok _ => throw (notValued node "An integer" "integer")
    else throw (wrongType node "An integer" "integer") : Eval Int)
  deleteLast
  return result

def evaluateString (node : Element) : Eval Text := do
  addToBacktrace node.name
  let result ← (
    if node.tagName = "string" then do
      let result ← (reference? (node.attr "value")).elim (pure (node.attr "value")) (stringReference input evaluators)
      insertString node.name result
      return result
    else if node.tagName = "expression" then
      match getExprType node with
      | .error e => throw e
      | .ok .caseExprType => do
        let result ← caseExpressionEvaluation values input evaluators node
        result.string?.elim (throw (notValued node "A string" "string")) pure
      | .ok .variableExprType => do
        let result ← stringReference input evaluators (firstChildName node)
        insertString node.name result
        return result
      | .ok .stringExprType => do
        let result ← stringExpression input evaluators node
        insertString node.name result
        return result
      | .ok .booleanExprType => throw (notValued node "A string" "string")
    else throw (wrongType node "A string" "string") : Eval Text)
  deleteLast
  return result

/-- The result tells whether the reference is known. -/
def expandIfKnown (nodeName reference : Text) : Eval Bool := fun s =>
  match getValueIfContained s reference with
  | some value => (do insertValue nodeName value; return true : Eval Bool) s
  | none => .ok (false, s)

/-- An expression that is a variable, whose value is the one of that variable. -/
def expandVariable (node : Element) : Eval Unit := do
  let success ← expandIfKnown node.name (firstChildName node)
  if success then return ()
  else
    let nextNode ← getDefiningNode input (firstChildName node)
    addToBacktrace node.name
    evaluators.single nextNode
    deleteLast
    let success ← expandIfKnown node.name (firstChildName node)
    if success then return ()
    else throw (.programError ("Unexpected exception when expanding expression with name " ++ quote node.name))

def expandSingleNode (node : Element) : Eval Unit :=
  if node.tagName = "boolean" then discard (evaluateBoolean values input evaluators node)
  else if node.tagName = "integer" then discard (evaluateInteger values input evaluators node)
  else if node.tagName = "string" then discard (evaluateString values input evaluators node)
  else if node.tagName = "expression" then
    match getExprType node with
    | .error e => throw e
    | .ok .booleanExprType => discard (evaluateBoolean values input evaluators node)
    | .ok .caseExprType => do
      addToBacktrace node.name
      let _ ← caseExpressionEvaluation values input evaluators node
      deleteLast
    | .ok .variableExprType => expandVariable input evaluators node
    | .ok .stringExprType => discard (evaluateString values input evaluators node)
  else throw (.invalidExpression ("Invalid config-variable or expression with type '" ++ node.tagName ++ "'"))

/-! ### All definitions -/

/-- The functions, with a bound on the names that are under evaluation at the same time. -/
def evaluatorsUpTo : Nat → Evaluators
  | 0 => ⟨fun _ => throw .storageError, fun _ => throw .storageError, fun _ => throw .storageError,
      fun _ => throw .storageError⟩
  | fuel + 1 =>
    ⟨evaluateBoolean values input (evaluatorsUpTo fuel), evaluateInteger values input (evaluatorsUpTo fuel),
      evaluateString values input (evaluatorsUpTo fuel), expandSingleNode values input (evaluatorsUpTo fuel)⟩

/-- The loop over the definitions, which leaves out the names that have a value already. -/
def expandNodes : List (Text × Element) → Eval Unit
  | [] => return ()
  | (key, node) :: nodes => do
    knownOr (fun s => (getValueIfContained s key).map fun _ => ()) (evaluators.single node)
    expandNodes nodes

end Functions

/-- The map with another definition. -/
def insertNode (input : List (Text × Element)) (node : Element) : Except EvalError (List (Text × Element)) :=
  if node.name = [] then .error (.invalidExpression "Found empty variable or expression name")
  else if (input.lookup node.name).isSome then .error .constraintError
  else .ok (input ++ [(node.name, node)])

def initializeNodeAccess (configAndExprs : List Element) : Except EvalError (List (Text × Element)) :=
  configAndExprs.foldlM insertNode []

def initialState : State := ⟨[], .empty, .empty, .empty⟩

/-- The order in which a map is iterated. -/
structure Iteration where
  order : {α : Type} → List (Text × α) → List (Text × α)
  perm : ∀ {α : Type} (entries : List (Text × α)), (order entries).Perm entries

/-- The evaluation of all definitions. -/
def evaluateAll (values : Values) (iteration : Iteration) (configAndExprs : List Element) : Except EvalError State := do
  let input ← initializeNodeAccess configAndExprs
  let r ← expandNodes (evaluatorsUpTo values input (input.length + 1)) (iteration.order input) initialState
  return r.2

/-! ### The configuration -/

def isSystem : Label → Bool
  | .element tagName _ => tagName ∈ ["system", "component", "library"]
  | _ => false

/-- The configuration variables and expressions of a document. -/
def varsExprs (doc : Nodes) : List Element :=
  let system := doc.childrenOf isSystem
  ((childElements (system.childrenOf (Label.isElement "config"))).filter fun node =>
      node.tagName ∈ ["boolean", "integer", "string"]) ++
    (childElements (system.childrenOf (Label.isElement "expressions"))).filter fun node => node.tagName = "expression"

def configEntry (name : Text) : ValueTypeTuple → Label × Nodes
  | .boolean b => (.element "boolean" [("name", name), ("value", (if b then "true" else "false").toList)], .nil)
  | .integer i => (.element "integer" [("name", name), ("value", (toString i).toList)], .nil)
  | .string t => (.element "string" [("name", name), ("value", t)], .nil)

/-- The siblings with a new configuration in place of the first one. -/
def replaceConfig (new : Nodes) : Nodes → Option Nodes
  | .nil => none
  | .cons label children siblings =>
    if label.isElement "config" then some (.cons (.element "config" []) new siblings)
    else (replaceConfig new siblings).map (.cons label children)

/-- The document with a new configuration in its first system, component or library. -/
def withConfig (new : Nodes) : Nodes → Option Nodes
  | .nil => none
  | .cons label children siblings =>
    if isSystem label then (replaceConfig new children).map fun children' => .cons label children' siblings
    else (withConfig new siblings).map (.cons label children)

def configEntries (iteration : Iteration) (s : State) : List (Label × Nodes) :=
  (iteration.order s.outputBoolean.entries).map (fun entry => configEntry entry.1 (.boolean entry.2)) ++
    (iteration.order s.outputInteger.entries).map (fun entry => configEntry entry.1 (.integer entry.2)) ++
    (iteration.order s.outputString.entries).map fun entry => configEntry entry.1 (.string entry.2)

def substituteConfigSection (iteration : Iteration) (s : State) (doc : Nodes) : Except EvalError Nodes :=
  if s.outputBoolean.entries = [] ∧ s.outputInteger.entries = [] ∧ s.outputString.entries = [] then .ok doc
  else
    match withConfig (Hedge.ofRoots (configEntries iteration s)) doc with
    | some doc' => .ok doc'
    | none => .error
        (.validationError "Expressions exist but no 'config' element exits. This is not supported.")

def expand (values : Values) (iteration : Iteration) (doc : Nodes) : Except EvalError Nodes := do
  let s ← evaluateAll values iteration (varsExprs doc)
  substituteConfigSection iteration s doc

end Muen.Tools.Expressions
