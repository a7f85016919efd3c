import Muen.Lib.Fallible
import Muen.Tools.XmlNode

/-!
# Mutools.Conditionals and Mutools.Expressions.Case_Expression

`Evaluate` replaces the `if` and `case` nodes below a node by the nodes that their conditions select. It moves the
selected nodes in front of the conditional and takes the conditional away, while it walks along the siblings.
-/

namespace Muen.Tools.Conditionals
open Muen.Lib
open Muen.Tools.Xml

inductive ExpandError
  | invalidExpression (message : String)
  | validationError (message : String)
  | constraintError
  | notFound
  /-- Calls that are nested too deep. -/
  | storageError
deriving DecidableEq

/-- Only elements have attributes. -/
def getAttribute (node : Node) (name : String) : Except ExpandError String :=
  if node.isElement then .ok (node.attr name) else .error .constraintError

/-! ### Values -/

/-- The values that strings are images of. -/
structure Values where
  boolean : String → Option Bool
  integer : String → Option Int

inductive Value
  | boolean (value : Bool)
  | integer (value : Int)
  | string (value : String)
deriving DecidableEq

namespace Value

def typeImage : Value → String
  | boolean _ => "BOOLEAN_TYPE"
  | integer _ => "INTEGER_TYPE"
  | string _ => "STRING_TYPE"

def image : Value → String
  | boolean value => typeImage (.boolean value) ++ " " ++ (if value then "TRUE" else "FALSE")
  | integer value => typeImage (.integer value) ++ " " ++ toString value
  | string value => typeImage (.string value) ++ " " ++ value

/-- The value of the same type that a string is the image of. -/
def cast (values : Values) : Value → String → Option Value
  | boolean _, s => (values.boolean s).map .boolean
  | integer _, s => (values.integer s).map .integer
  | string _, s => some (.string s)

end Value

structure NodeAccess where
  outputBoolean : List (String × Bool)
  outputInteger : List (String × Int)
  outputString : List (String × String)

def isValueEqualAfterCast (values : Values) (access : NodeAccess) (configVarName value : String) :
    Except ExpandError Bool :=
  match access.outputBoolean.lookup configVarName with
  | some b =>
    match values.boolean value with
    | some input => .ok (input = b)
    | none => .error (.invalidExpression ("Cannot compare value '" ++ value ++ "' to variable '" ++ configVarName ++
        "' which is a Boolean (cast failed)"))
  | none =>
    match access.outputInteger.lookup configVarName with
    | some i =>
      match values.integer value with
      | some input => .ok (input = i)
      | none => .error (.invalidExpression ("Cannot compare value '" ++ value ++ "' to variable '" ++ configVarName ++
          "' which is an Integer (cast failed)"))
    | none =>
      match access.outputString.lookup configVarName with
      | some s => .ok (value = s)
      | none => .error (.invalidExpression ("Cannot find variable with name '" ++ configVarName ++
          "' in configuration"))

def getValueIfContained (access : NodeAccess) (name : String) : Option Value :=
  match access.outputBoolean.lookup name with
  | some b => some (.boolean b)
  | none =>
    match access.outputInteger.lookup name with
    | some i => some (.integer i)
    | none => (access.outputString.lookup name).map .string

/-- The value of a variable. There are no definitions of others that could be expanded. -/
def getValueOfReference (access : NodeAccess) (refName : String) : Except ExpandError Value :=
  match getValueIfContained access refName with
  | some value => .ok value
  | none => .error (.validationError ("A variable or expression points to '" ++ refName ++ "' which does not exit"))

def evaluateWhenOption (values : Values) (access : NodeAccess) (rawValue : String) (caseValue : Value) :
    Except ExpandError Value :=
  if rawValue.toList.head? = some '$' then do
    let value ← getValueOfReference access (String.ofList (rawValue.toList.drop 1))
    if value.typeImage ≠ caseValue.typeImage then
      .error (.invalidExpression ("Found case node where variable types do not match. Case-variable type is '" ++
        caseValue.typeImage ++ "' when-variable type is '" ++ value.typeImage ++ "'"))
    else return value
  else
    match caseValue.cast values rawValue with
    | some value => .ok value
    | none => .error (.invalidExpression ("Found when-node with value '" ++ rawValue ++ "' which cannot be cast to " ++
        caseValue.typeImage))

/-- The loop over the options of a case, with the matching one so far. -/
def optionsLoop (values : Values) (access : NodeAccess) (caseValue : Value) :
    List (Nat × Node) → Option Nat → Except ExpandError (Option Nat)
  | [], returnNode => .ok returnNode
  | (id, node) :: options, returnNode =>
    if node.nodeName = "others" then
      if options ≠ [] then
        .error (.invalidExpression "Found 'others'-node which is not the last child of 'case'")
      else optionsLoop values access caseValue options (if returnNode = none then some id else returnNode)
    else if ¬node.hasAttribute "value" then
      .error (.invalidExpression "Found when-node without 'value' attribute")
    else do
      let value ← evaluateWhenOption values access (node.attr "value") caseValue
      if value = caseValue then
        if returnNode = none then optionsLoop values access caseValue options (some id)
        else .error (.invalidExpression ("Found case node where multiple values match. Case-variable value is '" ++
          caseValue.image ++ "'"))
      else optionsLoop values access caseValue options returnNode

def evaluateCaseNodeFrame (values : Values) (access : NodeAccess) (caseNode : Node) (options : List (Nat × Node)) :
    Except ExpandError (Option Nat) := do
  let caseVariableName ← getAttribute caseNode "variable"
  if ¬caseNode.hasAttribute "variable" then
    .error (.invalidExpression "Found case-node without 'variable' attribute")
  else
    let caseValue ← getValueOfReference access caseVariableName
    if options = [] then .error (.invalidExpression "Found case-node without when-children")
    else optionsLoop values access caseValue options none

def evaluateIf (values : Values) (access : NodeAccess) (node : Node) : Except ExpandError Bool := do
  let value ← getAttribute node "value"
  let cfgName ← getAttribute node "variable"
  isValueEqualAfterCast values access cfgName value

/-! ### The walk -/

/-- The children of a case that are options. -/
def options (label : Nat → Node) (children : List Nat) : List (Nat × Node) :=
  (children.map fun id => (id, label id)).filter fun o =>
    o.2.isElement && (o.2.nodeName = "when" || o.2.nodeName = "others")

/-- An exception leaves the document as it is when it is raised. -/
def raising {α : Type} (d : Document) : Except ExpandError α → Except (ExpandError × Document) α
  | .ok a => .ok a
  | .error e => .error (e, d)

/-- The children of a node, as many as there are, are moved in front of a child of another one. -/
def transferChildren (oldParent newParent ref : Nat) : Nat → Document → Except (ExpandError × Document) Document
  | 0, d => .ok d
  | n + 1, d =>
    match d.firstChild oldParent with
    | none => .ok d
    | some child =>
      match d.insertBefore newParent child ref with
      | some d => transferChildren oldParent newParent ref n d
      | none => .error (.notFound, d)

/-- A child of a node is replaced by what it selects if it is a conditional. -/
def expandConditional (values : Values) (access : NodeAccess) (parent child : Nat) (d : Document) :
    Except (ExpandError × Document) Document :=
  if (d.label child).nodeName = "if" then do
    let equal ← raising d (evaluateIf values access (d.label child))
    let d ← if equal then transferChildren child parent child (d.children child).length d else .ok d
    return d.removeChild parent child
  else if (d.label child).nodeName = "case" then do
    let option ← raising d
      (evaluateCaseNodeFrame values access (d.label child) (options d.label (d.children child)))
    let d ← match option with
      | some option => transferChildren option parent child (d.children option).length d
      | none => .ok d
    return d.removeChild parent child
  else .ok d

/-- `Evaluate` of the children of a node from one of them on, with a bound on the nodes that it looks at. -/
def evaluate (values : Values) (access : NodeAccess) :
    Nat → Nat → Option Nat → Document → Except (ExpandError × Document) Document
  | 0, _, _, d => .error (.storageError, d)
  | _ + 1, _, none, d => .ok d
  | fuel + 1, parent, some child, d => do
    let d ← evaluate values access fuel child (d.firstChild child) d
    let nextChild := d.nextSibling child
    let d ← expandConditional values access parent child d
    evaluate values access fuel parent nextChild d

def elements (d : Document) (names : List String) (parent : Nat) : List Nat :=
  (d.children parent).filter fun id => (d.label id).isElement && (d.label id).nodeName ∈ names

def configNodes (d : Document) (doc : Nat) : List Node :=
  ((elements d ["system", "component", "library"] doc).flatMap fun root =>
    (elements d ["config"] root).flatMap fun config =>
      elements d ["boolean", "integer", "string"] config).map d.label

/-- A map does not take a key twice. -/
def insertKey {α : Type} (map : List (String × α)) (name : String) : Option α → Except ExpandError (List (String × α))
  | some value => if (map.lookup name).isSome then .error .constraintError else .ok (map ++ [(name, value)])
  | none => .error .constraintError

def insertConfigNode (values : Values) (access : NodeAccess) (node : Node) : Except ExpandError NodeAccess :=
  let name := node.attr "name"
  let rawValue := node.attr "value"
  if node.nodeName = "boolean" then do
    return { access with outputBoolean := ← insertKey access.outputBoolean name (values.boolean rawValue) }
  else if node.nodeName = "integer" then do
    return { access with outputInteger := ← insertKey access.outputInteger name (values.integer rawValue) }
  else if node.nodeName = "string" then do
    return { access with outputString := ← insertKey access.outputString name (some rawValue) }
  else .error (.invalidExpression ("Found invalid node with name '" ++ name ++
    "' when loading config variables to expand conditionals"))

def initializeNodeAccess (values : Values) (configNodes : List Node) : Except ExpandError NodeAccess :=
  configNodes.foldlM (insertConfigNode values) ⟨[], [], []⟩

def sections (d : Document) (doc : Nat) : List Nat := (d.children doc).filter fun id => (d.label id).isElement

def expand (values : Values) (fuel doc : Nat) (d : Document) : Except (ExpandError × Document) Document := do
  let access ← raising d (initializeNodeAccess values (configNodes d doc))
  (sections d doc).foldlM (fun d curSection => evaluate values access fuel curSection (d.firstChild curSection) d) d

end Muen.Tools.Conditionals
