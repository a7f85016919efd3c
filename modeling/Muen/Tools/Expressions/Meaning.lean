import Muen.Tools.Expressions.Evaluate

/-!
# The meaning of definitions

A definition means a value that depends on the values of the names it refers to. There is no order of evaluation, no
record of values and no names under evaluation: the values of all names are the least ones that agree with the
definitions.
-/

namespace Muen.Tools.Expressions
open Muen.Lib
open Muen.Tools.XmlTemplates (Label Nodes getAttribute hasAttribute)

abbrev Meaning (α : Type) := Query Text ValueTypeTuple α

def askBoolean (name : Text) : Meaning Bool := askAs name ValueTypeTuple.boolean?

def askInteger (name : Text) : Meaning Int := askAs name ValueTypeTuple.integer?

def askString (name : Text) : Meaning Text := askAs name ValueTypeTuple.string?

def ask (name : Text) : Meaning ValueTypeTuple := .ask name .done

/-- A text that does not start with a dollar sign. -/
def plainMeaning (text : Text) : Meaning Unit := if (reference? text).isSome then .fail else .done ()

section Expressions

variable (values : Values)

def constantMeaning {α : Type} (image : Text → Option α) (text : Text) : Meaning α := do
  plainMeaning text
  .ofOption (image text)

def boolMeaning (node : Element) : Meaning Bool :=
  match kindValue boolKinds node.tagName with
  | none => .fail
  | some .valueKind => constantMeaning values.boolean (node.attr "value")
  | some .variableKind => do
    plainMeaning node.name
    askBoolean node.name

def intMeaning (node : Element) : Meaning Int :=
  match kindValue intKinds node.tagName with
  | none => .fail
  | some .valueKind => constantMeaning values.integer (node.attr "value")
  | some .variableKind => do
    plainMeaning node.name
    askInteger node.name

def integersMeaning (op : Int → Int → Bool) (node : Element) : Meaning Bool :=
  match childElements node.children with
  | x :: y :: _ => do
    let x ← intMeaning values x
    let y ← intMeaning values y
    .done (op x y)
  | _ => .fail

def booleansMeaning (op : Bool → Bool → Bool) : List (Meaning Bool) → Meaning Bool
  | x :: y :: _ => do
    let x ← x
    let y ← y
    .done (op x y)
  | _ => .fail

def notMeaning : List (Meaning Bool) → Meaning Bool
  | x :: _ => do
    let x ← x
    .done !x
  | [] => .fail

def booleanMeaning (node : Element) (operands : List (Meaning Bool)) : Meaning Bool :=
  match kindValue expressionKinds node.tagName with
  | none => .fail
  | some .exprEq => integersMeaning values (fun x y => x = y) node
  | some .exprGt => integersMeaning values (fun x y => x > y) node
  | some .exprLt => integersMeaning values (fun x y => x < y) node
  | some .exprNe => integersMeaning values (fun x y => x ≠ y) node
  | some .exprNot => notMeaning operands
  | some .exprAnd => booleansMeaning (fun x y => x && y) operands
  | some .exprOr => booleansMeaning (fun x y => x || y) operands
  | some .exprExpression => operands.headD .fail
  | some .exprBoolean => boolMeaning values node
  | some .exprVariable => boolMeaning values node

def booleanMeanings : Nodes → List (Meaning Bool)
  | .nil => []
  | .cons (.element tagName attributes) children siblings =>
    booleanMeaning values ⟨tagName, attributes, children⟩ (booleanMeanings children) :: booleanMeanings siblings
  | .cons (.text _) _ siblings => booleanMeanings siblings
  | .cons (.other _) _ siblings => booleanMeanings siblings

end Expressions

/-! ### String expressions -/

def stringMeaning (node : Element) : Meaning Text :=
  if node.tagName = "string" then do
    plainMeaning (node.attr "value")
    .done (node.attr "value")
  else if node.tagName = "variable" then do
    plainMeaning node.name
    askString node.name
  else .fail

def fragmentMeaning (fragment : Fragment) : Meaning Text :=
  match fragment.valueType with
  | .textType => .done fragment.value
  | .referenceType => askString fragment.value

/-- The results of computations one after the other. -/
def concatMeaning : List (Meaning Text) → Meaning Text
  | [] => .done []
  | part :: parts => do
    let text ← part
    let texts ← concatMeaning parts
    .done (text ++ texts)

def concatenationMeaning (node : Element) : Meaning Text :=
  let children := (childElements node.children).filter fun child => child.tagName ∈ ["string", "variable"]
  if children.length < 2 then .fail else concatMeaning (children.map stringMeaning)

def evalStringMeaning (node : Element) : Meaning Text :=
  match parseDollarBracedReferences ⟨1, node.attr "value", Nat.one_pos⟩ with
  | .error _ => .fail
  | .ok fragments => if node.has "value" then concatMeaning (fragments.map fragmentMeaning) else .fail

def stringExpressionMeaning (node : Element) : Meaning Text :=
  match (childElements node.children).filter fun child => child.tagName ∈ ["concatenation", "evalString"] with
  | [child] => if child.tagName = "concatenation" then concatenationMeaning child else evalStringMeaning child
  | _ => .fail

/-! ### Case expressions -/

section Cases

variable (values : Values)

def typedMeaning (node : Element) : Meaning ValueTypeTuple :=
  if ¬node.has "value" ∨ (reference? (node.attr "value")).isSome then .fail
  else if node.tagName = "boolean" then .ofOption (ValueTypeTuple.cast values (node.attr "value") .booleanType)
  else if node.tagName = "integer" then .ofOption (ValueTypeTuple.cast values (node.attr "value") .integerType)
  else if node.tagName = "string" then .ofOption (ValueTypeTuple.cast values (node.attr "value") .stringType)
  else .fail

def whenMeaning (rawValue : Text) (caseValue : ValueTypeTuple) : Meaning ValueTypeTuple :=
  match reference? rawValue with
  | some refName => do
    let whenValue ← ask refName
    if whenValue.valueType ≠ caseValue.valueType then .fail else .done whenValue
  | none => .ofOption (ValueTypeTuple.cast values rawValue caseValue.valueType)

/-- The position of the option that matches. Only the last option may be the one for all other values. -/
def matchMeaning (caseValue : ValueTypeTuple) : Nat → List Element → Option Nat → Meaning (Option Nat)
  | _, [], found => .done found
  | i, option :: options, found =>
    if option.tagName = "others" then
      if options ≠ [] then .fail else .done (found.or (some i))
    else if ¬option.has "value" then .fail
    else do
      let whenValue ← whenMeaning values (option.attr "value") caseValue
      if whenValue = caseValue then
        if found = none then matchMeaning caseValue (i + 1) options (some i) else .fail
      else matchMeaning caseValue (i + 1) options found

/-- The values of all options, each of which has one. -/
def optionsMeaning : List (List (Meaning ValueTypeTuple)) → Meaning (List ValueTypeTuple)
  | [] => .done []
  | children :: options =>
    match children with
    | [child] => do
      let value ← child
      let optionValues ← optionsMeaning options
      .done (value :: optionValues)
    | _ => .fail

/-- The value of the option that matches, when the values of all options are of one type. -/
def caseMeaning (caseNode : Element) (options : List (Element × List (Meaning ValueTypeTuple))) :
    Meaning ValueTypeTuple :=
  if ¬caseNode.has "variable" ∨ options = [] then .fail
  else do
    let caseValue ← ask (caseNode.attr "variable")
    let found ← matchMeaning values caseValue 0 (options.map Prod.fst) none
    let optionValues ← optionsMeaning (options.map Prod.snd)
    if (optionValues.map ValueTypeTuple.valueType).Pairwise (· = ·) then
      .ofOption (found.bind fun i => optionValues[i]?)
    else .fail

mutual

def whenMeanings : Nodes → List (Meaning ValueTypeTuple)
  | .nil => []
  | .cons (.element tagName attributes) children siblings =>
    if tagName = "case" then
      caseMeaning values ⟨tagName, attributes, children⟩ (optionMeanings children) :: whenMeanings siblings
    else if tagName = "variable" then ask (getAttribute attributes "name") :: whenMeanings siblings
    else if tagName ∈ ["boolean", "integer", "string"] then
      typedMeaning values ⟨tagName, attributes, children⟩ :: whenMeanings siblings
    else whenMeanings siblings
  | .cons (.text _) _ siblings => whenMeanings siblings
  | .cons (.other _) _ siblings => whenMeanings siblings

def optionMeanings : Nodes → List (Element × List (Meaning ValueTypeTuple))
  | .nil => []
  | .cons (.element tagName attributes) children siblings =>
    if tagName ∈ ["when", "others"] then
      (⟨tagName, attributes, children⟩, whenMeanings children) :: optionMeanings siblings
    else optionMeanings siblings
  | .cons (.text _) _ siblings => optionMeanings siblings
  | .cons (.other _) _ siblings => optionMeanings siblings

end

def caseExpressionMeaning (exprNode : Element) : Meaning ValueTypeTuple :=
  match (childElements exprNode.children).filter fun child => child.tagName = "case" with
  | [caseNode] => caseMeaning values caseNode (optionMeanings values caseNode.children)
  | _ => .fail

end Cases

/-! ### Definitions -/

section Definitions

variable (values : Values)

def variableMeaning {α : Type} (image : Text → Option α) (reference : Text → Meaning α) : Text → Meaning α
  | [] => .fail
  | c :: text =>
    match reference? (c :: text) with
    | none => .ofOption (image (c :: text))
    | some name => reference name

def definition (node : Element) : Meaning ValueTypeTuple :=
  if node.tagName = "boolean" then do
    let value ← variableMeaning values.boolean askBoolean (node.attr "value")
    .done (.boolean value)
  else if node.tagName = "integer" then do
    let value ← variableMeaning values.integer askInteger (node.attr "value")
    .done (.integer value)
  else if node.tagName = "string" then do
    let value ← (reference? (node.attr "value")).elim (.done (node.attr "value")) askString
    .done (.string value)
  else if node.tagName = "expression" then
    match getExprType node with
    | .error _ => .fail
    | .ok .booleanExprType => do
      let value ← booleanMeaning values node (booleanMeanings values node.children)
      .done (.boolean value)
    | .ok .caseExprType => caseExpressionMeaning values node
    | .ok .variableExprType => ask (firstChildName node)
    | .ok .stringExprType => do
      let value ← stringExpressionMeaning node
      .done (.string value)
  else .fail

/-- The equations between the values of the names. -/
def equations (input : List (Text × Element)) (name : Text) : Meaning ValueTypeTuple :=
  match input.lookup name with
  | some node => definition values node
  | none => .fail

end Definitions

end Muen.Tools.Expressions
