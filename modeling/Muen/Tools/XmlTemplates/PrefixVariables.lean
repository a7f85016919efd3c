import Muen.Tools.XmlTemplates.Document

/-!
# Prefixing the variables of a template

`Prefix_Variables` gives the configuration variables and expressions that a template defines a new name, and renames
the references to them everywhere in the template. References are attributes and texts that start with a dollar sign,
the variables that conditionals, cases and expressions name, and those in braces in the values of `evalString`.
-/

namespace Muen.Tools.XmlTemplates
open Muen.Lib Muen.Tools.Expressions

/-- What is raised; `nullNode` and `notFound` are raised by the operations on nodes. -/
inductive ExpandError
  | validationError (message : String)
  | expression (e : ParseError)
  | nullNode
  | notFound
  | constraintError
deriving DecidableEq

/-- A node with a reference to it from outside of the document. -/
abbrev Marked := Hedge (Bool × Label)

def isElement (tagName : String) (label : Bool × Label) : Bool := label.2.isElement tagName

section PrefixVariables

variable (knownNames : List Value) (newPrefix : Value)

/-- The part of `Gather_Names_And_Rename` that renames. -/
def renameDefinition : Bool × Label → Bool × Label
  | (mark, .element tagName attributes) =>
    if hasAttribute attributes "name" then
      (mark, .element tagName (setAttribute attributes "name" (newPrefix ++ getAttribute attributes "name")))
    else (mark, .element tagName attributes)
  | label => label

def prefixDollarRef : Value → Value
  | '$' :: name => if name ∈ knownNames then '$' :: (newPrefix ++ name) else '$' :: name
  | value => value

/-- The attribute `value` of a node whose mark is set is locked. -/
def prefixDollarRefs (mark : Bool) (attributes : List (String × Value)) : List (String × Value) :=
  attributes.map fun a => (a.1, if mark ∧ a.1 = "value" then a.2 else prefixDollarRef knownNames newPrefix a.2)

def prefixFragment (fragment : Fragment) : Value :=
  match fragment.valueType with
  | .textType => fragment.value
  | .referenceType =>
    if fragment.value ∈ knownNames then '$' :: '{' :: (newPrefix ++ fragment.value ++ ['}'])
    else '$' :: '{' :: (fragment.value ++ ['}'])

def prefixEvalString (attributes : List (String × Value)) : Except ExpandError (List (String × Value)) :=
  match parseDollarBracedReferences ⟨1, getAttribute attributes "value", Nat.one_pos⟩ with
  | .error e => .error (.expression e)
  | .ok parsedFragments =>
    if hasAttribute attributes "value" then
      .ok (setAttribute attributes "value" (parsedFragments.flatMap (prefixFragment knownNames newPrefix)))
    else
      .error (.expression (.invalidExpression "String-expression has evalString child without 'value' attribute"))

def prefixNamePrefix (attributes : List (String × Value)) : List (String × Value) :=
  setAttribute attributes "namePrefix" (newPrefix ++ getAttribute attributes "namePrefix")

def prefixNonDollarReference (attrName : String) (attributes : List (String × Value)) : List (String × Value) :=
  if getAttribute attributes attrName ∈ knownNames then
    setAttribute attributes attrName (newPrefix ++ getAttribute attributes attrName)
  else attributes

/-- One round of the loop of `Prefix_Variables`. -/
def prefixNode : Bool × Label → Except ExpandError Label
  | (mark, .element tagName attributes) =>
    if tagName = "if" ∨ tagName = "case" then
      .ok (.element tagName (prefixNonDollarReference knownNames newPrefix "variable" attributes))
    else if tagName = "variable" then
      .ok (.element tagName (prefixNonDollarReference knownNames newPrefix "name" attributes))
    else if tagName = "evalString" then do
      let attributes' ← prefixEvalString knownNames newPrefix attributes
      return .element tagName attributes'
    else if tagName = "useTemplate" then .ok (.element tagName (prefixNamePrefix newPrefix attributes))
    else .ok (.element tagName (prefixDollarRefs knownNames newPrefix mark attributes))
  | (_, .text value) => .ok (.text (prefixDollarRef knownNames newPrefix value))
  | (_, .other value) => .ok (.other value)

end PrefixVariables

/-- Whether `Get_Unique_Element_Child` finds the expressions. -/
def hasExpressions (children : Marked) : Bool := (elements "expressions" (children.map Prod.snd)).length = 1

def definedNames (children : Marked) : List Value :=
  names ((children.map Prod.snd).childrenOf (Label.isElement "config")) ++
    if hasExpressions children then names ((children.map Prod.snd).childrenOf (Label.isElement "expressions")) else []

/-- `Prefix_Variables` on the children of the template; what it does to the attributes of the template itself is of no
effect. -/
def prefixVariables (children : Marked) (newPrefix : Value) : Except ExpandError Nodes :=
  let renamed := children.onRoots (isElement "config") (·.mapRoots (renameDefinition newPrefix))
  let renamed := if hasExpressions children then
      renamed.onRoots (isElement "expressions") (·.mapRoots (renameDefinition newPrefix))
    else renamed
  renamed.mapM (prefixNode (definedNames children) newPrefix)

end Muen.Tools.XmlTemplates
