import Muen.Tools.XmlTemplates.PrefixVariables
import Mathlib.Algebra.GroupWithZero.Nat

/-!
# Expanding templates

`Compile_Template` makes the content of a template for one of its calls, and `Expand` replaces all calls of a
document, round by round, until none is left or there have been too many rounds.
-/

namespace Muen.Tools.XmlTemplates
open Muen.Lib Muen.Tools.Expressions

def validationError (message : Value) : ExpandError := .validationError (String.ofList message)

abbrev Node := Label × Nodes

/-! ### Compiling a template -/

def assignConfigNode (children : Nodes) : Except ExpandError Nodes :=
  match (elements "config" children).length with
  | 0 => .ok (.cons (.element "config" []) .nil children)
  | 1 => .ok children
  | _ => .error (.validationError "Found template with multiple 'config'-nodes.")

def isParameter (label : Label) : Bool :=
  label.isElement "boolean" || label.isElement "integer" || label.isElement "string"

def parametersOf (children : Nodes) : List Node :=
  (children.childrenOf (Label.isElement "parameters")).roots.filter fun node => isParameter node.1

def newConfigNode (param : Node) (callValue : Value) : Node :=
  match param with
  | (.element tagName attributes, children) =>
    (.element tagName (removeAttribute (setAttribute attributes "value" callValue) "defaultValue"), children)
  | node => node

/-- The configuration variable for a parameter, and the name of the parameter if the call sets it. -/
def bindParameter (templateName : Value) (callParameters : List Label) (param : Node) :
    Except ExpandError (Node × Option Value) :=
  let paramName := param.1.name
  let matchingCallParams := callParameters.filter fun node => node.name = paramName
  if matchingCallParams.length > 1 ∨
      hasAttribute param.1.attributes "defaultValue" = false ∧ matchingCallParams.length = 0 then
    .error (validationError ("Parameter '".toList ++ paramName ++ "' in template '".toList ++ templateName ++
      "' has not been assigned by call.".toList))
  else
    match matchingCallParams with
    | [] => .ok (newConfigNode param (getAttribute param.1.attributes "defaultValue"), none)
    | callNode :: _ =>
      if hasAttribute callNode.attributes "value" then
        .ok (newConfigNode param (getAttribute callNode.attributes "value"), some paramName)
      else
        .error (validationError ("Parameter '".toList ++ paramName ++ "' in call of template '".toList ++
          templateName ++ "' has no value attribute.".toList))

def checkUnused (templateName : Value) (callParameters : List Label) (matching : List Value) :
    Except ExpandError Unit :=
  match callParameters.find? fun node => node.name ∉ matching with
  | some node => .error (validationError ("Parameter '".toList ++ node.name ++ "' in call of template '".toList ++
      templateName ++ "' is unused".toList))
  | none => .ok ()

def isBadNode : Label → Bool
  | .element tagName _ => tagName ≠ "parameter"
  | _ => false

def checkCall (callChildren : Nodes) : Except ExpandError Unit :=
  match callChildren.find isBadNode with
  | some (.element tagName _, _) => .error (.validationError ("UseTemplate statement contains node with name '" ++
      tagName ++ "'. Only 'parameter' is allowed."))
  | _ => .ok ()

def callPrefix (templateCall : Label) (runningNumber : Nat) : Value :=
  getAttribute templateCall.attributes "namePrefix" ++ 't' :: (Nat.toDigits 10 runningNumber ++ ['_'])

/-- The parts of a compiled template that are put into the document. -/
structure Output where
  config : Option Nodes
  expressions : Option Nodes
  body : Option Nodes

def firstElement (tagName : String) (nodes : Nodes) : Option Nodes := (elements tagName nodes).head?.map Prod.snd

def unmarked (nodes : Nodes) : Marked := nodes.map fun label => (false, label)

/-- The children of the template with its parameters as configuration variables, whose values are locked. -/
def withParameters (children : Nodes) (params : List Node) : Marked :=
  ((unmarked children).onRoots (isElement "config")
    (· ++ Hedge.ofRoots (params.map fun node => ((true, node.1), unmarked node.2)))).eraseRoot (isElement "parameters")

def compileTemplate (template : Node) (templateCall : Label) (callChildren : Nodes) (runningNumber : Nat) :
    Except ExpandError Output := do
  let children ← assignConfigNode template.2
  let callParameters := (elements "parameter" callChildren).map Prod.fst
  let bound ← (parametersOf children).mapM (bindParameter template.1.name callParameters)
  checkUnused template.1.name callParameters (bound.filterMap Prod.snd)
  checkCall callChildren
  let output ← prefixVariables (withParameters children (bound.map Prod.fst)) (callPrefix templateCall runningNumber)
  return ⟨firstElement "config" output, firstElement "expressions" output, firstElement "body" output⟩

/-! ### Substituting a call -/

def orNull {α : Type} : Option α → Except ExpandError α
  | some a => .ok a
  | none => .error .nullNode

/-- Appends to the first element at `/system/config` or another such path, if there is one. -/
def appendTo (tagName : String) (new : Nodes) (doc : Marked) : Option Marked :=
  doc.onRoot (isElement "system") fun children =>
    children.onRoot (isElement tagName) fun section' => some (section' ++ unmarked new)

def appendConfig (templateConfig : Option Nodes) (doc : Marked) : Except ExpandError Marked := do
  let new ← orNull templateConfig
  if new = .nil then .ok doc else orNull (appendTo "config" new doc)

/-- The elements at `/system/config`. -/
def systemConfigs (doc : Marked) : List Node :=
  elements "config" ((doc.map Prod.snd).childrenOf (Label.isElement "system"))

/-- Creates the element for the expressions, after the configuration variables if there are any. -/
def insertExpressions (new : Nodes) (doc : Marked) : Except ExpandError Marked := do
  let created : Marked := .cons (false, .element "expressions" []) (unmarked new) .nil
  let systemRoot ← orNull (doc.roots.find? fun node => isElement "system" node.1)
  match systemRoot.2.insertAfter (isElement "config") created with
  | some children => orNull (doc.onRoot (isElement "system") fun _ => some children)
  | none =>
    if systemConfigs doc = [] then
      orNull (doc.onRoot (isElement "system") fun children => some (created ++ children))
    else .error .notFound

def appendExpressions (templateExpressions : Option Nodes) (doc : Marked) : Except ExpandError Marked :=
  match templateExpressions with
  | none => .ok doc
  | some new =>
    match appendTo "expressions" new doc with
    | some doc' => .ok doc'
    | none => insertExpressions new doc

def substituteTemplateCall (compiled : Output) (doc : Marked) : Except ExpandError Marked := do
  let doc ← appendConfig compiled.config doc
  let doc ← appendExpressions compiled.expressions doc
  let body ← orNull compiled.body
  return doc.replaceFirst Prod.fst (unmarked body)

/-! ### The rounds -/

/-- The document, where the calls of the round that are still to be replaced are marked. -/
structure State where
  doc : Marked
  runningNumber : Nat

def findTemplate (templates : List Node) (name : Value) : Option Node := templates.find? fun node => node.1.name = name

/-- `Running_Number` is a `Positive`. -/
def nextNumber (runningNumber : Nat) : Except ExpandError Nat :=
  if runningNumber < 2 ^ 31 - 1 then .ok (runningNumber + 1) else .error .constraintError

def expandCall (templates : List Node) (s : State) : Except ExpandError State :=
  match s.doc.find Prod.fst with
  | none => .ok s
  | some (templateCall, callChildren) =>
    match findTemplate templates templateCall.2.name with
    | none => .error (validationError ("Could not find a template with name: '".toList ++ templateCall.2.name ++ "'".toList))
    | some template => do
      let compiled ← compileTemplate template templateCall.2 (callChildren.map Prod.snd) s.runningNumber
      let runningNumber ← nextNumber s.runningNumber
      let doc ← substituteTemplateCall compiled s.doc
      return ⟨doc, runningNumber⟩

def expandCalls (templates : List Node) : Nat → State → Except ExpandError State
  | 0, s => .ok s
  | count + 1, s => do
    let s ← expandCall templates s
    expandCalls templates count s

def maxRounds : Nat := 100

def markCall (label : Label) : Bool × Label := (label.isElement "useTemplate", label)

def templateCalls (doc : Nodes) : List Node := doc.nodes.filter fun node => node.1.isElement "useTemplate"

/-- The number of the round that the loop ends in, and the document then. -/
def expandRounds (templates : List Node) : Nat → Nat → Nodes → Nat → Except ExpandError (Nat × Nodes)
  | 0, rounds, doc, _ => .ok (rounds, doc)
  | left + 1, _, doc, runningNumber =>
    if templateCalls doc = [] then .ok (maxRounds - left, doc)
    else do
      let s ← expandCalls templates (templateCalls doc).length ⟨doc.map markCall, runningNumber⟩
      expandRounds templates left (maxRounds - left) (s.doc.map Prod.snd) s.runningNumber

/-- The templates are taken out of the document, and out of each other. -/
def templatesOf (doc : Nodes) : List Node :=
  (doc.nodes.filter fun node => node.1.isElement "template").map fun node =>
    (node.1, node.2.remove (Label.isElement "template"))

def withoutTemplates (doc : Nodes) : Nodes := doc.remove (Label.isElement "template")

def expand (doc : Nodes) : Except ExpandError Nodes := do
  let (rounds, doc') ← expandRounds (templatesOf doc) maxRounds 1 (withoutTemplates doc) 1
  if rounds ≥ maxRounds then
    .error (.validationError
      "Nesting-depth of templates is at least 100. This may be due to cyclic template-inclusions.")
  else .ok doc'

end Muen.Tools.XmlTemplates
