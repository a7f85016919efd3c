import Muen.Lib.Fallible
import Muen.Lib.OrderedMap
import Muen.Tools.XmlNode

/-!
# Muxml.Grammar_Tools: order information

`Init_Order_Information` reads the types that can be reached from the root elements of a schema. For each of them it
notes the names and types of its elements in their order, and for each name of an element the types that it is used
with. The type of the document itself is called `schemaRoot`.
-/

namespace Muen.Tools.GrammarTools
open Muen.Lib
open Muen.Tools.Xml

inductive GrammarError
  | notImplemented (message : String)
  | validationError (message : String)
  | insufficientInformation (message : String)
  | constraintError
  /-- Calls that are nested too deep. -/
  | storageError
deriving DecidableEq

/-- The document of a schema with its schema node, and the nodes that there are from this node on. -/
structure Schema where
  dom : Document
  schemaNode : Nat
  nodes : List Nat
  schemaNode_mem : schemaNode ∈ nodes
  children_mem : ∀ a ∈ nodes, ∀ b ∈ dom.children a, b ∈ nodes

/-- The names of elements with their types. -/
abbrev VectorTuple := List (String × String)

structure OrderInformation where
  typeToChildren : List (String × VectorTuple)
  nameToType : List (String × List String)

def schemaRoot : String := "schemaRoot"

def simpleXmlTypes : List String :=
  ["string", "normalizedString", "token", "base64Binary", "hexBinary", "integer", "positiveInteger", "negativeInteger",
    "nonNegativeInteger", "nonPositiveInteger", "long", "unsignedLong", "int", "unsignedInt", "short", "unsignedShort",
    "byte", "unsignedByte", "decimal", "float", "double", "boolean", "duration", "dateTime", "date", "time", "gYear",
    "gYearMonth", "gMonth", "gMonthDay", "gDay", "Name", "QName", "NCName", "anyURI", "language", "ID", "IDREF",
    "IDREFS", "ENTITY", "ENTITIES", "NOTATION", "NMTOKEN", "NMTOKENS"]

def elemContainerNames : List String := ["sequence", "choice", "all", "group"]

def elemAndContainerNames : List String := "element" :: elemContainerNames

/-- What is behind the first colon, unless that is the last character. -/
def behindColon : List Char → Option (List Char)
  | [] => none
  | [_] => none
  | c :: rest => if c = ':' then some rest else behindColon rest

def removeNamespace (name : String) : String := ((behindColon name.toList).map String.ofList).getD name

namespace Schema

variable (schema : Schema)

def label (id : Nat) : Node := schema.dom.label id

def name (id : Nat) : String := removeNamespace (schema.label id).nodeName

def getElementChildren (id : Nat) : List Nat :=
  (schema.dom.children id).filter fun child => (schema.label child).isElement

def getToplevelDefinition (nameAttr : String) (defNames : List String) : Except GrammarError Nat :=
  match (schema.getElementChildren schema.schemaNode).find? fun child =>
      schema.name child ∈ defNames && (schema.label child).hasAttribute "name" &&
        (schema.label child).attr "name" = nameAttr with
  | some child => .ok child
  | none => .error (.validationError ("Could not find a node defining the type '" ++ nameAttr ++ "'"))

/-- The name of a node with its name attribute. -/
def describe (id : Nat) : String :=
  (schema.label id).nodeName ++
    (if (schema.label id).hasAttribute "name" then " name='" ++ (schema.label id).attr "name" ++ "'" else "")

/-- The nodes that are evaluated, which are taken off again when they have been. -/
def pushToBacktrace (backtrace : List Nat) (node : Nat) : Except GrammarError (List Nat) :=
  if node ∈ backtrace then
    .error (.notImplemented ("Found cyclic inclusion of elements within one type. The cycle is: " ++
      String.join ((backtrace.dropWhile (· ≠ node)).map fun id => schema.describe id ++ "/") ++ schema.describe node))
  else .ok (backtrace ++ [node])

def evalElement (backtrace : List Nat) (node : Nat) : Except GrammarError VectorTuple := do
  let _ ← schema.pushToBacktrace backtrace node
  if ¬(schema.label node).hasAttribute "name" ∨ ¬(schema.label node).hasAttribute "type" then
    .error (.notImplemented "Found element-node without 'name' or 'type' attribute.")
  else if (schema.label node).hasAttribute "substitutionGroup" then
    .error (.notImplemented "Found element-node with 'substitutionGroup' attribute.")
  else return [((schema.label node).attr "name", removeNamespace ((schema.label node).attr "type"))]

/-- The loop over the children of a node with one of some names. -/
def evalChildren (evalContainerWrapper : Nat → Except GrammarError VectorTuple) (names : List String) :
    List Nat → Except GrammarError VectorTuple
  | [] => .ok []
  | child :: children =>
    if schema.name child ∈ names then do
      let tuple ← evalContainerWrapper child
      let output ← evalChildren evalContainerWrapper names children
      return tuple ++ output
    else evalChildren evalContainerWrapper names children

def evalSequenceChoiceAll (evalContainerWrapper : List Nat → Nat → Except GrammarError VectorTuple)
    (backtrace : List Nat) (node : Nat) : Except GrammarError VectorTuple := do
  let backtrace ← schema.pushToBacktrace backtrace node
  schema.evalChildren (evalContainerWrapper backtrace) elemAndContainerNames (schema.getElementChildren node)

def evalGroup (evalContainerWrapper : List Nat → Nat → Except GrammarError VectorTuple) (backtrace : List Nat)
    (node : Nat) : Except GrammarError VectorTuple := do
  let backtrace ← schema.pushToBacktrace backtrace node
  if (schema.label node).hasAttribute "ref" then
    let defNode ← schema.getToplevelDefinition ((schema.label node).attr "ref") ["group"]
    evalContainerWrapper backtrace defNode
  else if (schema.label node).hasAttribute "name" then
    schema.evalChildren (evalContainerWrapper backtrace) elemAndContainerNames (schema.getElementChildren node)
  else .error (.validationError
    "Evaluation of Group found node which is neither 'name' nor 'ref' attribute. Not implemented.")

def evalContainerWrapper : Nat → List Nat → Nat → Except GrammarError VectorTuple
  | 0, _, _ => .error .storageError
  | fuel + 1, backtrace, node =>
    if schema.name node = "element" then schema.evalElement backtrace node
    else if schema.name node ∈ ["sequence", "choice", "all"] then
      schema.evalSequenceChoiceAll (evalContainerWrapper fuel) backtrace node
    else if schema.name node = "group" then schema.evalGroup (evalContainerWrapper fuel) backtrace node
    else .error (.validationError ("Evaluation of Eval_Container_Wrapper found node with name '" ++ schema.name node ++
      "' which is unknown."))

def evalRestriction (evalContainerWrapper : Nat → Except GrammarError VectorTuple) (node : Nat) :
    Except GrammarError VectorTuple :=
  match (schema.getElementChildren node).find? fun child => schema.name child ∈ elemContainerNames with
  | some child => evalContainerWrapper child
  | none => .ok []

def evalExtension (evalTypeByName : String → Except GrammarError VectorTuple)
    (evalContainerWrapper : Nat → Except GrammarError VectorTuple) (node : Nat) : Except GrammarError VectorTuple :=
  if ¬(schema.label node).hasAttribute "base" then
    .error (.validationError "Evaluation of schema found 'extension' without 'base' attribute.")
  else do
    let base ← evalTypeByName ((schema.label node).attr "base")
    let output ← schema.evalChildren evalContainerWrapper elemContainerNames (schema.getElementChildren node)
    return base ++ output

def evalComplexContent (evalTypeByName : String → Except GrammarError VectorTuple)
    (evalContainerWrapper : Nat → Except GrammarError VectorTuple) (node : Nat) : Except GrammarError VectorTuple :=
  match (schema.getElementChildren node).find? fun child => schema.name child ∈ ["restriction", "extension"] with
  | some child =>
    if schema.name child = "restriction" then schema.evalRestriction evalContainerWrapper child
    else schema.evalExtension evalTypeByName evalContainerWrapper child
  | none => .ok []

def evalComplexType (evalTypeByName : String → Except GrammarError VectorTuple)
    (evalContainerWrapper : Nat → Except GrammarError VectorTuple) (node : Nat) : Except GrammarError VectorTuple :=
  match (schema.getElementChildren node).find? fun child =>
      schema.name child ∈ "simpleContent" :: "complexContent" :: elemContainerNames with
  | some child =>
    if schema.name child = "simpleContent" then .ok []
    else if schema.name child = "complexContent" then
      schema.evalComplexContent evalTypeByName evalContainerWrapper child
    else evalContainerWrapper child
  | none => .ok []

/-- `Eval_Type_By_Name` with the types that have been read. -/
def evalTypeByName (typeToChildren : List (String × VectorTuple)) :
    Nat → String → Except GrammarError VectorTuple
  | 0, _ => .error .storageError
  | fuel + 1, typeName =>
    if typeName = "any" ∨ typeName = "anyType" then
      .error (.notImplemented "Schema contains elements with type 'any' or 'anyType'")
    else
      match typeToChildren.lookup typeName with
      | some tuple => .ok tuple
      | none =>
        if typeName ∈ simpleXmlTypes then .ok []
        else do
          let node ← schema.getToplevelDefinition typeName ["simpleType", "complexType"]
          if schema.name node = "simpleType" then return []
          else if schema.name node = "complexType" then
            schema.evalComplexType (evalTypeByName typeToChildren fuel) (schema.evalContainerWrapper fuel []) node
          else .error (.validationError ("Evaluation of type '" ++ typeName ++
            "' lead to definition node with unexpected name '" ++ schema.name node ++ "'"))

/-- A type is added to those of a name, unless it is one of them. -/
def addType (info : OrderInformation) (name typeName : String) : OrderInformation :=
  match info.nameToType.lookup name with
  | none => { info with nameToType := OrderedMap.insert name [typeName] info.nameToType }
  | some types =>
    if typeName ∈ types then info
    else { info with nameToType := OrderedMap.insert name (types ++ [typeName]) info.nameToType }

def evalEntrypoint : Nat → String → OrderInformation → Except GrammarError OrderInformation
  | 0, _, _ => .error .storageError
  | fuel + 1, typeName, info =>
    if (info.typeToChildren.lookup typeName).isSome then .ok info
    else do
      let tuple ← schema.evalTypeByName info.typeToChildren fuel typeName
      tuple.foldlM (fun info (name, childType) => do
        let info ← evalEntrypoint fuel childType info
        return addType info name childType)
        { info with typeToChildren := OrderedMap.insert typeName tuple info.typeToChildren }

/-- The elements at the root of the schema. -/
def rootElements : List Nat :=
  (schema.getElementChildren schema.schemaNode).filter fun child => schema.name child = "element"

/-- The name and the type of an element at the root. -/
def addRootElement (info : OrderInformation) (name typeName : String) : OrderInformation where
  typeToChildren := OrderedMap.insert schemaRoot
    ((info.typeToChildren.lookup schemaRoot).getD [] ++ [(name, typeName)]) info.typeToChildren
  nameToType := OrderedMap.insert name ((info.nameToType.lookup name).getD [] ++ [typeName]) info.nameToType

def evalRootElement (fuel : Nat) (info : OrderInformation) (child : Nat) : Except GrammarError OrderInformation := do
  let tuple ← schema.evalElement [] child
  tuple.foldlM (fun info (name, typeName) => schema.evalEntrypoint fuel typeName (addRootElement info name typeName))
    info

def findRootElementNodeAndRecurse (fuel : Nat) : Except GrammarError OrderInformation := do
  let info ← schema.rootElements.foldlM (schema.evalRootElement fuel) ⟨[], []⟩
  if schema.rootElements = [] then
    .error (.notImplemented "The schema does not contain an 'element' node at root level")
  else return info

def checkForbiddenElementNames : Except GrammarError Unit :=
  if schema.nodes.any fun id => (schema.label id).isElement &&
      schema.name id ∈ ["import", "include", "redefine", "example", "any"] then
    .error (.notImplemented
      "Schema contains elements named 'import', 'include', 'redefine', 'example' or 'any'")
  else .ok ()

def checkSubstitutionGroup : Except GrammarError Unit :=
  if schema.nodes.any fun id => (schema.label id).isElement && schema.name id = "attribute" &&
      (schema.label id).hasAttribute "name" && (schema.label id).attr "name" = "substitutionGroup" then
    .error (.notImplemented "Schema contains element with attribute 'substitutionGroup'")
  else .ok ()

/-- The first name that occurs again behind it. -/
def firstDuplicate : List String → Option String
  | [] => none
  | name :: names => if name ∈ names then some name else firstDuplicate names

def checkUniqueNames (info : OrderInformation) : Except GrammarError Unit :=
  match info.typeToChildren.find? fun entry => (firstDuplicate (entry.2.map Prod.fst)).isSome with
  | some (key, children) =>
    .error (.notImplemented ("Node_Names for Key '" ++ key ++ "' of Order_Info contain entry '" ++
      (firstDuplicate (children.map Prod.fst)).getD "" ++ "' at least twice. Name must be unique within one type"))
  | none => .ok ()

def deleteNonuniqueFromNameToType (info : OrderInformation) : OrderInformation :=
  let keysToDel := (info.nameToType.filter fun entry => entry.2.length > 1).map Prod.fst
  { info with nameToType := info.nameToType.filter fun entry => entry.1 ∉ keysToDel }

def initOrderInformation (fuel : Nat) : Except GrammarError OrderInformation := do
  schema.checkForbiddenElementNames
  schema.checkSubstitutionGroup
  let info ← schema.findRootElementNodeAndRecurse fuel
  checkUniqueNames info
  return deleteNonuniqueFromNameToType info

end Schema

end Muen.Tools.GrammarTools
