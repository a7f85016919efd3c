import Muen.Tools.VresAlloc.Components

/-!
# Vres_Alloc

The allocation of the virtual resources of a subject. A node without a resource has the one that the component of the
subject declares for its logical name, if there is one, and is served from what is left otherwise.
-/

namespace Muen.Tools.VresAlloc
open Muen.Lib Intervals Xml

section Subjects

variable (r : Runtime)

/-! ### The declarations of components -/

def AddressAndSize.toString (i : AddressAndSize) : String :=
  "(First_Address=" ++ toHex i.firstAddress ++ ", Size=" ++ toDecimal i.size ++ ")"

/-- The nodes at paths of a component, from it or from any element below it. -/
def targetsBelow (paths : List Path) (component : Element) : List Element :=
  paths.flatMap (fun path => selectBelow path component)

structure ComponentInfo where
  profile : String
  vaMap : Mapping
  readerEventsMap : Mapping
  writerEventsMap : Mapping

def ComponentInfo.mapping (info : ComponentInfo) : ResourceKind → Mapping
  | .virtualAddresses => info.vaMap
  | .readerVectors => info.readerEventsMap
  | .writerEvents => info.writerEventsMap

structure Sizes where
  memory : List (String × String)
  channels : List (String × String)

/-- The entry of a map for each node; a name that occurs again raises. -/
def initSizeMap (targets : List Element) : Except Error (List (String × String)) :=
  targets.foldlM (fun sizes node =>
    if (sizes.lookup (node.getAttribute "name")).isSome then .error .constraint
    else .ok (sizes ++ [(node.getAttribute "name", node.getAttribute "size")])) []

def initializeSizeMaps (policy : Element) : Except Error Sizes := do
  let memory ← initSizeMap (select ["memory", "memory"] policy)
  let channels ← initSizeMap (select ["channels", "channel"] policy)
  .ok ⟨memory, channels⟩

def getSizeFromPhysical (sizes : Sizes) (node : Element) : Except Error String :=
  let physical := node.getAttribute "physical"
  let size := ((if node.tagName = "memory" then sizes.memory else sizes.channels).lookup physical).getD ""
  if size = "" then
    .error (.validation ("Cannot find size of node at '" ++ r.getXpath node ++ "' with physical '" ++ physical ++ "'"))
  else .ok size

/-- The size of a node in a subject. -/
def physicalSize (sizes : Sizes) (node : Element) : ResourceKind → Except Error Unsigned64
  | .virtualAddresses => do
    let size ← getSizeFromPhysical r sizes node
    r.unsigned64 size
  | .readerVectors | .writerEvents => .ok 1

/-! ### Subjects -/

/-- The nodes that have been set, the ones to serve, and what is left. -/
structure SubjectState where
  known : List (Element × Unsigned64)
  todoList : List Element
  available : Available

def assignResource (sizes : Sizes) (mapping : Mapping) (readOnly : Bool) (kind : ResourceKind) (s : SubjectState)
    (node : Element) : Except Error SubjectState := do
  let attrValue ← getResourceValue node kind
  let logical := node.getAttribute "logical"
  if isUnset attrValue then
    if readOnly then .error (.validation "Invalid attribute value")
    else
      match mapping.lookup logical with
      | some item =>
        if kind = .virtualAddresses ∧ isAligned item.firstAddress 0x1000 = false then
          .error (.validation "Virtual resource not aligned")
        else .ok { s with known := s.known ++ [(node, item.firstAddress)] }
      | none => .ok { s with todoList := s.todoList ++ [node] }
  else do
    let size ← physicalSize r sizes node kind
    let address ← r.unsigned64 attrValue
    if kind = .virtualAddresses ∧ isAligned address size = false then
      .error (.validation "Virtual resource not aligned")
    else do
      let available ← s.available.subtract address size
      .ok { s with available := available }

def assignResourcesIfKnown (sizes : Sizes) (mapping : Mapping) (readOnly : Bool) (kind : ResourceKind)
    (targets : List Element) (s : SubjectState) : Except Error SubjectState :=
  targets.foldlM (assignResource r sizes mapping readOnly kind) s

end Subjects

end Muen.Tools.VresAlloc
