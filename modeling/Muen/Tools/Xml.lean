import Mathlib.Data.List.Basic

/-!
# XML elements

The elements of a document with their attributes, and the elements at a path. A path is a list of steps to children
with a name, some with a test of their attributes or of their own children.
-/

namespace Muen.Tools.Xml

inductive Element
  | mk (tagName : String) (attributes : List (String × String)) (children : List Element)

namespace Element

def tagName : Element → String
  | mk tagName _ _ => tagName

def attributes : Element → List (String × String)
  | mk _ attributes _ => attributes

def children : Element → List Element
  | mk _ _ children => children

/-- The text of an attribute, which is empty when the element does not have it. -/
def getAttribute (e : Element) (name : String) : String := (e.attributes.lookup name).getD ""

def hasAttribute (e : Element) (name : String) : Bool := (e.attributes.lookup name).isSome

def elementChildren (e : Element) (nameFilter : List String) : List Element :=
  e.children.filter (fun child => child.tagName ∈ nameFilter)

def countElementChildren (e : Element) (nameFilter : List String) : Nat := (e.elementChildren nameFilter).length

/-- The only child with a name. -/
def getUniqueElementChild (e : Element) (childName : String) : Option Element :=
  match e.elementChildren [childName] with
  | [child] => some child
  | _ => none

mutual

/-- The element and all below it. -/
def descendants : Element → List Element
  | mk tagName attributes children => mk tagName attributes children :: descendantsIn children

def descendantsIn : List Element → List Element
  | [] => []
  | e :: es => descendants e ++ descendantsIn es

end

end Element

inductive Test
  | always
  | present (name : String)
  | equals (name value : String)
  | parent (name : String)

def Test.passes (e : Element) : Test → Bool
  | always => true
  | present name => e.hasAttribute name
  | equals name value => e.attributes.lookup name = some value
  | parent name => e.children.any (fun child => child.tagName = name)

structure Step where
  name : String
  test : Test

instance : Coe String Step := ⟨fun name => ⟨name, .always⟩⟩

def Step.matchesElement (step : Step) (e : Element) : Bool := step.name = e.tagName && step.test.passes e

abbrev Path := List Step

/-- The elements at a path from an element. -/
def select : Path → Element → List Element
  | [], e => [e]
  | step :: path, e => (e.children.filter step.matchesElement).flatMap (select path)

/-- The elements at a path from an element or from any below it. -/
def selectBelow (path : Path) (e : Element) : List Element := e.descendants.flatMap (select path)

end Muen.Tools.Xml
