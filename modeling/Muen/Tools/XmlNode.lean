import Muen.Lib.Dom

/-!
# Nodes of documents

The label of a node is its name, with the attributes of an element or the text of another node.
-/

namespace Muen.Tools.Xml
open Muen.Lib

inductive Node
  | element (name : String) (attributes : List (String × String))
  /-- A text, a comment or a processing instruction. -/
  | other (name value : String)
deriving DecidableEq

namespace Node

def nodeName : Node → String
  | element name _ => name
  | other name _ => name

def isElement : Node → Bool
  | element _ _ => true
  | other _ _ => false

def attributes : Node → List (String × String)
  | element _ attributes => attributes
  | other _ _ => []

/-- The text of an attribute, which is empty when the node does not have it. -/
def attr (node : Node) (name : String) : String := (node.attributes.lookup name).getD ""

def hasAttribute (node : Node) (name : String) : Bool := (node.attributes.lookup name).isSome

end Node

abbrev Document := Dom Node

/-- The nodes of a document are those of a forest, and a node of its own. -/
structure IsDocument (d : Document) (doc : Nat) (forest : Forest) : Prop where
  roots : d.children doc = forest.roots
  repr : forest.Repr d
  nodup : (doc :: forest.ids).Nodup

end Muen.Tools.Xml
