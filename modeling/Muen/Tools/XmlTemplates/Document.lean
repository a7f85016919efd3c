import Muen.Lib.Hedge
import Muen.Tools.Expressions.References

/-!
# Documents

The nodes of a document with their names, attributes and texts. The elements at a path are those that an XPath query
gives, in the order of the document.
-/

namespace Muen.Tools.XmlTemplates
open Muen.Lib

abbrev Value := List Char

instance lawfulBEq_value : LawfulBEq Value := inferInstance

inductive Label
  | element (tagName : String) (attributes : List (String × Value))
  | text (value : Value)
  /-- A comment, a processing instruction or a character data section. -/
  | other (value : Value)
deriving DecidableEq

abbrev Nodes := Hedge Label

/-! ### Attributes -/

section Attributes

variable (attributes : List (String × Value)) (name : String)

def hasAttribute : Bool := (attributes.lookup name).isSome

/-- The value of an attribute, which is empty when the element does not have it. -/
def getAttribute : Value := (attributes.lookup name).getD []

def setAttribute (value : Value) : List (String × Value) :=
  if hasAttribute attributes name then attributes.map fun a => if a.1 = name then (name, value) else a
  else attributes ++ [(name, value)]

def removeAttribute : List (String × Value) := attributes.filter fun a => a.1 ≠ name

end Attributes

lemma lookup_map_update (attributes : List (String × Value)) (name other : String) (value : Value) :
    (attributes.map fun a => if a.1 = name then (name, value) else a).lookup other =
      if other = name then (attributes.lookup name).map fun _ => value else attributes.lookup other := by
  induction attributes with
  | nil => simp
  | cons a attributes ih =>
    obtain ⟨m, v⟩ := a
    rw [List.map_cons]
    dsimp only
    by_cases hm : m = name
    · rw [if_pos hm, List.lookup_cons, ih, List.lookup_cons, List.lookup_cons, hm]
      by_cases hother : other = name
      · simp [hother]
      · simp [hother, beq_eq_false_iff_ne.mpr hother]
    · rw [if_neg hm, List.lookup_cons, ih, List.lookup_cons, List.lookup_cons]
      by_cases hother : other = name
      · have hne : (name == m) = false := beq_eq_false_iff_ne.mpr (Ne.symm hm)
        simp [hother, hne]
      · simp [hother]

lemma lookup_append_singleton (attributes : List (String × Value)) (name other : String) (value : Value)
    (h : hasAttribute attributes name = false) :
    (attributes ++ [(name, value)]).lookup other = if other = name then some value else attributes.lookup other := by
  unfold hasAttribute at h
  rw [Option.isSome_eq_false_iff, Option.isNone_iff_eq_none] at h
  rw [List.lookup_append]
  by_cases hother : other = name
  · rw [if_pos hother, hother, h]
    simp
  · rw [if_neg hother]
    simp [List.lookup_cons, beq_eq_false_iff_ne.mpr hother]

@[simp] lemma lookup_setAttribute (attributes : List (String × Value)) (name other : String) (value : Value) :
    (setAttribute attributes name value).lookup other =
      if other = name then some value else attributes.lookup other := by
  unfold setAttribute
  by_cases h : hasAttribute attributes name = true
  · rw [if_pos h, lookup_map_update]
    obtain ⟨v, hv⟩ := Option.isSome_iff_exists.mp h
    rw [hv]
    rfl
  · rw [if_neg h]
    exact lookup_append_singleton attributes name other value (Bool.not_eq_true _ ▸ h)

@[simp] lemma lookup_removeAttribute (attributes : List (String × Value)) (name other : String) :
    (removeAttribute attributes name).lookup other = if other = name then none else attributes.lookup other := by
  unfold removeAttribute
  induction attributes with
  | nil => simp
  | cons a attributes ih =>
    obtain ⟨m, v⟩ := a
    by_cases hm : m = name
    · rw [List.filter_cons_of_neg (by simp [hm]), ih, List.lookup_cons, hm]
      by_cases hother : other = name
      · simp [hother]
      · simp [hother, beq_eq_false_iff_ne.mpr hother]
    · rw [List.filter_cons_of_pos (by simp [hm]), List.lookup_cons, ih, List.lookup_cons]
      by_cases hother : other = name
      · simp [hother, beq_eq_false_iff_ne.mpr (Ne.symm hm)]
      · simp [hother]

/-! ### Elements -/

namespace Label

def isElement (tagName : String) : Label → Bool
  | element tag _ => tag = tagName
  | _ => false

def attributes : Label → List (String × Value)
  | element _ attributes => attributes
  | _ => []

def name (label : Label) : Value := getAttribute label.attributes "name"

end Label

/-- The siblings that are elements with a name. -/
def elements (tagName : String) (nodes : Nodes) : List (Label × Nodes) := nodes.rootsWith (Label.isElement tagName)

/-- The values of the attributes `name` of the siblings that have them. -/
def names (nodes : Nodes) : List Value := nodes.roots.filterMap fun node => node.1.attributes.lookup "name"

/-- The configuration variables and expressions that a document defines. -/
def definitions (doc : Nodes) : List Value :=
  let system := doc.childrenOf (Label.isElement "system")
  names (system.childrenOf (Label.isElement "config")) ++ names (system.childrenOf (Label.isElement "expressions"))

end Muen.Tools.XmlTemplates
