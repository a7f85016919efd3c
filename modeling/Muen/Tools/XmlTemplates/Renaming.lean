import Muen.Tools.XmlTemplates.PrefixVariables

/-!
# Renamings of references

What a renaming of the names that a template defines does to a node: references to a name become references to its
new name, everything else stays. In the nodes whose references have another form, a value that starts with a dollar
sign stays as well, although the value of a conditional or a case may be such a reference.
-/

namespace Muen.Tools.XmlTemplates
open Muen.Lib Muen.Tools.Expressions

def rename (knownNames : List Value) (newPrefix name : Value) : Value :=
  if name ∈ knownNames then newPrefix ++ name else name

/-- Attributes whose values are names of variables. -/
def NamesVariable (tagName name : String) : Prop :=
  (tagName = "if" ∨ tagName = "case") ∧ name = "variable" ∨ tagName = "variable" ∧ name = "name"

instance (tagName name : String) : Decidable (NamesVariable tagName name) :=
  inferInstanceAs (Decidable ((tagName = "if" ∨ tagName = "case") ∧ name = "variable" ∨
    tagName = "variable" ∧ name = "name"))

/-- The nodes whose references do not start with a dollar sign. -/
def specialTags : List String := ["if", "case", "variable", "evalString", "useTemplate"]

section Renames

variable (σ : Value → Value) (newPrefix : Value)

def renameDollar : Value → Value
  | '$' :: name => '$' :: σ name
  | value => value

def renameFragment (fragment : Fragment) : Fragment :=
  if fragment.valueType = .referenceType then { fragment with value := σ fragment.value } else fragment

def ValueRenamed (tagName name : String) (value value' : Value) : Prop :=
  if NamesVariable tagName name then value' = σ value
  else if tagName = "evalString" ∧ name = "value" then
    ∃ fragments, IsSequence fragments value ∧ Merged fragments ∧ value' = render (fragments.map (renameFragment σ))
  else if tagName = "useTemplate" ∧ name = "namePrefix" then value' = newPrefix ++ value
  else if tagName ∈ specialTags then value' = value
  else value' = renameDollar σ value

/-- The name of a definition gets the prefix, and a locked value stays. -/
def AttributeRenamed (isDefinition isLocked : Bool) (tagName name : String) : Option Value → Option Value → Prop
  | none, value' =>
    if tagName = "useTemplate" ∧ name = "namePrefix" then value' = some newPrefix else σ [] = [] → value' = none
  | some value, value' =>
    if isDefinition ∧ name = "name" then value' = some (newPrefix ++ value)
    else if isLocked ∧ name = "value" then value' = some value
    else ∃ v, value' = some v ∧ ValueRenamed σ newPrefix tagName name value v

inductive Renames (isDefinition isLocked : Bool) : Label → Label → Prop
  | element {tagName : String} {attributes attributes' : List (String × Value)}
      (h : ∀ name, AttributeRenamed σ newPrefix isDefinition isLocked tagName name (attributes.lookup name)
        (attributes'.lookup name)) :
      Renames isDefinition isLocked (.element tagName attributes) (.element tagName attributes')
  | text (value : Value) : Renames isDefinition isLocked (.text value) (.text (renameDollar σ value))
  | other (value : Value) : Renames isDefinition isLocked (.other value) (.other value)

end Renames

/-! ### The attributes of a node -/

section Prefixed

variable {knownNames : List Value} {newPrefix : Value} {mark : Bool} {tagName : String}
  {attributes : List (String × Value)}

variable (knownNames newPrefix mark tagName) in
/-- What `prefixNode` makes of an attribute. -/
def Prefixed (name : String) (value value' : Option Value) : Prop :=
  if NamesVariable tagName name then
    value' = if value.getD [] ∈ knownNames then some (newPrefix ++ value.getD []) else value
  else if tagName = "evalString" ∧ name = "value" then
    ∃ v fragments, value = some v ∧ parseDollarBracedReferences ⟨1, v, Nat.one_pos⟩ = .ok fragments ∧
      value' = some (fragments.flatMap (prefixFragment knownNames newPrefix))
  else if tagName = "useTemplate" ∧ name = "namePrefix" then value' = some (newPrefix ++ value.getD [])
  else if tagName ∈ specialTags ∨ mark = true ∧ name = "value" then value' = value
  else value' = value.map (prefixDollarRef knownNames newPrefix)

lemma lookup_map_snd (f : String → Value → Value) (name : String) :
    (attributes.map fun a => (a.1, f a.1 a.2)).lookup name = (attributes.lookup name).map (f name) := by
  induction attributes with
  | nil => rfl
  | cons a attributes ih =>
    rw [List.map_cons, List.lookup_cons, List.lookup_cons, ih]
    by_cases h : name = a.1
    · simp [h]
    · simp [beq_eq_false_iff_ne.mpr h]

lemma lookup_prefixNonDollarReference (attrName name : String) :
    (prefixNonDollarReference knownNames newPrefix attrName attributes).lookup name =
      if name = attrName then
        if (attributes.lookup name).getD [] ∈ knownNames then some (newPrefix ++ (attributes.lookup name).getD [])
        else attributes.lookup name
      else attributes.lookup name := by
  unfold prefixNonDollarReference getAttribute
  by_cases hname : name = attrName
  · rw [if_pos hname, hname]
    by_cases hmem : (attributes.lookup attrName).getD [] ∈ knownNames
    · rw [if_pos hmem, if_pos hmem, lookup_setAttribute, if_pos rfl]
    · rw [if_neg hmem, if_neg hmem]
  · rw [if_neg hname]
    by_cases hmem : (attributes.lookup attrName).getD [] ∈ knownNames
    · rw [if_pos hmem, lookup_setAttribute, if_neg hname]
    · rw [if_neg hmem]

lemma prefixEvalString_ok {attributes' : List (String × Value)}
    (h : prefixEvalString knownNames newPrefix attributes = .ok attributes') :
    ∃ v fragments, attributes.lookup "value" = some v ∧
      parseDollarBracedReferences ⟨1, v, Nat.one_pos⟩ = .ok fragments ∧
      attributes' = setAttribute attributes "value" (fragments.flatMap (prefixFragment knownNames newPrefix)) := by
  unfold prefixEvalString at h
  cases hvalue : attributes.lookup "value" with
  | none =>
    have hhas : hasAttribute attributes "value" = false := by
      unfold hasAttribute
      rw [hvalue]
      rfl
    rw [hhas] at h
    cases hparse : parseDollarBracedReferences ⟨1, getAttribute attributes "value", Nat.one_pos⟩ with
    | error e =>
      rw [hparse] at h
      cases h
    | ok fragments =>
      rw [hparse] at h
      cases h
  | some v =>
    have hhas : hasAttribute attributes "value" = true := by
      unfold hasAttribute
      rw [hvalue]
      rfl
    have hget : getAttribute attributes "value" = v := by
      unfold getAttribute
      rw [hvalue]
      rfl
    rw [hhas, hget] at h
    cases hparse : parseDollarBracedReferences ⟨1, v, Nat.one_pos⟩ with
    | error e =>
      rw [hparse] at h
      cases h
    | ok fragments =>
      rw [hparse] at h
      exact ⟨v, fragments, rfl, hparse, (Except.ok.inj h).symm⟩

lemma not_namesVariable {name : String} (hif : ¬(tagName = "if" ∨ tagName = "case")) (hvariable : tagName ≠ "variable") :
    ¬NamesVariable tagName name := by
  rintro (⟨h, -⟩ | ⟨h, -⟩)
  · exact hif h
  · exact hvariable h

lemma prefixNode_element {label : Label}
    (h : prefixNode knownNames newPrefix (mark, .element tagName attributes) = .ok label) :
    ∃ attributes', label = .element tagName attributes' ∧
      ∀ name, Prefixed knownNames newPrefix mark tagName name (attributes.lookup name) (attributes'.lookup name) := by
  rw [prefixNode] at h
  by_cases hif : tagName = "if" ∨ tagName = "case"
  · rw [if_pos hif] at h
    refine ⟨_, (Except.ok.inj h).symm, ?_⟩
    intro name
    have hspecial : tagName ∈ specialTags := by
      rcases hif with rfl | rfl <;> decide
    have hne : tagName ≠ "variable" ∧ tagName ≠ "evalString" ∧ tagName ≠ "useTemplate" := by
      rcases hif with rfl | rfl <;> decide
    rw [lookup_prefixNonDollarReference]
    unfold Prefixed
    by_cases hname : name = "variable"
    · have hnames : NamesVariable tagName name := Or.inl ⟨hif, hname⟩
      rw [if_pos hnames, if_pos hname]
    · have hnames : ¬NamesVariable tagName name := by
        rintro (⟨-, h⟩ | ⟨h, -⟩)
        · exact hname h
        · exact hne.1 h
      rw [if_neg hnames, if_neg fun h => hne.2.1 h.1, if_neg fun h => hne.2.2 h.1, if_pos (Or.inl hspecial),
        if_neg hname]
  · rw [if_neg hif] at h
    by_cases hvariable : tagName = "variable"
    · rw [if_pos hvariable] at h
      refine ⟨_, (Except.ok.inj h).symm, ?_⟩
      intro name
      rw [lookup_prefixNonDollarReference]
      unfold Prefixed
      by_cases hname : name = "name"
      · have hnames : NamesVariable tagName name := Or.inr ⟨hvariable, hname⟩
        rw [if_pos hnames, if_pos hname]
      · have hnames : ¬NamesVariable tagName name := by
          rintro (⟨h, -⟩ | ⟨-, h⟩)
          · exact hif h
          · exact hname h
        rw [if_neg hnames, if_neg (by simp [hvariable]), if_neg (by simp [hvariable]),
          if_pos (Or.inl (by simp [hvariable, specialTags])), if_neg hname]
    · rw [if_neg hvariable] at h
      by_cases heval : tagName = "evalString"
      · rw [if_pos heval] at h
        obtain ⟨attributes', hattributes, hlabel⟩ := bind_eq_ok h
        obtain ⟨v, fragments, hvalue, hparse, rfl⟩ := prefixEvalString_ok hattributes
        refine ⟨_, (Except.ok.inj hlabel).symm, ?_⟩
        intro name
        rw [lookup_setAttribute]
        unfold Prefixed
        rw [if_neg (not_namesVariable hif hvariable)]
        by_cases hname : name = "value"
        · rw [if_pos ⟨heval, hname⟩, if_pos hname, hname]
          exact ⟨v, fragments, hvalue, hparse, rfl⟩
        · rw [if_neg (by simp [hname]), if_neg (by simp [heval]),
            if_pos (Or.inl (by simp [heval, specialTags])), if_neg hname]
      · rw [if_neg heval] at h
        by_cases huse : tagName = "useTemplate"
        · rw [if_pos huse] at h
          refine ⟨_, (Except.ok.inj h).symm, ?_⟩
          intro name
          unfold prefixNamePrefix getAttribute
          rw [lookup_setAttribute]
          unfold Prefixed
          rw [if_neg (not_namesVariable hif hvariable), if_neg (by simp [heval])]
          by_cases hname : name = "namePrefix"
          · rw [if_pos ⟨huse, hname⟩, if_pos hname, hname]
          · rw [if_neg (by simp [hname]), if_pos (Or.inl (by simp [huse, specialTags])), if_neg hname]
        · rw [if_neg huse] at h
          refine ⟨_, (Except.ok.inj h).symm, ?_⟩
          intro name
          have hspecial : tagName ∉ specialTags := by
            rw [not_or] at hif
            simp [specialTags, hif.1, hif.2, hvariable, heval, huse]
          unfold prefixDollarRefs
          rw [lookup_map_snd fun n v => if mark = true ∧ n = "value" then v else prefixDollarRef knownNames newPrefix v]
          unfold Prefixed
          rw [if_neg (not_namesVariable hif hvariable), if_neg (by simp [heval]), if_neg (by simp [huse])]
          by_cases hlocked : mark = true ∧ name = "value"
          · rw [if_pos (Or.inr hlocked)]
            simp [hlocked]
          · rw [if_neg (by simp only [hspecial, false_or]; exact hlocked)]
            simp only [if_neg hlocked]

lemma flatMap_prefixFragment (fragments : List Fragment) :
    fragments.flatMap (prefixFragment knownNames newPrefix) =
      render (fragments.map (renameFragment (rename knownNames newPrefix))) := by
  unfold render
  rw [List.flatMap_map]
  congr 1
  funext fragment
  obtain ⟨value, valueType⟩ := fragment
  cases valueType with
  | textType => rfl
  | referenceType =>
    unfold prefixFragment renameFragment rename Fragment.render
    by_cases hmem : value ∈ knownNames
    · simp [hmem]
    · simp [hmem]

lemma renameDollar_of_ne {σ : Value → Value} {value : Value} (h : ∀ name, value ≠ '$' :: name) :
    renameDollar σ value = value := by
  unfold renameDollar
  split
  · exact absurd rfl (h _)
  · rfl

variable (newPrefix) in
lemma prefixDollarRef_of_ne {value : Value} (h : ∀ name, value = '$' :: name → name ∉ knownNames) :
    prefixDollarRef knownNames newPrefix value = value := by
  unfold prefixDollarRef
  split
  · rw [if_neg (h _ rfl)]
  · rfl

lemma prefixDollarRef_eq (value : Value) :
    prefixDollarRef knownNames newPrefix value = renameDollar (rename knownNames newPrefix) value := by
  by_cases h : ∃ name, value = '$' :: name
  · obtain ⟨name, rfl⟩ := h
    rw [prefixDollarRef, renameDollar, rename]
    split_ifs <;> rfl
  · rw [not_exists] at h
    rw [renameDollar_of_ne h, prefixDollarRef_of_ne _ fun name hname => absurd hname (h name)]

lemma attributeRenamed_of_prefixed {name : String} {value value' : Option Value} (hpre : newPrefix ≠ [])
    (hmark : mark = true → tagName ∉ specialTags)
    (h : Prefixed knownNames newPrefix mark tagName name value value') :
    AttributeRenamed (rename knownNames newPrefix) newPrefix false mark tagName name value value' := by
  unfold Prefixed at h
  cases value with
  | none =>
    rw [AttributeRenamed]
    by_cases huse : tagName = "useTemplate" ∧ name = "namePrefix"
    · have hnames : ¬NamesVariable tagName name := by
        rintro (⟨-, hname⟩ | ⟨-, hname⟩) <;> simp [huse.2] at hname
      rw [if_neg hnames, if_neg (by simp [huse.1]), if_pos huse, Option.getD_none, List.append_nil] at h
      rw [if_pos huse]
      exact h
    · rw [if_neg huse]
      intro hempty
      by_cases hnames : NamesVariable tagName name
      · rw [if_pos hnames, Option.getD_none] at h
        by_cases hmem : [] ∈ knownNames
        · unfold rename at hempty
          rw [if_pos hmem, List.append_nil] at hempty
          exact absurd hempty hpre
        · rwa [if_neg hmem] at h
      · rw [if_neg hnames] at h
        by_cases heval : tagName = "evalString" ∧ name = "value"
        · rw [if_pos heval] at h
          obtain ⟨v, -, hnone, -⟩ := h
          cases hnone
        · rw [if_neg heval, if_neg huse] at h
          split_ifs at h
          · exact h
          · exact h
  | some v =>
    rw [AttributeRenamed]
    rw [if_neg (by simp)]
    by_cases hlocked : mark = true ∧ name = "value"
    · rw [if_pos hlocked]
      have hspecial := hmark hlocked.1
      have hnames : ¬NamesVariable tagName name := by
        rintro (⟨-, hname⟩ | ⟨-, hname⟩) <;> simp [hlocked.2] at hname
      have heval : ¬(tagName = "evalString" ∧ name = "value") := by
        rintro ⟨rfl, -⟩
        exact hspecial (by decide)
      rw [if_neg hnames, if_neg heval, if_neg (by simp [hlocked.2]), if_pos (Or.inr hlocked)] at h
      exact h
    · rw [if_neg hlocked]
      unfold ValueRenamed
      by_cases hnames : NamesVariable tagName name
      · rw [if_pos hnames, Option.getD_some] at h
        simp only [if_pos hnames]
        refine ⟨_, ?_, rfl⟩
        rw [h]
        unfold rename
        split_ifs <;> rfl
      · rw [if_neg hnames] at h
        simp only [if_neg hnames]
        by_cases heval : tagName = "evalString" ∧ name = "value"
        · rw [if_pos heval] at h
          obtain ⟨v', fragments, hv, hparse, hvalue⟩ := h
          obtain rfl := Option.some.inj hv
          simp only [if_pos heval]
          obtain ⟨hrender, hplain, hmerged⟩ := (parseDollarBracedReferences_exact ⟨1, v, Nat.one_pos⟩).1 _ hparse
          exact ⟨_, hvalue, fragments, ⟨hplain, hrender⟩, hmerged, flatMap_prefixFragment fragments⟩
        · rw [if_neg heval] at h
          simp only [if_neg heval]
          by_cases huse : tagName = "useTemplate" ∧ name = "namePrefix"
          · rw [if_pos huse] at h
            simp only [if_pos huse]
            exact ⟨_, h, rfl⟩
          · rw [if_neg huse] at h
            simp only [if_neg huse]
            by_cases hspecial : tagName ∈ specialTags
            · rw [if_pos (Or.inl hspecial)] at h
              simp only [if_pos hspecial]
              exact ⟨v, h, rfl⟩
            · rw [if_neg (by simp only [hspecial, false_or]; exact hlocked)] at h
              simp only [if_neg hspecial]
              exact ⟨_, h, prefixDollarRef_eq v⟩

lemma renames_of_prefixNode {label label' : Label} (hpre : newPrefix ≠ [])
    (hmark : mark = true → ∀ tag ∈ specialTags, label.isElement tag = false)
    (h : prefixNode knownNames newPrefix (mark, label) = .ok label') :
    Renames (rename knownNames newPrefix) newPrefix false mark label label' := by
  cases label with
  | element tagName attributes =>
    obtain ⟨attributes', rfl, hattributes⟩ := prefixNode_element h
    refine Renames.element fun name => attributeRenamed_of_prefixed hpre ?_ (hattributes name)
    intro hm hspecial
    have hfalse := hmark hm tagName hspecial
    simp [Label.isElement] at hfalse
  | text value =>
    obtain rfl := (Except.ok.inj h).symm
    rw [prefixDollarRef_eq]
    exact Renames.text value
  | other value =>
    obtain rfl := (Except.ok.inj h).symm
    exact Renames.other value

/-- The name of a definition is not taken for a reference. -/
lemma renames_of_renameDefinition {label label' : Label} (hpre : newPrefix ≠ [])
    (hmark : mark = true → ∀ tag ∈ specialTags, label.isElement tag = false)
    (hknown : ∀ n, label.attributes.lookup "name" = some n →
      newPrefix ++ n ∉ knownNames ∧ ∀ m, newPrefix ++ n = '$' :: m → m ∉ knownNames)
    (h : prefixNode knownNames newPrefix (renameDefinition newPrefix (mark, label)) = .ok label') :
    Renames (rename knownNames newPrefix) newPrefix true mark label label' := by
  cases label with
  | element tagName attributes =>
    have hspecial : mark = true → tagName ∉ specialTags := by
      intro hm hspecial
      have hfalse := hmark hm tagName hspecial
      simp [Label.isElement] at hfalse
    cases hname : attributes.lookup "name" with
    | none =>
      have hhas : hasAttribute attributes "name" = false := by
        unfold hasAttribute
        rw [hname]
        rfl
      rw [renameDefinition, hhas, if_neg Bool.false_ne_true] at h
      obtain ⟨attributes', rfl, hattributes⟩ := prefixNode_element h
      refine Renames.element fun name => ?_
      have hrenamed := attributeRenamed_of_prefixed hpre hspecial (hattributes name)
      cases hvalue : attributes.lookup name with
      | none =>
        rw [hvalue] at hrenamed
        exact hrenamed
      | some v =>
        have hne : name ≠ "name" := by
          rintro rfl
          rw [hname] at hvalue
          cases hvalue
        rw [hvalue] at hrenamed
        rw [AttributeRenamed] at hrenamed ⊢
        rw [if_neg (by simp)] at hrenamed
        rw [if_neg (by simp [hne])]
        exact hrenamed
    | some n =>
      have hhas : hasAttribute attributes "name" = true := by
        unfold hasAttribute
        rw [hname]
        rfl
      have hget : getAttribute attributes "name" = n := by
        unfold getAttribute
        rw [hname]
        rfl
      rw [renameDefinition, if_pos hhas, hget] at h
      obtain ⟨attributes', rfl, hattributes⟩ := prefixNode_element h
      refine Renames.element fun name => ?_
      have hprefixed := hattributes name
      rw [lookup_setAttribute] at hprefixed
      by_cases heq : name = "name"
      · obtain ⟨hnew, hdollar⟩ := hknown n hname
        rw [if_pos heq] at hprefixed
        rw [heq, hname]
        rw [AttributeRenamed]
        rw [if_pos ⟨rfl, rfl⟩]
        unfold Prefixed at hprefixed
        rw [heq] at hprefixed
        have hsame := prefixDollarRef_of_ne newPrefix hdollar
        have heval : ¬(tagName = "evalString" ∧ "name" = "value") := by simp
        have huse : ¬(tagName = "useTemplate" ∧ "name" = "namePrefix") := by simp
        rw [if_neg heval, if_neg huse, Option.getD_some, if_neg hnew, Option.map_some, hsame] at hprefixed
        split_ifs at hprefixed
        · exact hprefixed
        · exact hprefixed
        · exact hprefixed
      · rw [if_neg heq] at hprefixed
        have hrenamed := attributeRenamed_of_prefixed hpre hspecial hprefixed
        cases hvalue : attributes.lookup name with
        | none =>
          rw [hvalue] at hrenamed
          exact hrenamed
        | some v =>
          rw [hvalue] at hrenamed
          rw [AttributeRenamed] at hrenamed ⊢
          rw [if_neg (by simp)] at hrenamed
          rw [if_neg (by simp [heq])]
          exact hrenamed
  | text value =>
    obtain rfl := (Except.ok.inj h).symm
    rw [prefixDollarRef_eq]
    exact Renames.text value
  | other value =>
    obtain rfl := (Except.ok.inj h).symm
    exact Renames.other value

end Prefixed

end Muen.Tools.XmlTemplates
