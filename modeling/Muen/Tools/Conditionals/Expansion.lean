import Muen.Tools.Conditionals.Evaluate

/-!
# Expansion of conditionals

What conditionals select is a matter of their conditions and of the forest below them. A forest is expanded from the
bottom up, and `Evaluate` turns a document into one with the expanded forests.
-/

namespace Muen.Tools.Conditionals
open Muen.Lib
open Muen.Tools.Xml

/-! ### Conditions -/

section Conditions

variable (values : Values) (access : NodeAccess)

/-- The condition of an `if` holds when its value is that of its variable. -/
def holds (node : Node) : Bool :=
  match getValueIfContained access (node.attr "variable") with
  | some value => value.cast values (node.attr "value") = some value
  | none => false

/-- The value of an option, which can be a reference to a variable. -/
def optionValue (rawValue : String) (caseValue : Value) : Option Value :=
  if rawValue.toList.head? = some '$' then getValueIfContained access (String.ofList (rawValue.toList.drop 1))
  else caseValue.cast values rawValue

def matchesOption (caseValue : Value) (node : Node) : Bool :=
  node.nodeName = "others" || optionValue values access (node.attr "value") caseValue = some caseValue

/-- The first option of a case that matches. -/
def chosen (caseNode : Node) (options : List (Nat × Node)) : Option Nat :=
  match getValueIfContained access (caseNode.attr "variable") with
  | some caseValue => (options.find? fun o => matchesOption values access caseValue o.2).map Prod.fst
  | none => none

variable {values access}

lemma evaluateIf_ok {node : Node} {b : Bool} (h : evaluateIf values access node = .ok b) :
    b = holds values access node := by
  unfold evaluateIf at h
  obtain ⟨value, hvalue, h⟩ := bind_eq_ok h
  obtain ⟨cfgName, hname, h⟩ := bind_eq_ok h
  unfold getAttribute at hvalue hname
  split at hvalue
  · rename_i helement
    rw [if_pos helement] at hname
    obtain rfl := Except.ok.inj hvalue
    obtain rfl := Except.ok.inj hname
    unfold isValueEqualAfterCast at h
    unfold holds getValueIfContained
    split at h
    · split at h
      · rw [← Except.ok.inj h]
        simp [*, Value.cast]
      · cases h
    · split at h
      · split at h
        · rw [← Except.ok.inj h]
          simp [*, Value.cast]
        · cases h
      · split at h
        · rw [← Except.ok.inj h]
          simp [*, Value.cast]
        · cases h
  · cases hvalue

lemma getValueOfReference_ok {refName : String} {value : Value}
    (h : getValueOfReference access refName = .ok value) : getValueIfContained access refName = some value := by
  unfold getValueOfReference at h
  split at h
  · rw [← Except.ok.inj h]
    assumption
  · cases h

lemma evaluateWhenOption_ok {rawValue : String} {caseValue value : Value}
    (h : evaluateWhenOption values access rawValue caseValue = .ok value) :
    optionValue values access rawValue caseValue = some value := by
  unfold evaluateWhenOption at h
  unfold optionValue
  split at h
  · rename_i hdollar
    rw [if_pos hdollar]
    obtain ⟨v, hv, h⟩ := bind_eq_ok h
    split at h
    · cases h
    · rw [← Except.ok.inj h]
      exact getValueOfReference_ok hv
  · rename_i hdollar
    rw [if_neg hdollar]
    split at h
    · rename_i v hcast
      rw [← Except.ok.inj h]
      exact hcast
    · cases h

/-- The loop ends with the first match. -/
lemma optionsLoop_ok {caseValue : Value} {options : List (Nat × Node)} {returnNode result : Option Nat}
    (h : optionsLoop values access caseValue options returnNode = .ok result) :
    result = returnNode.or ((options.find? fun o => matchesOption values access caseValue o.2).map Prod.fst) := by
  induction options generalizing returnNode with
  | nil =>
    rw [← Except.ok.inj h]
    simp
  | cons o options ih =>
    obtain ⟨id, node⟩ := o
    unfold optionsLoop at h
    by_cases hothers : node.nodeName = "others"
    · rw [if_pos hothers] at h
      have hmatch : matchesOption values access caseValue node = true := by
        unfold matchesOption
        simp [hothers]
      by_cases hlast : options ≠ []
      · rw [if_pos hlast] at h
        cases h
      · rw [if_neg hlast] at h
        have hresult := ih h
        rw [not_not.mp hlast] at hresult
        rw [hresult, List.find?_cons, hmatch]
        cases returnNode <;> rfl
    · rw [if_neg hothers] at h
      by_cases hvalue : ¬node.hasAttribute "value" = true
      · rw [if_pos hvalue] at h
        cases h
      · rw [if_neg hvalue] at h
        obtain ⟨value, hwhen, h⟩ := bind_eq_ok h
        have hmatch : matchesOption values access caseValue node = decide (value = caseValue) := by
          unfold matchesOption
          simp [hothers, evaluateWhenOption_ok hwhen]
        by_cases heq : value = caseValue
        · rw [if_pos heq] at h
          by_cases hnone : returnNode = none
          · rw [if_pos hnone] at h
            rw [ih h, List.find?_cons, hmatch, decide_eq_true heq, hnone]
            rfl
          · rw [if_neg hnone] at h
            cases h
        · rw [if_neg heq] at h
          rw [ih h, List.find?_cons, hmatch, decide_eq_false heq]

lemma evaluateCaseNodeFrame_ok {caseNode : Node} {options : List (Nat × Node)} {result : Option Nat}
    (h : evaluateCaseNodeFrame values access caseNode options = .ok result) :
    result = chosen values access caseNode options := by
  unfold evaluateCaseNodeFrame at h
  obtain ⟨name, hname, h⟩ := bind_eq_ok h
  unfold getAttribute at hname
  split at hname
  · obtain rfl := Except.ok.inj hname
    split at h
    · cases h
    · obtain ⟨caseValue, hvalue, h⟩ := bind_eq_ok h
      split at h
      · cases h
      · unfold chosen
        rw [getValueOfReference_ok hvalue, optionsLoop_ok h]
        rfl
  · cases hname

end Conditions

/-! ### The semantics -/

section Semantics

variable (values : Values) (access : NodeAccess) (label : Nat → Node)

/-- The forest below a root. -/
def below (id : Nat) : Forest → Forest
  | .nil => .nil
  | .cons root children rest => if root = id then children else below id rest

/-- What a node with an expanded forest below it is replaced by. -/
def selected (id : Nat) (children : Forest) : Forest :=
  if (label id).nodeName = "if" then
    if holds values access (label id) then children else .nil
  else if (label id).nodeName = "case" then
    match chosen values access (label id) (options label children.roots) with
    | some option => below option children
    | none => .nil
  else .cons id children .nil

def expanded : Forest → Forest
  | .nil => .nil
  | .cons id children rest => selected values access label id (expanded children) ++ expanded rest

/-- The condition of a node with an expanded forest below it is evaluated without error. -/
def ConditionEvaluates (id : Nat) (children : Forest) : Prop :=
  ((label id).nodeName = "if" → ∃ b, evaluateIf values access (label id) = .ok b) ∧
    ((label id).nodeName = "case" →
      ∃ option, evaluateCaseNodeFrame values access (label id) (options label children.roots) = .ok option)

def Evaluates : Forest → Prop
  | .nil => True
  | .cons id children rest =>
    Evaluates children ∧ ConditionEvaluates values access label id (expanded values access label children) ∧
      Evaluates rest

def isConditional (node : Node) : Bool := node.nodeName = "if" || node.nodeName = "case"

variable {values access label}

lemma below_sublist (id : Nat) (forest : Forest) : (below id forest).ids.Sublist forest.ids := by
  induction forest with
  | nil => exact List.Sublist.slnil
  | cons root children rest _ ih =>
    unfold below
    by_cases heq : root = id
    · rw [if_pos heq]
      exact (List.sublist_append_left _ _).cons root
    · rw [if_neg heq]
      exact (ih.trans (List.sublist_append_right _ _)).cons root

lemma selected_sublist (id : Nat) (children : Forest) :
    (selected values access label id children).ids.Sublist (id :: children.ids) := by
  unfold selected
  split
  · split
    · exact List.sublist_cons_self id _
    · exact List.nil_sublist _
  · split
    · split
      · exact (below_sublist _ children).cons id
      · exact List.nil_sublist _
    · simp [Forest.ids]

/-- Nodes only go away, and the others stay in the order of the document. -/
lemma expanded_sublist (forest : Forest) : (expanded values access label forest).ids.Sublist forest.ids := by
  induction forest with
  | nil => exact List.Sublist.slnil
  | cons id children rest ihChildren ihRest =>
    unfold expanded
    rw [Forest.ids_append]
    exact ((selected_sublist id _).trans (ihChildren.cons_cons id)).append ihRest

lemma selected_not_isConditional {id : Nat} {children : Forest}
    (h : ∀ a ∈ children.ids, isConditional (label a) = false) :
    ∀ a ∈ (selected values access label id children).ids, isConditional (label a) = false := by
  intro a ha
  unfold selected at ha
  split at ha
  · split at ha
    · exact h a ha
    · cases ha
  · rename_i hif
    split at ha
    · split at ha
      · exact h a ((below_sublist _ children).mem ha)
      · cases ha
    · rename_i hcase
      rcases List.mem_cons.mp ha with rfl | ha
      · simp [isConditional, hif, hcase]
      · exact h a (by simpa [Forest.ids] using ha)

lemma expanded_not_isConditional (forest : Forest) :
    ∀ a ∈ (expanded values access label forest).ids, isConditional (label a) = false := by
  induction forest with
  | nil => exact nofun
  | cons id children rest ihChildren ihRest =>
    intro a ha
    unfold expanded at ha
    rw [Forest.ids_append] at ha
    rcases List.mem_append.mp ha with ha | ha
    · exact selected_not_isConditional ihChildren a ha
    · exact ihRest a ha

end Semantics

end Muen.Tools.Conditionals
