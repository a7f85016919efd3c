import Muen.Tools.Expressions.Evaluation

/-!
# Case expressions

The loops over the options of a case give the value of the option that matches, when all options have values of one
type.
-/

namespace Muen.Tools.Expressions
open Muen.Lib
open Muen.Tools.XmlTemplates (Label Nodes getAttribute hasAttribute)

variable {values : Values} {input : List (Text × Element)} {evaluators : Evaluators} {fuel : Nat}

/-- The loop over the options when their values are known. -/
def loopResult (returnNode : Nat) :
    Nat → List ValueTypeTuple → Option VariableType → ValueTypeTuple → Option ValueTypeTuple
  | _, [], _, valueOfCase => some valueOfCase
  | i, value :: optionValues, childType, valueOfCase =>
    if childType.getD value.valueType ≠ value.valueType then none
    else loopResult returnNode (i + 1) optionValues (some value.valueType) (if i = returnNode then value else valueOfCase)

lemma loopResult_eq (returnNode i : Nat) (optionValues : List ValueTypeTuple) (type : VariableType)
    (valueOfCase : ValueTypeTuple) :
    loopResult returnNode i optionValues (some type) valueOfCase =
      if ∀ value ∈ optionValues, value.valueType = type then
        some (if i ≤ returnNode then optionValues[returnNode - i]?.getD valueOfCase else valueOfCase)
      else none := by
  induction optionValues generalizing i valueOfCase with
  | nil =>
    rw [loopResult, if_pos (by simp)]
    simp
  | cons value optionValues ih =>
    rw [loopResult, Option.getD_some]
    by_cases htype : type = value.valueType
    · rw [if_neg (not_not_intro htype), ← htype, ih]
      have hall : (∀ w ∈ value :: optionValues, w.valueType = type) ↔ ∀ w ∈ optionValues, w.valueType = type := by
        simp [htype.symm]
      by_cases htypes : ∀ w ∈ optionValues, w.valueType = type
      · rw [if_pos htypes, if_pos (hall.mpr htypes)]
        apply congrArg
        rcases Nat.lt_trichotomy i returnNode with hlt | rfl | hgt
        · obtain ⟨d, rfl⟩ := Nat.exists_eq_add_of_lt hlt
          rw [if_pos (by omega), if_neg (by omega), if_pos (by omega)]
          have hsub : i + d + 1 - (i + 1) = d := by omega
          have hsub' : i + d + 1 - i = d + 1 := by omega
          rw [hsub, hsub', List.getElem?_cons_succ]
        · rw [if_neg (by omega), if_pos rfl, if_pos (Nat.le_refl i), Nat.sub_self]
          rfl
        · rw [if_neg (by omega), if_neg (by omega), if_neg (by omega)]
      · rw [if_neg htypes, if_neg (mt hall.mp htypes)]
    · have hnot : ¬∀ w ∈ value :: optionValues, w.valueType = type := by
        intro hall
        exact htype (hall value List.mem_cons_self).symm
      rw [if_pos htype, if_neg hnot]

/-- All values are of the type of the first one, and the one at the position is the result. -/
lemma loopResult_start {returnNode : Nat} {optionValues : List ValueTypeTuple} (h : returnNode < optionValues.length)
    (valueOfCase : ValueTypeTuple) :
    loopResult returnNode 0 optionValues none valueOfCase =
      if (optionValues.map ValueTypeTuple.valueType).Pairwise (· = ·) then optionValues[returnNode]? else none := by
  cases optionValues with
  | nil => exact absurd h (Nat.not_lt_zero _)
  | cons value optionValues =>
    have hall : ((value :: optionValues).map ValueTypeTuple.valueType).Pairwise (· = ·) ↔
        ∀ w ∈ optionValues, w.valueType = value.valueType := by
      rw [List.map_cons, List.pairwise_cons]
      constructor
      · rintro ⟨hfirst, -⟩ w hw
        exact (hfirst _ (List.mem_map_of_mem hw)).symm
      · intro hw
        refine ⟨?_, ?_⟩
        · intro t ht
          obtain ⟨w, hmem, rfl⟩ := List.mem_map.mp ht
          exact (hw w hmem).symm
        · rw [List.pairwise_map]
          exact List.pairwise_of_forall_mem_list fun a ha b hb => (hw a ha).trans (hw b hb).symm
    rw [loopResult, Option.getD_none, if_neg (not_not_intro rfl), loopResult_eq]
    by_cases htypes : ∀ w ∈ optionValues, w.valueType = value.valueType
    · rw [if_pos htypes, if_pos (hall.mpr htypes)]
      cases returnNode with
      | zero => rfl
      | succ r =>
        have hr : r < optionValues.length := Nat.lt_of_succ_lt_succ h
        rw [if_pos (by omega), if_neg (by omega), List.getElem?_cons_succ, Nat.add_sub_cancel,
          List.getElem?_eq_getElem hr]
        rfl
    · rw [if_neg htypes, if_neg (mt hall.mp htypes)]

/-- The option that is found is one of those that are looked at. -/
lemma matchMeaning_lt {env : Text → Option ValueTypeTuple} {caseValue : ValueTypeTuple} {i : Nat}
    {options : List Element} {found result : Option Nat} {j : Nat}
    (h : (matchMeaning values caseValue i options found).run env = some result) (hresult : result = some j)
    (hfound : ∀ k, found = some k → k < i) : j < i + options.length := by
  induction options generalizing i found with
  | nil =>
    obtain rfl := Option.some.inj h
    exact hfound j hresult
  | cons option options ih =>
    rw [List.length_cons]
    unfold matchMeaning at h
    by_cases hothers : option.tagName = "others"
    · rw [if_pos hothers] at h
      split at h
      · cases h
      · obtain rfl := Option.some.inj h
        cases found with
        | none =>
          obtain rfl := Option.some.inj hresult
          omega
        | some k =>
          have hk := hfound k rfl
          obtain rfl := Option.some.inj hresult
          omega
    · rw [if_neg hothers] at h
      split at h
      · cases h
      · rw [Query.run_bind, Option.bind_eq_some_iff] at h
        obtain ⟨whenValue, -, h⟩ := h
        have hnext : ∀ found', (matchMeaning values caseValue (i + 1) options found').run env = some result →
            (∀ k, found' = some k → k < i + 1) → j < i + (options.length + 1) := by
          intro found' hrun hfound'
          have hlt := ih hrun hfound'
          omega
        split at h
        · split at h
          · refine hnext (some i) h ?_
            intro k hk
            obtain rfl := Option.some.inj hk
            omega
          · cases h
        · exact hnext found h fun k hk => Nat.lt_succ_of_lt (hfound k hk)

lemma optionsMeaning_length {env : Text → Option ValueTypeTuple} {options : List (List (Meaning ValueTypeTuple))}
    {optionValues : List ValueTypeTuple} (h : (optionsMeaning options).run env = some optionValues) :
    optionValues.length = options.length := by
  induction options generalizing optionValues with
  | nil =>
    obtain rfl := Option.some.inj h
    rfl
  | cons children options ih =>
    unfold optionsMeaning at h
    split at h
    · rw [Query.run_bind, Option.bind_eq_some_iff] at h
      obtain ⟨value, -, h⟩ := h
      rw [Query.run_bind, Option.bind_eq_some_iff] at h
      obtain ⟨rest, hrest, h⟩ := h
      obtain rfl := Option.some.inj h
      rw [List.length_cons, List.length_cons, ih hrest]
    · cases h

lemma means_getTypeAndValue (node : Element) :
    Means values input fuel (typedMeaning values node) (getTypeAndValue values node) := by
  unfold typedMeaning getTypeAndValue
  by_cases hvalue : node.has "value" = true
  swap
  · rw [if_pos (Or.inl hvalue), if_pos hvalue]
    exact Computes.fail nofun
  by_cases hreference : (reference? (node.attr "value")).isSome = true
  · rw [if_pos (Or.inr hreference), if_neg (not_not_intro hvalue), if_pos hreference]
    exact Computes.fail nofun
  · rw [if_neg (not_or_intro (not_not_intro hvalue) hreference), if_neg (not_not_intro hvalue), if_neg hreference]
    split
    · exact Computes.ofOption nofun
    · split
      · exact Computes.ofOption nofun
      · split
        · exact Computes.ofOption nofun
        · exact Computes.fail nofun

lemma means_childrenLoop {returnNode : Nat} {meanings : List (List (Meaning ValueTypeTuple))}
    {options : List (List (Eval ValueTypeTuple))}
    (h : List.Forall₂ (List.Forall₂ (Means values input fuel)) meanings options) (i : Nat)
    (childType : Option VariableType) (valueOfCase : ValueTypeTuple) :
    Means values input fuel
      (optionsMeaning meanings >>= fun optionValues => .ofOption (loopResult returnNode i optionValues childType valueOfCase))
      (childrenLoop returnNode i options childType valueOfCase) := by
  induction h generalizing i childType valueOfCase with
  | nil => exact Computes.done valueOfCase
  | @cons _ _ meanings options hchildren _ ih =>
    cases hchildren with
    | nil => exact Computes.fail nofun
    | @cons meaning child _ _ hchild hrest =>
      cases hrest with
      | cons _ _ => exact Computes.fail nofun
      | nil =>
        have hnext : ∀ value type, childType = some type ∨ childType = none ∧ type = value.valueType →
            Means values input fuel
              (if childType.getD value.valueType ≠ value.valueType then .fail
                else optionsMeaning meanings >>= fun optionValues => .ofOption (loopResult returnNode (i + 1)
                  optionValues (some value.valueType) (if i = returnNode then value else valueOfCase)))
              (if type ≠ value.valueType then
                throw (.invalidExpression ("Case expression contains values of multiple types: '" ++ type.image ++
                  "' and '" ++ value.valueType.image ++ "'"))
              else childrenLoop returnNode (i + 1) options (some type)
                (if i = returnNode then value else valueOfCase)) := by
          intro value type htype
          have hdefault : childType.getD value.valueType = type := by
            rcases htype with rfl | ⟨rfl, rfl⟩
            · rfl
            · rfl
          rw [hdefault]
          by_cases hsame : type = value.valueType
          · rw [if_neg (not_not_intro hsame), if_neg (not_not_intro hsame), hsame]
            exact ih (i + 1) (some value.valueType) _
          · rw [if_pos hsame, if_pos hsame]
            exact Computes.fail nofun
        have hloop : Means values input fuel
            (meaning >>= fun value : ValueTypeTuple =>
              if childType.getD value.valueType ≠ value.valueType then .fail
              else optionsMeaning meanings >>= fun optionValues => .ofOption (loopResult returnNode (i + 1)
                optionValues (some value.valueType) (if i = returnNode then value else valueOfCase)))
            (childrenLoop returnNode i ([child] :: options) childType valueOfCase) := by
          cases childType with
          | none =>
            apply hchild.bind
            intro value
            have hvalue := hnext value value.valueType (Or.inr ⟨rfl, rfl⟩)
            rw [if_neg (not_not_intro rfl)] at hvalue
            exact hvalue
          | some type => exact hchild.bind fun value => hnext value type (Or.inl rfl)
        apply hloop.congr
        intro env
        rw [optionsMeaning, Query.run_bind, Query.run_bind, Query.run_bind, Option.bind_assoc]
        apply congrArg
        funext value
        rw [Query.run_bind, Option.bind_assoc]
        by_cases htype : childType.getD value.valueType ≠ value.valueType
        · rw [if_pos htype]
          have hnone : ∀ optionValues, (Query.ofOption (loopResult returnNode i (value :: optionValues) childType
              valueOfCase) : Meaning ValueTypeTuple).run env = none := by
            intro optionValues
            rw [loopResult, if_pos htype]
            rfl
          cases (optionsMeaning meanings).run env with
          | none => rfl
          | some optionValues => exact hnone optionValues
        · rw [if_neg htype, Query.run_bind]
          apply congrArg
          funext optionValues
          change (Query.ofOption (loopResult returnNode i (value :: optionValues) childType valueOfCase) :
            Meaning ValueTypeTuple).run env = _
          rw [loopResult, if_neg htype]

section Functions

variable (hspec : EvaluatorsSpec values input evaluators fuel)
include hspec

lemma means_evaluateWhenOption (rawValue : Text) (caseValue : ValueTypeTuple) :
    Means values input fuel (whenMeaning values rawValue caseValue)
      (evaluateWhenOption values input evaluators rawValue caseValue) := by
  unfold whenMeaning evaluateWhenOption
  cases reference? rawValue with
  | none => exact Computes.ofOption nofun
  | some refName =>
    apply (means_getValueOfReference hspec refName).bind
    intro whenValue
    by_cases htype : whenValue.valueType ≠ caseValue.valueType
    · rw [if_pos htype, if_pos htype]
      exact Computes.fail nofun
    · rw [if_neg htype, if_neg htype]
      exact Computes.done whenValue

lemma means_optionsLoop (caseValue : ValueTypeTuple) (i : Nat) (options : List Element) (found : Option Nat) :
    Means values input fuel (matchMeaning values caseValue i options found)
      (optionsLoop values input evaluators caseValue i options found) := by
  induction options generalizing i found with
  | nil => exact Computes.done found
  | cons option options ih =>
    unfold matchMeaning optionsLoop
    by_cases hothers : option.tagName = "others"
    · rw [if_pos hothers, if_pos hothers]
      by_cases hlast : options ≠ []
      · rw [if_pos hlast, if_pos hlast]
        exact Computes.fail nofun
      · rw [if_neg hlast, if_neg hlast, not_not.mp hlast, optionsLoop]
        cases found with
        | none => exact Computes.done (some i)
        | some j => exact Computes.done (some j)
    · rw [if_neg hothers, if_neg hothers]
      by_cases hvalue : ¬option.has "value" = true
      · rw [if_pos hvalue, if_pos hvalue]
        exact Computes.fail nofun
      · rw [if_neg hvalue, if_neg hvalue]
        apply (means_evaluateWhenOption hspec (option.attr "value") caseValue).bind
        intro whenValue
        by_cases heq : whenValue = caseValue
        · rw [if_pos heq, if_pos heq]
          by_cases hfound : found = none
          · rw [if_pos hfound, if_pos hfound]
            exact ih (i + 1) (some i)
          · rw [if_neg hfound, if_neg hfound]
            exact Computes.fail nofun
        · rw [if_neg heq, if_neg heq]
          exact ih (i + 1) found

lemma means_evaluateCaseNodeFrame (caseNode : Element) (options : List Element) :
    Means values input fuel
      (if ¬caseNode.has "variable" then .fail
        else ask (caseNode.attr "variable") >>= fun caseValue =>
          if options = [] then .fail else matchMeaning values caseValue 0 options none)
      (evaluateCaseNodeFrame values input evaluators caseNode options) := by
  unfold evaluateCaseNodeFrame
  split
  · exact Computes.fail nofun
  · apply (means_getValueOfReference hspec _).bind
    intro caseValue
    split
    · exact Computes.fail nofun
    · exact means_optionsLoop hspec caseValue 0 options none

lemma means_evaluateCaseNode (caseNode : Element) {meanings : List (Element × List (Meaning ValueTypeTuple))}
    {options : List (Element × List (Eval ValueTypeTuple))}
    (hfst : meanings.map Prod.fst = options.map Prod.fst)
    (hsnd : List.Forall₂ (List.Forall₂ (Means values input fuel)) (meanings.map Prod.snd) (options.map Prod.snd)) :
    Means values input fuel (caseMeaning values caseNode meanings)
      (evaluateCaseNode values input evaluators caseNode options) := by
  unfold evaluateCaseNode
  refine (Computes.bind (f := fun found : Option Nat => found.elim .fail fun returnNode =>
    optionsMeaning (meanings.map Prod.snd) >>= fun optionValues =>
      .ofOption (loopResult returnNode 0 optionValues none (.boolean false)))
    (means_evaluateCaseNodeFrame hspec caseNode (options.map Prod.fst)) ?_).congr ?_
  · intro found
    cases found with
    | none => exact Computes.fail nofun
    | some returnNode => exact means_childrenLoop hsnd 0 none (.boolean false)
  intro env
  rw [← hfst]
  unfold caseMeaning
  by_cases hvariable : ¬caseNode.has "variable" = true
  · rw [if_pos (Or.inl hvariable), if_pos hvariable]
    rfl
  by_cases hempty : meanings = []
  · rw [if_pos (Or.inr hempty), if_neg hvariable, hempty, Query.run_bind, Query.run_bind]
    cases (ask (caseNode.attr "variable")).run env with
    | none => rfl
    | some caseValue => rfl
  rw [if_neg (not_or_intro hvariable hempty), if_neg hvariable, Query.run_bind, Query.run_bind, Query.run_bind,
    Option.bind_assoc]
  apply congrArg
  funext caseValue
  have hnonempty : meanings.map Prod.fst ≠ [] := fun h => hempty (List.map_eq_nil_iff.mp h)
  rw [if_neg hnonempty, Query.run_bind]
  cases hmatch : (matchMeaning values caseValue 0 (meanings.map Prod.fst) none).run env with
  | none => rfl
  | some found =>
    rw [Option.bind_some, Option.bind_some, Query.run_bind]
    cases found with
    | none =>
      cases (optionsMeaning (meanings.map Prod.snd)).run env with
      | none => rfl
      | some optionValues =>
        rw [Option.bind_some, Option.bind_none]
        split
        · rfl
        · rfl
    | some returnNode =>
      rw [Option.elim_some, Query.run_bind]
      cases hvalues : (optionsMeaning (meanings.map Prod.snd)).run env with
      | none => rfl
      | some optionValues =>
        have hlength := optionsMeaning_length hvalues
        have hlt := matchMeaning_lt hmatch rfl nofun
        rw [List.length_map] at hlength hlt
        have hbound : returnNode < optionValues.length := by omega
        rw [Option.bind_some, Option.bind_some, Option.bind_some, loopResult_start hbound]
        split
        · rfl
        · rfl

lemma means_options (nodes : Nodes) :
    List.Forall₂ (Means values input fuel) (whenMeanings values nodes) (whenChildren values input evaluators nodes) ∧
      (optionMeanings values nodes).map Prod.fst = (caseOptions values input evaluators nodes).map Prod.fst ∧
      List.Forall₂ (List.Forall₂ (Means values input fuel)) ((optionMeanings values nodes).map Prod.snd)
        ((caseOptions values input evaluators nodes).map Prod.snd) := by
  induction nodes with
  | nil =>
    rw [whenMeanings, whenChildren, optionMeanings, caseOptions]
    exact ⟨List.Forall₂.nil, rfl, List.Forall₂.nil⟩
  | cons label children siblings ihchildren ihsiblings =>
    obtain ⟨hwhen, hfst, hsnd⟩ := ihsiblings
    obtain ⟨hwhen', hfst', hsnd'⟩ := ihchildren
    cases label with
    | element tagName attributes =>
      rw [whenMeanings, whenChildren, optionMeanings, caseOptions]
      refine ⟨?_, ?_⟩
      · split
        · exact List.Forall₂.cons (means_evaluateCaseNode hspec _ hfst' hsnd') hwhen
        · split
          · exact List.Forall₂.cons (means_getValueOfReference hspec _) hwhen
          · split
            · exact List.Forall₂.cons (means_getTypeAndValue _) hwhen
            · exact hwhen
      · split
        · exact ⟨congrArg (List.cons _) hfst, List.Forall₂.cons hwhen' hsnd⟩
        · exact ⟨hfst, hsnd⟩
    | text value =>
      rw [whenMeanings, whenChildren, optionMeanings, caseOptions]
      exact ⟨hwhen, hfst, hsnd⟩
    | other value =>
      rw [whenMeanings, whenChildren, optionMeanings, caseOptions]
      exact ⟨hwhen, hfst, hsnd⟩

end Functions

end Muen.Tools.Expressions
