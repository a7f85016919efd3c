import Muen.Lib.Strings
import Muen.Lib.Fallible
import Mathlib.Data.List.Chain

/-!
# References in strings

`Parse_Dollar_Braced_References` splits a string into text and references in braces after a dollar sign. It looks in
turn for the start of the next reference and for the closing brace, and checks what lies between.
-/

namespace Muen.Tools.Expressions
open Muen.Lib

inductive FragmentType
  | textType
  | referenceType
deriving DecidableEq

structure Fragment where
  value : List Char
  valueType : FragmentType
deriving DecidableEq

inductive ParseError
  | indexError
  | constraintError
  | invalidExpression (message : String)
deriving DecidableEq

def index (source : Str) (pattern : List Char) (start : Nat) : Except ParseError Nat :=
  match source.index pattern start with
  | some position => .ok position
  | none => .error .indexError

def slice (source : Str) (low high : Nat) : Except ParseError Str :=
  match source.slice low high with
  | some s => .ok s
  | none => .error .constraintError

def hasDollarOrBraces (input : Str) : Except ParseError Bool := do
  let dollar ← index input ['$'] input.first
  let opening ← index input ['{'] input.first
  let closing ← index input ['}'] input.first
  return dollar + opening + closing ≠ 0

def invalidValue (input : Str) : ParseError :=
  .invalidExpression ("EvalString got invalid value '" ++ String.ofList input.chars ++ "'")

/-- Appends the text between two positions unless it is empty. -/
def appendText (input : Str) (low high : Nat) (result : List Fragment) : Except ParseError (List Fragment) := do
  let stringFragment ← slice input low high
  let invalid ← hasDollarOrBraces stringFragment
  if invalid then .error (invalidValue input)
  else if stringFragment.chars.length > 0 then return result ++ [⟨stringFragment.chars, .textType⟩]
  else return result

/-- An empty reference is appended as well. -/
def appendReference (input : Str) (low high : Nat) (result : List Fragment) : Except ParseError (List Fragment) := do
  let stringFragment ← slice input low high
  let invalid ← hasDollarOrBraces stringFragment
  if invalid then .error (invalidValue input)
  else return result ++ [⟨stringFragment.chars, .referenceType⟩]

/-- Each round passes a reference, so that there are fewer of them than characters. -/
def parseLoop (input : Str) : Nat → Nat → Nat → List Fragment → Except ParseError (Nat × List Fragment)
  | 0, leftIndex, _, result => .ok (leftIndex, result)
  | fuel + 1, leftIndex, rightIndex, result =>
    if rightIndex = 0 then .ok (leftIndex, result)
    else do
      let result ← appendText input leftIndex (rightIndex - 1) result
      let leftIndex := rightIndex + 2
      let rightIndex ← index input ['}'] leftIndex
      if rightIndex = 0 then .error (invalidValue input)
      else do
        let result ← appendReference input leftIndex (rightIndex - 1) result
        let leftIndex := rightIndex + 1
        let rightIndex ← index input ['$', '{'] leftIndex
        parseLoop input fuel leftIndex rightIndex result

def parseDollarBracedReferences (input : Str) : Except ParseError (List Fragment) := do
  let rightIndex ← index input ['$', '{'] input.first
  let (leftIndex, result) ← parseLoop input (input.chars.length + 1) input.first rightIndex []
  appendText input leftIndex input.last result

/-! ### Sequences of text and references -/

def Special (c : Char) : Prop := c = '$' ∨ c = '{' ∨ c = '}'

instance : DecidablePred Special := fun c => inferInstanceAs (Decidable (c = '$' ∨ c = '{' ∨ c = '}'))

def Plain (l : List Char) : Prop := ∀ c ∈ l, ¬Special c

instance : DecidablePred Plain := fun l => inferInstanceAs (Decidable (∀ c ∈ l, ¬Special c))

def Fragment.render (f : Fragment) : List Char :=
  match f.valueType with
  | .textType => f.value
  | .referenceType => '$' :: '{' :: f.value ++ ['}']

def render (fragments : List Fragment) : List Char := fragments.flatMap Fragment.render

/-- The characters are those of text and references without dollar signs and braces inside. -/
def IsSequence (fragments : List Fragment) (l : List Char) : Prop :=
  (∀ f ∈ fragments, Plain f.value) ∧ render fragments = l

/-- No text is empty or next to another one. -/
def Merged (fragments : List Fragment) : Prop :=
  (∀ f ∈ fragments, f.valueType = .textType → f.value ≠ []) ∧
    fragments.IsChain (fun f f' => ¬(f.valueType = .textType ∧ f'.valueType = .textType))

/-- Sequences by their first character or reference. -/
inductive Grammatical : List Char → Prop
  | nil : Grammatical []
  | char {c : Char} {rest : List Char} (hc : ¬Special c) (hrest : Grammatical rest) : Grammatical (c :: rest)
  | reference {name rest : List Char} (hname : Plain name) (hrest : Grammatical rest) :
      Grammatical ('$' :: '{' :: (name ++ '}' :: rest))

lemma Grammatical.append {text rest : List Char} (htext : Plain text) (h : Grammatical rest) :
    Grammatical (text ++ rest) := by
  induction text with
  | nil => exact h
  | cons c text ih =>
    exact Grammatical.char (htext c List.mem_cons_self) (ih fun d hd => htext d (List.mem_cons_of_mem c hd))

lemma IsSequence.grammatical {fragments : List Fragment} {l : List Char} (h : IsSequence fragments l) :
    Grammatical l := by
  obtain ⟨hplain, rfl⟩ := h
  induction fragments with
  | nil => exact Grammatical.nil
  | cons f fragments ih =>
    have hrest := ih fun f' hf' => hplain f' (List.mem_cons_of_mem f hf')
    have hvalue := hplain f List.mem_cons_self
    obtain ⟨value, valueType⟩ := f
    cases valueType with
    | textType => exact hrest.append hvalue
    | referenceType =>
      have hrender : render (⟨value, .referenceType⟩ :: fragments) =
          '$' :: '{' :: (value ++ '}' :: render fragments) := by
        simp [render, Fragment.render]
      rw [hrender]
      exact Grammatical.reference hvalue hrest

/-- Without a start of a reference all is text. -/
lemma Grammatical.plain {l : List Char} (h : Grammatical l) (hnone : ∀ p q, l ≠ p ++ (['$', '{'] ++ q)) : Plain l := by
  induction h with
  | nil => exact nofun
  | @char c rest hc hrest ih =>
    have hplain := ih fun p q heq => hnone (c :: p) q (congrArg (c :: ·) heq)
    intro d hd
    rcases List.mem_cons.mp hd with rfl | hd
    · exact hc
    · exact hplain d hd
  | reference hname hrest => exact absurd rfl (hnone [] _)

/-- What is before the first start of a reference is text, and a name and a closing brace come after it. -/
lemma Grammatical.first_reference {before after l : List Char} (h : Grammatical l)
    (hfirst : FirstOccurrence ['$', '{'] before after l) :
    Plain before ∧ ∃ name rest, after = name ++ '}' :: rest ∧ Plain name ∧ Grammatical rest := by
  induction h generalizing before with
  | nil =>
    have hnil := List.append_eq_nil_iff.mp hfirst.1.symm
    exact absurd hnil.2 (List.cons_ne_nil _ _)
  | @char c rest hc hrest ih =>
    obtain ⟨heq, hmin⟩ := hfirst
    cases before with
    | nil => exact absurd (Or.inl (List.cons.inj heq).1) hc
    | cons d before =>
      obtain ⟨rfl, htail⟩ := List.cons.inj heq
      obtain ⟨hplain, hafter⟩ := ih ⟨htail, fun p q hpq =>
        Nat.le_of_succ_le_succ (hmin (c :: p) q (congrArg (c :: ·) hpq))⟩
      refine ⟨?_, hafter⟩
      intro d hd
      rcases List.mem_cons.mp hd with rfl | hd
      · exact hc
      · exact hplain d hd
  | @reference name rest hname hrest =>
    obtain ⟨heq, hmin⟩ := hfirst
    obtain rfl := List.eq_nil_of_length_eq_zero (Nat.le_zero.mp (hmin [] _ rfl))
    exact ⟨nofun, name, rest, (List.cons.inj (List.cons.inj heq).2).2.symm, hname, hrest⟩

/-- A plain name ends at the first closing brace. -/
lemma name_unique {name name' rest rest' : List Char} (h : name ++ '}' :: rest = name' ++ '}' :: rest')
    (hname : '}' ∉ name) (hname' : '}' ∉ name') : name = name' ∧ rest = rest' := by
  induction name generalizing name' with
  | nil =>
    cases name' with
    | nil => exact ⟨rfl, (List.cons.inj h).2⟩
    | cons c name' => exact absurd (List.mem_cons.mpr (Or.inl (List.cons.inj h).1)) hname'
  | cons c name ih =>
    cases name' with
    | nil => exact absurd (List.mem_cons.mpr (Or.inl (List.cons.inj h).1.symm)) hname
    | cons d name' =>
      obtain ⟨rfl, htail⟩ := List.cons.inj h
      obtain ⟨rfl, rfl⟩ := ih htail (fun hmem => hname (List.mem_cons_of_mem c hmem))
        (fun hmem => hname' (List.mem_cons_of_mem c hmem))
      exact ⟨rfl, rfl⟩

/-! ### The parser -/

lemma index_eq {input : Str} {position : Nat} {rest : List Char} (h : input.At position rest) (pattern : List Char) :
    index input pattern position = .ok (searchFrom pattern position rest) := by
  unfold index
  rw [h.index_eq]

lemma slice_eq {input : Str} {position : Nat} {l rest : List Char} (h : input.At position (l ++ rest)) :
    slice input position (position + l.length - 1) = .ok ⟨position, l, h.pos⟩ := by
  unfold slice
  rw [h.slice_eq]

lemma plain_iff {l : List Char} : Plain l ↔ '$' ∉ l ∧ '{' ∉ l ∧ '}' ∉ l := by
  constructor
  · intro h
    exact ⟨fun hc => h _ hc (Or.inl rfl), fun hc => h _ hc (Or.inr (Or.inl rfl)),
      fun hc => h _ hc (Or.inr (Or.inr rfl))⟩
  · rintro ⟨hdollar, hopening, hclosing⟩ c hc (rfl | rfl | rfl)
    · exact hdollar hc
    · exact hopening hc
    · exact hclosing hc

lemma hasDollarOrBraces_eq (input : Str) : hasDollarOrBraces input = .ok (decide ¬Plain input.chars) := by
  have hat := input.at_first
  have hdollar := searchFrom_singleton (c := '$') input.first_pos input.chars
  have hopening := searchFrom_singleton (c := '{') input.first_pos input.chars
  have hclosing := searchFrom_singleton (c := '}') input.first_pos input.chars
  unfold hasDollarOrBraces
  rw [index_eq hat, index_eq hat, index_eq hat]
  simp only [ok_bind]
  apply congrArg Except.ok
  rw [decide_eq_decide, plain_iff, ← hdollar, ← hopening, ← hclosing]
  omega

/-- The text that is appended. -/
def textFragments (l : List Char) : List Fragment := if l = [] then [] else [⟨l, .textType⟩]

lemma appendText_eq {input : Str} {position : Nat} {l rest : List Char} (h : input.At position (l ++ rest))
    (result : List Fragment) : appendText input position (position + l.length - 1) result =
      if Plain l then .ok (result ++ textFragments l) else .error (invalidValue input) := by
  unfold appendText textFragments
  rw [slice_eq h, ok_bind, hasDollarOrBraces_eq, ok_bind]
  by_cases hplain : Plain l
  · have hvalid : ¬decide (¬Plain l) = true := by simpa using hplain
    rw [if_neg hvalid, if_pos hplain]
    by_cases hempty : l = []
    · rw [if_pos hempty, if_neg (by simp [hempty]), List.append_nil]
      rfl
    · rw [if_neg hempty, if_pos (List.length_pos_iff.mpr hempty)]
      rfl
  · rw [if_pos (decide_eq_true hplain), if_neg hplain]

lemma appendReference_eq {input : Str} {position : Nat} {l rest : List Char} (h : input.At position (l ++ rest))
    (result : List Fragment) : appendReference input position (position + l.length - 1) result =
      if Plain l then .ok (result ++ [⟨l, .referenceType⟩]) else .error (invalidValue input) := by
  unfold appendReference
  rw [slice_eq h, ok_bind, hasDollarOrBraces_eq, ok_bind]
  by_cases hplain : Plain l
  · have hvalid : ¬decide (¬Plain l) = true := by simpa using hplain
    rw [if_neg hvalid, if_pos hplain]
    rfl
  · rw [if_pos (decide_eq_true hplain), if_neg hplain]

lemma textFragments_sequence {l : List Char} (h : Plain l) :
    IsSequence (textFragments l) l ∧ Merged (textFragments l) := by
  unfold textFragments
  by_cases hempty : l = []
  · rw [if_pos hempty]
    exact ⟨⟨nofun, hempty.symm⟩, nofun, List.IsChain.nil⟩
  · rw [if_neg hempty]
    refine ⟨⟨?_, List.append_nil l⟩, ?_, List.IsChain.singleton _⟩
    · intro f hf
      rw [List.mem_singleton.mp hf]
      exact h
    · intro f hf _
      rw [List.mem_singleton.mp hf]
      exact hempty

/-- Text, a reference and a sequence after it are a sequence. -/
lemma sequence_append {before name rest : List Char} {fragments : List Fragment} (hbefore : Plain before)
    (hname : Plain name) (hsequence : IsSequence fragments rest) (hmerged : Merged fragments) :
    IsSequence (textFragments before ++ ⟨name, .referenceType⟩ :: fragments)
        (before ++ '$' :: '{' :: (name ++ '}' :: rest)) ∧
      Merged (textFragments before ++ ⟨name, .referenceType⟩ :: fragments) := by
  obtain ⟨⟨hplain, hrender⟩, htext, -⟩ := textFragments_sequence hbefore
  refine ⟨⟨?_, ?_⟩, ?_, ?_⟩
  · intro f hf
    rcases List.mem_append.mp hf with hf | hf
    · exact hplain f hf
    · rcases List.mem_cons.mp hf with rfl | hf
      · exact hname
      · exact hsequence.1 f hf
  · have hreference : render (⟨name, .referenceType⟩ :: fragments) = '$' :: '{' :: (name ++ '}' :: rest) := by
      rw [← hsequence.2]
      simp [render, Fragment.render]
    unfold render at hrender hreference ⊢
    rw [List.flatMap_append, hrender, hreference]
  · intro f hf htype
    rcases List.mem_append.mp hf with hf | hf
    · exact htext f hf htype
    · rcases List.mem_cons.mp hf with rfl | hf
      · cases htype
      · exact hmerged.1 f hf htype
  · have hreference : List.IsChain (fun f f' : Fragment => ¬(f.valueType = .textType ∧ f'.valueType = .textType))
        (⟨name, .referenceType⟩ :: fragments) :=
      hmerged.2.cons fun _ _ h => nomatch h.1
    unfold textFragments
    by_cases hempty : before = []
    · rw [if_pos hempty]
      exact hreference
    · rw [if_neg hempty]
      exact hreference.cons_cons fun h => nomatch h.2

/-- The loop and the text after the last reference, from a position that no reference surrounds. -/
lemma parseLoop_spec {input : Str} {fuel position : Nat} {rest : List Char} (hat : input.At position rest)
    (hfuel : rest.length < fuel) (result : List Fragment) :
    (∃ fragments, (IsSequence fragments rest ∧ Merged fragments) ∧
      (parseLoop input fuel position (searchFrom ['$', '{'] position rest) result >>= fun parsed =>
        appendText input parsed.1 input.last parsed.2) = .ok (result ++ fragments)) ∨
    ¬Grammatical rest ∧
      (parseLoop input fuel position (searchFrom ['$', '{'] position rest) result >>= fun parsed =>
        appendText input parsed.1 input.last parsed.2) = .error (invalidValue input) := by
  induction fuel generalizing position rest result with
  | zero => exact absurd hfuel (Nat.not_lt_zero _)
  | succ fuel ih =>
    unfold parseLoop
    rcases searchFrom_cases (List.cons_ne_nil '$' ['{']) hat.pos rest with
      ⟨hzero, hnone⟩ | ⟨before, after, hfirst, hsearch⟩
    · have hend : input.At position (rest ++ []) := by rwa [List.append_nil]
      rw [if_pos hzero, ok_bind, hat.last_eq, appendText_eq hend]
      by_cases hplain : Plain rest
      · rw [if_pos hplain]
        exact Or.inl ⟨textFragments rest, textFragments_sequence hplain, rfl⟩
      · rw [if_neg hplain]
        exact Or.inr ⟨fun h => hplain (h.plain hnone), rfl⟩
    · have hpos := hat.pos
      have hrest := hfirst.1
      have hstart : input.At position (before ++ ['$', '{'] ++ after) := by
        rw [List.append_assoc, ← hrest]
        exact hat
      have hafter : input.At (position + before.length + 2) after := by
        have happend := hstart.append
        rwa [List.length_append, ← Nat.add_assoc] at happend
      rw [hrest] at hat
      rw [hsearch, if_neg (by omega), appendText_eq hat]
      by_cases hbefore : Plain before
      swap
      · rw [if_neg hbefore]
        exact Or.inr ⟨fun h => hbefore (h.first_reference hfirst).1, rfl⟩
      rw [if_pos hbefore, ok_bind]
      dsimp only
      rw [index_eq hafter, ok_bind]
      rcases searchFrom_cases (List.cons_ne_nil '}' []) hafter.pos after with
        ⟨hzero, hnone⟩ | ⟨name, rest', hname, hclosing⟩
      · rw [if_pos hzero]
        refine Or.inr ⟨?_, rfl⟩
        intro h
        obtain ⟨-, name, rest', heq, -⟩ := h.first_reference hfirst
        exact hnone name rest' heq
      · have hafterEq : after = name ++ '}' :: rest' := hname.1
        have hnameEnd : '}' ∉ name := by
          intro hmem
          obtain ⟨p, q, heq⟩ := List.append_of_mem hmem
          have hle := hname.2 p (q ++ '}' :: rest') (by rw [hafterEq, heq]; simp)
          rw [heq, List.length_append, List.length_cons] at hle
          omega
        have hgrammatical : Grammatical rest → Plain name ∧ Grammatical rest' := by
          intro h
          obtain ⟨-, name', rest'', heq, hplain, hrest''⟩ := h.first_reference hfirst
          obtain ⟨rfl, rfl⟩ := name_unique (hafterEq.symm.trans heq) hnameEnd (plain_iff.mp hplain).2.2
          exact ⟨hplain, hrest''⟩
        have hnext : input.At (position + before.length + 2 + name.length + 1) rest' := by
          have happend : input.At (position + before.length + 2) (name ++ ['}'] ++ rest') := by
            rw [List.append_assoc]
            exact hafterEq ▸ hafter
          have happend := happend.append
          rwa [List.length_append, ← Nat.add_assoc] at happend
        rw [hafterEq] at hafter
        rw [hclosing, if_neg (by omega), appendReference_eq hafter]
        by_cases hplain : Plain name
        swap
        · rw [if_neg hplain]
          exact Or.inr ⟨fun h => hplain (hgrammatical h).1, rfl⟩
        rw [if_pos hplain, ok_bind]
        rw [index_eq hnext, ok_bind]
        have hlength : rest'.length < fuel := by
          rw [hrest, hafterEq] at hfuel
          simp only [List.length_append, List.length_cons] at hfuel
          omega
        rcases ih hnext hlength (result ++ textFragments before ++ [⟨name, .referenceType⟩]) with
          ⟨fragments, ⟨hsequence, hmerged⟩, hrun⟩ | ⟨hnot, hrun⟩
        · refine Or.inl ⟨textFragments before ++ ⟨name, .referenceType⟩ :: fragments, ?_, ?_⟩
          · rw [hrest, hafterEq]
            exact sequence_append hbefore hplain hsequence hmerged
          · rw [hrun]
            simp
        · exact Or.inr ⟨fun h => hnot (hgrammatical h).2, hrun⟩

lemma parseDollarBracedReferences_spec (input : Str) :
    (∃ fragments, (IsSequence fragments input.chars ∧ Merged fragments) ∧
      parseDollarBracedReferences input = .ok fragments) ∨
    ¬Grammatical input.chars ∧ parseDollarBracedReferences input = .error (invalidValue input) := by
  unfold parseDollarBracedReferences
  rw [index_eq input.at_first, ok_bind]
  exact parseLoop_spec input.at_first (Nat.lt_succ_self _) []

/-- Exactly the sequences of text and references are parsed, into fragments that render to the string. -/
theorem parseDollarBracedReferences_exact (input : Str) :
    (∀ fragments, parseDollarBracedReferences input = .ok fragments →
      render fragments = input.chars ∧ (∀ f ∈ fragments, Plain f.value) ∧ Merged fragments) ∧
    ((∃ fragments, parseDollarBracedReferences input = .ok fragments) ↔
      ∃ pieces, IsSequence pieces input.chars) ∧
    ((¬∃ pieces, IsSequence pieces input.chars) →
      parseDollarBracedReferences input = .error (.invalidExpression
        ("EvalString got invalid value '" ++ String.ofList input.chars ++ "'"))) := by
  rcases parseDollarBracedReferences_spec input with ⟨fragments, ⟨hsequence, hmerged⟩, hrun⟩ | ⟨hnot, hrun⟩
  · refine ⟨?_, iff_of_true ⟨fragments, hrun⟩ ⟨fragments, hsequence⟩, fun h => absurd ⟨fragments, hsequence⟩ h⟩
    intro fragments' hrun'
    obtain rfl := Except.ok.inj (hrun'.symm.trans hrun)
    exact ⟨hsequence.2, hsequence.1, hmerged⟩
  · rw [hrun]
    refine ⟨nofun, iff_of_false nofun ?_, fun _ => rfl⟩
    rintro ⟨pieces, hpieces⟩
    exact hnot hpieces.grammatical

example : parseDollarBracedReferences ⟨1, ['a', '$', '{', 'b', '}'], by decide⟩ =
    .ok [⟨['a'], .textType⟩, ⟨['b'], .referenceType⟩] := rfl

end Muen.Tools.Expressions
