import Muen.Tools.GrammarTools.OrderInformation

/-!
# Types of a schema

The elements of a type are what its evaluation finds when no type has been read before. A deeper evaluation finds the
same, and so does one that uses types which have been read.
-/

namespace Muen.Tools.GrammarTools
open Muen.Lib
open Muen.Tools.Xml

/-- An evaluation that comes to the results of another one, and maybe to more. -/
def Refines {α β : Type} (f f' : α → Except GrammarError β) : Prop := ∀ a b, f a = .ok b → f' a = .ok b

namespace Schema

variable {schema : Schema}

lemma evalChildren_mono {f f' : Nat → Except GrammarError VectorTuple} (h : Refines f f') {names : List String} :
    Refines (schema.evalChildren f names) (schema.evalChildren f' names) := by
  intro children
  induction children with
  | nil => exact fun tuple htuple => htuple
  | cons child children ih =>
    intro tuple htuple
    unfold evalChildren at htuple ⊢
    by_cases hmem : schema.name child ∈ names
    · rw [if_pos hmem] at htuple ⊢
      obtain ⟨first, hfirst, htuple⟩ := bind_eq_ok htuple
      obtain ⟨output, houtput, htuple⟩ := bind_eq_ok htuple
      rw [h child first hfirst, ok_bind, ih output houtput]
      exact htuple
    · rw [if_neg hmem] at htuple ⊢
      exact ih tuple htuple

lemma evalContainerWrapper_succ {fuel : Nat} (backtrace : List Nat) :
    Refines (schema.evalContainerWrapper fuel backtrace) (schema.evalContainerWrapper (fuel + 1) backtrace) := by
  induction fuel generalizing backtrace with
  | zero =>
    intro node tuple h
    cases h
  | succ fuel ih =>
    intro node tuple h
    unfold evalContainerWrapper at h ⊢
    by_cases helement : schema.name node = "element"
    · rw [if_pos helement] at h ⊢
      exact h
    rw [if_neg helement] at h ⊢
    by_cases hsequence : schema.name node ∈ ["sequence", "choice", "all"]
    · rw [if_pos hsequence] at h ⊢
      unfold evalSequenceChoiceAll at h ⊢
      obtain ⟨pushed, hpush, h⟩ := bind_eq_ok h
      rw [hpush, ok_bind]
      exact evalChildren_mono (ih pushed) _ tuple h
    rw [if_neg hsequence] at h ⊢
    by_cases hgroup : schema.name node = "group"
    · rw [if_pos hgroup] at h ⊢
      unfold evalGroup at h ⊢
      obtain ⟨pushed, hpush, h⟩ := bind_eq_ok h
      rw [hpush, ok_bind]
      by_cases href : (schema.label node).hasAttribute "ref" = true
      · rw [if_pos href] at h ⊢
        obtain ⟨defNode, hdef, h⟩ := bind_eq_ok h
        rw [hdef, ok_bind]
        exact ih pushed defNode tuple h
      rw [if_neg href] at h ⊢
      by_cases hname : (schema.label node).hasAttribute "name" = true
      · rw [if_pos hname] at h ⊢
        exact evalChildren_mono (ih pushed) _ tuple h
      · rw [if_neg hname] at h
        cases h
    · rw [if_neg hgroup] at h
      cases h

lemma evalContainerWrapper_mono {fuel fuel' : Nat} (hle : fuel ≤ fuel') (backtrace : List Nat) :
    Refines (schema.evalContainerWrapper fuel backtrace) (schema.evalContainerWrapper fuel' backtrace) := by
  induction hle with
  | refl => exact fun _ _ h => h
  | step _ ih => exact fun node tuple h => evalContainerWrapper_succ backtrace node tuple (ih node tuple h)

lemma evalRestriction_mono {w w' : Nat → Except GrammarError VectorTuple} (h : Refines w w') :
    Refines (schema.evalRestriction w) (schema.evalRestriction w') := by
  intro node tuple htuple
  unfold evalRestriction at htuple ⊢
  split at htuple
  · exact h _ tuple htuple
  · exact htuple

/-- The base type of an extension is evaluated like that of another one. -/
lemma evalExtension_mono {t t' : String → Except GrammarError VectorTuple}
    {w w' : Nat → Except GrammarError VectorTuple} {node : Nat}
    (ht : ∀ tuple, t ((schema.label node).attr "base") = .ok tuple → t' ((schema.label node).attr "base") = .ok tuple)
    (hw : Refines w w') {tuple : VectorTuple} (h : schema.evalExtension t w node = .ok tuple) :
    schema.evalExtension t' w' node = .ok tuple := by
  unfold evalExtension at h ⊢
  by_cases hbase : ¬(schema.label node).hasAttribute "base" = true
  · rw [if_pos hbase] at h
    cases h
  · rw [if_neg hbase] at h ⊢
    obtain ⟨base, hbase, h⟩ := bind_eq_ok h
    obtain ⟨output, houtput, h⟩ := bind_eq_ok h
    rw [ht base hbase, ok_bind, evalChildren_mono hw _ output houtput]
    exact h

/-- The types that are the base of an extension. -/
def IsBase (schema : Schema) (typeName : String) : Prop :=
  ∃ node ∈ schema.nodes, (schema.label node).attr "base" = typeName

lemma mem_nodes_of_find {p : Nat → Bool} {node child : Nat} (hnode : node ∈ schema.nodes)
    (h : (schema.getElementChildren node).find? p = some child) : child ∈ schema.nodes :=
  schema.children_mem node hnode child (List.mem_of_mem_filter (List.mem_of_find?_eq_some h))

lemma mem_nodes_of_toplevel {nameAttr : String} {defNames : List String} {node : Nat}
    (h : schema.getToplevelDefinition nameAttr defNames = .ok node) : node ∈ schema.nodes := by
  unfold getToplevelDefinition at h
  split at h
  · rename_i child hfind
    rw [← Except.ok.inj h]
    exact mem_nodes_of_find schema.schemaNode_mem hfind
  · cases h

/-- The evaluation of a complex type uses that of one other type at most. -/
lemma evalComplexType_base {t : String → Except GrammarError VectorTuple}
    {w : Nat → Except GrammarError VectorTuple} {node : Nat} (hnode : node ∈ schema.nodes) {tuple : VectorTuple}
    (h : schema.evalComplexType t w node = .ok tuple) :
    ∃ base : Option String, (∀ b ∈ base, schema.IsBase b ∧ ∃ v, t b = .ok v) ∧
      ∀ (t' : String → Except GrammarError VectorTuple) (w' : Nat → Except GrammarError VectorTuple),
        (∀ b ∈ base, ∀ v, t b = .ok v → t' b = .ok v) → Refines w w' →
        schema.evalComplexType t' w' node = .ok tuple := by
  unfold evalComplexType at h ⊢
  split at h
  · rename_i child hfind
    have hchild := mem_nodes_of_find hnode hfind
    by_cases hsimple : schema.name child = "simpleContent"
    · rw [if_pos hsimple] at h
      exact ⟨none, nofun, fun t' w' _ _ => by rw [if_pos hsimple]; exact h⟩
    simp only [if_neg hsimple] at h ⊢
    by_cases hcomplex : schema.name child = "complexContent"
    · simp only [if_pos hcomplex] at h ⊢
      unfold evalComplexContent at h ⊢
      split at h
      · rename_i content hcontent
        have hmem := mem_nodes_of_find hchild hcontent
        by_cases hrestriction : schema.name content = "restriction"
        · simp only [if_pos hrestriction] at h ⊢
          exact ⟨none, nofun, fun t' w' _ hw => evalRestriction_mono hw content tuple h⟩
        · simp only [if_neg hrestriction] at h ⊢
          refine ⟨some ((schema.label content).attr "base"), ?_, ?_⟩
          · intro b hb
            obtain rfl := Option.mem_some.mp hb
            refine ⟨⟨content, hmem, rfl⟩, ?_⟩
            unfold evalExtension at h
            split at h
            · cases h
            · obtain ⟨v, hv, -⟩ := bind_eq_ok h
              exact ⟨v, hv⟩
          · exact fun t' w' ht hw => evalExtension_mono (ht _ rfl) hw h
      · exact ⟨none, nofun, fun t' w' _ _ => h⟩
    · simp only [if_neg hcomplex] at h ⊢
      exact ⟨none, nofun, fun t' w' _ hw => hw child tuple h⟩
  · exact ⟨none, nofun, fun t' w' _ _ => h⟩

lemma evalTypeByName_succ {table : List (String × VectorTuple)} {fuel : Nat} :
    Refines (schema.evalTypeByName table fuel) (schema.evalTypeByName table (fuel + 1)) := by
  induction fuel with
  | zero =>
    intro typeName tuple h
    cases h
  | succ fuel ih =>
    intro typeName tuple h
    unfold evalTypeByName at h ⊢
    by_cases hany : typeName = "any" ∨ typeName = "anyType"
    · rw [if_pos hany] at h
      cases h
    rw [if_neg hany] at h ⊢
    split at h
    · exact h
    by_cases hsimple : typeName ∈ simpleXmlTypes
    · rw [if_pos hsimple] at h ⊢
      exact h
    rw [if_neg hsimple] at h ⊢
    obtain ⟨node, hnode, h⟩ := bind_eq_ok h
    rw [hnode, ok_bind]
    by_cases hsimpleType : schema.name node = "simpleType"
    · rw [if_pos hsimpleType] at h ⊢
      exact h
    rw [if_neg hsimpleType] at h ⊢
    by_cases hcomplexType : schema.name node = "complexType"
    · rw [if_pos hcomplexType] at h ⊢
      obtain ⟨base, -, hagain⟩ := evalComplexType_base (mem_nodes_of_toplevel hnode) h
      exact hagain _ _ (fun b _ => ih b) (evalContainerWrapper_succ [])
    · rw [if_neg hcomplexType] at h
      cases h

lemma evalTypeByName_mono {table : List (String × VectorTuple)} {fuel fuel' : Nat} (hle : fuel ≤ fuel') :
    Refines (schema.evalTypeByName table fuel) (schema.evalTypeByName table fuel') := by
  induction hle with
  | refl => exact fun _ _ h => h
  | step _ ih => exact fun typeName tuple h => evalTypeByName_succ typeName tuple (ih typeName tuple h)

/-- The elements that the schema declares for a type. -/
def Declares (schema : Schema) (typeName : String) (tuple : VectorTuple) : Prop :=
  ∃ fuel, schema.evalTypeByName [] fuel typeName = .ok tuple

lemma Declares.unique {typeName : String} {tuple tuple' : VectorTuple} (h : schema.Declares typeName tuple)
    (h' : schema.Declares typeName tuple') : tuple = tuple' := by
  obtain ⟨fuel, h⟩ := h
  obtain ⟨fuel', h'⟩ := h'
  have hmax := evalTypeByName_mono (Nat.le_max_left fuel fuel') typeName tuple h
  have hmax' := evalTypeByName_mono (Nat.le_max_right fuel fuel') typeName tuple' h'
  exact Except.ok.inj (hmax.symm.trans hmax')

/-- The schema uses the name of the type of the document for no type of its own. -/
def NotReserved (schema : Schema) : Prop :=
  ∀ node ∈ schema.nodes, removeNamespace ((schema.label node).attr "type") ≠ schemaRoot ∧
    (schema.label node).attr "base" ≠ schemaRoot

/-- The types that have been read are as they are declared. -/
def Correct (schema : Schema) (table : List (String × VectorTuple)) : Prop :=
  ∀ typeName tuple, typeName ≠ schemaRoot → table.lookup typeName = some tuple → schema.Declares typeName tuple

lemma evalTypeByName_declares {table : List (String × VectorTuple)} (htable : schema.Correct table)
    (hreserved : schema.NotReserved) {fuel : Nat} {typeName : String} (hname : typeName ≠ schemaRoot)
    {tuple : VectorTuple} (h : schema.evalTypeByName table fuel typeName = .ok tuple) :
    schema.Declares typeName tuple := by
  induction fuel generalizing typeName tuple with
  | zero => cases h
  | succ fuel ih =>
    unfold evalTypeByName at h
    by_cases hany : typeName = "any" ∨ typeName = "anyType"
    · rw [if_pos hany] at h
      cases h
    rw [if_neg hany] at h
    split at h
    · rename_i found hfound
      rw [← Except.ok.inj h]
      exact htable typeName found hname hfound
    by_cases hsimple : typeName ∈ simpleXmlTypes
    · refine ⟨1, ?_⟩
      unfold evalTypeByName
      rw [if_neg hany, List.lookup_nil, if_pos hsimple]
      rwa [if_pos hsimple] at h
    rw [if_neg hsimple] at h
    obtain ⟨node, hnode, h⟩ := bind_eq_ok h
    by_cases hsimpleType : schema.name node = "simpleType"
    · refine ⟨1, ?_⟩
      unfold evalTypeByName
      rw [if_neg hany, List.lookup_nil, if_neg hsimple, hnode, ok_bind, if_pos hsimpleType]
      rwa [if_pos hsimpleType] at h
    rw [if_neg hsimpleType] at h
    by_cases hcomplexType : schema.name node = "complexType"
    · rw [if_pos hcomplexType] at h
      obtain ⟨base, hbase, hagain⟩ := evalComplexType_base (mem_nodes_of_toplevel hnode) h
      -- The depth at which the base type is evaluated, if there is one.
      have hdepth : ∃ depth, ∀ b ∈ base, ∀ v, schema.evalTypeByName table fuel b = .ok v →
          schema.evalTypeByName [] depth b = .ok v := by
        cases base with
        | none => exact ⟨0, nofun⟩
        | some b =>
          obtain ⟨⟨content, hcontent, rfl⟩, v, hv⟩ := hbase b rfl
          obtain ⟨depth, hdepth⟩ := ih (hreserved content hcontent).2 hv
          refine ⟨depth, ?_⟩
          intro b' hb' v' hv'
          obtain rfl := Option.mem_some.mp hb'
          rw [hv] at hv'
          rw [← Except.ok.inj hv']
          exact hdepth
      obtain ⟨depth, hdepth⟩ := hdepth
      refine ⟨max depth fuel + 1, ?_⟩
      unfold evalTypeByName
      rw [if_neg hany, List.lookup_nil, if_neg hsimple, hnode, ok_bind, if_neg hsimpleType, if_pos hcomplexType]
      apply hagain
      · exact fun b hb v hv => evalTypeByName_mono (Nat.le_max_left depth fuel) b v (hdepth b hb v hv)
      · exact evalContainerWrapper_mono (Nat.le_max_right depth fuel) []
    · rw [if_neg hcomplexType] at h
      cases h

/-! ### Types of elements -/

/-- The type is that of an element of the schema. -/
def UsesType (schema : Schema) (typeName : String) : Prop :=
  ∃ node ∈ schema.nodes, removeNamespace ((schema.label node).attr "type") = typeName

lemma UsesType.ne_schemaRoot {typeName : String} (h : schema.UsesType typeName) (hreserved : schema.NotReserved) :
    typeName ≠ schemaRoot := by
  obtain ⟨node, hnode, rfl⟩ := h
  exact (hreserved node hnode).1

lemma mem_nodes_of_elementChild {node child : Nat} (hnode : node ∈ schema.nodes)
    (h : child ∈ schema.getElementChildren node) : child ∈ schema.nodes :=
  schema.children_mem node hnode child (List.mem_of_mem_filter h)

/-- An element has one name and type, which are those of its node. -/
lemma evalElement_ok {backtrace : List Nat} {node : Nat} {tuple : VectorTuple}
    (h : schema.evalElement backtrace node = .ok tuple) :
    tuple = [((schema.label node).attr "name", removeNamespace ((schema.label node).attr "type"))] := by
  unfold evalElement at h
  obtain ⟨_, _, h⟩ := bind_eq_ok h
  split at h
  · cases h
  · split at h
    · cases h
    · exact (Except.ok.inj h).symm

lemma evalChildren_uses {f : Nat → Except GrammarError VectorTuple}
    (hf : ∀ child ∈ schema.nodes, ∀ tuple, f child = .ok tuple → ∀ p ∈ tuple, schema.UsesType p.2)
    {names : List String} {children : List Nat} (hchildren : ∀ child ∈ children, child ∈ schema.nodes)
    {tuple : VectorTuple} (h : schema.evalChildren f names children = .ok tuple) :
    ∀ p ∈ tuple, schema.UsesType p.2 := by
  induction children generalizing tuple with
  | nil =>
    rw [← Except.ok.inj h]
    exact nofun
  | cons child children ih =>
    have hrest := fun child' hmem => hchildren child' (List.mem_cons_of_mem child hmem)
    unfold evalChildren at h
    split at h
    · obtain ⟨first, hfirst, h⟩ := bind_eq_ok h
      obtain ⟨output, houtput, h⟩ := bind_eq_ok h
      rw [← Except.ok.inj h]
      intro p hp
      rcases List.mem_append.mp hp with hp | hp
      · exact hf child (hchildren child List.mem_cons_self) first hfirst p hp
      · exact ih hrest houtput p hp
    · exact ih hrest h

lemma evalContainerWrapper_uses {fuel : Nat} {backtrace : List Nat} {node : Nat} (hnode : node ∈ schema.nodes)
    {tuple : VectorTuple} (h : schema.evalContainerWrapper fuel backtrace node = .ok tuple) :
    ∀ p ∈ tuple, schema.UsesType p.2 := by
  induction fuel generalizing backtrace node tuple with
  | zero => cases h
  | succ fuel ih =>
    have hwrapper : ∀ pushed, ∀ child ∈ schema.nodes, ∀ tuple,
        schema.evalContainerWrapper fuel pushed child = .ok tuple → ∀ p ∈ tuple, schema.UsesType p.2 :=
      fun pushed child hchild tuple htuple => ih hchild htuple
    have hchildren : ∀ child ∈ schema.getElementChildren node, child ∈ schema.nodes :=
      fun child hmem => mem_nodes_of_elementChild hnode hmem
    unfold evalContainerWrapper at h
    split at h
    · rw [evalElement_ok h]
      intro p hp
      rw [List.mem_singleton.mp hp]
      exact ⟨node, hnode, rfl⟩
    split at h
    · obtain ⟨pushed, _, h⟩ := bind_eq_ok h
      exact evalChildren_uses (hwrapper pushed) hchildren h
    split at h
    · obtain ⟨pushed, _, h⟩ := bind_eq_ok h
      split at h
      · obtain ⟨defNode, hdef, h⟩ := bind_eq_ok h
        exact ih (mem_nodes_of_toplevel hdef) h
      split at h
      · exact evalChildren_uses (hwrapper pushed) hchildren h
      · cases h
    · cases h

lemma evalComplexType_uses {t : String → Except GrammarError VectorTuple} {w : Nat → Except GrammarError VectorTuple}
    (ht : ∀ typeName tuple, t typeName = .ok tuple → ∀ p ∈ tuple, schema.UsesType p.2)
    (hw : ∀ child ∈ schema.nodes, ∀ tuple, w child = .ok tuple → ∀ p ∈ tuple, schema.UsesType p.2) {node : Nat}
    (hnode : node ∈ schema.nodes) {tuple : VectorTuple} (h : schema.evalComplexType t w node = .ok tuple) :
    ∀ p ∈ tuple, schema.UsesType p.2 := by
  have hnil : ∀ {tuple : VectorTuple}, (.ok [] : Except GrammarError VectorTuple) = .ok tuple →
      ∀ p ∈ tuple, schema.UsesType p.2 := by
    intro tuple htuple
    rw [← Except.ok.inj htuple]
    exact nofun
  unfold evalComplexType at h
  split at h
  · rename_i child hfind
    have hchild := mem_nodes_of_find hnode hfind
    split at h
    · exact hnil h
    split at h
    · unfold evalComplexContent at h
      split at h
      · rename_i content hcontent
        have hmem := mem_nodes_of_find hchild hcontent
        split at h
        · unfold evalRestriction at h
          split at h
          · rename_i particle hparticle
            exact hw particle (mem_nodes_of_find hmem hparticle) tuple h
          · exact hnil h
        · unfold evalExtension at h
          split at h
          · cases h
          · obtain ⟨base, hbase, h⟩ := bind_eq_ok h
            obtain ⟨output, houtput, h⟩ := bind_eq_ok h
            rw [← Except.ok.inj h]
            intro p hp
            rcases List.mem_append.mp hp with hp | hp
            · exact ht _ base hbase p hp
            · exact evalChildren_uses hw (fun child => mem_nodes_of_elementChild hmem) houtput p hp
      · exact hnil h
    · exact hw child hchild tuple h
  · exact hnil h

/-- The types of declared elements are types of elements of the schema. -/
lemma Declares.uses {typeName : String} {tuple : VectorTuple} (h : schema.Declares typeName tuple) :
    ∀ p ∈ tuple, schema.UsesType p.2 := by
  obtain ⟨fuel, h⟩ := h
  induction fuel generalizing typeName tuple with
  | zero => cases h
  | succ fuel ih =>
    unfold evalTypeByName at h
    split at h
    · cases h
    rw [List.lookup_nil] at h
    dsimp only at h
    split at h
    · rw [← Except.ok.inj h]
      exact nofun
    obtain ⟨node, hnode, h⟩ := bind_eq_ok h
    split at h
    · rw [← Except.ok.inj h]
      exact nofun
    split at h
    · exact evalComplexType_uses (fun typeName tuple htuple => ih htuple)
        (fun child hchild tuple htuple => evalContainerWrapper_uses hchild htuple) (mem_nodes_of_toplevel hnode) h
    · cases h

end Schema

end Muen.Tools.GrammarTools
