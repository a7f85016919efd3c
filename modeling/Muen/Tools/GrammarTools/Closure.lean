import Muen.Tools.GrammarTools.Types

/-!
# Closed order information

The types of the elements of a type that has been read have been read as well, and are noted for the names of the
elements. What has been read does not change, except for the type of the document.
-/

namespace Muen.Tools.GrammarTools
open Muen.Lib
open Muen.Tools.Xml

namespace OrderInformation

def Reads (info : OrderInformation) (typeName : String) (tuple : VectorTuple) : Prop :=
  info.typeToChildren.lookup typeName = some tuple

def Notes (info : OrderInformation) (name typeName : String) : Prop :=
  ∃ types, info.nameToType.lookup name = some types ∧ typeName ∈ types

/-- The type of an element has been read and noted. -/
def Covers (info : OrderInformation) (p : String × String) : Prop :=
  (∃ tuple, info.Reads p.2 tuple) ∧ info.Notes p.1 p.2

/-- More types are read and noted. -/
structure Grows (info info' : OrderInformation) : Prop where
  reads : ∀ typeName tuple, info.Reads typeName tuple → info'.Reads typeName tuple
  notes : ∀ name typeName, info.Notes name typeName → info'.Notes name typeName

/-- Types that have been read since then are closed. -/
def ClosedSince (info info' : OrderInformation) : Prop :=
  ∀ typeName tuple, info'.Reads typeName tuple → (¬∃ tuple, info.Reads typeName tuple) → ∀ p ∈ tuple, info'.Covers p

def Closed (info : OrderInformation) : Prop :=
  ∀ typeName tuple, info.Reads typeName tuple → ∀ p ∈ tuple, info.Covers p

variable {info info' info'' : OrderInformation}

lemma Grows.refl (info : OrderInformation) : Grows info info := ⟨fun _ _ h => h, fun _ _ h => h⟩

lemma Grows.trans (h : Grows info info') (h' : Grows info' info'') : Grows info info'' :=
  ⟨fun t tuple ht => h'.reads t tuple (h.reads t tuple ht), fun n t ht => h'.notes n t (h.notes n t ht)⟩

lemma Grows.covers (h : Grows info info') {p : String × String} (hp : info.Covers p) : info'.Covers p := by
  obtain ⟨⟨tuple, htuple⟩, hnotes⟩ := hp
  exact ⟨⟨tuple, h.reads _ tuple htuple⟩, h.notes _ _ hnotes⟩

lemma ClosedSince.trans (h : ClosedSince info info') (hgrows : Grows info' info'') (h' : ClosedSince info' info'') :
    ClosedSince info info'' := by
  intro typeName tuple hreads hnew p hp
  by_cases hold : ∃ tuple, info'.Reads typeName tuple
  · obtain ⟨tuple', htuple'⟩ := hold
    have heq := Option.some.inj ((hgrows.reads typeName tuple' htuple').symm.trans hreads)
    rw [← heq] at hp
    exact hgrows.covers (h typeName tuple' htuple' hnew p hp)
  · exact h' typeName tuple hreads hold p hp

end OrderInformation

open OrderInformation

namespace Schema

variable {schema : Schema}

lemma addType_reads (info : OrderInformation) (name typeName : String) :
    (addType info name typeName).typeToChildren = info.typeToChildren := by
  unfold addType
  split
  · rfl
  · split <;> rfl

lemma addType_spec (info : OrderInformation) (name typeName : String) :
    Grows info (addType info name typeName) ∧ (addType info name typeName).Notes name typeName := by
  have hreads : ∀ t tuple, info.Reads t tuple → (addType info name typeName).Reads t tuple := by
    intro t tuple h
    unfold Reads
    rw [addType_reads]
    exact h
  unfold addType at hreads ⊢
  split at hreads
  · rename_i hnone
    refine ⟨⟨hreads, ?_⟩, [typeName], OrderedMap.lookup_insert_self _ _ _, List.mem_singleton_self typeName⟩
    rintro n t ⟨types, htypes, ht⟩
    have hne : n ≠ name := by
      rintro rfl
      rw [hnone] at htypes
      cases htypes
    exact ⟨types, (OrderedMap.lookup_insert_of_ne hne _ _).trans htypes, ht⟩
  · rename_i found hfound
    split at hreads
    · rename_i hmem
      rw [if_pos hmem]
      exact ⟨Grows.refl info, found, hfound, hmem⟩
    · rename_i hmem
      rw [if_neg hmem]
      refine ⟨⟨hreads, ?_⟩, _, OrderedMap.lookup_insert_self _ _ _, by simp⟩
      rintro n t ⟨types, htypes, ht⟩
      by_cases heq : n = name
      · subst heq
        rw [hfound] at htypes
        rw [← Option.some.inj htypes] at ht
        exact ⟨_, OrderedMap.lookup_insert_self _ _ _, List.mem_append_left _ ht⟩
      · exact ⟨types, (OrderedMap.lookup_insert_of_ne heq _ _).trans htypes, ht⟩

/-- What the evaluation of a type does to the information. -/
structure Evaluated (schema : Schema) (info info' : OrderInformation) : Prop where
  grows : Grows info info'
  closed : ClosedSince info info'
  correct : schema.NotReserved → schema.Correct info.typeToChildren → schema.Correct info'.typeToChildren

lemma Evaluated.refl (info : OrderInformation) : schema.Evaluated info info :=
  ⟨Grows.refl info, fun _ tuple h hnew => absurd ⟨tuple, h⟩ hnew, fun _ h => h⟩

lemma Evaluated.trans {info info' info'' : OrderInformation} (h : schema.Evaluated info info')
    (h' : schema.Evaluated info' info'') : schema.Evaluated info info'' :=
  ⟨h.grows.trans h'.grows, h.closed.trans h'.grows h'.closed,
    fun hreserved hcorrect => h'.correct hreserved (h.correct hreserved hcorrect)⟩

lemma evaluated_addType (info : OrderInformation) (name typeName : String) :
    schema.Evaluated info (addType info name typeName) := by
  refine ⟨(addType_spec info name typeName).1, ?_, ?_⟩
  · intro t tuple h hnew
    unfold Reads at h
    rw [addType_reads] at h
    exact absurd ⟨tuple, h⟩ hnew
  · intro _ h
    rw [addType_reads]
    exact h

lemma evalEntrypoint_spec {fuel : Nat} {typeName : String} {info info' : OrderInformation}
    (h : schema.evalEntrypoint fuel typeName info = .ok info') :
    schema.Evaluated info info' ∧ ∃ tuple, info'.Reads typeName tuple := by
  induction fuel generalizing typeName info info' with
  | zero => cases h
  | succ fuel ih =>
    unfold evalEntrypoint at h
    by_cases hread : (info.typeToChildren.lookup typeName).isSome = true
    · rw [if_pos hread] at h
      rw [← Except.ok.inj h]
      exact ⟨Evaluated.refl info, Option.isSome_iff_exists.mp hread⟩
    rw [if_neg hread] at h
    obtain ⟨tuple, htuple, h⟩ := bind_eq_ok h
    let started : OrderInformation :=
      { info with typeToChildren := OrderedMap.insert typeName tuple info.typeToChildren }
    have hstarted : started.Reads typeName tuple := OrderedMap.lookup_insert_self _ _ _
    have hothers : ∀ t, t ≠ typeName → started.typeToChildren.lookup t = info.typeToChildren.lookup t :=
      fun t ht => OrderedMap.lookup_insert_of_ne ht _ _
    have hloop : schema.Evaluated started info' ∧ ∀ p ∈ tuple, info'.Covers p := by
      apply foldlM_ok (fun s done => schema.Evaluated started s ∧ ∀ p ∈ done, s.Covers p) _ _ h
      · exact ⟨Evaluated.refl started, nofun⟩
      · rintro done ⟨name, childType⟩ s s' ⟨hs, hdone⟩ hstep
        obtain ⟨t, ht, hstep⟩ := bind_eq_ok hstep
        obtain ⟨hevaluated, hreads⟩ := ih ht
        obtain ⟨hgrows, hnotes⟩ := addType_spec t name childType
        rw [← Except.ok.inj hstep]
        have hall := hevaluated.trans (evaluated_addType t name childType)
        refine ⟨hs.trans hall, ?_⟩
        intro p hp
        rcases List.mem_append.mp hp with hp | hp
        · exact hall.grows.covers (hdone p hp)
        · rw [List.mem_singleton.mp hp]
          obtain ⟨childTuple, hchild⟩ := hreads
          exact ⟨⟨childTuple, hgrows.reads _ _ hchild⟩, hnotes⟩
    obtain ⟨hevaluated, hcovers⟩ := hloop
    have hnew : ∀ t tuple, info.Reads t tuple → t ≠ typeName := by
      rintro t tuple' ht rfl
      exact hread (Option.isSome_iff_exists.mpr ⟨tuple', ht⟩)
    refine ⟨⟨⟨?_, fun n t ht => hevaluated.grows.notes n t ht⟩, ?_, ?_⟩, tuple, hevaluated.grows.reads _ _ hstarted⟩
    · intro t tuple' ht
      exact hevaluated.grows.reads t tuple' ((hothers t (hnew t tuple' ht)).trans ht)
    · intro t tuple' ht hunread p hp
      by_cases heq : t = typeName
      · subst heq
        rw [Option.some.inj (ht.symm.trans (hevaluated.grows.reads _ _ hstarted))] at hp
        exact hcovers p hp
      · apply hevaluated.closed t tuple' ht _ p hp
        rintro ⟨tuple'', htuple''⟩
        exact hunread ⟨tuple'', (hothers t heq).symm.trans htuple''⟩
    · intro hreserved hcorrect
      apply hevaluated.correct hreserved
      intro t tuple' ht hlookup
      by_cases heq : t = typeName
      · subst heq
        rw [← Option.some.inj (hstarted.symm.trans hlookup)]
        exact evalTypeByName_declares hcorrect hreserved ht htuple
      · exact hcorrect t tuple' ht ((hothers t heq).symm.trans hlookup)

/-- The name and the type of an element at the root of the schema. -/
def rootPair (schema : Schema) (node : Nat) : String × String :=
  ((schema.label node).attr "name", removeNamespace ((schema.label node).attr "type"))

/-- The information after some elements at the root of the schema. -/
structure RootsRead (schema : Schema) (info : OrderInformation) (roots : List Nat) : Prop where
  closed : info.Closed
  roots : info.typeToChildren.lookup schemaRoot = if roots = [] then none else some (roots.map schema.rootPair)
  correct : schema.NotReserved → schema.Correct info.typeToChildren

lemma addRootElement_reads (info : OrderInformation) (name typeName : String) {t : String} (ht : t ≠ schemaRoot) :
    (addRootElement info name typeName).typeToChildren.lookup t = info.typeToChildren.lookup t :=
  OrderedMap.lookup_insert_of_ne ht _ _

lemma addRootElement_notes {info : OrderInformation} {name typeName n t : String} (h : info.Notes n t) :
    (addRootElement info name typeName).Notes n t := by
  obtain ⟨types, htypes, ht⟩ := h
  by_cases heq : n = name
  · subst heq
    refine ⟨_, OrderedMap.lookup_insert_self _ _ _, ?_⟩
    rw [htypes]
    exact List.mem_append_left _ ht
  · exact ⟨types, (OrderedMap.lookup_insert_of_ne heq _ _).trans htypes, ht⟩

lemma evalRootElement_spec {fuel : Nat} {info info' : OrderInformation} {roots : List Nat} {child : Nat}
    (hinfo : schema.RootsRead info roots) (h : schema.evalRootElement fuel info child = .ok info') :
    schema.RootsRead info' (roots ++ [child]) := by
  unfold evalRootElement at h
  obtain ⟨tuple, htuple, h⟩ := bind_eq_ok h
  rw [evalElement_ok htuple, List.foldlM_cons] at h
  obtain ⟨s, hs, h⟩ := bind_eq_ok h
  obtain rfl := Except.ok.inj h
  obtain ⟨hevaluated, htype⟩ := evalEntrypoint_spec hs
  let name := (schema.label child).attr "name"
  let typeName := removeNamespace ((schema.label child).attr "type")
  have hroot : (addRootElement info name typeName).Reads schemaRoot ((roots ++ [child]).map schema.rootPair) := by
    refine (OrderedMap.lookup_insert_self _ _ _).trans ?_
    rw [hinfo.roots, List.map_append]
    by_cases hempty : roots = []
    · rw [if_pos hempty, hempty]
      rfl
    · rw [if_neg hempty]
      rfl
  have hnotes : (addRootElement info name typeName).Notes name typeName :=
    ⟨_, OrderedMap.lookup_insert_self _ _ _, by simp⟩
  have hcovers : ∀ p, info.Covers p → s.Covers p := by
    rintro p ⟨⟨tuple', htuple'⟩, hp⟩
    refine ⟨?_, hevaluated.grows.notes _ _ (addRootElement_notes hp)⟩
    by_cases heq : p.2 = schemaRoot
    · rw [heq]
      exact ⟨_, hevaluated.grows.reads _ _ hroot⟩
    · exact ⟨tuple', hevaluated.grows.reads _ _ ((addRootElement_reads info name typeName heq).trans htuple')⟩
  refine ⟨?_, ?_, ?_⟩
  · intro t tuple' ht p hp
    by_cases hold : ∃ tuple, (addRootElement info name typeName).Reads t tuple
    · obtain ⟨tuple'', htuple''⟩ := hold
      rw [Option.some.inj (ht.symm.trans (hevaluated.grows.reads _ _ htuple''))] at hp
      by_cases heq : t = schemaRoot
      · rw [heq] at htuple''
        rw [Option.some.inj (htuple''.symm.trans hroot), List.map_append] at hp
        rcases List.mem_append.mp hp with hp | hp
        · have hne : roots ≠ [] := by
            rintro rfl
            cases hp
          have hreads : info.Reads schemaRoot (roots.map schema.rootPair) := by
            unfold Reads
            rw [hinfo.roots, if_neg hne]
          exact hcovers p (hinfo.closed _ _ hreads p hp)
        · rw [List.mem_singleton.mp hp]
          exact ⟨htype, hevaluated.grows.notes _ _ hnotes⟩
      · exact hcovers p (hinfo.closed t tuple'' ((addRootElement_reads info name typeName heq).symm.trans htuple'') p hp)
    · exact hevaluated.closed t tuple' ht hold p hp
  · rw [if_neg (by simp)]
    exact hevaluated.grows.reads _ _ hroot
  · intro hreserved
    apply hevaluated.correct hreserved
    intro t tuple' ht hlookup
    exact hinfo.correct hreserved t tuple' ht ((addRootElement_reads info name typeName ht).symm.trans hlookup)

lemma findRoot_spec {fuel : Nat} {info : OrderInformation} (h : schema.findRootElementNodeAndRecurse fuel = .ok info) :
    schema.RootsRead info schema.rootElements ∧ schema.rootElements ≠ [] := by
  unfold findRootElementNodeAndRecurse at h
  obtain ⟨s, hs, h⟩ := bind_eq_ok h
  split at h
  · cases h
  · rename_i hne
    obtain rfl := Except.ok.inj h
    refine ⟨?_, hne⟩
    apply foldlM_ok (schema.RootsRead · ·) _ _ hs
    · exact ⟨nofun, rfl, fun _ _ _ _ h => nomatch h⟩
    · exact fun done child s s' hinfo hstep => evalRootElement_spec hinfo hstep

lemma firstDuplicate_none {names : List String} (h : firstDuplicate names = none) : names.Nodup := by
  induction names with
  | nil => exact List.nodup_nil
  | cons name names ih =>
    unfold firstDuplicate at h
    split at h
    · cases h
    · rename_i hmem
      exact List.nodup_cons.mpr ⟨hmem, ih h⟩

/-- What holds of the information that is read from a schema. -/
structure Information (schema : Schema) (info : OrderInformation) : Prop where
  closed : ∀ typeName tuple, info.Reads typeName tuple → ∀ p ∈ tuple, ∃ tuple', info.Reads p.2 tuple'
  unique : ∀ typeName tuple, info.Reads typeName tuple → (tuple.map Prod.fst).Nodup
  noted : ∀ typeName tuple, info.Reads typeName tuple → ∀ p ∈ tuple, ∀ types,
    info.nameToType.lookup p.1 = some types → types = [p.2]
  roots : info.Reads schemaRoot (schema.rootElements.map schema.rootPair)
  correct : schema.NotReserved → schema.Correct info.typeToChildren

lemma lookup_filter {α : Type} {keys : List String} {map : List (String × α)} {key : String} {a : α}
    (h : (map.filter fun entry => entry.1 ∉ keys).lookup key = some a) : map.lookup key = some a ∧ key ∉ keys := by
  induction map with
  | nil => cases h
  | cons entry map ih =>
    obtain ⟨k, b⟩ := entry
    by_cases hk : k ∈ keys
    · rw [List.filter_cons, if_neg (by simpa using hk)] at h
      obtain ⟨hlookup, hkey⟩ := ih h
      refine ⟨?_, hkey⟩
      have hne : key ≠ k := by
        rintro rfl
        exact hkey hk
      rw [List.lookup_cons, beq_false_of_ne hne]
      exact hlookup
    · rw [List.filter_cons, if_pos (by simpa using hk), List.lookup_cons] at h
      rw [List.lookup_cons]
      by_cases heq : key = k
      · subst heq
        rw [BEq.rfl] at h ⊢
        exact ⟨h, hk⟩
      · rw [beq_false_of_ne heq] at h ⊢
        exact ih h

lemma mem_of_lookup {α : Type} {map : List (String × α)} {key : String} {a : α} (h : map.lookup key = some a) :
    (key, a) ∈ map := by
  induction map with
  | nil => cases h
  | cons entry map ih =>
    obtain ⟨k, b⟩ := entry
    rw [List.lookup_cons] at h
    by_cases heq : key = k
    · subst heq
      rw [BEq.rfl] at h
      rw [← Option.some.inj h]
      exact List.mem_cons_self
    · rw [beq_false_of_ne heq] at h
      exact List.mem_cons_of_mem _ (ih h)

lemma initOrderInformation_spec {fuel : Nat} {info : OrderInformation}
    (h : schema.initOrderInformation fuel = .ok info) : schema.Information info := by
  unfold initOrderInformation at h
  obtain ⟨_, _, h⟩ := bind_eq_ok h
  obtain ⟨_, _, h⟩ := bind_eq_ok h
  obtain ⟨s, hs, h⟩ := bind_eq_ok h
  obtain ⟨_, hunique, h⟩ := bind_eq_ok h
  obtain rfl := Except.ok.inj h
  obtain ⟨⟨hclosed, hroots, hcorrect⟩, hne⟩ := findRoot_spec hs
  refine ⟨?_, ?_, ?_, ?_, hcorrect⟩
  · exact fun t tuple ht p hp => (hclosed t tuple ht p hp).1
  · intro t tuple ht
    unfold checkUniqueNames at hunique
    split at hunique
    · cases hunique
    · rename_i hnone
      have hentry := List.find?_eq_none.mp hnone (t, tuple) (mem_of_lookup ht)
      exact firstDuplicate_none (by simpa using hentry)
  · intro t tuple ht p hp types htypes
    obtain ⟨htypes, hkey⟩ := lookup_filter htypes
    obtain ⟨types', htypes', hmem⟩ := (hclosed t tuple ht p hp).2
    obtain rfl := Option.some.inj (htypes.symm.trans htypes')
    have hlength : ¬types.length > 1 := by
      intro hlong
      apply hkey
      refine List.mem_map.mpr ⟨(p.1, types), List.mem_filter.mpr ⟨mem_of_lookup htypes, ?_⟩, rfl⟩
      simpa using hlong
    match types, hmem, hlength with
    | [t'], hmem, _ => rw [List.mem_singleton.mp hmem]
    | _ :: _ :: _, _, hlength => exact absurd (by simp) hlength
  · unfold Reads
    exact hroots.trans (if_neg hne)

end Schema

end Muen.Tools.GrammarTools
