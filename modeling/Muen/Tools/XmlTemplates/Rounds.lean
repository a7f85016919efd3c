import Muen.Tools.XmlTemplates.Instances

/-!
# The rounds of the expansion

In each round the calls of the document are replaced one after the other, and the calls in the bodies that take their
places are left for the next one. So the calls of a round are those nested to its depth. The expansion fails exactly
if one of them is faulty, if there are too many of them, or if they are nested too deeply.
-/

namespace Muen.Tools.XmlTemplates
open Muen.Lib
open scoped List

variable {templates : List Node}

/-! ### Replacing a call -/

variable (templates) in
/-- A call of an unknown template, or with parameters that the template does not declare so. -/
def Faulty (s : Signature) : Prop :=
  findTemplate templates s.name = none ∨
    ∃ template, findTemplate templates s.name = some template ∧ BadParameters template s.parameters

variable (templates) in
/-- The calls in the body of the called template. -/
def nestedCalls (s : Signature) : List Signature :=
  match findTemplate templates s.name with
  | none => []
  | some template => signatures (bodyOf template)

variable (templates) in
/-- A call of a document is replaced by an instance, after the definitions of the instance are added. -/
structure Expands (i : Instance) (doc doc' : Nodes) : Prop where
  compiled : i.Compiled templates
  wellFormed : i.WellFormed
  replaced : Hedge.Replaced i.templateCall i.callChildren i.body (withDefinitions i.output doc) doc'

lemma calls_replaced {a : Bool × Label} {children new h h' : Marked} (ha : isElement "useTemplate" a = true)
    (hwf : CallsWellFormed (h.map Prod.snd)) (hR : Hedge.Replaced a children new h h') :
    ∃ l r, calls h = l ++ (a.1, signature a.2 (children.map Prod.snd)) :: r ∧ calls h' = l ++ calls new ++ r := by
  induction hR with
  | here siblings =>
    obtain ⟨hcall, -, -⟩ := hwf
    refine ⟨[], calls siblings, ?_, ?_⟩
    · rw [calls_cons_of_call ha, calls_of_noCalls (hcall ha).noCalls]
      rfl
    · rw [calls_append, List.nil_append]
  | @child b k k' siblings hR ih =>
    obtain ⟨hb, hk, -⟩ := hwf
    obtain ⟨l, r, hl, hr⟩ := ih hk
    have hlabel : isElement "useTemplate" b = false := by
      by_contra hcall
      exact not_replaced_of_noCalls ha (hb (Bool.not_eq_false _ ▸ hcall)).noCalls (hR.map Prod.snd)
    refine ⟨l, r ++ calls siblings, ?_, ?_⟩
    · rw [calls_cons_of_not hlabel, hl, List.append_assoc]
      rfl
    · rw [calls_cons_of_not hlabel, hr, List.append_assoc, List.append_assoc]
  | @sibling b k _ _ _ ih =>
    obtain ⟨-, -, hs⟩ := hwf
    obtain ⟨l, r, hl, hr⟩ := ih hs
    by_cases hcall : isElement "useTemplate" b = true
    · refine ⟨(b.1, signature b.2 (k.map Prod.snd)) :: (calls k ++ l), r, ?_, ?_⟩
      · rw [calls_cons_of_call hcall, hl, List.cons_append, List.append_assoc]
      · rw [calls_cons_of_call hcall, hr, List.cons_append, List.cons_append, List.append_assoc, List.append_assoc,
          List.append_assoc]
    · have hfalse : isElement "useTemplate" b = false := Bool.not_eq_true _ ▸ hcall
      refine ⟨calls k ++ l, r, ?_, ?_⟩
      · rw [calls_cons_of_not hfalse, hl, List.append_assoc]
      · rw [calls_cons_of_not hfalse, hr, List.append_assoc, List.append_assoc, List.append_assoc]

lemma onlyCalls_replaced {a : Bool × Label} {children h h' : Marked} {new : Nodes} (hmarks : OnlyCalls h)
    (hR : Hedge.Replaced a children (unmarked new) h h') : OnlyCalls h' :=
  hR.allNodes hmarks (onlyCalls_unmarked new) fun _ _ _ _ hb => hb

/-- The parts of a compiled template are put into the document. -/
lemma substituteTemplateCall_spec {doc : Marked} (hdoc : DocumentWellFormed (doc.map Prod.snd)) (hmarks : OnlyCalls doc)
    {a : Bool × Label} {children : Marked} (hfind : doc.find Prod.fst = some (a, children)) {template : Node}
    {output : Output} (houtput : OutputWellFormed template output) :
    ∃ doc', substituteTemplateCall output doc = .ok doc' ∧ OnlyCalls doc' ∧
      Hedge.Replaced a.2 (children.map Prod.snd) (output.body.getD .nil) (withDefinitions output (doc.map Prod.snd))
        (doc'.map Prod.snd) ∧
      ∃ l r, calls doc = l ++ (true, signature a.2 (children.map Prod.snd)) :: r ∧
        calls doc' = l ++ (signatures (bodyOf template)).map (fun s => (false, s)) ++ r := by
  obtain ⟨config, hconfig, hconfigCalls⟩ := houtput.config
  obtain ⟨body, hbody, hbodyCalls, hbodySignatures, hbodyRoots⟩ := houtput.body
  obtain ⟨hmark, hmem⟩ := Hedge.find_spec hfind
  have ha : isElement "useTemplate" a = true := (Hedge.AllNodes.of_mem_nodes hmarks hmem).1 hmark
  obtain ⟨doc₁, happend₁, hsame₁, hmap₁⟩ := appendConfig_spec hdoc hmarks hconfigCalls
  have hdoc₁ : DocumentWellFormed (doc₁.map Prod.snd) := by
    rw [hmap₁]
    exact hdoc.addTo hconfigCalls "config" (by simp)
  obtain ⟨doc₂, happend₂, hsame₂, hmap₂⟩ := appendExpressions_spec hdoc₁ hsame₁.marks houtput.expressions
  have hsame := hsame₁.trans hsame₂
  have hR := Hedge.replaced_of_find (hsame.find.trans hfind) (unmarked body)
  have hmap : doc₂.map Prod.snd = withDefinitions output (doc.map Prod.snd) := by
    rw [hmap₂, hmap₁]
    unfold withDefinitions
    rw [hconfig]
    rfl
  have hwf₂ : DocumentWellFormed (doc₂.map Prod.snd) := by
    rw [hmap]
    exact hdoc.withDefinitions houtput
  refine ⟨doc₂.replaceFirst Prod.fst (unmarked body), ?_, onlyCalls_replaced hsame.marks hR, ?_, ?_⟩
  · unfold substituteTemplateCall
    rw [hconfig, happend₁, ok_bind, happend₂, ok_bind, hbody]
    rfl
  · have hreplaced := hR.map Prod.snd
    rw [map_unmarked, hmap] at hreplaced
    rw [hbody]
    exact hreplaced
  · obtain ⟨l, r, hl, hr⟩ := calls_replaced ha hwf₂.calls hR
    rw [hsame.calls, hmark] at hl
    rw [calls_unmarked, hbodySignatures] at hr
    exact ⟨l, r, hl, hr⟩

variable (templates) in
/-- One step of a round. -/
structure Stepped (s : State) (call : Signature) (i : Instance) (s' : State) : Prop where
  number : i.number = s.runningNumber
  next : s'.runningNumber = s.runningNumber + 1
  expands : Expands templates i (s.doc.map Prod.snd) (s'.doc.map Prod.snd)
  wellFormed : DocumentWellFormed (s'.doc.map Prod.snd)
  marks : OnlyCalls s'.doc
  calls : ∃ l r, calls s.doc = l ++ (true, call) :: r ∧
    XmlTemplates.calls s'.doc = l ++ (nestedCalls templates call).map (fun s => (false, s)) ++ r

lemma findTemplate_mem {name : Value} {template : Node} (h : findTemplate templates name = some template) :
    template ∈ templates := List.mem_of_find?_eq_some h

lemma expandCall_spec (ht : ∀ template ∈ templates, TemplateWellFormed template) {s : State}
    (hdoc : DocumentWellFormed (s.doc.map Prod.snd)) (hmarks : OnlyCalls s.doc) {a : Bool × Label} {children : Marked}
    (hfind : s.doc.find Prod.fst = some (a, children)) :
    (Faulty templates (signature a.2 (children.map Prod.snd)) ∨ 2 ^ 31 - 1 ≤ s.runningNumber →
      ∃ e, expandCall templates s = .error e) ∧
    (¬Faulty templates (signature a.2 (children.map Prod.snd)) → s.runningNumber < 2 ^ 31 - 1 →
      ∃ i s', expandCall templates s = .ok s' ∧ Stepped templates s (signature a.2 (children.map Prod.snd)) i s') := by
  obtain ⟨hmark, hmem⟩ := Hedge.find_spec hfind
  have ha : isElement "useTemplate" a = true := (Hedge.AllNodes.of_mem_nodes hmarks hmem).1 hmark
  have hcall : CallWellFormed (children.map Prod.snd) := by
    have hnode : (a.2, children.map Prod.snd) ∈ (s.doc.map Prod.snd).nodes := by
      rw [Hedge.nodes_map]
      exact List.mem_map_of_mem (f := fun node : (Bool × Label) × Marked => (node.1.2, node.2.map Prod.snd)) hmem
    exact (Hedge.AllNodes.of_mem_nodes hdoc.calls hnode).1 ha
  unfold expandCall
  rw [hfind]
  dsimp only
  cases hfound : findTemplate templates a.2.name with
  | none => exact ⟨fun _ => ⟨_, rfl⟩, fun h => absurd (Or.inl hfound) h⟩
  | some template =>
    have hwf := ht template (findTemplate_mem hfound)
    obtain ⟨hbad, hgood⟩ := compileTemplate_spec hwf hcall a.2 s.runningNumber
    dsimp only
    by_cases hparameters : BadParameters template (signature a.2 (children.map Prod.snd)).parameters
    · obtain ⟨e, he⟩ := hbad hparameters
      refine ⟨fun _ => ⟨e, ?_⟩, fun h => absurd (Or.inr ⟨template, hfound, hparameters⟩) h⟩
      rw [he]
      rfl
    · obtain ⟨output, hcompiled, hparts⟩ := hgood hparameters
      have houtput := outputWellFormed_of_partsOf hwf hparts
      have hfaulty : ¬Faulty templates (signature a.2 (children.map Prod.snd)) := by
        rintro (hnone | ⟨template', hfound', hbad⟩)
        · exact absurd (hfound.symm.trans hnone) nofun
        · obtain rfl := Option.some.inj (hfound.symm.trans hfound')
          exact hparameters hbad
      rw [hcompiled, ok_bind]
      unfold nextNumber
      refine ⟨fun h => ?_, fun _ hnumber => ?_⟩
      · rw [if_neg (Nat.not_lt.mpr (h.resolve_left hfaulty))]
        exact ⟨_, rfl⟩
      · obtain ⟨doc', hdoc', hmarks', hreplaced, hcalls⟩ := substituteTemplateCall_spec hdoc hmarks hfind houtput
        rw [if_pos hnumber, ok_bind, hdoc']
        obtain ⟨body, hbody, hbodyCalls, -, hbodyRoots⟩ := houtput.body
        refine ⟨⟨template, a.2, children.map Prod.snd, s.runningNumber, output⟩, ⟨doc', s.runningNumber + 1⟩, rfl, ?_⟩
        constructor
        · rfl
        · rfl
        · exact ⟨⟨hfound, hcompiled, ha⟩, ⟨hwf, hparts, houtput⟩, hreplaced⟩
        · rw [hbody] at hreplaced
          exact (hdoc.withDefinitions houtput).replaced ha hbodyRoots hbodyCalls hreplaced
        · exact hmarks'
        · unfold nestedCalls
          have hname : (signature a.2 (children.map Prod.snd)).name = a.2.name := rfl
          rw [hname, hfound]
          exact hcalls

/-! ### The calls of a round -/

variable (templates) in
/-- Calls are replaced one after the other. -/
inductive Runs : Nodes → List Instance → Nodes → Prop
  | refl (doc : Nodes) : Runs doc [] doc
  | step {doc doc' doc'' : Nodes} {i : Instance} {instances : List Instance} (hstep : Expands templates i doc doc')
      (hruns : Runs doc' instances doc'') : Runs doc (i :: instances) doc''

lemma Runs.trans {doc doc' doc'' : Nodes} {l m : List Instance} (h : Runs templates doc l doc')
    (h' : Runs templates doc' m doc'') : Runs templates doc (l ++ m) doc'' := by
  induction h with
  | refl => exact h'
  | step hstep _ ih => exact Runs.step hstep (ih h')

lemma exists_find {doc : Marked} {call : Signature} (h : (true, call) ∈ calls doc) :
    ∃ a children, doc.find Prod.fst = some (a, children) := by
  unfold calls at h
  obtain ⟨⟨a, children⟩, hnode, hcall⟩ := List.mem_map.mp h
  have hmark : a.1 = true := congrArg Prod.fst hcall
  cases hfind : doc.find Prod.fst with
  | some node => exact ⟨node.1, node.2, rfl⟩
  | none =>
    have hnone := Hedge.find_eq_none_iff.mp hfind
    have hfalse := (Hedge.AllNodes.of_mem_nodes hnone (List.mem_filter.mp hnode).1).1
    rw [hmark] at hfalse
    cases hfalse

/-- The calls of a round in some order, and those in the bodies that are there already. -/
def Pending (doc : Marked) (pending nested : List Signature) : Prop :=
  (calls doc).Perm (pending.map (fun s => (true, s)) ++ nested.map (fun s => (false, s)))

lemma Pending.step {s s' : State} {i : Instance} {call : Signature} {pending nested : List Signature}
    (hpending : Pending s.doc pending nested) (hstep : Stepped templates s call i s') :
    ∃ l r, pending = l ++ call :: r ∧ Pending s'.doc (l ++ r) (nested ++ nestedCalls templates call) := by
  obtain ⟨l, r, hcalls, hcalls'⟩ := hstep.calls
  unfold Pending at hpending ⊢
  have hmem : (true, call) ∈ pending.map (fun s => (true, s)) ++ nested.map (fun s => (false, s)) := by
    rw [← hpending.mem_iff, hcalls]
    exact List.mem_append_right _ List.mem_cons_self
  have hcall : call ∈ pending := by
    rcases List.mem_append.mp hmem with hmem | hmem
    · obtain ⟨c, hc, heq⟩ := List.mem_map.mp hmem
      obtain rfl := (Prod.mk.inj heq).2
      exact hc
    · obtain ⟨c, -, heq⟩ := List.mem_map.mp hmem
      cases heq
  obtain ⟨m, n, rfl⟩ := List.append_of_mem hcall
  refine ⟨m, n, rfl, ?_⟩
  rw [hcalls, List.map_append, List.map_cons] at hpending
  have hrest : (l ++ r).Perm ((m ++ n).map (fun s => (true, s)) ++ nested.map (fun s => (false, s))) := by
    apply List.Perm.cons_inv (a := (true, call))
    calc (true, call) :: (l ++ r) ~ l ++ (true, call) :: r := List.perm_middle.symm
      _ ~ m.map (fun s => (true, s)) ++ (true, call) :: n.map (fun s => (true, s)) ++ _ := hpending
      _ ~ (true, call) :: (m.map (fun s => (true, s)) ++ n.map (fun s => (true, s))) ++ _ :=
        List.perm_middle.append_right _
      _ = _ := by rw [← List.map_append, List.cons_append]
  have hnested : (nested ++ nestedCalls templates call).map (fun s => (false, s)) =
      nested.map (fun s => (false, s)) ++ (nestedCalls templates call).map (fun s => (false, s)) := List.map_append
  rw [hcalls', hnested, ← List.append_assoc]
  calc l ++ (nestedCalls templates call).map (fun s => (false, s)) ++ r
      ~ l ++ r ++ (nestedCalls templates call).map (fun s => (false, s)) := by
        rw [List.append_assoc, List.append_assoc]
        exact List.perm_append_comm.append_left l
    _ ~ _ := hrest.append_right _

lemma Pending.mem_of_find {doc : Marked} {pending nested : List Signature} (hpending : Pending doc pending nested)
    (hmarks : OnlyCalls doc) {a : Bool × Label} {children : Marked} (hfind : doc.find Prod.fst = some (a, children)) :
    signature a.2 (children.map Prod.snd) ∈ pending := by
  obtain ⟨hmark, hmem⟩ := Hedge.find_spec hfind
  have ha : isElement "useTemplate" a = true := (Hedge.AllNodes.of_mem_nodes hmarks hmem).1 hmark
  have hcall : (true, signature a.2 (children.map Prod.snd)) ∈ calls doc := by
    unfold calls
    rw [← hmark]
    exact List.mem_map.mpr ⟨(a, children), List.mem_filter.mpr ⟨hmem, ha⟩, rfl⟩
  rw [hpending.mem_iff, List.mem_append, List.mem_map, List.mem_map] at hcall
  rcases hcall with ⟨c, hc, heq⟩ | ⟨c, -, heq⟩
  · rw [← (Prod.mk.inj heq).2]
    exact hc
  · cases heq

variable (templates) in
/-- What a number of steps lead to. -/
structure Expanded (doc : Nodes) (number : Nat) (instances : List Instance) (doc' : Nodes) : Prop where
  runs : Runs templates doc instances doc'
  numbers : instances.map Instance.number = List.range' number instances.length
  wellFormed : DocumentWellFormed doc'

lemma expandCalls_spec (ht : ∀ template ∈ templates, TemplateWellFormed template) (count : Nat) {s : State}
    {pending nested : List Signature} (hcount : pending.length = count)
    (hdoc : DocumentWellFormed (s.doc.map Prod.snd)) (hmarks : OnlyCalls s.doc)
    (hnumber : s.runningNumber ≤ 2 ^ 31 - 1) (hpending : Pending s.doc pending nested) :
    ((∃ call ∈ pending, Faulty templates call) ∨ 2 ^ 31 - 1 < s.runningNumber + count →
      ∃ e, expandCalls templates count s = .error e) ∧
    ((∀ call ∈ pending, ¬Faulty templates call) → s.runningNumber + count ≤ 2 ^ 31 - 1 →
      ∃ instances s', expandCalls templates count s = .ok s' ∧ instances.length = count ∧
        s'.runningNumber = s.runningNumber + count ∧
        Expanded templates (s.doc.map Prod.snd) s.runningNumber instances (s'.doc.map Prod.snd) ∧
        (signatures (s'.doc.map Prod.snd)).Perm (nested ++ pending.flatMap (nestedCalls templates))) := by
  induction count generalizing s pending nested with
  | zero =>
    obtain rfl := List.eq_nil_of_length_eq_zero hcount
    refine ⟨fun h => ?_, fun _ _ => ⟨[], s, rfl, rfl, rfl, ⟨Runs.refl _, rfl, hdoc⟩, ?_⟩⟩
    · rcases h with ⟨call, hmem, -⟩ | h
      · cases hmem
      · omega
    · have hperm := List.Perm.map Prod.snd hpending
      rw [map_calls, List.map_append, List.map_map, List.map_map] at hperm
      simpa [Function.comp_def] using hperm
  | succ count ih =>
    have hmarked : ∃ call, (true, call) ∈ calls s.doc := by
      obtain ⟨call, rest, rfl⟩ := List.exists_cons_of_length_eq_add_one hcount
      refine ⟨call, ?_⟩
      rw [hpending.mem_iff]
      exact List.mem_append_left _ List.mem_cons_self
    obtain ⟨_, hmarked⟩ := hmarked
    obtain ⟨a, children, hfind⟩ := exists_find hmarked
    have hcall := hpending.mem_of_find hmarks hfind
    obtain ⟨hfail, hok⟩ := expandCall_spec ht hdoc hmarks hfind
    rw [expandCalls]
    by_cases hbad : Faulty templates (signature a.2 (children.map Prod.snd)) ∨ 2 ^ 31 - 1 ≤ s.runningNumber
    · obtain ⟨e, he⟩ := hfail hbad
      refine ⟨fun _ => ⟨e, by rw [he]; rfl⟩, fun hgood hsum => ?_⟩
      rcases hbad with hfaulty | hlarge
      · exact absurd hfaulty (hgood _ hcall)
      · omega
    · obtain ⟨hfaulty, hlarge⟩ := not_or.mp hbad
      obtain ⟨i, s', hs', hstep⟩ := hok hfaulty (Nat.lt_of_not_le hlarge)
      obtain ⟨l, r, rfl, hpending'⟩ := hpending.step hstep
      have hlength : (l ++ r).length = count := by
        rw [List.length_append, List.length_cons] at hcount
        rw [List.length_append]
        omega
      have hnumber' : s'.runningNumber ≤ 2 ^ 31 - 1 := by
        rw [hstep.next]
        omega
      obtain ⟨hfail', hok'⟩ := ih hlength hstep.wellFormed hstep.marks hnumber' hpending'
      rw [hs', ok_bind]
      constructor
      · intro h
        apply hfail'
        rcases h with ⟨call, hmem, hcallFaulty⟩ | h
        · left
          rcases List.mem_append.mp hmem with hmem | hmem
          · exact ⟨call, List.mem_append_left _ hmem, hcallFaulty⟩
          · rcases List.mem_cons.mp hmem with rfl | hmem
            · exact absurd hcallFaulty hfaulty
            · exact ⟨call, List.mem_append_right _ hmem, hcallFaulty⟩
        · right
          rw [hstep.next]
          omega
      · intro hgood hsum
        have hgood' : ∀ call ∈ l ++ r, ¬Faulty templates call := by
          intro call hmem
          apply hgood call
          rcases List.mem_append.mp hmem with hmem | hmem
          · exact List.mem_append_left _ hmem
          · exact List.mem_append_right _ (List.mem_cons_of_mem _ hmem)
        have hsum' : s'.runningNumber + count ≤ 2 ^ 31 - 1 := by
          rw [hstep.next]
          omega
        obtain ⟨instances, s'', hs'', hcount', hnext, hexpanded, hperm⟩ := hok' hgood' hsum'
        refine ⟨i :: instances, s'', hs'', ?_, ?_, ?_, ?_⟩
        · rw [List.length_cons, hcount']
        · rw [hnext, hstep.next]
          omega
        · constructor
          · exact Runs.step hstep.expands hexpanded.runs
          · rw [List.map_cons, hexpanded.numbers, hstep.number, hstep.next, List.length_cons, List.range'_succ]
          · exact hexpanded.wellFormed
        · calc signatures (s''.doc.map Prod.snd)
              ~ nested ++ nestedCalls templates (signature a.2 (children.map Prod.snd)) ++
                  (l ++ r).flatMap (nestedCalls templates) := hperm
            _ = nested ++ (nestedCalls templates (signature a.2 (children.map Prod.snd)) ++
                  (l ++ r).flatMap (nestedCalls templates)) := List.append_assoc _ _ _
            _ = nested ++ (signature a.2 (children.map Prod.snd) :: (l ++ r)).flatMap (nestedCalls templates) := by
              rw [List.flatMap_cons]
            _ ~ _ := (List.perm_middle.symm.flatMap_right _).append_left nested

/-! ### All rounds -/

variable (templates) in
/-- The calls at a depth of nesting. -/
def callsAt (outermost : List Signature) : Nat → List Signature
  | 0 => outermost
  | depth + 1 => (callsAt outermost depth).flatMap (nestedCalls templates)

variable (templates) in
def callsUpTo (outermost : List Signature) (depth : Nat) : List Signature :=
  (List.range depth).flatMap (callsAt templates outermost)

lemma callsAt_succ (outermost : List Signature) (depth : Nat) :
    callsAt templates outermost (depth + 1) = callsAt templates (outermost.flatMap (nestedCalls templates)) depth := by
  induction depth with
  | zero => rfl
  | succ depth ih => rw [callsAt, ih]; rfl

lemma callsUpTo_succ (outermost : List Signature) (depth : Nat) :
    callsUpTo templates outermost (depth + 1) =
      outermost ++ callsUpTo templates (outermost.flatMap (nestedCalls templates)) depth := by
  unfold callsUpTo
  rw [List.range_succ_eq_map, List.flatMap_cons, List.flatMap_map]
  congr 1
  apply List.flatMap_congr
  intro d _
  exact callsAt_succ outermost d

lemma callsAt_eq_nil_of_le {outermost : List Signature} {d d' : Nat} (h : callsAt templates outermost d = [])
    (hle : d ≤ d') : callsAt templates outermost d' = [] := by
  induction hle with
  | refl => exact h
  | step _ ih => rw [callsAt, ih, List.flatMap_nil]

lemma callsAt_nil (depth : Nat) : callsAt templates [] depth = [] := callsAt_eq_nil_of_le rfl (Nat.zero_le depth)

lemma callsUpTo_nil (depth : Nat) : callsUpTo templates [] depth = [] := by
  unfold callsUpTo
  rw [List.flatMap_eq_nil_iff]
  intro d _
  exact callsAt_nil d

variable (templates) in
/-- One of the calls is faulty, or there are more of them than numbers from some number on. -/
def Overtaxed (number : Nat) (calls : List Signature) : Prop :=
  (∃ call ∈ calls, Faulty templates call) ∨ 2 ^ 31 - 1 < number + calls.length

lemma overtaxed_append {number : Nat} {l m : List Signature} :
    Overtaxed templates number (l ++ m) ↔
      Overtaxed templates number l ∨ Overtaxed templates (number + l.length) m := by
  unfold Overtaxed
  simp only [List.mem_append, List.length_append]
  constructor
  · rintro (⟨call, hcall | hcall, hfaulty⟩ | h)
    · exact Or.inl (Or.inl ⟨call, hcall, hfaulty⟩)
    · exact Or.inr (Or.inl ⟨call, hcall, hfaulty⟩)
    · exact Or.inr (Or.inr (by omega))
  · rintro ((⟨call, hcall, hfaulty⟩ | h) | ⟨call, hcall, hfaulty⟩ | h)
    · exact Or.inl ⟨call, Or.inl hcall, hfaulty⟩
    · exact Or.inr (by omega)
    · exact Or.inl ⟨call, Or.inr hcall, hfaulty⟩
    · exact Or.inr (by omega)

lemma map_markCall (doc : Nodes) : (doc.map markCall).map Prod.snd = doc := by
  rw [Hedge.map_map]
  exact Hedge.map_id doc

lemma onlyCalls_markCall (doc : Nodes) : OnlyCalls (doc.map markCall) := by
  unfold OnlyCalls
  induction doc with
  | nil => trivial
  | cons label children siblings ihc ihs => exact ⟨fun h => h, ihc, ihs⟩

lemma Expanded.trans {doc doc' doc'' : Nodes} {number count : Nat} {l m : List Instance}
    (h : Expanded templates doc number l doc') (hcount : l.length = count)
    (h' : Expanded templates doc' (number + count) m doc'') : Expanded templates doc number (l ++ m) doc'' where
  runs := h.runs.trans h'.runs
  numbers := by
    rw [List.map_append, h.numbers, h'.numbers, List.length_append, hcount, List.range'_append_1]
  wellFormed := h'.wellFormed

lemma expandRounds_spec (ht : ∀ template ∈ templates, TemplateWellFormed template) (left : Nat)
    (hleft : left ≤ maxRounds) (rounds : Nat) (hrounds : left = 0 → maxRounds ≤ rounds) {doc : Nodes} (number : Nat)
    {outermost : List Signature} (hdoc : DocumentWellFormed doc) (hnumber : number ≤ 2 ^ 31 - 1)
    (houtermost : signatures doc ~ outermost) :
    (Overtaxed templates number (callsUpTo templates outermost left) →
      ∃ e, expandRounds templates left rounds doc number = .error e) ∧
    (¬Overtaxed templates number (callsUpTo templates outermost left) →
      ∃ rounds' instances doc', expandRounds templates left rounds doc number = .ok (rounds', doc') ∧
        Expanded templates doc number instances doc' ∧
        (rounds' < maxRounds ↔ ∃ d, d + 1 < left ∧ callsAt templates outermost d = []) ∧
        signatures doc' ~ callsAt templates outermost left) := by
  induction left generalizing rounds doc number outermost with
  | zero =>
    constructor
    · rintro (⟨call, hcall, -⟩ | h)
      · cases hcall
      · exact absurd h (Nat.not_lt.mpr hnumber)
    · intro _
      refine ⟨rounds, [], doc, rfl, ⟨Runs.refl doc, rfl, hdoc⟩, ?_, houtermost⟩
      constructor
      · intro h
        exact absurd h (Nat.not_lt.mpr (hrounds rfl))
      · rintro ⟨d, hd, -⟩
        exact absurd hd (Nat.not_lt_zero _)
  | succ left ih =>
    rw [expandRounds, callsUpTo_succ]
    by_cases hnil : templateCalls doc = []
    · rw [if_pos hnil]
      have hempty : outermost = [] := by
        unfold signatures at houtermost
        rw [hnil] at houtermost
        exact List.nil_perm.mp houtermost
      rw [hempty, List.flatMap_nil, callsUpTo_nil, List.nil_append]
      constructor
      · rintro (⟨call, hcall, -⟩ | h)
        · cases hcall
        · exact absurd h (Nat.not_lt.mpr hnumber)
      · intro _
        refine ⟨maxRounds - left, [], doc, rfl, ⟨Runs.refl doc, rfl, hdoc⟩, ?_, ?_⟩
        · constructor
          · intro h
            exact ⟨0, by omega, rfl⟩
          · rintro ⟨d, hd, -⟩
            omega
        · rw [callsAt_nil, ← hempty]
          exact houtermost
    · rw [if_neg hnil, overtaxed_append]
      have hpending : Pending (doc.map markCall) outermost [] := by
        unfold Pending
        rw [calls_markCall, List.map_nil, List.append_nil]
        exact houtermost.map _
      have hcount : outermost.length = (templateCalls doc).length := by
        rw [← houtermost.length_eq]
        exact List.length_map _
      have hmap := map_markCall doc
      obtain ⟨hfail, hok⟩ := expandCalls_spec ht (templateCalls doc).length (s := ⟨doc.map markCall, number⟩) hcount
        (hmap.symm ▸ hdoc) (onlyCalls_markCall doc) hnumber hpending
      rw [hmap] at hok
      rw [← hcount] at hfail hok
      by_cases hover : Overtaxed templates number outermost
      · obtain ⟨e, he⟩ := hfail hover
        rw [← hcount, he]
        exact ⟨fun _ => ⟨e, rfl⟩, fun h => absurd (Or.inl hover) h⟩
      · obtain ⟨hfaulty, hlarge⟩ := not_or.mp hover
        have hgood : ∀ call ∈ outermost, ¬Faulty templates call := fun call hcall h => hfaulty ⟨call, hcall, h⟩
        obtain ⟨instances, s', hs', hinstances, hnext, hexpanded, hperm⟩ := hok hgood (Nat.le_of_not_lt hlarge)
        dsimp only at hnext hexpanded
        have hnumber' : s'.runningNumber ≤ 2 ^ 31 - 1 := by
          rw [hnext]
          exact Nat.le_of_not_lt hlarge
        have hrounds' : left = 0 → maxRounds ≤ maxRounds - left := by omega
        obtain ⟨hfail', hok'⟩ := ih (Nat.le_of_succ_le hleft) _ hrounds' _ hexpanded.wellFormed hnumber' hperm
        rw [← hcount, hs', ok_bind]
        rw [hnext] at hfail' hok'
        constructor
        · intro h
          rw [hnext]
          exact hfail' (h.resolve_left hover)
        · intro h
          obtain ⟨rounds', instances', doc', hdoc', hexpanded', hless, hperm'⟩ := hok' (not_or.mp h).2
          refine ⟨rounds', instances ++ instances', doc', ?_, hexpanded.trans hinstances hexpanded', ?_, ?_⟩
          · rw [hnext]
            exact hdoc'
          · rw [hless]
            constructor
            · rintro ⟨d, hd, hempty⟩
              exact ⟨d + 1, Nat.succ_lt_succ hd, (callsAt_succ _ _).trans hempty⟩
            · rintro ⟨d, hd, hempty⟩
              cases d with
              | zero =>
                have hzero : outermost = [] := hempty
                rw [hzero] at hcount
                exact absurd (List.eq_nil_of_length_eq_zero hcount.symm) hnil
              | succ d =>
                rw [callsAt_succ] at hempty
                exact ⟨d, Nat.lt_of_succ_lt_succ hd, hempty⟩
          · rw [callsAt_succ]
            exact hperm'

/-! ### The whole expansion -/

lemma callsUpTo_add_of_nil {outermost : List Signature} {depth : Nat}
    (h : callsAt templates outermost depth = []) (more : Nat) :
    callsUpTo templates outermost (depth + more) = callsUpTo templates outermost depth := by
  induction more with
  | zero => rfl
  | succ more ih =>
    have hnil := callsAt_eq_nil_of_le h (Nat.le_add_right depth more)
    rw [← Nat.add_assoc]
    unfold callsUpTo at ih ⊢
    rw [List.range_succ, List.flatMap_append, ih, List.flatMap_singleton, hnil, List.append_nil]

section Expand

variable {doc : Nodes}

/-- The calls at a depth of nesting, starting from those of the document. -/
def nestedAt (doc : Nodes) : Nat → List Signature := callsAt (templatesOf doc) (signatures (withoutTemplates doc))

def nestedUpTo (doc : Nodes) : Nat → List Signature := callsUpTo (templatesOf doc) (signatures (withoutTemplates doc))

lemma expand_spec (ht : ∀ template ∈ templatesOf doc, TemplateWellFormed template)
    (hdoc : DocumentWellFormed (withoutTemplates doc)) :
    (nestedAt doc 98 ≠ [] ∨ Overtaxed (templatesOf doc) 1 (nestedUpTo doc 98) → ∃ e, expand doc = .error e) ∧
    (nestedAt doc 98 = [] → ¬Overtaxed (templatesOf doc) 1 (nestedUpTo doc 98) →
      ∃ instances doc', expand doc = .ok doc' ∧
        Expanded (templatesOf doc) (withoutTemplates doc) 1 instances doc' ∧ signatures doc' = []) := by
  obtain ⟨hfail, hok⟩ := expandRounds_spec ht maxRounds (Nat.le_refl _) 1 nofun 1 hdoc (by decide)
    (List.Perm.refl (signatures (withoutTemplates doc)))
  have hless : (∃ d, d + 1 < maxRounds ∧ callsAt (templatesOf doc) (signatures (withoutTemplates doc)) d = []) ↔
      nestedAt doc 98 = [] := by
    constructor
    · rintro ⟨d, hd, hempty⟩
      exact callsAt_eq_nil_of_le hempty (Nat.le_of_lt_succ (Nat.lt_of_succ_lt_succ hd))
    · intro hempty
      exact ⟨98, by decide, hempty⟩
  unfold expand
  by_cases hdepth : nestedAt doc 98 = []
  · have hall : callsUpTo (templatesOf doc) (signatures (withoutTemplates doc)) maxRounds = nestedUpTo doc 98 :=
      callsUpTo_add_of_nil hdepth 2
    rw [hall] at hfail hok
    constructor
    · intro h
      obtain ⟨e, he⟩ := hfail (h.resolve_left fun h => h hdepth)
      rw [he]
      exact ⟨e, rfl⟩
    · intro _ h
      obtain ⟨rounds, instances, doc', hdoc', hexpanded, hrounds, hperm⟩ := hok h
      rw [hdoc', ok_bind]
      dsimp only
      rw [if_neg (Nat.not_le.mpr (hrounds.mpr (hless.mpr hdepth)))]
      refine ⟨instances, doc', rfl, hexpanded, ?_⟩
      have hnil : callsAt (templatesOf doc) (signatures (withoutTemplates doc)) maxRounds = [] :=
        callsAt_eq_nil_of_le hdepth (by decide)
      rw [hnil] at hperm
      exact List.perm_nil.mp hperm
  · refine ⟨fun _ => ?_, fun h => absurd h hdepth⟩
    by_cases hover : Overtaxed (templatesOf doc) 1
        (callsUpTo (templatesOf doc) (signatures (withoutTemplates doc)) maxRounds)
    · obtain ⟨e, he⟩ := hfail hover
      rw [he]
      exact ⟨e, rfl⟩
    · obtain ⟨rounds, instances, doc', hdoc', -, hrounds, -⟩ := hok hover
      rw [hdoc', ok_bind]
      dsimp only
      have hmany : rounds ≥ maxRounds := by
        apply Nat.le_of_not_lt
        rw [hrounds, hless]
        exact hdepth
      rw [if_pos hmany]
      exact ⟨_, rfl⟩

/-- The expansion fails exactly if the calls nest too deeply, a call that is reached names an unknown template or
gives it other parameters than it declares, or the calls are more than there are numbers. -/
theorem expand_fails_iff (ht : ∀ template ∈ templatesOf doc, TemplateWellFormed template)
    (hdoc : DocumentWellFormed (withoutTemplates doc)) :
    (∃ e, expand doc = .error e) ↔ nestedAt doc 98 ≠ [] ∨
      (∃ call ∈ nestedUpTo doc 98, Faulty (templatesOf doc) call) ∨ 2 ^ 31 - 1 ≤ (nestedUpTo doc 98).length := by
  have hover : Overtaxed (templatesOf doc) 1 (nestedUpTo doc 98) ↔
      (∃ call ∈ nestedUpTo doc 98, Faulty (templatesOf doc) call) ∨ 2 ^ 31 - 1 ≤ (nestedUpTo doc 98).length := by
    unfold Overtaxed
    rw [Nat.lt_iff_add_one_le, Nat.add_comm 1, Nat.add_le_add_iff_right]
  rw [← hover]
  obtain ⟨hfail, hok⟩ := expand_spec ht hdoc
  constructor
  · rintro ⟨e, he⟩
    by_contra h
    obtain ⟨hdepth, hgood⟩ := not_or.mp h
    obtain ⟨instances, doc', hdoc', -⟩ := hok (not_not.mp hdepth) hgood
    rw [hdoc'] at he
    cases he
  · exact hfail

/-- A template with a parameter. -/
def exampleTemplate : Node :=
  (.element "template" [("name", ['a'])],
    .cons (.element "parameters" []) (.cons (.element "integer" [("name", ['x'])]) .nil .nil)
      (.cons (.element "body" []) (.cons (.element "memory" [("size", ['$', 'x'])]) .nil .nil) .nil))

def exampleCallChildren : Nodes := .cons (.element "parameter" [("name", ['x']), ("value", ['$', 'n'])]) .nil .nil

def nestedCallChildren : Nodes := .cons (.element "parameter" [("name", ['x']), ("value", ['$', 'y'])]) .nil .nil

/-- A template with a call of the first one in its body. -/
def nestingTemplate : Node :=
  (.element "template" [("name", ['b'])],
    .cons (.element "parameters" []) (.cons (.element "integer" [("name", ['y'])]) .nil .nil)
      (.cons (.element "body" []) (.cons (.element "component" [])
        (.cons (.element "useTemplate" [("name", ['a'])]) nestedCallChildren .nil) .nil) .nil))

def nestingCallChildren : Nodes := .cons (.element "parameter" [("name", ['y']), ("value", ['$', 'n'])]) .nil .nil

def documentWith (nodes : Nodes) : Nodes :=
  .cons (.element "system" [])
    (.cons (.element "config" []) (.cons (.element "integer" [("name", ['n']), ("value", ['1'])]) .nil .nil) nodes) .nil

/-- Calls of the second and of the first template. -/
def exampleCalls : Nodes :=
  .cons (.element "useTemplate" [("name", ['b'])]) nestingCallChildren
    (.cons (.element "useTemplate" [("name", ['a'])]) exampleCallChildren .nil)

def exampleDocument : Nodes :=
  documentWith (.cons exampleTemplate.1 exampleTemplate.2 (.cons nestingTemplate.1 nestingTemplate.2 exampleCalls))

/-- The template that the nested call names is missing. -/
def faultyDocument : Nodes :=
  documentWith (.cons nestingTemplate.1 nestingTemplate.2
    (.cons (.element "useTemplate" [("name", ['b'])]) nestingCallChildren .nil))

/-- A call with one parameter. -/
lemma callWellFormed_parameter {name value : Value} (hname : ∀ n, name ≠ '$' :: n) :
    CallWellFormed (.cons (.element "parameter" [("name", name), ("value", value)]) .nil .nil) := by
  constructor
  · simp [Hedge.AllNodes, isBadNode]
  · simp [elements, Hedge.rootsWith, Hedge.roots, Label.isElement, Label.attributes, hasAttribute]
  · simpa [elements, Hedge.rootsWith, Hedge.roots, Label.isElement, Label.name, getAttribute, Label.attributes] using hname

lemma example_call : CallWellFormed exampleCallChildren := callWellFormed_parameter (by simp)

lemma example_template : TemplateWellFormed exampleTemplate := by
  constructor
  · decide
  · decide
  · decide
  · simp [Parsable, Label.isElement, Hedge.AllNodes, exampleTemplate]
  · simp [CallsWellFormed, bodyOf, sectionOf, Label.isElement, Hedge.AllNodes, Hedge.childrenOf, exampleTemplate]
  · simp [NoCalls, sectionOf, Label.isElement, Hedge.AllNodes, Hedge.childrenOf, exampleTemplate]
  · decide

lemma nesting_template : TemplateWellFormed nestingTemplate := by
  constructor
  · decide
  · decide
  · decide
  · simp [Parsable, Label.isElement, Hedge.AllNodes, nestingTemplate, nestedCallChildren]
  · have hcall : CallWellFormed nestedCallChildren := callWellFormed_parameter (by simp)
    simpa [CallsWellFormed, bodyOf, sectionOf, Label.isElement, Hedge.AllNodes, Hedge.childrenOf, nestingTemplate,
      nestedCallChildren] using hcall
  · simp [NoCalls, sectionOf, Label.isElement, Hedge.AllNodes, Hedge.childrenOf, nestingTemplate]
  · decide

lemma example_templates : ∀ template ∈ templatesOf exampleDocument, TemplateWellFormed template := by
  have htemplates : templatesOf exampleDocument = [exampleTemplate, nestingTemplate] := by decide
  intro template htemplate
  rw [htemplates, List.mem_cons, List.mem_singleton] at htemplate
  rcases htemplate with rfl | rfl
  · exact example_template
  · exact nesting_template

lemma faulty_templates : ∀ template ∈ templatesOf faultyDocument, TemplateWellFormed template := by
  have htemplates : templatesOf faultyDocument = [nestingTemplate] := by decide
  intro template htemplate
  rw [htemplates, List.mem_singleton] at htemplate
  rw [htemplate]
  exact nesting_template

lemma nesting_call : CallWellFormed nestingCallChildren := callWellFormed_parameter (by simp)

lemma example_document : DocumentWellFormed (withoutTemplates exampleDocument) := by
  have hremoved : withoutTemplates exampleDocument = documentWith exampleCalls := rfl
  rw [hremoved]
  constructor
  · refine ⟨_, _, rfl, ⟨_, _, rfl⟩, by decide, ?_⟩
    simp [NoCalls, elements, Hedge.rootsWith, Hedge.roots, Label.isElement, Hedge.AllNodes, exampleCalls]
  · decide
  · simpa [CallsWellFormed, documentWith, Hedge.AllNodes, Label.isElement, exampleCalls, nestingCallChildren,
      exampleCallChildren] using And.intro nesting_call example_call

lemma faulty_document : DocumentWellFormed (withoutTemplates faultyDocument) := by
  have hremoved : withoutTemplates faultyDocument =
      documentWith (.cons (.element "useTemplate" [("name", ['b'])]) nestingCallChildren .nil) := rfl
  rw [hremoved]
  constructor
  · refine ⟨_, _, rfl, ⟨_, _, rfl⟩, by decide, ?_⟩
    simp [NoCalls, elements, Hedge.rootsWith, Hedge.roots, Label.isElement, Hedge.AllNodes]
  · decide
  · simpa [CallsWellFormed, documentWith, Hedge.AllNodes, Label.isElement, nestingCallChildren] using nesting_call

/-- The nested call of the second document is faulty. -/
theorem expand_fails_iff_example :
    ((∃ e, expand exampleDocument = .error e) ↔ nestedAt exampleDocument 98 ≠ [] ∨
      (∃ call ∈ nestedUpTo exampleDocument 98, Faulty (templatesOf exampleDocument) call) ∨
        2 ^ 31 - 1 ≤ (nestedUpTo exampleDocument 98).length) ∧ ∃ e, expand faultyDocument = .error e := by
  refine ⟨expand_fails_iff example_templates example_document, ?_⟩
  apply (expand_fails_iff faulty_templates faulty_document).mpr
  have hcall : ⟨['a'], [['x']]⟩ ∈ nestedUpTo faultyDocument 98 :=
    List.mem_flatMap_of_mem (List.mem_range.mpr (by decide : 1 < 98)) List.mem_cons_self
  exact Or.inr (Or.inl ⟨_, hcall, Or.inl (by decide)⟩)

end Expand

end Muen.Tools.XmlTemplates
