import Muen.Components.Vt.TerminalScreen
import Mathlib.Data.List.GetD

/-!
# CSI parameters

What `CSI_Add_Param` collects of the characters between `ESC [` and the final byte, compared with the fields between
the semicolons. The parser has one index for "no parameter yet" and for "in the first parameter", so that a leading
semicolon is lost; beyond the last parameter it drops the semicolon but not the digits after it.
-/

namespace Muen.Components.Vt

open Lib (Byte)

/-! ## Decimal values -/

/-- The number that digits continue. -/
def decimalFrom (w : ℕ) (digits : List Byte) : ℕ := digits.foldl (fun v c => v * 10 + digitValue c) w

/-- The decimal value of a field. -/
def decimal (digits : List Byte) : ℕ := decimalFrom 0 digits

/-- The parameter that digits continue: one that does not fit any more is dropped. -/
def collectFrom (w : ℕ) (digits : List Byte) : ℕ :=
  digits.foldl (fun v c => if v * 10 + digitValue c ≤ 16383 then v * 10 + digitValue c else v) w

/-- The parameter that the parser collects from digits. -/
def collect (digits : List Byte) : ℕ := collectFrom 0 digits

lemma decimalFrom_concat (w : ℕ) (f : List Byte) (d : Byte) :
    decimalFrom w (f ++ [d]) = decimalFrom w f * 10 + digitValue d := by
  rw [decimalFrom, List.foldl_append]
  rfl

lemma collectFrom_append (w : ℕ) (f g : List Byte) : collectFrom w (f ++ g) = collectFrom (collectFrom w f) g :=
  List.foldl_append

lemma collectFrom_singleton (w : ℕ) (d : Byte) :
    collectFrom w [d] = if w * 10 + digitValue d ≤ 16383 then w * 10 + digitValue d else w := rfl

lemma collectFrom_cons (w : ℕ) (d : Byte) (f : List Byte) : collectFrom w (d :: f) = collectFrom (collectFrom w [d]) f :=
  rfl

lemma le_collectFrom (w : ℕ) (f : List Byte) : w ≤ collectFrom w f := by
  induction f generalizing w with
  | nil => exact Nat.le_refl w
  | cons d f ih =>
    rw [collectFrom_cons]
    apply Nat.le_trans _ (ih _)
    rw [collectFrom_singleton]
    split <;> omega

/-- A field whose value fits is collected as it is. -/
lemma collect_eq_decimal {f : List Byte} (h : decimal f ≤ 16383) : collect f = decimal f := by
  induction f using List.reverseRecOn with
  | nil => rfl
  | append_singleton f d ih =>
    rw [decimal, decimalFrom_concat] at h
    have hf : collect f = decimal f := ih (by rw [decimal]; omega)
    rw [collect, collectFrom_append, collectFrom_singleton, ← collect, hf, decimal, if_pos h]
    exact (decimalFrom_concat 0 f d).symm

/-- A field whose value does not fit is collected as a number with four digits at least. -/
lemma le_collect {f : List Byte} (hdigits : ∀ c ∈ f, digitValue c ≤ 9) (h : 16383 < decimal f) : 1638 ≤ collect f := by
  induction f using List.reverseRecOn with
  | nil => exact absurd h (by decide)
  | append_singleton f d ih =>
    have hd : digitValue d ≤ 9 := hdigits d (by simp)
    have hf : ∀ c ∈ f, digitValue c ≤ 9 := fun c hc => hdigits c (List.mem_append_left _ hc)
    rw [collect, collectFrom_append]
    by_cases hfit : decimal f ≤ 16383
    · rw [← collect, collect_eq_decimal hfit, collectFrom_singleton]
      rw [decimal, decimalFrom_concat, ← decimal] at h
      rw [if_neg (by omega)]
      omega
    · exact Nat.le_trans (ih hf (by omega)) (le_collectFrom _ _)

/-- A digit after the field `f` is taken into its parameter. -/
def Extends (f : List Byte) (d : Byte) : Prop :=
  (decimal f * 10 + digitValue d ≤ 16383 ∧ ¬ (decimal f = 0 ∧ digitValue d = 0)) ∨
  (digitValue d ≤ 3 ∧ ∃ p t, f = p ++ t ∧ decimal p = 1638 ∧ ∀ c ∈ t, 4 ≤ digitValue c)

/-- A field that is too large is collected as 1638 where the digits after this number are all too large for it. -/
lemma collect_eq_1638 {f : List Byte} (hdigits : ∀ c ∈ f, digitValue c ≤ 9) :
    collect f = 1638 ↔ ∃ p t, f = p ++ t ∧ decimal p = 1638 ∧ ∀ c ∈ t, 4 ≤ digitValue c := by
  constructor
  · induction f using List.reverseRecOn with
    | nil => exact fun h => absurd h (by decide)
    | append_singleton f d ih =>
      intro h
      by_cases hfit : decimal (f ++ [d]) ≤ 16383
      · exact ⟨f ++ [d], [], by simp, by rw [← collect_eq_decimal hfit, h], by simp⟩
      · have hf : ∀ c ∈ f, digitValue c ≤ 9 := fun c hc => hdigits c (List.mem_append_left _ hc)
        have hd : digitValue d ≤ 9 := hdigits d (by simp)
        rw [collect, collectFrom_append, collectFrom_singleton, ← collect] at h
        have hlow : 1638 ≤ collect f := by
          by_cases hf' : decimal f ≤ 16383
          · rw [decimal, decimalFrom_concat, ← decimal] at hfit
            rw [collect_eq_decimal hf']
            omega
          · exact le_collect hf (by omega)
        by_cases htake : collect f * 10 + digitValue d ≤ 16383
        · rw [if_pos htake] at h
          omega
        · rw [if_neg htake] at h
          obtain ⟨p, t, hp, hval, ht⟩ := ih hf h
          refine ⟨p, t ++ [d], by rw [hp, List.append_assoc], hval, fun c hc => ?_⟩
          rcases List.mem_append.mp hc with hc | hc
          · exact ht c hc
          · rw [List.mem_singleton.mp hc]
            omega
  · rintro ⟨p, t, rfl, hval, ht⟩
    have hp : collect p = 1638 := by rw [collect_eq_decimal (by omega), hval]
    rw [collect, collectFrom_append, ← collect, hp]
    clear hdigits hval hp
    induction t with
    | nil => rfl
    | cons c t ih =>
      have hc : 4 ≤ digitValue c := ht c List.mem_cons_self
      have hstep : collectFrom 1638 [c] = 1638 := by rw [collectFrom_singleton, if_neg (by omega)]
      rw [collectFrom_cons, hstep]
      exact ih (fun c hc => ht c (List.mem_cons_of_mem _ hc))

lemma collectFrom_singleton_ne {f : List Byte} {d : Byte} (hdigits : ∀ c ∈ f, digitValue c ≤ 9)
    (hd : digitValue d ≤ 9) : collectFrom (collect f) [d] ≠ collect f ↔ Extends f d := by
  rw [collectFrom_singleton, Extends, ← collect_eq_1638 hdigits]
  by_cases hfit : decimal f ≤ 16383
  · rw [collect_eq_decimal hfit]
    split <;> omega
  · have hlow : 1638 ≤ collect f := le_collect hdigits (by omega)
    split <;> omega

/-- Digits after a field leave its parameter alone when none of them is taken. -/
lemma collect_append_eq {f g : List Byte} (hf : ∀ c ∈ f, digitValue c ≤ 9) (hg : ∀ c ∈ g, digitValue c ≤ 9) :
    collect (f ++ g) = collect f ↔ ∀ d ∈ g, ¬ Extends f d := by
  rw [collect, collectFrom_append, ← collect]
  induction g with
  | nil => simp [collectFrom]
  | cons d g ih =>
    have hd : digitValue d ≤ 9 := hg d List.mem_cons_self
    have hg' : ∀ c ∈ g, digitValue c ≤ 9 := fun c hc => hg c (List.mem_cons_of_mem _ hc)
    have hiff := collectFrom_singleton_ne hf hd
    rw [collectFrom_cons]
    constructor
    · intro h
      have hlow := le_collectFrom (collect f) [d]
      have hhigh := le_collectFrom (collectFrom (collect f) [d]) g
      have heq : collectFrom (collect f) [d] = collect f := by omega
      rw [heq] at h
      intro c hc
      rcases List.mem_cons.mp hc with rfl | hc
      · exact fun hext => hiff.mpr hext heq
      · exact (ih hg').mp h c hc
    · intro h
      have heq : collectFrom (collect f) [d] = collect f := by
        by_contra hne
        exact h d List.mem_cons_self (hiff.mp hne)
      rw [heq]
      exact (ih hg').mpr (fun c hc => h c (List.mem_cons_of_mem _ hc))

/-! ## Fields and parameters -/

/-- The fields between the semicolons. -/
def fields (str : List Byte) : List (List Byte) := str.splitOn semicolon

/-- The `i`th field, counted from one. -/
def field (str : List Byte) (i : ℕ) : List Byte := (fields str).getD (i - 1) []

lemma fields_ne_nil (str : List Byte) : fields str ≠ [] := List.splitOn_ne_nil _ _

lemma fields_cons_semicolon (str : List Byte) : fields (semicolon :: str) = [] :: fields str := by
  rw [fields, List.splitOn_cons_eq_if_modifyHead, if_pos (beq_self_eq_true _)]
  rfl

lemma fields_concat_semicolon (str : List Byte) : fields (str ++ [semicolon]) = fields str ++ [[]] :=
  List.splitOn_append_cons_self str []

/-- A digit goes to the last field. -/
lemma fields_concat_digit (str : List Byte) {d : Byte} (hd : d ≠ semicolon) :
    ∃ gs g, fields str = gs ++ [g] ∧ fields (str ++ [d]) = gs ++ [g ++ [d]] := by
  induction str with
  | nil => exact ⟨[], [], rfl, by rw [List.nil_append, fields, List.splitOn_eq_singleton (by simpa using hd.symm)]; rfl⟩
  | cons c str ih =>
    obtain ⟨gs, g, hbefore, hafter⟩ := ih
    rw [fields] at hbefore hafter
    rw [List.cons_append, fields, fields, List.splitOn_cons_eq_if_modifyHead, List.splitOn_cons_eq_if_modifyHead,
      hbefore, hafter]
    by_cases hc : (c == semicolon) = true
    · rw [if_pos hc, if_pos hc]
      exact ⟨[] :: gs, g, rfl, rfl⟩
    · rw [if_neg hc, if_neg hc]
      cases gs with
      | nil => exact ⟨[], c :: g, rfl, rfl⟩
      | cons f gs => exact ⟨(c :: f) :: gs, g, rfl, rfl⟩

lemma flatten_fields (str : List Byte) : (fields str).flatten = str.filter (· ≠ semicolon) := by
  induction str with
  | nil => rfl
  | cons c str ih =>
    rw [fields] at ih
    rw [fields, List.splitOn_cons_eq_if_modifyHead]
    by_cases hc : c = semicolon
    · simp [hc, ih]
    · have hne := List.splitOn_ne_nil semicolon str
      generalize str.splitOn semicolon = gs at ih hne
      cases gs with
      | nil => exact absurd rfl hne
      | cons g gs => simpa [hc] using ih

lemma digitValue_le {c : Byte} (h : IsParamChar c) (hc : c ≠ semicolon) : digitValue c ≤ 9 := by
  have hrange : 0x30 ≤ c ∧ c ≤ 0x39 := h.resolve_right hc
  have hdigit : ∀ c : Byte, 0x30 ≤ c → c ≤ 0x39 → digitValue c ≤ 9 := by decide
  exact hdigit c hrange.1 hrange.2

lemma digits_of_mem_fields {str f : List Byte} (hstr : ∀ c ∈ str, IsParamChar c) (hf : f ∈ fields str) :
    ∀ c ∈ f, digitValue c ≤ 9 := by
  intro c hc
  have hmem : c ∈ str.filter (· ≠ semicolon) := by
    rw [← flatten_fields]
    exact List.mem_flatten_of_mem hf hc
  rw [List.mem_filter] at hmem
  exact digitValue_le (hstr c hmem.1) (by simpa using hmem.2)

lemma digits_of_field {str : List Byte} (hstr : ∀ c ∈ str, IsParamChar c) (i : ℕ) :
    ∀ c ∈ field str i, digitValue c ≤ 9 := by
  by_cases hi : i - 1 < (fields str).length
  · apply digits_of_mem_fields hstr
    rw [field, List.getD_eq_getElem _ _ hi]
    exact List.getElem_mem hi
  · rw [field, List.getD_eq_default _ _ (by omega)]
    simp

/-- The digits that go to the `i`th parameter: to the last one those of all remaining fields. -/
def slot (gs : List (List Byte)) (i : ℕ) : List Byte := if i < 16 then gs.getD (i - 1) [] else (gs.drop 15).flatten

lemma slot_concat_nil (gs : List (List Byte)) (i : ℕ) : slot (gs ++ [[]]) i = slot gs i := by
  rw [slot, slot]
  by_cases hi : i < 16
  · rw [if_pos hi, if_pos hi]
    by_cases hlt : i - 1 < gs.length
    · rw [List.getD_append _ _ _ _ hlt]
    · rw [List.getD_append_right _ _ _ _ (by omega), List.getD_eq_default gs _ (by omega)]
      cases i - 1 - gs.length <;> rfl
  · rw [if_neg hi, if_neg hi, List.drop_append, List.flatten_append]
    cases 15 - gs.length <;> simp

lemma slot_concat_digit (gs : List (List Byte)) (g : List Byte) (d : Byte) {i : ℕ} (h1 : 1 ≤ i) (h16 : i ≤ 16) :
    slot (gs ++ [g ++ [d]]) i = slot (gs ++ [g]) i ++ if i = min (gs.length + 1) 16 then [d] else [] := by
  rw [slot, slot]
  by_cases hi : i < 16
  · rw [if_pos hi, if_pos hi]
    rcases Nat.lt_trichotomy (i - 1) gs.length with hlt | heq | hgt
    · rw [List.getD_append _ _ _ _ hlt, List.getD_append _ _ _ _ hlt, if_neg (by omega), List.append_nil]
    · rw [List.getD_append_right _ _ _ _ (by omega), List.getD_append_right _ _ _ _ (by omega), heq, Nat.sub_self,
        if_pos (by omega)]
      rfl
    · rw [List.getD_eq_default _ _ (by simp; omega), List.getD_eq_default _ _ (by simp; omega), if_neg (by omega)]
      rfl
  · rw [if_neg hi, if_neg hi, List.drop_append, List.drop_append, List.flatten_append, List.flatten_append]
    by_cases hlen : 15 ≤ gs.length
    · rw [show 15 - gs.length = 0 by omega, if_pos (by omega)]
      simp
    · rw [if_neg (by omega)]
      obtain ⟨k, hk⟩ : ∃ k, 15 - gs.length = k + 1 := ⟨15 - gs.length - 1, by omega⟩
      rw [hk]
      simp

/-! ## The parser -/

/-- The parser state after parameter characters. -/
def feed (fsm : TerminalState) (str : List Byte) : TerminalState := str.foldl (fun fsm c => fsm.csiAddParam c) fsm

/-- The parser state with an empty first parameter. -/
def started (fsm : TerminalState) : TerminalState := { fsm with csiParamIdx := 1 }

lemma csiAddParam_semicolon (fsm : TerminalState) :
    (fsm.csiAddParam semicolon).csiParamIdx.val = min (fsm.csiParamIdx.val + 1) 16 ∧
      (fsm.csiAddParam semicolon).csiParams = fsm.csiParams := by
  have hidx := fsm.csiParamIdx.isLt
  rw [TerminalState.csiAddParam, if_pos rfl]
  by_cases h : fsm.csiParamIdx.val = 16
  · rw [dif_pos h]
    exact ⟨by omega, rfl⟩
  · rw [dif_neg h]
    exact ⟨by simp only; omega, rfl⟩

lemma csiAddParam_digit {fsm : TerminalState} {d : Byte} (hd : d ≠ semicolon) (hidx : fsm.csiParamIdx ≠ 0) :
    (fsm.csiAddParam d).csiParamIdx = fsm.csiParamIdx ∧
      ∀ i, ((fsm.csiAddParam d).csiParams i).val =
        collectFrom (fsm.csiParams i).val (if i.val = fsm.csiParamIdx then [d] else []) := by
  rw [TerminalState.csiAddParam, if_neg hd, dif_neg hidx]
  by_cases hfit : (fsm.csiParams ⟨fsm.csiParamIdx, hidx⟩).val * 10 + digitValue d ≤ 16383
  · simp only [dif_pos hfit]
    refine ⟨trivial, fun i => ?_⟩
    by_cases hi : i.val = fsm.csiParamIdx
    · have hi' : i = ⟨fsm.csiParamIdx, hidx⟩ := Subtype.ext hi
      rw [hi', Function.update_self, if_pos rfl, collectFrom_singleton, if_pos hfit]
    · rw [Function.update_of_ne (fun h => hi (congrArg Subtype.val h)), if_neg hi]
      rfl
  · simp only [dif_neg hfit]
    refine ⟨trivial, fun i => ?_⟩
    by_cases hi : i.val = fsm.csiParamIdx
    · have hi' : i = ⟨fsm.csiParamIdx, hidx⟩ := Subtype.ext hi
      rw [hi', if_pos rfl, collectFrom_singleton, if_neg hfit]
    · rw [if_neg hi]
      rfl

/-- What the parser has collected once the first parameter is open. -/
lemma feed_started {fsm : TerminalState} (hidx : fsm.csiParamIdx = 1) (hzero : ∀ i, (fsm.csiParams i).val = 0)
    (str : List Byte) :
    (feed fsm str).csiParamIdx.val = min (fields str).length 16 ∧
      ∀ i, ((feed fsm str).csiParams i).val = collect (slot (fields str) i.val.val) := by
  induction str using List.reverseRecOn with
  | nil =>
    refine ⟨congrArg Fin.val hidx, fun i => (hzero i).trans ?_⟩
    have hslot : slot (fields []) i.val.val = [] := by
      have hnil := slot_concat_nil [] i.val.val
      rw [List.nil_append] at hnil
      apply hnil.trans
      rw [slot]
      split <;> rfl
    rw [hslot]
    rfl
  | append_singleton str c ih =>
    have hfeed : feed fsm (str ++ [c]) = (feed fsm str).csiAddParam c :=
      List.foldl_concat _ _ _ _
    rw [hfeed]
    by_cases hc : c = semicolon
    · subst hc
      obtain ⟨hnext, hkept⟩ := csiAddParam_semicolon (feed fsm str)
      rw [hnext, hkept, ih.1, fields_concat_semicolon]
      refine ⟨by rw [List.length_append, List.length_singleton]; omega, fun i => ?_⟩
      rw [slot_concat_nil]
      exact ih.2 i
    · obtain ⟨gs, g, hbefore, hafter⟩ := fields_concat_digit str hc
      have hlen : (fields str).length = gs.length + 1 := by rw [hbefore, List.length_append, List.length_singleton]
      have hne : (feed fsm str).csiParamIdx ≠ 0 := by
        intro h
        have hval := congrArg Fin.val h
        rw [ih.1, hlen] at hval
        simp at hval
      obtain ⟨hsame, hparams⟩ := csiAddParam_digit hc hne
      rw [hsame, ih.1, hafter, hlen]
      refine ⟨by rw [List.length_append, List.length_singleton], fun i => ?_⟩
      have hi1 : 1 ≤ i.val.val := Nat.one_le_iff_ne_zero.mpr (fun h => i.property (Fin.ext h))
      have hi16 : i.val.val ≤ 16 := by omega
      have hiff : i.val = (feed fsm str).csiParamIdx ↔ i.val.val = min (gs.length + 1) 16 := by
        rw [Fin.ext_iff, ih.1, hlen]
      rw [hparams i, ih.2 i, hbefore, slot_concat_digit gs g c hi1 hi16]
      simp only [hiff]
      exact (collectFrom_append 0 _ _).symm

/-- The first digit opens the first parameter. -/
lemma csiAddParam_started {f : TerminalState} {d : Byte} (hd : d ≠ semicolon) (hidx : f.csiParamIdx = 0)
    (hzero : (f.csiParams TerminalState.firstParam).val = 0) : f.csiAddParam d = (started f).csiAddParam d := by
  have hlt := digitValue_lt d
  have hone : (started f).csiParamIdx ≠ 0 := fun h => absurd (congrArg Fin.val h) Nat.one_ne_zero
  have hvalue : ((started f).csiParams ⟨(started f).csiParamIdx, hone⟩).val * 10 + digitValue d = digitValue d := by
    have hsame : (started f).csiParams ⟨(started f).csiParamIdx, hone⟩ = f.csiParams TerminalState.firstParam := rfl
    rw [hsame, hzero, Nat.zero_mul, Nat.zero_add]
  rw [TerminalState.csiAddParam, TerminalState.csiAddParam, if_neg hd, if_neg hd, dif_pos hidx, dif_neg hone]
  simp only [hvalue]
  rw [dif_pos (by omega)]
  rfl

/-- The parser state when the final byte is dispatched. -/
def dispatched (str : List Byte) : TerminalState :=
  feed { nullState with state := if str = [] then .ground else .csiParam } str

lemma dispatched_digit {c : Byte} (hne : c ≠ semicolon) (cs : List Byte) :
    (dispatched (c :: cs)).csiParamIdx.val = min (fields (c :: cs)).length 16 ∧
      ∀ i, ((dispatched (c :: cs)).csiParams i).val = collect (slot (fields (c :: cs)) i.val.val) := by
  have hfirst := csiAddParam_started (f := { nullState with state := .csiParam }) hne rfl rfl
  have hfeed : dispatched (c :: cs) = feed (started { nullState with state := .csiParam }) (c :: cs) := by
    rw [dispatched, feed, feed, List.foldl_cons, List.foldl_cons, if_neg (List.cons_ne_nil c cs), hfirst]
  rw [hfeed]
  exact feed_started rfl (fun _ => rfl) _

/-- The leading semicolon only opens the first parameter. -/
lemma dispatched_semicolon (cs : List Byte) :
    (dispatched (semicolon :: cs)).csiParamIdx.val = min (fields cs).length 16 ∧
      ∀ i, ((dispatched (semicolon :: cs)).csiParams i).val = collect (slot (fields cs) i.val.val) := by
  have hfirst : ({ nullState with state := .csiParam } : TerminalState).csiAddParam semicolon =
      started { nullState with state := .csiParam } := rfl
  have hfeed : dispatched (semicolon :: cs) = feed (started { nullState with state := .csiParam }) cs := by
    rw [dispatched, feed, List.foldl_cons, if_neg (List.cons_ne_nil semicolon cs), hfirst]
    rfl
  rw [hfeed]
  exact feed_started rfl (fun _ => rfl) _

/-! ## Parameters as fields -/

/-- The first sixteen fields of a string. -/
def firstFields (str : List Byte) : List Byte := [semicolon].intercalate ((fields str).take 16)

/-- The parameters are the fields of the string. -/
structure FieldsParsed (str : List Byte) (fsm : TerminalState) : Prop where
  count : fsm.csiParamIdx.val = if str = [] then 0 else min (fields str).length 16
  value : ∀ i : CSIParamRange, i.val.val ≤ (fields str).length → decimal (field str i.val.val) ≤ 16383 →
    (fsm.csiParams i).val = decimal (field str i.val.val)
  clamped : ∀ i : CSIParamRange, i.val.val ≤ (fields str).length → 16383 < decimal (field str i.val.val) →
    toHeight (fsm.csiParams i) = Height.last ∧ toWidth (fsm.csiParams i) = Width.last
  extra : fsm.csiParams = (dispatched (firstFields str)).csiParams

/-- The strings that the parser splits into their fields: those that do not start with a semicolon and where no digit
after the sixteenth field goes into its parameter, and those of more than sixteen fields that hold no digit but
zeros. -/
def FieldsOk (str : List Byte) : Prop :=
  (str.head? ≠ some semicolon ∧ ∀ d ∈ ((fields str).drop 16).flatten, ¬ Extends (field str 16) d) ∨
  (str.head? = some semicolon ∧ 16 < (fields str).length ∧ ∀ c ∈ str, c ≠ semicolon → digitValue c = 0)

lemma last_of_le {p : CSIParamValue} (h : 1638 ≤ p.val) : toHeight p = Height.last ∧ toWidth p = Width.last := by
  rw [toHeight, toWidth, if_neg (by omega), if_neg (by omega), dif_neg (by omega), dif_neg (by omega)]
  exact ⟨rfl, rfl⟩

lemma collect_zeros {f : List Byte} (h : ∀ c ∈ f, digitValue c = 0) : collect f = 0 := by
  induction f with
  | nil => rfl
  | cons c f ih =>
    have hc : collectFrom 0 [c] = 0 := by
      rw [collectFrom_singleton, h c List.mem_cons_self]
      rfl
    rw [collect, collectFrom_cons, hc]
    exact ih (fun c hc => h c (List.mem_cons_of_mem _ hc))

lemma zeros_of_collect {f : List Byte} (hdigits : ∀ c ∈ f, digitValue c ≤ 9) (h : collect f = 0) :
    ∀ c ∈ f, digitValue c = 0 := by
  induction f using List.reverseRecOn with
  | nil => simp
  | append_singleton f d ih =>
    have hf : ∀ c ∈ f, digitValue c ≤ 9 := fun c hc => hdigits c (List.mem_append_left _ hc)
    have hd : digitValue d ≤ 9 := hdigits d (by simp)
    rw [collect, collectFrom_append, collectFrom_singleton, ← collect] at h
    have hzero : collect f = 0 := by
      by_cases htake : collect f * 10 + digitValue d ≤ 16383
      · rw [if_pos htake] at h
        omega
      · rwa [if_neg htake] at h
    rw [hzero, if_pos (by omega)] at h
    intro c hc
    rcases List.mem_append.mp hc with hc | hc
    · exact ih hf hzero c hc
    · rw [List.mem_singleton.mp hc]
      omega

lemma decimal_zeros {f : List Byte} (h : ∀ c ∈ f, digitValue c = 0) : decimal f = 0 := by
  induction f using List.reverseRecOn with
  | nil => rfl
  | append_singleton f d ih =>
    rw [decimal, decimalFrom_concat, ← decimal, ih (fun c hc => h c (List.mem_append_left _ hc)), h d (by simp)]

lemma collect_eq_zero {f : List Byte} (hdigits : ∀ c ∈ f, digitValue c ≤ 9) : collect f = 0 ↔ decimal f = 0 := by
  constructor
  · exact fun h => decimal_zeros (zeros_of_collect hdigits h)
  · exact fun h => (collect_eq_decimal (by omega)).trans h

lemma slot_of_lt {str : List Byte} {i : ℕ} (h : i < 16) : slot (fields str) i = field str i := if_pos h

lemma slot_sixteen (str : List Byte) : slot (fields str) 16 = field str 16 ++ ((fields str).drop 16).flatten := by
  rw [slot, if_neg (by omega), field]
  by_cases hlen : 15 < (fields str).length
  · rw [List.getD_eq_getElem _ _ hlen, List.drop_eq_getElem_cons hlen]
    rfl
  · rw [List.getD_eq_default _ _ (by omega), List.drop_eq_nil_of_le (by omega), List.drop_eq_nil_of_le (by omega)]
    rfl

lemma fields_firstFields (str : List Byte) : fields (firstFields str) = (fields str).take 16 := by
  apply List.splitOn_intercalate
  · intro f hf hmem
    have hflat := List.mem_flatten_of_mem (List.mem_of_mem_take hf) hmem
    rw [flatten_fields, List.mem_filter] at hflat
    simp at hflat
  · rw [Ne, List.take_eq_nil_iff]
    exact fun h => h.elim (by decide) (fields_ne_nil str)

lemma slot_take (gs : List (List Byte)) {i : ℕ} (h1 : 1 ≤ i) (h16 : i ≤ 16) :
    slot (gs.take 16) i = gs.getD (i - 1) [] := by
  have hget : (gs.take 16).getD (i - 1) [] = gs.getD (i - 1) [] := by
    rw [List.getD_eq_getElem?_getD, List.getD_eq_getElem?_getD, List.getElem?_take_of_lt (by omega)]
  by_cases hi : i < 16
  · rw [slot, if_pos hi, hget]
  · rw [slot, if_neg hi, ← hget, show i - 1 = 15 by omega]
    by_cases hlen : 15 < (gs.take 16).length
    · have hle : (gs.take 16).length ≤ 16 := List.length_take_le _ _
      rw [List.drop_eq_getElem_cons hlen, List.getD_eq_getElem _ _ hlen, List.drop_eq_nil_of_le (by omega)]
      simp
    · rw [List.drop_eq_nil_of_le (by omega), List.getD_eq_default _ _ (by omega)]
      rfl

lemma mem_flatten_of_mem_slot {gs : List (List Byte)} {i : ℕ} {c : Byte} (h : c ∈ slot gs i) : c ∈ gs.flatten := by
  rw [slot] at h
  by_cases hi : i < 16
  · rw [if_pos hi] at h
    by_cases hlen : i - 1 < gs.length
    · rw [List.getD_eq_getElem _ _ hlen] at h
      exact List.mem_flatten_of_mem (List.getElem_mem hlen) h
    · rw [List.getD_eq_default _ _ (by omega)] at h
      exact absurd h List.not_mem_nil
  · rw [if_neg hi] at h
    obtain ⟨f, hf, hc⟩ := List.mem_flatten.mp h
    exact List.mem_flatten_of_mem (List.mem_of_mem_drop hf) hc

lemma firstFields_digit {c : Byte} (cs : List Byte) (hne : c ≠ semicolon) :
    ∃ cs', firstFields (c :: cs) = c :: cs' := by
  rw [firstFields, fields, List.splitOn_cons_eq_if_modifyHead, if_neg (by simpa using hne)]
  have hnil := List.splitOn_ne_nil semicolon cs
  generalize cs.splitOn semicolon = gs at hnil
  cases gs with
  | nil => exact absurd rfl hnil
  | cons g gs =>
    cases h : gs.take 15 with
    | nil => exact ⟨g, by simp [List.intercalate, h]⟩
    | cons g' gs' => exact ⟨g ++ semicolon :: [semicolon].intercalate (g' :: gs'), by simp [List.intercalate, h]⟩

lemma firstFields_semicolon (cs : List Byte) : ∃ cs', firstFields (semicolon :: cs) = semicolon :: cs' := by
  rw [firstFields, fields_cons_semicolon]
  cases h : (fields cs).take 15 with
  | nil =>
    rw [List.take_eq_nil_iff] at h
    exact absurd h (fun h => h.elim (by decide) (fields_ne_nil cs))
  | cons g gs => exact ⟨[semicolon].intercalate (g :: gs), by simp [List.intercalate, h]⟩

/-- The parser has collected each field in its own parameter. -/
lemma fieldsParsed_of_collect {str : List Byte} {fsm : TerminalState} (hstr : ∀ c ∈ str, IsParamChar c)
    (hcount : fsm.csiParamIdx.val = if str = [] then 0 else min (fields str).length 16)
    (hparams : ∀ i, (fsm.csiParams i).val = collect (field str i.val.val))
    (hextra : fsm.csiParams = (dispatched (firstFields str)).csiParams) : FieldsParsed str fsm where
  count := hcount
  value := fun i _ h => (hparams i).trans (collect_eq_decimal h)
  clamped := fun i _ h => last_of_le (by rw [hparams i]; exact le_collect (digits_of_field hstr _) h)
  extra := hextra

lemma param_range (i : CSIParamRange) : 1 ≤ i.val.val ∧ i.val.val ≤ 16 :=
  ⟨Nat.one_le_iff_ne_zero.mpr (fun h => i.property (Fin.ext h)), by omega⟩

lemma fieldsParsed_digit {c : Byte} {cs : List Byte} (hstr : ∀ d ∈ c :: cs, IsParamChar d) (hne : c ≠ semicolon) :
    FieldsParsed (c :: cs) (dispatched (c :: cs)) ↔
      ∀ d ∈ ((fields (c :: cs)).drop 16).flatten, ¬ Extends (field (c :: cs) 16) d := by
  obtain ⟨hcount, hparams⟩ := dispatched_digit hne cs
  obtain ⟨cs', hfirst⟩ := firstFields_digit cs hne
  have hextra : ∀ i : CSIParamRange, ((dispatched (firstFields (c :: cs))).csiParams i).val =
      collect (field (c :: cs) i.val.val) := by
    intro i
    have hfields := fields_firstFields (c :: cs)
    rw [hfirst] at hfields ⊢
    rw [(dispatched_digit hne cs').2 i, hfields, slot_take _ (param_range i).1 (param_range i).2]
    rfl
  have hbeyond : ∀ d ∈ ((fields (c :: cs)).drop 16).flatten, digitValue d ≤ 9 := by
    intro d hd
    obtain ⟨f, hf, hdf⟩ := List.mem_flatten.mp hd
    exact digits_of_mem_fields hstr (List.mem_of_mem_drop hf) d hdf
  have hiff := collect_append_eq (digits_of_field hstr 16) hbeyond
  rw [← slot_sixteen] at hiff
  constructor
  · intro h
    apply hiff.mp
    have hsixteen := congrArg Fin.val (congrFun h.extra ⟨16, by decide⟩)
    rw [hparams, hextra] at hsixteen
    exact hsixteen
  · intro h
    have hslot : ∀ i : CSIParamRange,
        ((dispatched (c :: cs)).csiParams i).val = collect (field (c :: cs) i.val.val) := by
      intro i
      rw [hparams i]
      by_cases hi : i.val.val < 16
      · rw [slot_of_lt hi]
      · rw [show i.val.val = 16 by have := param_range i; omega]
        exact hiff.mpr h
    apply fieldsParsed_of_collect hstr
    · rw [hcount, if_neg (List.cons_ne_nil c cs)]
    · exact hslot
    · funext i
      exact Fin.ext ((hslot i).trans (hextra i).symm)

lemma field_semicolon (cs : List Byte) {i : ℕ} (h : 1 ≤ i) : field (semicolon :: cs) (i + 1) = field cs i := by
  obtain ⟨k, rfl⟩ : ∃ k, i = k + 1 := ⟨i - 1, by omega⟩
  rw [field, field, fields_cons_semicolon]
  rfl

lemma flatten_fields_semicolon (cs : List Byte) : (fields (semicolon :: cs)).flatten = (fields cs).flatten := by
  rw [fields_cons_semicolon]
  rfl

/-- Where a leading semicolon does no harm, all fields are zero: each parameter has the value of its field and of the
next one. -/
lemma zeros_of_fieldsParsed {cs : List Byte} (hstr : ∀ d ∈ semicolon :: cs, IsParamChar d)
    (h : FieldsParsed (semicolon :: cs) (dispatched (semicolon :: cs))) :
    16 < (fields (semicolon :: cs)).length ∧ ∀ c ∈ semicolon :: cs, c ≠ semicolon → digitValue c = 0 := by
  obtain ⟨hcount, hparams⟩ := dispatched_semicolon cs
  have hlen : (fields (semicolon :: cs)).length = (fields cs).length + 1 := by
    rw [fields_cons_semicolon, List.length_cons]
  have hmany : 16 ≤ (fields cs).length := by
    have hboth := h.count
    rw [hcount, if_neg (List.cons_ne_nil semicolon cs), hlen] at hboth
    omega
  have hstr' : ∀ d ∈ cs, IsParamChar d := fun d hd => hstr d (List.mem_cons_of_mem _ hd)
  have hzero : ∀ k, 1 ≤ k → k ≤ 16 → decimal (field (semicolon :: cs) k) = 0 := by
    intro k hk1
    induction k, hk1 using Nat.le_induction with
    | base =>
      intro _
      rw [field, fields_cons_semicolon]
      rfl
    | succ k hk1 ih =>
      intro hk
      have hk0 := ih (by omega)
      have hval := h.value ⟨⟨k, by omega⟩, fun heq => absurd (congrArg Fin.val heq) (by simp only [Fin.val_zero]; omega)⟩
        (by simp only; omega) (by simp only; omega)
      rw [hparams] at hval
      simp only at hval
      rw [slot_of_lt (by omega), hk0] at hval
      rw [field_semicolon cs hk1]
      exact (collect_eq_zero (digits_of_field hstr' k)).mp hval
  have hlast : collect (slot (fields cs) 16) = 0 := by
    have hk0 := hzero 16 (by omega) (by omega)
    have hval := h.value ⟨16, by decide⟩ (by simp; omega) (Nat.le_trans (Nat.le_of_eq hk0) (by omega))
    rw [hparams] at hval
    exact hval.trans hk0
  have hslot : ∀ c ∈ slot (fields cs) 16, digitValue c = 0 := by
    apply zeros_of_collect _ hlast
    intro c hc
    obtain ⟨f, hf, hcf⟩ := List.mem_flatten.mp (mem_flatten_of_mem_slot hc)
    exact digits_of_mem_fields hstr' hf c hcf
  refine ⟨by omega, fun c hc hne => ?_⟩
  have hmem : c ∈ (fields cs).flatten := by
    rw [← flatten_fields_semicolon, flatten_fields, List.mem_filter]
    exact ⟨hc, by simpa using hne⟩
  rw [← List.take_append_drop 15 (fields cs), List.flatten_append, List.mem_append] at hmem
  rcases hmem with hmem | hmem
  · obtain ⟨f, hf, hcf⟩ := List.mem_flatten.mp hmem
    obtain ⟨j, hj, rfl⟩ := List.mem_take_iff_getElem.mp hf
    have hdec := hzero (j + 1 + 1) (by omega) (by omega)
    have hfield : field (semicolon :: cs) (j + 1 + 1) = (fields cs)[j] := by
      rw [field_semicolon cs (by omega), field]
      exact List.getD_eq_getElem _ _ (by omega)
    rw [hfield] at hdec
    have hdigits := digits_of_mem_fields hstr' (List.getElem_mem (by omega : j < (fields cs).length))
    exact zeros_of_collect hdigits ((collect_eq_zero hdigits).mpr hdec) c hcf
  · apply hslot
    rw [slot, if_neg (by omega)]
    exact hmem

lemma fieldsParsed_of_zeros {cs : List Byte} (hstr : ∀ d ∈ semicolon :: cs, IsParamChar d)
    (hlen : 16 < (fields (semicolon :: cs)).length)
    (hzero : ∀ c ∈ semicolon :: cs, c ≠ semicolon → digitValue c = 0) :
    FieldsParsed (semicolon :: cs) (dispatched (semicolon :: cs)) := by
  obtain ⟨hcount, hparams⟩ := dispatched_semicolon cs
  obtain ⟨cs', hfirst⟩ := firstFields_semicolon cs
  have hflat : ∀ c ∈ (fields (semicolon :: cs)).flatten, digitValue c = 0 := by
    intro c hc
    rw [flatten_fields, List.mem_filter] at hc
    exact hzero c hc.1 (by simpa using hc.2)
  have hslot : ∀ i, ((dispatched (semicolon :: cs)).csiParams i).val = 0 := by
    intro i
    rw [hparams i]
    apply collect_zeros
    intro c hc
    apply hflat
    rw [flatten_fields_semicolon]
    exact mem_flatten_of_mem_slot hc
  have hextra : ∀ i, ((dispatched (firstFields (semicolon :: cs))).csiParams i).val = 0 := by
    intro i
    have hfields := fields_firstFields (semicolon :: cs)
    rw [hfirst] at hfields ⊢
    rw [(dispatched_semicolon cs').2 i]
    apply collect_zeros
    intro c hc
    apply hflat
    have hmem := mem_flatten_of_mem_slot hc
    rw [← flatten_fields_semicolon, hfields] at hmem
    obtain ⟨f, hf, hcf⟩ := List.mem_flatten.mp hmem
    exact List.mem_flatten_of_mem (List.mem_of_mem_take hf) hcf
  apply fieldsParsed_of_collect hstr
  · rw [hcount, if_neg (List.cons_ne_nil semicolon cs)]
    rw [fields_cons_semicolon, List.length_cons] at hlen ⊢
    omega
  · intro i
    rw [hslot i]
    symm
    apply collect_zeros
    intro c hc
    apply hflat
    by_cases hi : i.val.val - 1 < (fields (semicolon :: cs)).length
    · rw [field, List.getD_eq_getElem _ _ hi] at hc
      exact List.mem_flatten_of_mem (List.getElem_mem hi) hc
    · rw [field, List.getD_eq_default _ _ (by omega)] at hc
      exact absurd hc List.not_mem_nil
  · funext i
    exact Fin.ext ((hslot i).trans (hextra i).symm)

lemma fieldsParsed_iff {str : List Byte} (hstr : ∀ c ∈ str, IsParamChar c) :
    FieldsParsed str (dispatched str) ↔ FieldsOk str := by
  cases str with
  | nil =>
    constructor
    · exact fun _ => Or.inl ⟨by simp, by simp [fields]⟩
    · intro _
      apply fieldsParsed_of_collect (by simp) rfl
      · intro i
        have hfield : field [] i.val.val = [] := by
          rw [field, fields, List.splitOn_nil]
          cases i.val.val - 1 <;> rfl
        rw [hfield]
        rfl
      · rfl
  | cons c cs =>
    by_cases hc : c = semicolon
    · subst hc
      constructor
      · exact fun h => Or.inr ⟨rfl, zeros_of_fieldsParsed hstr h⟩
      · intro h
        rcases h with ⟨hhead, _⟩ | ⟨_, hlen, hzero⟩
        · exact absurd rfl hhead
        · exact fieldsParsed_of_zeros hstr hlen hzero
    · rw [fieldsParsed_digit hstr hc]
      constructor
      · exact fun h => Or.inl ⟨fun hhead => hc (Option.some.inj hhead), h⟩
      · intro h
        rcases h with ⟨_, h⟩ | ⟨hhead, _⟩
        · exact h
        · exact absurd (Option.some.inj hhead) hc

/-! ## Sequences -/

variable (cursorOffset : ℕ)

lemma csiAddParam_state (c : Byte) (fsm : TerminalState) : (fsm.csiAddParam c).state = fsm.state := by
  rw [TerminalState.csiAddParam]
  split
  · split <;> rfl
  · split
    · rfl
    · simp only
      split <;> rfl

lemma foldlM_update_csiParam {t : Terminal} {str : List Byte} (hparam : t.fsm.state = .csiParam)
    (hstr : ∀ c ∈ str, IsParamChar c) : str.foldlM (update cursorOffset) t = some { t with fsm := feed t.fsm str } := by
  induction str generalizing t with
  | nil => rfl
  | cons c str ih =>
    have hstep : update cursorOffset t c = some { t with fsm := t.fsm.csiAddParam c } := by
      rw [update, hparam]
      simp only
      rw [updateCSIParam, if_pos (hstr c List.mem_cons_self)]
    rw [List.foldlM_cons, hstep]
    exact ih ((csiAddParam_state c t.fsm).trans hparam) (fun d hd => hstr d (List.mem_cons_of_mem _ hd))

lemma feed_state (fsm : TerminalState) (str : List Byte) : (feed fsm str).state = fsm.state := by
  induction str using List.reverseRecOn with
  | nil => rfl
  | append_singleton str c ih =>
    rw [feed, List.foldl_concat]
    exact (csiAddParam_state _ _).trans ih

lemma dispatched_state (str : List Byte) : (dispatched str).state = if str = [] then .ground else .csiParam :=
  feed_state _ _

/-- The parser state before the final byte. -/
def collected (str : List Byte) : TerminalState :=
  { dispatched str with state := if str = [] then .csiEntry else .csiParam }

/-- The control function of a sequence runs with the parameters that `dispatched` gives. -/
lemma update_sequence {t : Terminal} {str : List Byte} (hground : t.fsm.state = .ground)
    (hstr : ∀ c ∈ str, IsParamChar c) {final : Byte} (hfinal : 0x40 ≤ final ∧ final ≤ 0x7e) :
    (0x1b :: 0x5b :: str).foldlM (update cursorOffset) t = some ⟨collected str, t.vga⟩ ∧
      update cursorOffset ⟨collected str, t.vga⟩ final = dispatchFinal cursorOffset final ⟨dispatched str, t.vga⟩ := by
  have hnot : ¬ IsParamChar final := by
    have hall : ∀ c : Byte, 0x40 ≤ c → ¬ IsParamChar c := by decide
    exact hall final hfinal.1
  have hnot' : ¬ (0x3c ≤ final ∧ final ≤ 0x3f) := by
    have hall : ∀ c : Byte, 0x40 ≤ c → ¬ (0x3c ≤ c ∧ c ≤ 0x3f) := by decide
    exact hall final hfinal.1
  have hescape : update cursorOffset t 0x1b = some { t with fsm := { t.fsm with state := .escape } } := by
    rw [update, hground]
    rfl
  have hentry : update cursorOffset { t with fsm := { t.fsm with state := .escape } } 0x5b =
      some { t with fsm := { nullState with state := .csiEntry } } := rfl
  rw [List.foldlM_cons, hescape, Option.bind_eq_bind, Option.bind_some, List.foldlM_cons, hentry,
    Option.bind_eq_bind, Option.bind_some]
  cases str with
  | nil =>
    refine ⟨rfl, ?_⟩
    change updateCSIEntry cursorOffset final ⟨collected [], t.vga⟩ = _
    rw [updateCSIEntry, if_neg hnot, if_neg hnot', if_pos hfinal]
    rfl
  | cons c cs =>
    have hc := hstr c List.mem_cons_self
    have hstep : update cursorOffset { t with fsm := { nullState with state := .csiEntry } } c =
        some { t with fsm := ({ nullState with state := .csiParam } : TerminalState).csiAddParam c } := by
      simp only [update]
      rw [updateCSIEntry, if_pos hc]
    have hstate : (({ nullState with state := .csiParam } : TerminalState).csiAddParam c).state = .csiParam :=
      csiAddParam_state _ _
    rw [List.foldlM_cons, hstep, Option.bind_eq_bind, Option.bind_some,
      foldlM_update_csiParam cursorOffset hstate (fun d hd => hstr d (List.mem_cons_of_mem _ hd))]
    have hfeed : feed (({ nullState with state := .csiParam } : TerminalState).csiAddParam c) cs =
        dispatched (c :: cs) := by
      rw [dispatched, if_neg (List.cons_ne_nil c cs)]
      rfl
    have hparam : (dispatched (c :: cs)).state = .csiParam := by
      rw [dispatched_state, if_neg (List.cons_ne_nil c cs)]
    have hcollected : collected (c :: cs) = dispatched (c :: cs) := by
      unfold collected
      rw [if_neg (List.cons_ne_nil c cs), ← hparam]
    rw [hfeed, hcollected]
    refine ⟨rfl, ?_⟩
    rw [update]
    simp only [hparam]
    rw [updateCSIParam, if_neg hnot, if_pos hfinal]

/-- The state of the automaton does not matter for the parameters. -/
lemma fieldsParsed_collected {str : List Byte} : FieldsParsed str (collected str) ↔ FieldsParsed str (dispatched str) :=
  ⟨fun h => ⟨h.count, h.value, h.clamped, h.extra⟩, fun h => ⟨h.count, h.value, h.clamped, h.extra⟩⟩

/-- **Parameters of a control sequence.** For all digits and semicolons between `ESC [` and a final byte, the control
function runs with the fields as its parameters exactly when the string does not start with a semicolon and no digit
beyond the sixteenth field goes into its parameter, or when it has more than sixteen fields and no digit but zeros. -/
theorem csiDispatch_fields (t : Terminal) (str : List Byte) (final : Byte) (hground : t.fsm.state = .ground)
    (hstr : ∀ c ∈ str, IsParamChar c) (hfinal : 0x40 ≤ final ∧ final ≤ 0x7e) :
    ∃ t', (0x1b :: 0x5b :: str).foldlM (update cursorOffset) t = some t' ∧
      t'.vga = t.vga ∧ update cursorOffset t' final = dispatchFinal cursorOffset final
        { t' with fsm := { t'.fsm with state := if str = [] then .ground else .csiParam } } ∧
      (FieldsParsed str t'.fsm ↔ FieldsOk str) := by
  obtain ⟨hrun, hfin⟩ := update_sequence cursorOffset hground hstr hfinal
  refine ⟨⟨collected str, t.vga⟩, hrun, rfl, ?_, fieldsParsed_collected.trans (fieldsParsed_iff hstr)⟩
  rw [hfin, ← dispatched_state]
  rfl

/-- A console after `Init`, with its cursor in the first cell. -/
def blankConsole : ConsoleVGA :=
  ⟨Width.first, Height.first, .lightGrey, .black, Height.first, Height.last, fun _ _ => ⟨space, .lightGrey, .black⟩,
    false, 0, 0⟩

/-- The sequence `ESC [ 5 ; 7 H`. -/
theorem csiDispatch_fields_position :
    ∃ t', ([0x1b, 0x5b, 0x35, 0x3b, 0x37] : List Byte).foldlM (update 0) ⟨nullState, blankConsole⟩ = some t' ∧
      t'.vga = blankConsole ∧
      update 0 t' 0x48 = dispatchFinal 0 0x48 { t' with fsm := { t'.fsm with state := .csiParam } } ∧
      (FieldsParsed [0x35, 0x3b, 0x37] t'.fsm ↔ FieldsOk [0x35, 0x3b, 0x37]) :=
  csiDispatch_fields 0 ⟨nullState, blankConsole⟩ [0x35, 0x3b, 0x37] 0x48 rfl (by decide) (by decide)

/-- The sequence `ESC [ ; 5 H` has an empty first field and the second field 5, but one parameter with the value 5. -/
theorem csiDispatch_leading_semicolon :
    ∃ t', ([0x1b, 0x5b, 0x3b, 0x35] : List Byte).foldlM (update 0) ⟨nullState, blankConsole⟩ = some t' ∧
      update 0 t' 0x48 = dispatchFinal 0 0x48 t' ∧ t'.fsm.csiParamIdx = 1 ∧ ¬ FieldsParsed [0x3b, 0x35] t'.fsm := by
  have hstr : ∀ c ∈ ([0x3b, 0x35] : List Byte), IsParamChar c := by decide
  have hstart : (⟨nullState, blankConsole⟩ : Terminal).fsm.state = .ground := rfl
  obtain ⟨hrun, hfinal⟩ := update_sequence 0 hstart hstr (by decide : (0x40 : Byte) ≤ 0x48 ∧ (0x48 : Byte) ≤ 0x7e)
  refine ⟨⟨collected [0x3b, 0x35], blankConsole⟩, hrun, hfinal, by decide, fun h => ?_⟩
  have hcount := h.count
  revert hcount
  decide

end Muen.Components.Vt
