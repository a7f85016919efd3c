import Muen.Components.Dm.PciconfSpec
import Mathlib.Data.Finset.Dedup

/-!
# MSI rules

The rules that `Init` appends for the capabilities of a device, compared with the fields that the message control
words of its MSI and MSI-X capabilities declare. The table is filled from the front; a rule at the last offset looks
like a free slot and is overwritten by the next rule for a new offset.
-/

namespace Muen.Components.Dm

open Lib (Byte)

/-! ## Filling the table -/

/-- The offsets of rules. -/
def offsets (rules : List Rule) : List Offset := rules.map (·.offset)

lemma mem_offsets {o : Offset} {rules : List Rule} : o ∈ offsets rules ↔ ∃ r ∈ rules, r.offset = o := List.mem_map

lemma offset_mem_offsets {r : Rule} {rules : List Rule} (h : r ∈ rules) : r.offset ∈ offsets rules :=
  List.mem_map_of_mem h

/-- A rule for an offset that the table has. -/
lemma appendRule_of_mem {r : Rule} {used : List Rule} (rest : List Rule) (hused : ∀ u ∈ used, u.offset ≠ 0xFF)
    (hmem : r.offset ∈ offsets used) :
    ∃ used', appendRule (used ++ rest) r = used' ++ rest ∧ offsets used' = offsets used ∧
      (∀ u ∈ used', u = r ∨ u ∈ used) ∧ r ∈ used' ∧ ∀ u ∈ used, u.offset ≠ r.offset → u ∈ used' := by
  induction used with
  | nil => exact absurd hmem List.not_mem_nil
  | cons u used ih =>
    have hu := hused u List.mem_cons_self
    rw [List.cons_append, appendRule]
    by_cases heq : r.offset = u.offset
    · rw [if_pos (Or.inr heq)]
      refine ⟨r :: used, rfl, ?_, fun v hv => ?_, List.mem_cons_self, fun v hv hne => ?_⟩
      · rw [offsets, offsets, List.map_cons, List.map_cons, heq]
      · exact (List.mem_cons.mp hv).imp_right (List.mem_cons_of_mem _)
      · rcases List.mem_cons.mp hv with rfl | hv
        · exact absurd heq.symm hne
        · exact List.mem_cons_of_mem _ hv
    · rw [if_neg (fun h => h.elim hu heq)]
      have hmem' : r.offset ∈ offsets used := by
        rw [offsets, List.map_cons, List.mem_cons] at hmem
        exact hmem.resolve_left heq
      obtain ⟨used', hrun, hoff, hold, hnew, hkept⟩ := ih (fun v hv => hused v (List.mem_cons_of_mem _ hv)) hmem'
      refine ⟨u :: used', by rw [hrun, List.cons_append], ?_, fun v hv => ?_, List.mem_cons_of_mem _ hnew,
        fun v hv hne => ?_⟩
      · rw [offsets, offsets, List.map_cons, List.map_cons]
        exact congrArg _ hoff
      · rcases List.mem_cons.mp hv with rfl | hv
        · exact Or.inr List.mem_cons_self
        · exact (hold v hv).imp_right (List.mem_cons_of_mem _)
      · rcases List.mem_cons.mp hv with rfl | hv
        · exact List.mem_cons_self
        · exact List.mem_cons_of_mem _ (hkept v hv hne)

/-- A rule for another offset goes to the first free slot. -/
lemma appendRule_of_notMem {r : Rule} {used : List Rule} (rest : List Rule) (hused : ∀ u ∈ used, u.offset ≠ 0xFF)
    (hmem : r.offset ∉ offsets used) : appendRule (used ++ rest) r = used ++ appendRule rest r := by
  induction used with
  | nil => rfl
  | cons u used ih =>
    rw [offsets, List.map_cons, List.mem_cons, not_or] at hmem
    rw [List.cons_append, appendRule, if_neg (fun h => h.elim (hused u List.mem_cons_self) hmem.1),
      ih (fun v hv => hused v (List.mem_cons_of_mem _ hv)) hmem.2]
    rfl

/-- A rule at the last offset that only rules for known offsets follow. -/
def LastKept (rules : List Rule) : Prop :=
  ∃ before r after, rules = before ++ r :: after ∧ r.offset = 0xFF ∧
    ∀ r' ∈ after, r'.offset = 0xFF ∨ r'.offset ∈ offsets before

/-- The slots of the table after rules have been appended: those in use, then the free ones, the first of which may
hold a rule at the last offset. -/
structure Slots (appended table used free : List Rule) : Prop where
  split : table = used ++ free
  length : table.length = 12
  nodup : (offsets used).Nodup
  notLast : ∀ u ∈ used, u.offset ≠ 0xFF
  used_mem : ∀ u ∈ used, u ∈ appended
  tail : ∀ e ∈ free.tail, e = nullRule
  head : ∀ e ∈ free.head?, e = nullRule ∨
    ∃ before after, appended = before ++ e :: after ∧ e.offset = 0xFF ∧ (∀ u ∈ used, u.offset ∈ offsets before) ∧
      ∀ r ∈ after, r.offset = 0xFF ∨ r.offset ∈ offsets before

lemma Slots.start : Slots [] (List.replicate 12 nullRule) [] (List.replicate 12 nullRule) where
  split := rfl
  length := List.length_replicate
  nodup := List.nodup_nil
  notLast := by simp
  used_mem := by simp
  tail := by simp
  head := by simp

lemma appendRule_length (rules : List Rule) (r : Rule) : (appendRule rules r).length = rules.length := by
  induction rules with
  | nil => rfl
  | cons u rules ih =>
    rw [appendRule]
    split
    · rfl
    · rw [List.length_cons, ih, List.length_cons]

lemma Slots.free_offset {appended table used free : List Rule} (h : Slots appended table used free) {e : Rule}
    {rest : List Rule} (hfree : free = e :: rest) : e.offset = 0xFF := by
  rcases h.head e (by rw [hfree]; rfl) with rfl | ⟨_, _, _, hlast, _⟩
  · rfl
  · exact hlast

/-- A rule for an offset in use, where the slots stay as they are. -/
lemma Slots.append_mem {appended table used free : List Rule} (h : Slots appended table used free) {r : Rule}
    (hmem : r.offset ∈ offsets used) :
    ∃ used', Slots (appended ++ [r]) (appendRule table r) used' free ∧ r ∈ used' ∧
      ∀ u ∈ used, u.offset ≠ r.offset → u ∈ used' := by
  obtain ⟨used', hrun, hoff, hold, hnew, hkept⟩ := appendRule_of_mem free h.notLast hmem
  have hoffset : ∀ u ∈ used', u.offset ∈ offsets used := fun u hu => hoff ▸ offset_mem_offsets hu
  refine ⟨used', ⟨by rw [h.split, hrun], by rw [appendRule_length, h.length], hoff ▸ h.nodup, fun u hu => ?_,
    fun u hu => ?_, h.tail, fun e he => ?_⟩, hnew, hkept⟩
  · obtain ⟨v, hv, heq⟩ := mem_offsets.mp (hoffset u hu)
    exact heq ▸ h.notLast v hv
  · rcases hold u hu with rfl | hu
    · simp
    · exact List.mem_append_left _ (h.used_mem u hu)
  · rcases h.head e he with hnull | ⟨before, after, happ, hlast, hknown, hafter⟩
    · exact Or.inl hnull
    · have hknown' : ∀ o ∈ offsets used, o ∈ offsets before := by
        intro o ho
        obtain ⟨u, hu, rfl⟩ := mem_offsets.mp ho
        exact hknown u hu
      refine Or.inr ⟨before, after ++ [r], by rw [happ]; simp, hlast, fun u hu => hknown' _ (hoffset u hu),
        fun r' hr' => ?_⟩
      rcases List.mem_append.mp hr' with hr' | hr'
      · exact hafter r' hr'
      · rw [List.mem_singleton.mp hr']
        exact Or.inr (hknown' _ hmem)

/-- A rule for a new offset takes the first free slot. -/
lemma Slots.append_new {appended table used : List Rule} {e : Rule} {rest : List Rule}
    (h : Slots appended table used (e :: rest)) {r : Rule} (hmem : r.offset ∉ offsets used) (hlast : r.offset ≠ 0xFF) :
    Slots (appended ++ [r]) (appendRule table r) (used ++ [r]) rest := by
  have hrun : appendRule table r = used ++ r :: rest := by
    rw [h.split, appendRule_of_notMem _ h.notLast hmem, appendRule, if_pos (Or.inl (h.free_offset rfl))]
  have hnull : ∀ e' ∈ rest, e' = nullRule := h.tail
  refine ⟨by rw [hrun]; simp, by rw [appendRule_length, h.length], ?_, fun u hu => ?_, fun u hu => ?_,
    fun e' he' => hnull e' (List.mem_of_mem_tail he'), fun e' he' => Or.inl (hnull e' (List.mem_of_mem_head? he'))⟩
  · rw [offsets, List.map_append, List.nodup_append]
    refine ⟨h.nodup, by simp, fun o ho o' ho' => ?_⟩
    rw [List.map_singleton, List.mem_singleton] at ho'
    rintro rfl
    exact hmem (ho' ▸ ho)
  · rcases List.mem_append.mp hu with hu | hu
    · exact h.notLast u hu
    · rw [List.mem_singleton.mp hu]
      exact hlast
  · rcases List.mem_append.mp hu with hu | hu
    · exact List.mem_append_left _ (h.used_mem u hu)
    · exact List.mem_append_right _ hu

/-- A rule at the last offset is put into the first free slot, which stays free. -/
lemma Slots.append_last {appended table used : List Rule} {e : Rule} {rest : List Rule}
    (h : Slots appended table used (e :: rest)) {r : Rule} (hlast : r.offset = 0xFF) :
    Slots (appended ++ [r]) (appendRule table r) used (r :: rest) := by
  have hmem : r.offset ∉ offsets used := by
    intro hmem
    obtain ⟨u, hu, heq⟩ := mem_offsets.mp hmem
    exact h.notLast u hu (heq.trans hlast)
  have hrun : appendRule table r = used ++ r :: rest := by
    rw [h.split, appendRule_of_notMem _ h.notLast hmem, appendRule, if_pos (Or.inl (h.free_offset rfl))]
  refine ⟨hrun, by rw [appendRule_length, h.length], h.nodup, h.notLast,
    fun u hu => List.mem_append_left _ (h.used_mem u hu), h.tail, fun e' he' => Or.inr ?_⟩
  obtain rfl : r = e' := by simpa using he'
  exact ⟨appended, [], rfl, hlast, fun u hu => offset_mem_offsets (h.used_mem u hu), by simp⟩

/-- Without a free slot a rule for a new offset is lost. -/
lemma Slots.append_full {appended table used : List Rule} (h : Slots appended table used []) {r : Rule}
    (hmem : r.offset ∉ offsets used) : Slots (appended ++ [r]) (appendRule table r) used [] := by
  have hrun : appendRule table r = table := by
    rw [h.split, appendRule_of_notMem _ h.notLast hmem]
    rfl
  rw [hrun]
  exact ⟨h.split, h.length, h.nodup, h.notLast, fun u hu => List.mem_append_left _ (h.used_mem u hu), h.tail, by simp⟩

lemma slots_foldl (appended : List Rule) :
    ∃ used free, Slots appended (appended.foldl appendRule (List.replicate 12 nullRule)) used free := by
  induction appended using List.reverseRecOn with
  | nil => exact ⟨[], _, Slots.start⟩
  | append_singleton appended r ih =>
    obtain ⟨used, free, h⟩ := ih
    rw [List.foldl_concat]
    by_cases hmem : r.offset ∈ offsets used
    · obtain ⟨used', h', _⟩ := h.append_mem hmem
      exact ⟨used', free, h'⟩
    · cases free with
      | nil => exact ⟨used, [], h.append_full hmem⟩
      | cons e rest =>
        by_cases hlast : r.offset = 0xFF
        · exact ⟨used, r :: rest, h.append_last hlast⟩
        · exact ⟨used ++ [r], rest, h.append_new hmem hlast⟩

/-- The table has room for all rules: one rule for each offset, at most twelve offsets, and a rule at the last offset
that is not overwritten. -/
structure RulesFit (rules : List Rule) : Prop where
  consistent : ∀ r ∈ rules, ∀ r' ∈ rules, r.offset = r'.offset → r = r'
  few : (offsets rules).toFinset.card ≤ 12
  last : 0xFF ∈ offsets rules → LastKept rules

lemma Slots.head_of_mem {appended table used free : List Rule} (h : Slots appended table used free) {r : Rule}
    (hr : r ∈ free) (hne : r ≠ nullRule) : free.head? = some r := by
  cases free with
  | nil => exact absurd hr List.not_mem_nil
  | cons e rest =>
    rcases List.mem_cons.mp hr with rfl | hr
    · rfl
    · exact absurd (h.tail r hr) hne

lemma Slots.offset_of_mem_free {appended table used free : List Rule} (h : Slots appended table used free) {r : Rule}
    (hr : r ∈ free) (hne : r ≠ nullRule) : r.offset = 0xFF := by
  rcases h.head r (h.head_of_mem hr hne) with hnull | ⟨_, _, _, hlast, _⟩
  · exact absurd hnull hne
  · exact hlast

/-- A table that holds all rules had room for them. -/
lemma rulesFit_of_mem {rules : List Rule} (hne : ∀ r ∈ rules, r ≠ nullRule)
    (hall : ∀ r ∈ rules, r ∈ rules.foldl appendRule (List.replicate 12 nullRule)) : RulesFit rules := by
  obtain ⟨used, free, h⟩ := slots_foldl rules
  generalize rules.foldl appendRule (List.replicate 12 nullRule) = table at h hall
  have hsplit : ∀ r ∈ rules, r ∈ used ∨ r ∈ free := by
    intro r hr
    have hmem := hall r hr
    rw [h.split] at hmem
    exact List.mem_append.mp hmem
  refine ⟨fun r hr r' hr' heq => ?_, ?_, fun hlast => ?_⟩
  · rcases hsplit r hr with hu | hf
    · rcases hsplit r' hr' with hu' | hf'
      · exact List.inj_on_of_nodup_map h.nodup hu hu' heq
      · exact absurd (heq.trans (h.offset_of_mem_free hf' (hne r' hr'))) (h.notLast r hu)
    · rcases hsplit r' hr' with hu' | hf'
      · exact absurd (heq.symm.trans (h.offset_of_mem_free hf (hne r hr))) (h.notLast r' hu')
      · have hhead := h.head_of_mem hf (hne r hr)
        rw [h.head_of_mem hf' (hne r' hr')] at hhead
        exact (Option.some.inj hhead).symm
  · have hsub : (offsets rules).toFinset ⊆ (offsets table).toFinset := by
      intro o ho
      rw [List.mem_toFinset] at ho ⊢
      obtain ⟨r, hr, rfl⟩ := mem_offsets.mp ho
      exact offset_mem_offsets (hall r hr)
    have hle := Finset.card_le_card hsub
    have hlen := List.toFinset_card_le (offsets table)
    rw [offsets, List.length_map, h.length] at hlen
    exact Nat.le_trans hle hlen
  · obtain ⟨r, hr, hoff⟩ := mem_offsets.mp hlast
    have hf : r ∈ free := (hsplit r hr).resolve_left (fun hu => h.notLast r hu hoff)
    rcases h.head r (h.head_of_mem hf (hne r hr)) with hnull | ⟨before, after, happ, hoff', _, hafter⟩
    · exact absurd hnull (hne r hr)
    · exact ⟨before, r, after, happ, hoff', hafter⟩

/-- One more of the rules that fit. -/
lemma Slots.append_fit {rules appended table used free : List Rule} (hfit : RulesFit rules)
    (h : Slots appended table used free) (hsub : ∀ r ∈ appended, r ∈ rules)
    (hkept : ∀ r ∈ appended, r.offset ≠ 0xFF → r ∈ used) {r : Rule} (hr : r ∈ rules) :
    ∃ used' free', Slots (appended ++ [r]) (appendRule table r) used' free' ∧
      (∀ u ∈ appended ++ [r], u.offset ≠ 0xFF → u ∈ used') ∧ (r.offset = 0xFF → free'.head? = some r) ∧
      (r.offset ≠ 0xFF → r.offset ∈ offsets appended → free' = free) := by
  by_cases hmem : r.offset ∈ offsets used
  · obtain ⟨used', h', hnew, hold⟩ := h.append_mem hmem
    refine ⟨used', free, h', fun u hu hlast => ?_, fun hlast => ?_, fun _ _ => rfl⟩
    · rcases List.mem_append.mp hu with hu | hu
      · by_cases heq : u.offset = r.offset
        · rw [hfit.consistent u (hsub u hu) r hr heq]
          exact hnew
        · exact hold u (hkept u hu hlast) heq
      · rw [List.mem_singleton.mp hu]
        exact hnew
    · obtain ⟨u, hu, heq⟩ := mem_offsets.mp hmem
      exact absurd (heq.trans hlast) (h.notLast u hu)
  · cases free with
    | nil =>
      have hlen : used.length = 12 := by
        have h12 := h.length
        rw [h.split, List.append_nil] at h12
        exact h12
      have hmany : insert r.offset (offsets used).toFinset ⊆ (offsets rules).toFinset := by
        intro o ho
        rw [Finset.mem_insert, List.mem_toFinset] at ho
        rw [List.mem_toFinset]
        rcases ho with rfl | ho
        · exact offset_mem_offsets hr
        · obtain ⟨u, hu, rfl⟩ := mem_offsets.mp ho
          exact offset_mem_offsets (hsub u (h.used_mem u hu))
      have hcard := Finset.card_le_card hmany
      rw [Finset.card_insert_of_notMem (by rwa [List.mem_toFinset]), List.toFinset_card_of_nodup h.nodup, offsets,
        List.length_map, hlen] at hcard
      have hfew := hfit.few
      omega
    | cons e rest =>
      by_cases hlast : r.offset = 0xFF
      · refine ⟨used, r :: rest, h.append_last hlast, fun u hu hne => ?_, fun _ => rfl, fun hne => absurd hlast hne⟩
        rcases List.mem_append.mp hu with hu | hu
        · exact hkept u hu hne
        · rw [List.mem_singleton.mp hu] at hne
          exact absurd hlast hne
      · refine ⟨used ++ [r], rest, h.append_new hmem hlast, fun u hu hne => ?_, fun h => absurd h hlast,
          fun _ hold => ?_⟩
        · rcases List.mem_append.mp hu with hu | hu
          · exact List.mem_append_left _ (hkept u hu hne)
          · exact List.mem_append_right _ hu
        · obtain ⟨u, hu, heq⟩ := mem_offsets.mp hold
          exact absurd (heq ▸ offset_mem_offsets (hkept u hu (heq ▸ hlast))) hmem

lemma slots_fit {rules : List Rule} (hfit : RulesFit rules) (appended : List Rule)
    (hsub : ∀ r ∈ appended, r ∈ rules) :
    ∃ used free, Slots appended (appended.foldl appendRule (List.replicate 12 nullRule)) used free ∧
      ∀ r ∈ appended, r.offset ≠ 0xFF → r ∈ used := by
  induction appended using List.reverseRecOn with
  | nil => exact ⟨[], _, Slots.start, by simp⟩
  | append_singleton appended r ih =>
    have hsub' : ∀ r ∈ appended, r ∈ rules := fun u hu => hsub u (List.mem_append_left _ hu)
    obtain ⟨used, free, h, hkept⟩ := ih hsub'
    obtain ⟨used', free', h', hkept', _⟩ := h.append_fit hfit hsub' hkept (hsub r (by simp))
    rw [List.foldl_concat]
    exact ⟨used', free', h', hkept'⟩

/-- The rule at the last offset stays in its slot. -/
lemma slots_last {rules before after : List Rule} {r : Rule} (hfit : RulesFit rules)
    (hsub : ∀ u ∈ before ++ r :: after, u ∈ rules) (hlast : r.offset = 0xFF)
    (hafter : ∀ u ∈ after, u.offset = 0xFF ∨ u.offset ∈ offsets before) :
    ∃ used free, Slots (before ++ r :: after)
        ((before ++ r :: after).foldl appendRule (List.replicate 12 nullRule)) used free ∧
      (∀ u ∈ before ++ r :: after, u.offset ≠ 0xFF → u ∈ used) ∧ free.head? = some r := by
  induction after using List.reverseRecOn with
  | nil =>
    have hsub' : ∀ u ∈ before, u ∈ rules := fun u hu => hsub u (List.mem_append_left _ hu)
    obtain ⟨used, free, h, hkept⟩ := slots_fit hfit before hsub'
    obtain ⟨used', free', h', hkept', hhead, _⟩ := h.append_fit hfit hsub' hkept (hsub r (by simp))
    rw [List.foldl_concat]
    exact ⟨used', free', h', hkept', hhead hlast⟩
  | append_singleton after u ih =>
    have hsub' : ∀ v ∈ before ++ r :: after, v ∈ rules := by
      intro v hv
      apply hsub
      rw [← List.cons_append, ← List.append_assoc]
      exact List.mem_append_left _ hv
    obtain ⟨used, free, h, hkept, hhead⟩ := ih hsub' (fun v hv => hafter v (List.mem_append_left _ hv))
    have hu : u ∈ rules := hsub u (by simp)
    obtain ⟨used', free', h', hkept', hnew, hold⟩ := h.append_fit hfit hsub' hkept hu
    rw [← List.cons_append, ← List.append_assoc, List.foldl_concat]
    refine ⟨used', free', h', hkept', ?_⟩
    by_cases hoff : u.offset = 0xFF
    · rw [hnew hoff, hfit.consistent u hu r (hsub r (by simp)) (hoff.trans hlast.symm)]
    · have hknown := (hafter u (by simp)).resolve_left hoff
      rw [hold hoff, hhead]
      obtain ⟨v, hv, heq⟩ := mem_offsets.mp hknown
      exact heq ▸ offset_mem_offsets (List.mem_append_left _ hv)

lemma mem_of_rulesFit {rules : List Rule} (hfit : RulesFit rules) :
    ∀ r ∈ rules, r ∈ rules.foldl appendRule (List.replicate 12 nullRule) := by
  intro r hr
  by_cases hlast : r.offset = 0xFF
  · obtain ⟨before, r', after, happ, hlast', hafter⟩ := hfit.last (hlast ▸ offset_mem_offsets hr)
    have hr' : r' ∈ rules := by rw [happ]; simp
    obtain ⟨used, free, h, _, hhead⟩ := slots_last hfit (fun u hu => happ ▸ hu) hlast' hafter
    rw [← happ] at h
    rw [h.split, hfit.consistent r hr r' hr' (hlast.trans hlast'.symm)]
    exact List.mem_append_right _ (List.mem_of_mem_head? hhead)
  · obtain ⟨used, free, h, hkept⟩ := slots_fit hfit rules (fun _ hu => hu)
    rw [h.split]
    exact List.mem_append_left _ (hkept r hr hlast)

/-! ## Capabilities -/

/-- The ID of the capability at an offset. -/
def capID (space : DeviceSpace) (cap : Offset) : Byte := (space.readWord16 cap).setWidth 8

/-- The offset of the capability after this one. -/
def nextCap (space : DeviceSpace) (cap : Offset) : Offset := (space.readWord16 cap >>> 8).setWidth 8

/-- The message control word of an MSI or MSI-X capability. -/
def messageControl (space : DeviceSpace) (cap : Offset) : Word16 := space.readWord16 (cap + fieldMSICtrl)

/-- The capability list: it ends at an offset that is zero or in the standard header. -/
inductive Listed (space : DeviceSpace) : Offset → Prop
  | head (cap : Offset) (hcap : cap = space.readByte fieldCapPointer) (hout : 0x3F < cap.toNat) : Listed space cap
  | next (cap cap' : Offset) (h : Listed space cap) (hcap : cap' = nextCap space cap) (hout : 0x3F < cap'.toNat) :
      Listed space cap'

/-- The fields that a message control word declares: for MSI control, address and data, the upper address with bit 7,
and with bit 8 the mask and pending bits, behind a 32 or a 64 bit address; for MSI-X control, table and PBA. -/
def controlFields (cap : Offset) (id : Byte) (control : Word16) : List Rule :=
  [directRule (cap + fieldMSICtrl) .access16, directRule (cap + 0x04) .access32] ++
    if id = msiCapID then
      if control.getLsbD 7 then
        [directRule (cap + 0x08) .access32, directRule (cap + 0x0c) .access16] ++
          if control.getLsbD 8 then [directRule (cap + 0x10) .access32, directRule (cap + 0x14) .access32] else []
      else
        directRule (cap + 0x08) .access16 ::
          if control.getLsbD 8 then [directRule (cap + 0x0c) .access32, directRule (cap + 0x10) .access32] else []
    else [directRule (cap + 0x08) .access32]

/-- A field that an MSI or MSI-X capability of the list declares. -/
def Declared (space : DeviceSpace) (r : Rule) : Prop :=
  ∃ cap, Listed space cap ∧ (capID space cap = msiCapID ∨ capID space cap = msiXCapID) ∧
    r ∈ controlFields cap (capID space cap) (messageControl space cap)

/-- The quirk rules of the device. -/
def deviceQuirks (space : DeviceSpace) : List Rule :=
  if usbIntelSwitchableXHCI (space.readWord16 fieldVendor) (space.readWord16 fieldDevice)
    (space.readWord32 fieldRevisionClass / 2 ^ 8) then quirkRules else []

/-- The rules for a capability, from the low byte of its message control word. -/
def capRules (space : DeviceSpace) (cap : Offset) : List Rule :=
  msiRules cap (capID space cap) (space.readByte (cap + fieldMSICtrl))

/-- All rules that `Init` appends, in their order: those of the MSI and MSI-X capabilities among the first 48 of the
list, and the quirks. -/
def appendedRules (space : DeviceSpace) : List Rule :=
  (msiCaps space 48 (space.readByte fieldCapPointer)).flatMap (capRules space) ++ deviceQuirks space

lemma searchCaps_eq (space : DeviceSpace) (left : ℕ) (cap : Offset) (rules : List Rule) :
    searchCaps space left cap rules = ((msiCaps space left cap).flatMap (capRules space)).foldl appendRule rules := by
  induction left generalizing cap rules with
  | zero => rfl
  | succ left ih =>
    rw [searchCaps, msiCaps]
    by_cases hstop : cap = 0 ∨ cap ≤ 0x3F
    · rw [if_pos hstop, if_pos hstop]
      rfl
    · rw [if_neg hstop, if_neg hstop]
      simp only
      rw [ih, List.flatMap_append, List.foldl_append]
      by_cases hid : (space.readWord16 cap).setWidth 8 = msiCapID ∨ (space.readWord16 cap).setWidth 8 = msiXCapID
      · rw [if_pos hid, if_pos hid, List.flatMap_singleton]
        rfl
      · rw [if_neg hid, if_neg hid]
        rfl

lemma initRules_eq (space : DeviceSpace) :
    initRules space = (appendedRules space).foldl appendRule (List.replicate 12 nullRule) := by
  rw [initRules, registerQuirks, searchCaps_eq, appendedRules, deviceQuirks, List.foldl_append]
  split <;> rfl

/-! ## Fields and rules -/

lemma readWord16_low (space : DeviceSpace) (o : Offset) (i : ℕ) (hi : i < 8) :
    (space.readWord16 o).getLsbD i = (space.readByte o).getLsbD i := by
  have hword : space.read o.toNat 2 = (space o.toNat).toNat + 256 * (space (o.toNat + 1)).toNat := by
    simp [DeviceSpace.read, List.range_succ, Lib.ofLeBytes]
  have hbyte : space.read o.toNat 1 = (space o.toNat).toNat := by
    simp [DeviceSpace.read, Lib.ofLeBytes]
  rw [DeviceSpace.readWord16, DeviceSpace.readByte, hword, hbyte, BitVec.getLsbD_ofNat, BitVec.getLsbD_ofNat]
  have hmod : ((space o.toNat).toNat + 256 * (space (o.toNat + 1)).toNat) % 2 ^ 8 = (space o.toNat).toNat % 2 ^ 8 := by
    omega
  have hbit := congrArg (fun n => n.testBit i) hmod
  simp only [Nat.testBit_mod_two_pow, hi, decide_true, Bool.true_and] at hbit
  rw [hbit]
  simp [hi, Nat.lt_trans hi (by decide : 8 < 16)]

/-- The rules for a capability are fields that it declares. -/
lemma capRules_declared {space : DeviceSpace} {cap : Offset} {r : Rule} (h : r ∈ capRules space cap) :
    r ∈ controlFields cap (capID space cap) (messageControl space cap) := by
  have hmask : ((space.readByte (cap + fieldMSICtrl)).setWidth 64).getLsbD 8 = false := by simp
  have h64 : (messageControl space cap).getLsbD 7 = (space.readByte (cap + fieldMSICtrl)).getLsbD 7 :=
    readWord16_low space _ 7 (by decide)
  rw [capRules, msiRules] at h
  simp only [hmask, Bool.false_eq_true, if_false, List.append_nil] at h
  rw [controlFields, h64]
  by_cases hid : capID space cap = msiCapID
  · rw [if_pos hid] at h ⊢
    cases hbit : (space.readByte (cap + fieldMSICtrl)).getLsbD 7 <;>
      simp only [hbit, if_true, Bool.false_eq_true, if_false, List.nil_append] at h ⊢ <;>
      simp only [List.mem_append, List.mem_cons, List.not_mem_nil, or_false] at h ⊢ <;> tauto
  · rw [if_neg hid] at h ⊢
    exact h

lemma listed_of_mem_msiCaps {space : DeviceSpace} {left : ℕ} {start cap : Offset}
    (hstart : 0x3F < start.toNat → Listed space start) (h : cap ∈ msiCaps space left start) :
    Listed space cap ∧ (capID space cap = msiCapID ∨ capID space cap = msiXCapID) := by
  induction left generalizing start with
  | zero => exact absurd h List.not_mem_nil
  | succ left ih =>
    rw [msiCaps] at h
    by_cases hstop : start = 0 ∨ start ≤ 0x3F
    · rw [if_pos hstop] at h
      exact absurd h List.not_mem_nil
    · rw [if_neg hstop] at h
      have hout : 0x3F < start.toNat := BitVec.not_le.mp (fun hle => hstop (Or.inr hle))
      simp only [List.mem_append] at h
      rcases h with h | h
      · by_cases hid : (space.readWord16 start).setWidth 8 = msiCapID ∨ (space.readWord16 start).setWidth 8 = msiXCapID
        · rw [if_pos hid, List.mem_singleton] at h
          subst h
          exact ⟨hstart hout, hid⟩
        · rw [if_neg hid] at h
          exact absurd h List.not_mem_nil
      · exact ih (fun hnext => Listed.next start _ (hstart hout) rfl hnext) h

lemma declared_of_appended {space : DeviceSpace} {r : Rule} (h : r ∈ appendedRules space) :
    Declared space r ∨ r ∈ deviceQuirks space := by
  rw [appendedRules, List.mem_append, List.mem_flatMap] at h
  rcases h with ⟨cap, hcap, h⟩ | h
  · obtain ⟨hlisted, hid⟩ := listed_of_mem_msiCaps (fun hout => Listed.head _ rfl hout) hcap
    exact Or.inl ⟨cap, hlisted, hid, capRules_declared h⟩
  · exact Or.inr h

lemma appended_ne_nullRule {space : DeviceSpace} {r : Rule} (h : r ∈ appendedRules space) : r ≠ nullRule := by
  rw [appendedRules, List.mem_append, List.mem_flatMap] at h
  rcases h with ⟨cap, _, h⟩ | h
  · obtain ⟨field, _, rfl⟩ := mem_msiRules h
    intro heq
    have hperm : (WritePerm.direct : WritePerm) = .denied := congrArg Rule.writePerm heq
    exact absurd hperm (by decide)
  · rw [deviceQuirks] at h
    have hquirk : ∀ r ∈ quirkRules, r ≠ nullRule := by decide
    split at h
    · exact hquirk r h
    · exact absurd h List.not_mem_nil

/-! ## Rules and capabilities -/

/-- The rules of a device are the fields that its MSI and MSI-X capabilities declare, beside the quirks, and none of
them starts in the standard header. -/
structure RulesMatch (space : DeviceSpace) : Prop where
  rules : ∀ r, r ∈ initRules space ∧ r ≠ nullRule ↔ Declared space r ∨ r ∈ deviceQuirks space
  header : ∀ r ∈ initRules space, r ≠ nullRule → 0x3F < r.offset.toNat

/-- The condition on the capabilities: each declared field is one that the low byte of the control word of one of the
first 48 declares, the table has room for the rules, and no field wraps around the end of the config space. -/
structure CapsOk (space : DeviceSpace) : Prop where
  declared : ∀ r, Declared space r → r ∈ appendedRules space
  fit : RulesFit (appendedRules space)
  header : ∀ r ∈ appendedRules space, 0x3F < r.offset.toNat

/-- **MSI rules match the capabilities.** For every config space, the rules that `Init` appends are those for the
fields that the 16 bit message control words declare, and none reaches into the standard header, exactly when every
declared field is found through the low byte of the control word, the table has room for all fields, and no field wraps
around. -/
theorem rulesMatch_iff (space : DeviceSpace) : RulesMatch space ↔ CapsOk space := by
  have htable : ∀ r, r ∈ initRules space → r ≠ nullRule → r ∈ appendedRules space := by
    intro r hr hne
    rw [initRules_eq] at hr
    rcases mem_foldl_appendRule hr with hr | hr
    · exact absurd (List.eq_of_mem_replicate hr) hne
    · exact hr
  constructor
  · intro h
    have hall : ∀ r ∈ appendedRules space, r ∈ initRules space :=
      fun r hr => ((h.rules r).mpr (declared_of_appended hr)).1
    refine ⟨fun r hr => ?_, ?_, fun r hr => h.header r (hall r hr) (appended_ne_nullRule hr)⟩
    · have hmem := (h.rules r).mpr (Or.inl hr)
      exact htable r hmem.1 hmem.2
    · apply rulesFit_of_mem (fun r hr => appended_ne_nullRule hr)
      rw [← initRules_eq]
      exact hall
  · intro h
    have hall : ∀ r ∈ appendedRules space, r ∈ initRules space := by
      rw [initRules_eq]
      exact mem_of_rulesFit h.fit
    refine ⟨fun r => ⟨fun hr => declared_of_appended (htable r hr.1 hr.2), fun hr => ?_⟩,
      fun r hr hne => h.header r (htable r hr hne)⟩
    have happ : r ∈ appendedRules space := by
      rcases hr with hr | hr
      · exact h.declared r hr
      · exact List.mem_append_right _ hr
    exact ⟨hall r happ, appended_ne_nullRule happ⟩

/-- A device with one MSI capability at offset 0x50 that declares mask bits: bit 8 of its control word is set. -/
def maskableSpace : DeviceSpace := fun pos =>
  if pos = 0x34 then 0x50 else if pos = 0x50 then 0x05 else if pos = 0x53 then 0x01 else 0

theorem rulesMatch_maskable_fails : ¬ RulesMatch maskableSpace := by
  intro h
  have hlisted : Listed maskableSpace 0x50 := Listed.head _ (by decide) (by decide)
  have hmask : Declared maskableSpace (directRule 0x5c .access32) :=
    ⟨0x50, hlisted, Or.inl (by decide), by decide⟩
  have hrule := ((h.rules _).mpr (Or.inl hmask)).1
  have hnone : directRule 0x5c .access32 ∉ initRules maskableSpace := by decide
  exact hnone hrule

end Muen.Components.Dm
