import Muen.Components.Dm.Pciconf
import Muen.Lib.Machine
import Mathlib.Data.Finset.Card

/-!
# Confinement of the guest

What the requests of a guest do to the config spaces of its devices: which writes are made and what the guest sees
of a BAR.
-/

namespace Muen.Components.Dm

open Lib (Byte leBytes ofLeBytes)

/-! ### Rules of a device -/

lemma mem_appendRule {r rule : Rule} {rules : List Rule} (h : r ∈ appendRule rules rule) : r ∈ rules ∨ r = rule := by
  induction rules with
  | nil => simp [appendRule] at h
  | cons r' rs ih =>
    rw [appendRule] at h
    split_ifs at h with hslot
    · rcases List.mem_cons.mp h with h | h
      · exact Or.inr h
      · exact Or.inl (List.mem_cons_of_mem _ h)
    · rcases List.mem_cons.mp h with h | h
      · exact Or.inl (h ▸ List.mem_cons_self)
      · exact (ih h).imp_left (List.mem_cons_of_mem _)

lemma mem_foldl_appendRule {r : Rule} {new rules : List Rule} (h : r ∈ new.foldl appendRule rules) :
    r ∈ rules ∨ r ∈ new := by
  induction new generalizing rules with
  | nil => exact Or.inl h
  | cons rule new ih =>
    rcases ih h with h | h
    · rcases mem_appendRule h with h | h
      · exact Or.inl h
      · exact Or.inr (h ▸ List.mem_cons_self)
    · exact Or.inr (List.mem_cons_of_mem _ h)

/-- The offsets of the MSI and MSI-X capabilities that `Init` finds. -/
def msiCaps (space : DeviceSpace) : ℕ → Offset → List Offset
  | 0, _ => []
  | left + 1, offset =>
    if offset = 0 ∨ offset ≤ 0x3F then []
    else
      let val := space.readWord16 offset
      let capID := val.setWidth 8
      (if capID = msiCapID ∨ capID = msiXCapID then [offset] else []) ++ msiCaps space left ((val >>> 8).setWidth 8)

lemma lt_of_mem_msiCaps {space : DeviceSpace} {left : ℕ} {offset cap : Offset} (h : cap ∈ msiCaps space left offset) :
    0x3F < cap.toNat := by
  induction left generalizing offset with
  | zero => simp [msiCaps] at h
  | succ left ih =>
    rw [msiCaps] at h
    split_ifs at h with hstop
    · simp at h
    · rcases List.mem_append.mp h with h | h
      · split_ifs at h
        · obtain rfl := List.mem_singleton.mp h
          exact BitVec.not_le.mp (fun hle => hstop (Or.inr hle))
        · simp at h
      · exact ih h

lemma mem_searchCaps {space : DeviceSpace} {r : Rule} {left : ℕ} {offset : Offset} {rules : List Rule}
    (h : r ∈ searchCaps space left offset rules) :
    r ∈ rules ∨ ∃ cap ∈ msiCaps space left offset, ∃ capID flags, r ∈ msiRules cap capID flags := by
  induction left generalizing offset rules with
  | zero => exact Or.inl h
  | succ left ih =>
    rw [searchCaps] at h
    rw [msiCaps]
    split_ifs at h ⊢ with hstop
    · exact Or.inl h
    · rcases ih h with h | ⟨cap, hcap, h⟩
      · split_ifs at h ⊢ with hid
        · rcases mem_foldl_appendRule h with h | h
          · exact Or.inl h
          · exact Or.inr ⟨offset, List.mem_append_left _ (by rw [if_pos hid]; exact List.mem_singleton_self _), _, _, h⟩
        · exact Or.inl h
      · exact Or.inr ⟨cap, List.mem_append_right _ hcap, h⟩

/-- All rules that `Init` appends. -/
lemma mem_initRules {space : DeviceSpace} {r : Rule} (h : r ∈ initRules space) :
    r = nullRule ∨ r ∈ quirkRules ∨
      ∃ cap ∈ msiCaps space 48 (space.readByte fieldCapPointer), ∃ capID flags, r ∈ msiRules cap capID flags := by
  have hsearch : ∀ {r}, r ∈ searchCaps space 48 (space.readByte fieldCapPointer) (List.replicate 12 nullRule) →
      r = nullRule ∨
        ∃ cap ∈ msiCaps space 48 (space.readByte fieldCapPointer), ∃ capID flags, r ∈ msiRules cap capID flags :=
    fun h => (mem_searchCaps h).imp_left List.eq_of_mem_replicate
  rw [initRules, registerQuirks] at h
  split_ifs at h
  · rcases mem_foldl_appendRule h with h | h
    · exact (hsearch h).imp_right Or.inr
    · exact Or.inr (Or.inl h)
  · exact (hsearch h).imp_right Or.inr

/-- The fields behind the head of a capability that a guest may write, with their widths. -/
def msiFields : List (Offset × AccessWidth) :=
  [(fieldMSICtrl, .access16), (0x04, .access32), (0x08, .access32), (0x08, .access16), (0x0c, .access16)]

/-- There are no rules for mask bits and pending bits: bit 8 of the flags is behind their end. -/
lemma mem_msiRules {r : Rule} {cap : Offset} {capID flags : Byte} (h : r ∈ msiRules cap capID flags) :
    ∃ field ∈ msiFields, r = directRule (cap + field.1) field.2 := by
  have hmask : (flags.setWidth 64).getLsbD 8 = false := by simp
  simp only [msiRules, hmask, Bool.false_eq_true, if_false, List.append_nil] at h
  simp only [msiFields, List.mem_cons, List.not_mem_nil, or_false, exists_eq_or_imp, exists_eq_left]
  split_ifs at h <;> simp only [List.mem_append, List.mem_cons, List.not_mem_nil, or_false, false_or] at h <;> tauto

def AccessWidth.size : AccessWidth → ℕ
  | .access8 => 1
  | .access16 => 2
  | .access32 => 4

/-- A range of config space has nothing in common with a field. -/
def Apart (offset : Offset) (size first last : ℕ) : Prop := offset.toNat + size ≤ first ∨ last < offset.toNat

/-- The fields of a capability have nothing in common with the BARs, also where their offset wraps around. -/
lemma msiFields_bars {cap : Offset} (hcap : 0x3F < cap.toNat) {field : Offset × AccessWidth} (h : field ∈ msiFields) :
    Apart (cap + field.1) field.2.size 0x10 0x27 := by
  have hlt := cap.isLt
  simp only [msiFields, List.mem_cons, List.not_mem_nil, or_false] at h
  rcases h with rfl | rfl | rfl | rfl | rfl <;>
    simp [Apart, AccessWidth.size, fieldMSICtrl, BitVec.toNat_add] <;> omega

/-- Where an MSI capability may lie. -/
def Placed (cap : Offset) : Prop := cap.toNat ≤ 0xF3 ∨ 4 ∣ cap.toNat

/-- A field of a capability that is aligned, or that ends in the config space, is the command register or has
nothing in common with it. -/
lemma msiFields_command {cap : Offset} (hcap : 0x3F < cap.toNat) (hplaced : Placed cap)
    {field : Offset × AccessWidth} (h : field ∈ msiFields) :
    cap + field.1 = fieldCommand ∨ Apart (cap + field.1) field.2.size 0x04 0x05 := by
  have hlt := cap.isLt
  simp only [msiFields, List.mem_cons, List.not_mem_nil, or_false] at h
  unfold Placed at hplaced
  rcases h with rfl | rfl | rfl | rfl | rfl <;>
    simp [Apart, AccessWidth.size, fieldMSICtrl, fieldCommand, BitVec.toNat_add, ← BitVec.toNat_inj] <;> omega

/-! ### The rule of a request -/

lemma getRuleFrom_cases (offset : Offset) (rules : List Rule) (res : Rule) :
    getRuleFrom offset rules res = res ∨
      getRuleFrom offset rules res ∈ rules ∧ (getRuleFrom offset rules res).offset = offset := by
  induction rules generalizing res with
  | nil => exact Or.inl rfl
  | cons r rs ih =>
    rw [getRuleFrom]
    split_ifs with hnull hoffset
    · exact Or.inl rfl
    · rcases ih r with h | h
      · rw [h]
        exact Or.inr ⟨List.mem_cons_self, hoffset⟩
      · exact Or.inr ⟨List.mem_cons_of_mem _ h.1, h.2⟩
    · rcases ih res with h | h
      · exact Or.inl h
      · exact Or.inr ⟨List.mem_cons_of_mem _ h.1, h.2⟩

/-- The global rules have their offsets for themselves. -/
lemma getRule_global {g : Rule} (hg : g ∈ globalRules) (rules : List Rule) : getRule g.offset rules = g := by
  simp only [globalRules, List.mem_cons, List.not_mem_nil, or_false] at hg
  rcases hg with rfl | rfl | rfl | rfl | rfl | rfl | rfl | rfl | rfl | rfl <;> rfl

lemma getRule_cases (offset : Offset) (rules : List Rule) :
    getRule offset rules = nullRule ∨
      (getRule offset rules ∈ globalRules ∨
        getRule offset rules ∈ rules ∧ ∀ g ∈ globalRules, g.offset ≠ offset) ∧
      (getRule offset rules).offset = offset := by
  by_cases hglobal : ∃ g ∈ globalRules, g.offset = offset
  · obtain ⟨g, hg, rfl⟩ := hglobal
    rw [getRule_global hg]
    exact Or.inr ⟨Or.inl hg, rfl⟩
  · push Not at hglobal
    have hnull : getRuleFrom offset globalRules nullRule = nullRule := by
      rcases getRuleFrom_cases offset globalRules nullRule with h | ⟨h, hoffset⟩
      · exact h
      · exact absurd hoffset (hglobal _ h)
    simp only [getRule, hnull, if_true]
    rcases getRuleFrom_cases offset rules nullRule with h | ⟨h, hoffset⟩
    · exact Or.inl h
    · exact Or.inr ⟨Or.inr ⟨h, hglobal⟩, hoffset⟩

/-! ### Devices -/

/-- What the registers of a BAR hold when all ones have been written to it. -/
def barSize (hw : Hardware) (space : DeviceSpace) (sid : SID) (i : BarRange) : Word32 :=
  (DeviceSpace.write (hw.respond sid) space (barOffset i).toNat (leBytes 4 (0xFFFFFFFF : Word32).toNat)).readWord32
    (barOffset i)

lemma barOffset_toNat (i : BarRange) : (barOffset i).toNat = 0x10 + 4 * i := by
  revert i
  decide

lemma barOffset_range (i : BarRange) : fieldBAR0 ≤ barOffset i ∧ barOffset i ≤ fieldBAR5 := by
  revert i
  decide

lemma barOffset_injective {i j : BarRange} (h : barOffset i = barOffset j) : i = j := by
  have hnat := congrArg BitVec.toNat h
  rw [barOffset_toNat, barOffset_toNat] at hnat
  exact Fin.ext (by omega)

lemma readWord32_bytes (space : DeviceSpace) (offset : Offset) :
    leBytes 4 (space.readWord32 offset).toNat = (List.range 4).map (fun i => space (offset.toNat + i)) := by
  set bytes := (List.range 4).map (fun i => space (offset.toNat + i)) with hbytes
  have hlength : bytes.length = 4 := by simp [hbytes]
  have hlt : ofLeBytes bytes < 2 ^ 32 := by
    have h := Lib.ofLeBytes_lt bytes
    rwa [hlength] at h
  have hword : (space.readWord32 offset).toNat = ofLeBytes bytes := by
    rw [DeviceSpace.readWord32, BitVec.toNat_ofNat]
    exact Nat.mod_eq_of_lt hlt
  have hround := Lib.leBytes_ofLeBytes bytes
  rwa [hlength, ← hword] at hround

/-- A round of the loop over the BARs leaves the config space as it was. -/
lemma initBar_eq (hw : Hardware) (sid : SID) (m : Memory) (bars : BarRange → Bar) (i : BarRange) :
    (initBar hw sid (m, bars) i).1.space = m.space ∧
      (∃ w₁ w₂, (initBar hw sid (m, bars) i).1.writes =
        m.writes ++ [⟨sid, barOffset i, w₁⟩, ⟨sid, barOffset i, w₂⟩] ∧ w₁.length = 4 ∧ w₂.length = 4) ∧
      (initBar hw sid (m, bars) i).2 = Function.update bars i
        ⟨.address, (m.space sid).readWord32 (barOffset i), barSize hw (m.space sid) sid i⟩ := by
  have hsized : (m.writeWord32 hw sid (barOffset i) 0xFFFFFFFF).space sid =
      DeviceSpace.write (hw.respond sid) (m.space sid) (barOffset i).toNat
        (leBytes 4 (0xFFFFFFFF : Word32).toNat) := Memory.write_space_self
  refine ⟨?_, ⟨leBytes 4 (0xFFFFFFFF : Word32).toNat, leBytes 4 ((m.space sid).readWord32 (barOffset i)).toNat, ?_, ?_, ?_⟩, ?_⟩
  · funext sid'
    by_cases hsid : sid' = sid
    · subst hsid
      have hrestored : (initBar hw sid' (m, bars) i).1.space sid' =
          DeviceSpace.write (hw.respond sid') ((m.writeWord32 hw sid' (barOffset i) 0xFFFFFFFF).space sid')
            (barOffset i).toNat (leBytes 4 ((m.space sid').readWord32 (barOffset i)).toNat) :=
        Memory.write_space_self
      rw [hrestored, hsized, readWord32_bytes]
      refine DeviceSpace.write_write ?_
      intro k b hb
      have hk : k < 4 := by
        have := (List.getElem?_eq_some_iff.mp hb).1
        rwa [Lib.leBytes_length] at this
      have hoffset := barOffset_toNat i
      exact hw.bar_restores sid' _ _ _ (by omega) (by omega)
    · simp only [initBar, Memory.writeWord32]
      rw [Memory.write_space_of_ne hsid, Memory.write_space_of_ne hsid]
  · simp only [initBar, Memory.writeWord32, Memory.write]
    rw [List.append_assoc]
    rfl
  · exact Lib.leBytes_length _ _
  · exact Lib.leBytes_length _ _
  · simp only [initBar, hsized]
    rfl

/-- A write of `Init` to size a BAR, or to restore it. -/
def SizesBar (sid : SID) (w : ConfigWrite) : Prop := w.sid = sid ∧ w.bytes.length = 4 ∧ ∃ i, w.offset = barOffset i

def resetBar (hw : Hardware) (space : DeviceSpace) (sid : SID) (state : BarState) (i : BarRange) : Bar :=
  ⟨state, space.readWord32 (barOffset i), barSize hw space sid i⟩

lemma foldl_initBar (hw : Hardware) (sid : SID) (l : List BarRange) (m : Memory) (bars : BarRange → Bar) :
    (l.foldl (initBar hw sid) (m, bars)).1.space = m.space ∧
      (∃ new, (l.foldl (initBar hw sid) (m, bars)).1.writes = m.writes ++ new ∧ ∀ w ∈ new, SizesBar sid w) ∧
      ∀ i, (l.foldl (initBar hw sid) (m, bars)).2 i =
        if i ∈ l then resetBar hw (m.space sid) sid .address i else bars i := by
  induction l generalizing m bars with
  | nil => exact ⟨rfl, ⟨[], (List.append_nil _).symm, by simp⟩, fun i => by simp⟩
  | cons j l ih =>
    obtain ⟨hspace, ⟨w₁, w₂, hwrites, hw₁, hw₂⟩, hbars⟩ := initBar_eq hw sid m bars j
    obtain ⟨ihspace, ⟨new, ihwrites, hnew⟩, ihbars⟩ :=
      ih (initBar hw sid (m, bars) j).1 (initBar hw sid (m, bars) j).2
    rw [List.foldl_cons]
    refine ⟨ihspace.trans hspace, ⟨[⟨sid, barOffset j, w₁⟩, ⟨sid, barOffset j, w₂⟩] ++ new, ?_, ?_⟩, ?_⟩
    · rw [← List.append_assoc, ← hwrites]
      exact ihwrites
    · intro w hmem
      rcases List.mem_append.mp hmem with hmem | hmem
      · rcases List.mem_pair.mp hmem with rfl | rfl
        · exact ⟨rfl, hw₁, j, rfl⟩
        · exact ⟨rfl, hw₂, j, rfl⟩
      · exact hnew w hmem
    · intro i
      refine (ihbars i).trans ?_
      rw [hspace, hbars]
      by_cases hl : i ∈ l
      · rw [if_pos hl, if_pos (List.mem_cons_of_mem j hl)]
      · rw [if_neg hl]
        by_cases hij : i = j
        · subst hij
          rw [if_pos List.mem_cons_self, Function.update_self]
          rfl
        · rw [if_neg (by simp [hij, hl]), Function.update_of_ne hij]

/-- `Init` leaves the config space as it was; the device has the registers and the rules found in it. -/
lemma initDevice_eq (hw : Hardware) (m : Memory) (sid : SID) :
    (initDevice hw m sid).1.space = m.space ∧
      (∃ new, (initDevice hw m sid).1.writes = m.writes ++ new ∧ ∀ w ∈ new, SizesBar sid w) ∧
      (initDevice hw m sid).2 =
        ⟨sid, resetBar hw (m.space sid) sid .address, initRules (m.space sid)⟩ := by
  obtain ⟨hspace, hwrites, hbars⟩ := foldl_initBar hw sid (List.finRange 6) m (fun _ => nullBar)
  refine ⟨hspace, hwrites, ?_⟩
  simp only [initDevice, Device.mk.injEq, true_and]
  refine ⟨funext (fun i => ?_), by rw [hspace]⟩
  rw [hbars, if_pos (List.mem_finRange i)]

/-! ### The table of devices -/

lemma nullDevice_sid : nullDevice.sid = nullSID := rfl

lemma getDevice_append {ds rest : List Device} {sid : SID} (h : ∀ d ∈ ds, d.sid ≠ sid) :
    getDevice (ds ++ rest) sid = getDevice rest sid := by
  induction ds with
  | nil => rfl
  | cons d ds ih =>
    rw [List.cons_append, getDevice, if_neg (h d List.mem_cons_self)]
    exact ih (fun d' hd' => h d' (List.mem_cons_of_mem _ hd'))

lemma getDevice_replicate (k : ℕ) (sid : SID) : getDevice (List.replicate k nullDevice) sid = nullDevice := by
  induction k with
  | zero => rfl
  | succ k ih =>
    rw [List.replicate_succ, getDevice, ih, ite_self]

/-- The slot of a device, or the first free one. -/
lemma insertDevice_append {ds rest : List Device} {d device : Device}
    (h : ∀ d' ∈ ds, d'.sid ≠ nullSID ∧ d'.sid ≠ device.sid) (hslot : d.sid = nullSID ∨ d.sid = device.sid) :
    insertDevice (ds ++ d :: rest) device = ds ++ device :: rest := by
  induction ds with
  | nil => rw [List.nil_append, insertDevice, if_pos hslot, List.nil_append]
  | cons d' ds ih =>
    have hd' := h d' List.mem_cons_self
    rw [List.cons_append, insertDevice, if_neg (not_or.mpr hd'), ih (fun x hx => h x (List.mem_cons_of_mem _ hx)),
      List.cons_append]

/-! ### The writes of a request -/

/-- The capabilities that `Init` finds are aligned, as PCI has it, or end in the config space. -/
def CapsPlaced (space : DeviceSpace) : Prop :=
  ∀ cap ∈ msiCaps space 48 (space.readByte fieldCapPointer), Placed cap

/-- The writes to physical config space that a request may make on a device that was found with this space. -/
inductive GuestWrite (space : DeviceSpace) (r : Request) : ConfigWrite → Prop
  | command (value : Word16) (hoffset : r.offset = fieldCommand) :
    GuestWrite space r ⟨r.sid, fieldCommand, leBytes 2 (value &&& allowedCommand).toNat⟩
  | direct (rule : Rule) (bytes : List Byte) (hrule : rule ∈ globalRules ++ initRules space)
      (hdirect : rule.writePerm = .direct) (hoffset : rule.offset = r.offset)
      (hwidth : bytes.length = rule.writeWidth.size) (hbars : Apart rule.offset bytes.length 0x10 0x27)
      (hcommand : CapsPlaced space → Apart rule.offset bytes.length 0x04 0x05) :
    GuestWrite space r ⟨r.sid, rule.offset, bytes⟩
  | quirk (rule : Rule) (bytes : List Byte) (hrule : rule ∈ initRules space) (hquirk : rule ∈ quirkRules)
      (hoffset : rule.offset = r.offset) (hwidth : bytes.length = 4) : GuestWrite space r ⟨r.sid, rule.offset, bytes⟩

lemma barRule_mem (i : BarRange) : barRule i ∈ globalRules := by
  revert i
  decide

lemma getRule_bar (i : BarRange) (rules : List Rule) : getRule (barOffset i) rules = barRule i :=
  getRule_global (barRule_mem i) rules

lemma getRule_command (rules : List Rule) :
    getRule fieldCommand rules = ⟨fieldCommand, readNoVirt, .none, .virt, .access16, .command⟩ :=
  getRule_global List.mem_cons_self rules

/-- The bytes of a direct write. -/
def directBytes (width : AccessWidth) (value : Word32) : List Byte :=
  match width with
  | .access8 => leBytes 1 (value.setWidth 8).toNat
  | .access16 => leBytes 2 (value.setWidth 16).toNat
  | .access32 => leBytes 4 value.toNat

lemma directBytes_length (width : AccessWidth) (value : Word32) : (directBytes width value).length = width.size := by
  cases width <;> exact Lib.leBytes_length _ _

lemma emulateWrite_direct (hw : Hardware) (s : Pciconf) (sid : SID) (device : Device) {rule : Rule}
    (h : rule.writePerm = .direct) (offset : Offset) (value : Word32) :
    emulateWrite hw s sid device rule offset value =
      { s with memory := s.memory.write hw sid offset (directBytes rule.writeWidth value) } := by
  unfold emulateWrite
  rw [h]
  cases hwidth : rule.writeWidth <;> rfl

/-- A quirk writes the register of its rule, whatever the offset of the request. -/
lemma emulateWrite_quirk (hw : Hardware) (s : Pciconf) (device : Device) {rule : Rule} (h : rule ∈ quirkRules)
    (offset : Offset) (value : Word32) :
    ∃ bytes, bytes.length = 4 ∧ emulateWrite hw s device.sid device rule offset value =
      { s with memory := s.memory.write hw device.sid rule.offset bytes } := by
  simp only [quirkRules, List.mem_cons, List.not_mem_nil, or_false] at h
  rcases h with rfl | rfl
  · exact ⟨_, Lib.leBytes_length 4 _, rfl⟩
  · exact ⟨_, Lib.leBytes_length 4 _, rfl⟩

/-- The rule of a direct write keeps away from the BARs, and from the command register where the capabilities are
placed. -/
lemma direct_apart {space : DeviceSpace} {rule : Rule} (hdirect : rule.writePerm = .direct)
    (hrule : rule ∈ globalRules ∨ rule ∈ initRules space ∧ ∀ g ∈ globalRules, g.offset ≠ rule.offset) :
    Apart rule.offset rule.writeWidth.size 0x10 0x27 ∧
      (CapsPlaced space → Apart rule.offset rule.writeWidth.size 0x04 0x05) := by
  rcases hrule with hglobal | ⟨hinit, hfree⟩
  · simp only [globalRules, List.mem_cons, List.not_mem_nil, or_false] at hglobal
    rcases hglobal with rfl | rfl | rfl | rfl | rfl | rfl | rfl | rfl | rfl | rfl <;>
      first
        | exact absurd hdirect (by decide)
        | exact ⟨by unfold Apart; decide, fun _ => by unfold Apart; decide⟩
  · rcases mem_initRules hinit with rfl | hquirk | ⟨cap, hcap, capID, flags, hmsi⟩
    · exact absurd hdirect (by decide)
    · simp only [quirkRules, List.mem_cons, List.not_mem_nil, or_false] at hquirk
      rcases hquirk with rfl | rfl <;> exact absurd hdirect (by decide)
    · obtain ⟨field, hfield, rfl⟩ := mem_msiRules hmsi
      have hlt := lt_of_mem_msiCaps hcap
      refine ⟨msiFields_bars hlt hfield, fun hplaced => ?_⟩
      rcases msiFields_command hlt (hplaced cap hcap) hfield with hcommand | hcommand
      · exact absurd hcommand.symm (hfree _ List.mem_cons_self)
      · exact hcommand

/-- A write request is one to a BAR, one that is denied, or one that is made in hardware. -/
lemma emulateWrite_cases (hw : Hardware) (s : Pciconf) {device : Device} {space : DeviceSpace}
    (hrules : device.rules = initRules space) (r : Request) (hsid : device.sid = r.sid) :
    (∃ i, r.offset = barOffset i ∧
      emulateWrite hw s r.sid device (getRule r.offset device.rules) r.offset r.value =
        writeBar s device r.offset r.value) ∨
    (∀ i, r.offset ≠ barOffset i) ∧ (r.offset ≠ fieldCommand) ∧
      emulateWrite hw s r.sid device (getRule r.offset device.rules) r.offset r.value = s ∨
    (∀ i, r.offset ≠ barOffset i) ∧ ∃ offset bytes, GuestWrite space r ⟨r.sid, offset, bytes⟩ ∧
      emulateWrite hw s r.sid device (getRule r.offset device.rules) r.offset r.value =
        { s with memory := s.memory.write hw r.sid offset bytes } := by
  by_cases hbar : ∃ i, r.offset = barOffset i
  · obtain ⟨i, hi⟩ := hbar
    refine Or.inl ⟨i, hi, ?_⟩
    rw [hi, getRule_bar]
    simp only [emulateWrite, barRule, vwrite, if_pos (barOffset_range i)]
  · push Not at hbar
    right
    by_cases hcommand : r.offset = fieldCommand
    · refine Or.inr ⟨hbar, fieldCommand, _, GuestWrite.command (r.value.setWidth 16) hcommand, ?_⟩
      rw [hcommand, getRule_command]
      simp only [emulateWrite, vwrite, hsid, Memory.writeWord16]
    · have hdenied : getRule r.offset device.rules = nullRule →
          emulateWrite hw s r.sid device (getRule r.offset device.rules) r.offset r.value = s := by
        intro h
        rw [h]
        rfl
      rcases getRule_cases r.offset device.rules with h | ⟨hrule, hoffset⟩
      · exact Or.inl ⟨hbar, hcommand, hdenied h⟩
      · by_cases hdirect : (getRule r.offset device.rules).writePerm = .direct
        · right
          have hmem : getRule r.offset device.rules ∈ globalRules ∨
              getRule r.offset device.rules ∈ initRules space ∧
                ∀ g ∈ globalRules, g.offset ≠ (getRule r.offset device.rules).offset := by
            rw [hoffset, ← hrules]
            exact hrule
          obtain ⟨hbars, hplaced⟩ := direct_apart hdirect hmem
          rw [← directBytes_length _ r.value] at hbars hplaced
          have hwrite := GuestWrite.direct (r := r) _ _ (List.mem_append.mpr (hmem.imp_right And.left)) hdirect
            hoffset (directBytes_length _ r.value) hbars hplaced
          rw [hoffset] at hwrite
          exact ⟨hbar, r.offset, _, hwrite, emulateWrite_direct hw s r.sid device hdirect r.offset r.value⟩
        · rcases hrule with hglobal | ⟨hinit, -⟩
          · simp only [globalRules, List.mem_cons, List.not_mem_nil, or_false] at hglobal
            rcases hglobal with h | h | h | h | h | h | h | h | h | h <;> rw [h] at hoffset hdirect <;>
              first
                | exact absurd hoffset.symm hcommand
                | exact absurd rfl hdirect
                | exact absurd hoffset.symm (hbar _)
          · rw [hrules] at hinit hdenied hoffset hdirect ⊢
            rcases mem_initRules hinit with h | hquirk | ⟨cap, hcap, capID, flags, hmsi⟩
            · exact Or.inl ⟨hbar, hcommand, hdenied h⟩
            · obtain ⟨bytes, hlength, hwrite⟩ := emulateWrite_quirk hw s device hquirk r.offset r.value
              rw [hsid] at hwrite
              exact Or.inr ⟨hbar, _, bytes, GuestWrite.quirk _ bytes hinit hquirk hoffset hlength, hwrite⟩
            · obtain ⟨field, -, h⟩ := mem_msiRules hmsi
              exact absurd (by rw [h]; rfl) hdirect

/-! ### What the guest sees of the BARs -/

/-- Whether a BAR shows the size of its region or its address. -/
abbrev View := SID → BarRange → BarState

def View.step (v : View) (r : Request) : View := fun sid i =>
  if r.op = emulReqWrite ∧ r.sid = sid ∧ r.offset = barOffset i then
    (if r.value = 0xFFFFFFFF then .size else .address)
  else v sid i

def View.after (rs : List Request) : View := rs.foldl View.step (fun _ _ => .address)

/-- A device of the subject with a header that is supported. -/
structure Emulated (known : Finset SID) (spaces : SID → DeviceSpace) (sid : SID) : Prop where
  known : sid ∈ known
  header : (spaces sid).readByte fieldHeader = 0

/-- A device in the table, as found in its config space and viewed by the guest. -/
structure Device.Shows (hw : Hardware) (spaces : SID → DeviceSpace) (v : View) (d : Device) : Prop where
  bars : ∀ i, d.bars i = resetBar hw (spaces d.sid) d.sid (v d.sid i) i
  rules : d.rules = initRules (spaces d.sid)

/-- The state of the device manager, with the devices that have been set up, shows a view. -/
structure Simulates (hw : Hardware) (known : Finset SID) (spaces : SID → DeviceSpace) (v : View) (s : Pciconf)
    (ds : List Device) : Prop where
  deviceDB : ∃ k, s.deviceDB = ds ++ List.replicate k nullDevice ∧ ds.length + k = 4
  nodup : (ds.map Device.sid).Nodup
  devices : ∀ d ∈ ds, Emulated known spaces d.sid ∧ d.Shows hw spaces v
  fresh : ∀ sid, (∀ d ∈ ds, d.sid ≠ sid) →
    s.memory.space sid = spaces sid ∧ (Emulated known spaces sid → ∀ i, v sid i = .address)
  bars : ∀ sid pos, 0x10 ≤ pos → pos ≤ 0x27 → s.memory.space sid pos = spaces sid pos

section Simulation

variable {hw : Hardware} {known : Finset SID} {spaces : SID → DeviceSpace} {v : View} {s : Pciconf}
  {ds : List Device}

lemma Simulates.start (m : Memory) (hm : m.space = spaces) :
    Simulates hw known spaces (View.after []) (Pciconf.start m) [] where
  deviceDB := ⟨4, rfl, rfl⟩
  nodup := List.nodup_nil
  devices := by simp
  fresh := fun sid _ => ⟨congrFun hm sid, fun _ _ => rfl⟩
  bars := fun sid pos _ _ => congrFun (congrFun hm sid) pos

/-- The device of a request in the table. -/
lemma Simulates.getDevice_of_mem (h : Simulates hw known spaces v s ds) {d : Device} (hd : d ∈ ds) :
    getDevice s.deviceDB d.sid = d := by
  obtain ⟨k, hdb, -⟩ := h.deviceDB
  obtain ⟨ds₁, ds₂, rfl⟩ := List.append_of_mem hd
  have hnodup := h.nodup
  rw [List.map_append, List.map_cons, List.nodup_append] at hnodup
  have hbefore : ∀ d' ∈ ds₁, d'.sid ≠ d.sid := fun d' hd' =>
    hnodup.2.2 _ (List.mem_map_of_mem hd') _ List.mem_cons_self
  rw [hdb, List.append_assoc, getDevice_append hbefore, List.cons_append, getDevice, if_pos rfl]

lemma Simulates.getDevice_of_fresh (h : Simulates hw known spaces v s ds) {sid : SID}
    (hfresh : ∀ d ∈ ds, d.sid ≠ sid) : getDevice s.deviceDB sid = nullDevice := by
  obtain ⟨k, hdb, -⟩ := h.deviceDB
  rw [hdb, getDevice_append hfresh, getDevice_replicate]

/-- There is a free slot for a device that has not been set up. -/
lemma Simulates.length_lt (h : Simulates hw known spaces v s ds) (hfour : known.card ≤ 4) {sid : SID}
    (hknown : sid ∈ known) (hfresh : ∀ d ∈ ds, d.sid ≠ sid) : ds.length < 4 := by
  have hnodup : (sid :: ds.map Device.sid).Nodup := by
    refine List.nodup_cons.mpr ⟨fun hmem => ?_, h.nodup⟩
    obtain ⟨d, hd, hsid⟩ := List.mem_map.mp hmem
    exact hfresh d hd hsid
  have hsub : (sid :: ds.map Device.sid).toFinset ⊆ known := by
    intro sid' hmem
    rcases List.mem_cons.mp (List.mem_toFinset.mp hmem) with rfl | hmem
    · exact hknown
    · obtain ⟨d, hd, rfl⟩ := List.mem_map.mp hmem
      exact (h.devices d hd).1.known
  have hcard := Finset.card_le_card hsub
  rw [List.toFinset_card_of_nodup hnodup, List.length_cons, List.length_map] at hcard
  omega

/-- `Init` and `Insert_Device` on the first request for a device. -/
lemma Simulates.setUp (h : Simulates hw known spaces v s ds) (hfour : known.card ≤ 4) (hnull : nullSID ∉ known)
    {sid : SID} (hemulated : Emulated known spaces sid) (hfresh : ∀ d ∈ ds, d.sid ≠ sid) :
    Simulates hw known spaces v
      ⟨(initDevice hw s.memory sid).1, insertDevice s.deviceDB (initDevice hw s.memory sid).2⟩
      (ds ++ [(initDevice hw s.memory sid).2]) := by
  obtain ⟨hspace, -, hdevice⟩ := initDevice_eq hw s.memory sid
  obtain ⟨hspaces, hview⟩ := h.fresh sid hfresh
  rw [hspaces] at hdevice
  rw [hdevice]
  obtain ⟨k, hdb, hk⟩ := h.deviceDB
  have hlt := h.length_lt hfour hemulated.known hfresh
  obtain ⟨k, rfl⟩ : ∃ k', k = k' + 1 := ⟨k - 1, by omega⟩
  refine ⟨⟨k, ?_, ?_⟩, ?_, ?_, ?_, ?_⟩
  · rw [hdb, List.replicate_succ, insertDevice_append _ (Or.inl rfl), List.append_assoc]
    · rfl
    · intro d hd
      exact ⟨fun hsid => hnull (hsid ▸ (h.devices d hd).1.known), hfresh d hd⟩
  · rw [List.length_append, List.length_singleton]
    omega
  · rw [List.map_append, List.map_singleton]
    refine List.Nodup.append h.nodup (List.nodup_singleton _) ?_
    intro sid' hmem hsid
    obtain ⟨d, hd, rfl⟩ := List.mem_map.mp hmem
    exact hfresh d hd (List.mem_singleton.mp hsid)
  · intro d hd
    rcases List.mem_append.mp hd with hd | hd
    · exact h.devices d hd
    · obtain rfl := List.mem_singleton.mp hd
      refine ⟨hemulated, fun i => ?_, rfl⟩
      show resetBar hw (spaces sid) sid .address i = resetBar hw (spaces sid) sid (v sid i) i
      rw [hview hemulated i]
  · intro sid' hfresh'
    obtain ⟨hsame, hview'⟩ := h.fresh sid' (fun d hd => hfresh' d (List.mem_append_left _ hd))
    exact ⟨(congrFun hspace sid').trans hsame, hview'⟩
  · intro sid' pos hfirst hlast
    exact (congrFun (congrFun hspace sid') pos).trans (h.bars sid' pos hfirst hlast)

lemma View.step_of_sid {r : Request} {sid : SID} (h : r.sid ≠ sid) (i : BarRange) : v.step r sid i = v sid i :=
  if_neg (fun hr => h hr.2.1)

lemma View.step_of_op {r : Request} (h : r.op ≠ emulReqWrite) : v.step r = v := by
  funext sid i
  exact if_neg (fun hr => h hr.1)

lemma View.step_of_offset {r : Request} (h : ∀ i, r.offset ≠ barOffset i) : v.step r = v := by
  funext sid i
  exact if_neg (fun hr => h i hr.2.2)

lemma barIndex (i : BarRange) : (Fin.ofNat 6 ((barOffset i - fieldBAR0).toNat / 4) : BarRange) = i := by
  revert i
  decide

/-- `Write_BAR` changes what the guest sees of the BAR, and nothing else. -/
lemma Simulates.writeBar (h : Simulates hw known spaces v s ds) (hnull : nullSID ∉ known) {d : Device} (hd : d ∈ ds)
    {r : Request} (hsid : d.sid = r.sid) (hop : r.op = emulReqWrite) {i : BarRange} (hi : r.offset = barOffset i) :
    ∃ ds', Simulates hw known spaces (v.step r) (writeBar s d r.offset r.value) ds' := by
  obtain ⟨k, hdb, hk⟩ := h.deviceDB
  obtain ⟨ds₁, ds₂, rfl⟩ := List.append_of_mem hd
  set d' : Device := { d with
    bars := Function.update d.bars i
      { d.bars i with state := if r.value = 0xFFFFFFFF then .size else .address } } with hd'
  have hwrite : writeBar s d r.offset r.value = { s with deviceDB := insertDevice s.deviceDB d' } := by
    simp only [Dm.writeBar, hi, barIndex, hd']
  have hnodup := h.nodup
  rw [List.map_append, List.map_cons, List.nodup_append] at hnodup
  have hothers : ∀ d'' ∈ ds₁ ++ ds₂, d''.sid ≠ d.sid := by
    intro d'' hmem
    rcases List.mem_append.mp hmem with hmem | hmem
    · exact hnodup.2.2 _ (List.mem_map_of_mem hmem) _ List.mem_cons_self
    · intro heq
      exact (List.nodup_cons.mp hnodup.2.1).1 (heq ▸ List.mem_map_of_mem hmem)
  refine ⟨ds₁ ++ d' :: ds₂, ?_⟩
  rw [hwrite]
  refine ⟨⟨k, ?_, ?_⟩, ?_, ?_, ?_, h.bars⟩
  · have hbefore : ∀ d'' ∈ ds₁, d''.sid ≠ nullSID ∧ d''.sid ≠ d'.sid := fun d'' hmem =>
      ⟨fun hsid => hnull (hsid ▸ (h.devices d'' (List.mem_append_left _ hmem)).1.known),
        hothers d'' (List.mem_append_left _ hmem)⟩
    show insertDevice s.deviceDB d' = _
    rw [hdb, List.append_assoc, List.cons_append,
      insertDevice_append hbefore (Or.inr (show d.sid = d'.sid from rfl)), List.append_assoc,
      List.cons_append]
  · simpa using hk
  · rw [List.map_append, List.map_cons]
    have hsame := h.nodup
    rwa [List.map_append, List.map_cons] at hsame
  · intro d'' hmem
    have hcases : d'' = d' ∨ d'' ∈ ds₁ ++ ds₂ := by
      simp only [List.mem_append, List.mem_cons] at hmem ⊢
      tauto
    rcases hcases with rfl | hmem
    · obtain ⟨hemulated, hshows⟩ := h.devices d hd
      refine ⟨hemulated, fun j => ?_, hshows.rules⟩
      by_cases hj : j = i
      · subst hj
        have hstep : v.step r d.sid j = if r.value = 0xFFFFFFFF then .size else .address :=
          if_pos ⟨hop, hsid.symm, hi⟩
        show Function.update d.bars j _ j = resetBar hw (spaces d.sid) d.sid (v.step r d.sid j) j
        rw [Function.update_self, hstep, hshows.bars]
        rfl
      · have hstep : v.step r d.sid j = v d.sid j :=
          if_neg (fun hr => hj (barOffset_injective (hr.2.2.symm.trans hi)))
        show Function.update d.bars i _ j = resetBar hw (spaces d.sid) d.sid (v.step r d.sid j) j
        rw [Function.update_of_ne hj, hstep, hshows.bars]
    · obtain ⟨hemulated, hshows⟩ := h.devices d'' (by
        simp only [List.mem_append, List.mem_cons] at hmem ⊢
        tauto)
      refine ⟨hemulated, fun j => ?_, hshows.rules⟩
      rw [hshows.bars, View.step_of_sid (fun heq => hothers d'' hmem (heq.symm.trans hsid.symm))]
  · intro sid hfresh
    have hne : r.sid ≠ sid := by
      rw [← hsid]
      exact hfresh d' (by simp)
    obtain ⟨hspace, hview⟩ := h.fresh sid (fun d'' hmem => by
      simp only [List.mem_append, List.mem_cons] at hmem hfresh
      rcases hmem with hmem | rfl | hmem
      · exact hfresh d'' (Or.inl hmem)
      · rw [hsid]
        exact hne
      · exact hfresh d'' (Or.inr (Or.inr hmem)))
    refine ⟨hspace, fun hemulated j => ?_⟩
    rw [View.step_of_sid hne]
    exact hview hemulated j

lemma GuestWrite.apart {space : DeviceSpace} {r : Request} {w : ConfigWrite} (h : GuestWrite space r w) :
    w.sid = r.sid ∧ Apart w.offset w.bytes.length 0x10 0x27 := by
  cases h with
  | command value =>
    refine ⟨rfl, Or.inl ?_⟩
    rw [Lib.leBytes_length]
    show fieldCommand.toNat + 2 ≤ 0x10
    decide
  | direct rule bytes hrule hdirect hoffset hwidth hbars => exact ⟨rfl, hbars⟩
  | quirk rule bytes hrule hquirk hoffset hwidth =>
    refine ⟨rfl, Or.inr ?_⟩
    simp only [quirkRules, List.mem_cons, List.not_mem_nil, or_false] at hquirk
    rcases hquirk with rfl | rfl
    · show 0x27 < usb3IntelXUSB2PR.toNat
      decide
    · show 0x27 < usb3IntelPSSEN.toNat
      decide

/-- A write that keeps away from the BARs. -/
lemma Simulates.write (h : Simulates hw known spaces v s ds) {d : Device} (hd : d ∈ ds) {offset : Offset}
    {bytes : List Byte} (hbars : Apart offset bytes.length 0x10 0x27) :
    Simulates hw known spaces v { s with memory := s.memory.write hw d.sid offset bytes } ds := by
  refine ⟨h.deviceDB, h.nodup, h.devices, ?_, ?_⟩
  · intro sid hfresh
    obtain ⟨hspace, hview⟩ := h.fresh sid hfresh
    exact ⟨(Memory.write_space_of_ne (hfresh d hd).symm).trans hspace, hview⟩
  · intro sid pos hfirst hlast
    refine (Memory.write_space_outside ?_).trans (h.bars sid pos hfirst hlast)
    unfold Apart at hbars
    omega

lemma Simulates.emulateDevice (h : Simulates hw known spaces v s ds) (hnull : nullSID ∉ known) {d : Device}
    (hd : d ∈ ds) {r : Request} (hsid : d.sid = r.sid) :
    ∃ ds', Simulates hw known spaces (v.step r) (emulateDevice hw s d r).1 ds' := by
  by_cases hop : r.op = emulReqWrite
  · have hresult : (Dm.emulateDevice hw s d r).1 =
        emulateWrite hw s r.sid d (getRule r.offset d.rules) r.offset r.value := by
      simp only [Dm.emulateDevice, hop]
      rfl
    rw [hresult]
    rcases emulateWrite_cases hw s (h.devices d hd).2.rules r hsid with
      ⟨i, hi, hwrite⟩ | ⟨hbar, -, hwrite⟩ | ⟨hbar, offset, bytes, hguest, hwrite⟩
    · rw [hwrite]
      exact h.writeBar hnull hd hsid hop hi
    · rw [hwrite, View.step_of_offset hbar]
      exact ⟨ds, h⟩
    · rw [hwrite, View.step_of_offset hbar, ← hsid]
      exact ⟨ds, h.write hd hguest.apart.2⟩
  · rw [View.step_of_op hop]
    refine ⟨ds, ?_⟩
    unfold Dm.emulateDevice
    split_ifs <;> exact h

/-- A request makes the writes that it may make. -/
lemma Device.Shows.writes {d : Device} (h : d.Shows hw spaces v) {r : Request} (hsid : d.sid = r.sid) :
    ∃ new, (Dm.emulateDevice hw s d r).1.memory.writes = s.memory.writes ++ new ∧
      ∀ w ∈ new, GuestWrite (spaces r.sid) r w := by
  have hrules := h.rules
  rw [hsid] at hrules
  unfold Dm.emulateDevice
  split_ifs
  · exact ⟨[], (List.append_nil _).symm, by simp⟩
  · rcases emulateWrite_cases hw s hrules r hsid with
      ⟨i, -, hwrite⟩ | ⟨-, -, hwrite⟩ | ⟨-, offset, bytes, hguest, hwrite⟩
    · exact ⟨[], (congrArg (fun s : Pciconf => s.memory.writes) hwrite).trans (List.append_nil _).symm, by simp⟩
    · exact ⟨[], (congrArg (fun s : Pciconf => s.memory.writes) hwrite).trans (List.append_nil _).symm, by simp⟩
    · refine ⟨[⟨r.sid, offset, bytes⟩], congrArg (fun s : Pciconf => s.memory.writes) hwrite, ?_⟩
      intro w hw
      obtain rfl := List.mem_singleton.mp hw
      exact hguest
  · exact ⟨[], (List.append_nil _).symm, by simp⟩

lemma emulateDevice_unruled (d : Device) (r : Request) (h : getRule r.offset d.rules = nullRule) :
    (Dm.emulateDevice hw s d r).1 = s := by
  unfold Dm.emulateDevice
  rw [h]
  split_ifs <;> rfl

lemma barRule_ne (i : BarRange) : barRule i ≠ nullRule := by
  revert i
  decide

lemma emulateRead_bar (space : DeviceSpace) (d : Device) (i : BarRange) :
    emulateRead space d (barRule i) (barOffset i) = readBar d (barOffset i) := by
  have hreal : ¬(barRule i = nullRule ∨ (barRule i).readMask ≠ readAllVirt) :=
    not_or.mpr ⟨barRule_ne i, not_not.mpr rfl⟩
  have hvirt : barRule i ≠ nullRule ∧ (barRule i).vread ≠ .none := ⟨barRule_ne i, by simp [barRule]⟩
  simp only [emulateRead]
  rw [if_neg hreal, if_pos hvirt]
  simp only [barRule, vread, BitVec.ofNat_eq_ofNat, BitVec.zero_or]
  rw [if_pos (barOffset_range i)]

lemma readBar_address {d : Device} {i : BarRange} (h : (d.bars i).state = .address) :
    readBar d (barOffset i) = (d.bars i).address := by
  simp only [readBar, barIndex, h]

lemma readBar_size {d : Device} {i : BarRange} (h : (d.bars i).state = .size) :
    readBar d (barOffset i) = (d.bars i).size := by
  simp only [readBar, barIndex, h]

/-- A read of a BAR is answered from the table. -/
lemma Device.Shows.read {d : Device} (h : d.Shows hw spaces v) {r : Request} (hsid : d.sid = r.sid)
    (hop : r.op = emulReqRead) {i : BarRange} (hi : r.offset = barOffset i) :
    (Dm.emulateDevice hw s d r).2 =
      match v r.sid i with
      | .address => (spaces r.sid).readWord32 (barOffset i)
      | .size => barSize hw (spaces r.sid) r.sid i := by
  have hread : (Dm.emulateDevice hw s d r).2 = readBar d (barOffset i) := by
    simp only [Dm.emulateDevice, hop, hi, getRule_bar, if_true]
    exact emulateRead_bar _ d i
  have hbar : d.bars i = resetBar hw (spaces r.sid) r.sid (v r.sid i) i := by
    rw [h.bars i, hsid]
  rw [hread]
  cases hv : v r.sid i with
  | address =>
    rw [hv] at hbar
    exact (readBar_address (congrArg Bar.state hbar)).trans (congrArg Bar.address hbar)
  | size =>
    rw [hv] at hbar
    exact (readBar_size (congrArg Bar.state hbar)).trans (congrArg Bar.size hbar)

/-- The byte of a register that takes over no bit that is written as zero. -/
lemma byte_subset {c b mask : Byte} (h : c &&& ~~~(b &&& mask) = 0) : c &&& mask = c := by
  apply BitVec.eq_of_getLsbD_eq
  intro i hi
  have hbit := congrArg (fun x : Byte => x.getLsbD i) h
  simp only [BitVec.getLsbD_and, BitVec.getLsbD_not, hi, decide_true, Bool.true_and] at hbit ⊢
  revert hbit
  cases c.getLsbD i <;> cases b.getLsbD i <;> cases mask.getLsbD i <;> simp

lemma command_subset {low high : Byte} (hlow : low &&& 0x07 = low) (hhigh : high &&& 0x04 = high) :
    BitVec.ofNat 16 (ofLeBytes [low, high]) &&& ~~~allowedCommand = 0 := by
  have hlows : ∀ b : Byte, (b &&& 0x07).toNat < 8 := by decide
  have hhighs : ∀ b : Byte, b &&& 0x04 = 0 ∨ b &&& 0x04 = 0x04 := by decide
  have hfinite : ∀ n : Fin 8, BitVec.ofNat 16 n &&& ~~~allowedCommand = 0 ∧
      BitVec.ofNat 16 (n + 256 * 4) &&& ~~~allowedCommand = 0 := by decide
  have hn := hlows low
  rw [hlow] at hn
  have hword := hfinite ⟨low.toNat, hn⟩
  have hbytes : ofLeBytes [low, high] = low.toNat + 256 * high.toNat := by simp [ofLeBytes]
  rw [hbytes]
  rcases hhighs high with hzero | hfour
  · rw [hhigh] at hzero
    simpa [hzero] using hword.1
  · rw [hhigh] at hfour
    simpa [hfour] using hword.2

/-- The command register behind a write request for it. -/
lemma command_emulateDevice {d : Device} {r : Request} (hsid : d.sid = r.sid) (hop : r.op = emulReqWrite)
    (hoffset : r.offset = fieldCommand) :
    ((Dm.emulateDevice hw s d r).1.memory.space r.sid).readWord16 fieldCommand &&& ~~~allowedCommand = 0 := by
  set value := r.value.setWidth 16 with hvalue
  have hspace : (Dm.emulateDevice hw s d r).1.memory.space r.sid =
      DeviceSpace.write (hw.respond r.sid) (s.memory.space r.sid) fieldCommand.toNat
        (leBytes 2 (value &&& allowedCommand).toNat) := by
    have hresult : (Dm.emulateDevice hw s d r).1 =
        { s with memory := s.memory.writeWord16 hw r.sid fieldCommand (value &&& allowedCommand) } := by
      simp only [Dm.emulateDevice, hop, hoffset, getRule_command]
      rw [if_neg (by decide), if_pos trivial]
      simp only [emulateWrite, vwrite, hsid, hvalue]
    rw [hresult]
    exact Memory.write_space_self
  have hlow : (leBytes 2 (value &&& allowedCommand).toNat)[0]? = some (value.setWidth 8 &&& 0x07) := by
    simp only [leBytes, BitVec.ofNat_toNat, BitVec.setWidth_and]
    rfl
  have hhigh : (leBytes 2 (value &&& allowedCommand).toNat)[1]? = some ((value >>> 8).setWidth 8 &&& 0x04) := by
    have hshift : (value &&& allowedCommand).toNat / 256 = ((value >>> 8) &&& (allowedCommand >>> 8)).toNat := by
      rw [← BitVec.ushiftRight_and_distrib, BitVec.toNat_ushiftRight, Nat.shiftRight_eq_div_pow]
    simp only [leBytes, hshift, BitVec.ofNat_toNat, BitVec.setWidth_and]
    rfl
  set old := s.memory.space r.sid with hold
  have hfirst : ((Dm.emulateDevice hw s d r).1.memory.space r.sid) 4 =
      hw.respond r.sid 4 (old 4) (value.setWidth 8 &&& 0x07) := by
    rw [hspace]
    exact DeviceSpace.write_at hlow
  have hsecond : ((Dm.emulateDevice hw s d r).1.memory.space r.sid) 5 =
      hw.respond r.sid 5 (old 5) ((value >>> 8).setWidth 8 &&& 0x04) := by
    rw [hspace]
    exact DeviceSpace.write_at hhigh
  have hword : ((Dm.emulateDevice hw s d r).1.memory.space r.sid).readWord16 fieldCommand =
      BitVec.ofNat 16 (ofLeBytes [((Dm.emulateDevice hw s d r).1.memory.space r.sid) 4,
        ((Dm.emulateDevice hw s d r).1.memory.space r.sid) 5]) := rfl
  rw [hword, hfirst, hsecond]
  exact command_subset (byte_subset (hw.command_clears r.sid 4 _ _ (by decide) (by decide)))
    (byte_subset (hw.command_clears r.sid 5 _ _ (by decide) (by decide)))

/-- A request has no effect, or is one for a device that has been set up before it or by it. -/
lemma Simulates.emulate_cases (h : Simulates hw known spaces v s ds) (hfour : known.card ≤ 4)
    (hnull : nullSID ∉ known) (r : Request) :
    ¬Emulated known spaces r.sid ∧ (emulate hw known s r).1 = s ∨
    Emulated known spaces r.sid ∧ ∃ s₁ ds₁ d new, Simulates hw known spaces v s₁ ds₁ ∧ d ∈ ds₁ ∧ d.sid = r.sid ∧
      s₁.memory.space = s.memory.space ∧ s₁.memory.writes = s.memory.writes ++ new ∧
      (∀ w ∈ new, SizesBar r.sid w ∧ getDevice s.deviceDB r.sid = nullDevice) ∧
      emulate hw known s r = Dm.emulateDevice hw s₁ d r := by
  by_cases hmem : ∃ d ∈ ds, d.sid = r.sid
  · obtain ⟨d, hd, hsid⟩ := hmem
    have hdevice : getDevice s.deviceDB r.sid = d := by
      rw [← hsid]
      exact h.getDevice_of_mem hd
    have hemulated := (h.devices d hd).1
    have hne : d.sid ≠ nullSID := fun heq => hnull (heq ▸ hemulated.known)
    refine Or.inr ⟨hsid ▸ hemulated, s, ds, d, [], h, hd, hsid, rfl, (List.append_nil _).symm, by simp, ?_⟩
    simp only [emulate, hdevice]
    rw [if_neg hne]
  · push Not at hmem
    have hdevice := h.getDevice_of_fresh hmem
    have hspace := (h.fresh r.sid hmem).1
    by_cases hknown : r.sid ∈ known
    · by_cases hheader : (spaces r.sid).readByte fieldHeader = 0
      · have hemulated : Emulated known spaces r.sid := ⟨hknown, hheader⟩
        obtain ⟨hinit, ⟨new, hwrites, hnew⟩, hfound⟩ := initDevice_eq hw s.memory r.sid
        refine Or.inr ⟨hemulated, _, _, _, new, h.setUp hfour hnull hemulated hmem,
          List.mem_append_right _ List.mem_cons_self, ?_, hinit, hwrites, fun w hw => ⟨hnew w hw, hdevice⟩, ?_⟩
        · rw [hfound]
        · simp only [emulate, hdevice]
          rw [if_pos nullDevice_sid, if_neg (not_not.mpr hknown), if_neg (not_not.mpr (hspace ▸ hheader))]
      · refine Or.inl ⟨fun hemulated => hheader hemulated.header, ?_⟩
        simp only [emulate, hdevice]
        rw [if_pos nullDevice_sid, if_neg (not_not.mpr hknown), if_pos (hspace ▸ hheader)]
    · refine Or.inl ⟨fun hemulated => hknown hemulated.known, ?_⟩
      simp only [emulate, hdevice]
      rw [if_pos nullDevice_sid, if_pos hknown]

lemma Simulates.emulate (h : Simulates hw known spaces v s ds) (hfour : known.card ≤ 4) (hnull : nullSID ∉ known)
    (r : Request) : ∃ v' ds', Simulates hw known spaces v' (emulate hw known s r).1 ds' ∧
      ∀ sid, Emulated known spaces sid → v' sid = v.step r sid := by
  rcases h.emulate_cases hfour hnull r with ⟨hnot, hsame⟩ | ⟨-, s₁, ds₁, d, new, h₁, hd, hsid, -, -, -, hresult⟩
  · refine ⟨v, ds, by rw [hsame]; exact h, fun sid hemulated => ?_⟩
    have hne : r.sid ≠ sid := by
      rintro rfl
      exact hnot hemulated
    exact (funext (View.step_of_sid hne)).symm
  · obtain ⟨ds', h'⟩ := h₁.emulateDevice hnull hd hsid
    exact ⟨v.step r, ds', by rw [hresult]; exact h', fun _ _ => rfl⟩

end Simulation

/-- What a request does in a state in which the guest has a view of its BARs, and what it is answered. -/
structure RequestConfined (hw : Hardware) (known : Finset SID) (spaces : SID → DeviceSpace) (v : View) (s : Pciconf)
    (r : Request) : Prop where
  bars : ∀ sid i, ((emulate hw known s r).1.memory.space sid).readWord32 (barOffset i) =
    (spaces sid).readWord32 (barOffset i)
  command : r.op = emulReqWrite → r.offset = fieldCommand → Emulated known spaces r.sid →
    ((emulate hw known s r).1.memory.space r.sid).readWord16 fieldCommand &&& ~~~allowedCommand = 0
  writes : ∃ new, (emulate hw known s r).1.memory.writes = s.memory.writes ++ new ∧
    ∀ w ∈ new, SizesBar r.sid w ∧ getDevice s.deviceDB r.sid = nullDevice ∨ GuestWrite (spaces r.sid) r w
  unsupported : ¬Emulated known spaces r.sid → (emulate hw known s r).1 = s
  unruled : getRule r.offset (initRules (spaces r.sid)) = nullRule →
    (emulate hw known s r).1.memory.space = s.memory.space
  shown : r.op = emulReqRead → ∀ i, r.offset = barOffset i → Emulated known spaces r.sid →
    (emulate hw known s r).2 =
      match v r.sid i with
      | .address => (spaces r.sid).readWord32 (barOffset i)
      | .size => barSize hw (spaces r.sid) r.sid i

/-- The requests of a guest, from the start of the device manager on. -/
def emulateAll (hw : Hardware) (known : Finset SID) (m : Memory) (rs : List Request) : Pciconf :=
  rs.foldl (fun s r => (emulate hw known s r).1) (Pciconf.start m)

lemma simulates_emulateAll (hw : Hardware) (known : Finset SID) (hfour : known.card ≤ 4) (hnull : nullSID ∉ known)
    (m : Memory) (rs : List Request) :
    ∃ v ds, Simulates hw known m.space v (emulateAll hw known m rs) ds ∧
      ∀ sid, Emulated known m.space sid → v sid = View.after rs sid := by
  induction rs using List.reverseRecOn with
  | nil => exact ⟨_, _, Simulates.start m rfl, fun _ _ => rfl⟩
  | append_singleton rs r ih =>
    obtain ⟨v, ds, h, hview⟩ := ih
    obtain ⟨v', ds', h', hview'⟩ := h.emulate hfour hnull r
    refine ⟨v', ds', ?_, fun sid hemulated => ?_⟩
    · simp only [emulateAll, List.foldl_append, List.foldl_cons, List.foldl_nil]
      exact h'
    · rw [hview' sid hemulated]
      simp only [View.after, List.foldl_append, List.foldl_cons, List.foldl_nil]
      funext i
      simp only [View.step, hview sid hemulated]
      rfl

lemma readWord32_congr {space space' : DeviceSpace} {i : BarRange}
    (h : ∀ pos, 0x10 ≤ pos → pos ≤ 0x27 → space pos = space' pos) :
    space.readWord32 (barOffset i) = space'.readWord32 (barOffset i) := by
  have hoffset := barOffset_toNat i
  have hbytes : (List.range 4).map (fun k => space ((barOffset i).toNat + k)) =
      (List.range 4).map (fun k => space' ((barOffset i).toNat + k)) := by
    apply List.map_congr_left
    intro k hk
    have hk := List.mem_range.mp hk
    exact h _ (by omega) (by omega)
  simp only [DeviceSpace.readWord32, DeviceSpace.read, hbytes]

/-- Behind any sequence of requests, for at most four devices with any contents of their config spaces, a request is
confined. -/
theorem request_confined (hw : Hardware) (known : Finset SID) (hfour : known.card ≤ 4) (hnull : nullSID ∉ known)
    (m : Memory) (rs : List Request) (r : Request) :
    RequestConfined hw known m.space (View.after rs) (emulateAll hw known m rs) r := by
  obtain ⟨v, ds, h, hview⟩ := simulates_emulateAll hw known hfour hnull m rs
  obtain ⟨v', ds', h', -⟩ := h.emulate hfour hnull r
  have hcases := h.emulate_cases hfour hnull r
  refine ⟨?_, ?_, ?_, ?_, ?_, ?_⟩
  · intro sid i
    exact readWord32_congr (fun pos hfirst hlast => h'.bars sid pos hfirst hlast)
  · intro hop hoffset hemulated
    rcases hcases with ⟨hnot, -⟩ | ⟨-, s₁, ds₁, d, new, -, -, hsid, -, -, -, hresult⟩
    · exact absurd hemulated hnot
    · rw [hresult]
      exact command_emulateDevice hsid hop hoffset
  · rcases hcases with ⟨-, hsame⟩ | ⟨-, s₁, ds₁, d, new, h₁, hd, hsid, -, hwrites, hnew, hresult⟩
    · exact ⟨[], by rw [hsame, List.append_nil], by simp⟩
    · obtain ⟨guest, hguest, hmem⟩ := (h₁.devices d hd).2.writes (s := s₁) hsid
      refine ⟨new ++ guest, ?_, fun w hw => ?_⟩
      · rw [hresult, hguest, hwrites, List.append_assoc]
      · rcases List.mem_append.mp hw with hw | hw
        · exact Or.inl (hnew w hw)
        · exact Or.inr (hmem w hw)
  · intro hnot
    rcases hcases with ⟨-, hsame⟩ | ⟨hemulated, -⟩
    · exact hsame
    · exact absurd hemulated hnot
  · intro hrule
    rcases hcases with ⟨-, hsame⟩ | ⟨-, s₁, ds₁, d, new, h₁, hd, hsid, hspace, -, -, hresult⟩
    · rw [hsame]
    · have hrules := (h₁.devices d hd).2.rules
      rw [hsid] at hrules
      rw [hresult, emulateDevice_unruled d r (hrules ▸ hrule), hspace]
  · intro hop i hi hemulated
    rcases hcases with ⟨hnot, -⟩ | ⟨-, s₁, ds₁, d, new, h₁, hd, hsid, -, -, -, hresult⟩
    · exact absurd hemulated hnot
    · rw [hresult, (h₁.devices d hd).2.read hsid hop hi, hview r.sid hemulated]

/-! ### Devices -/

/-- A device whose first BAR is a region of 4 KiB. -/
def pageHardware : Hardware where
  respond := fun _ offset old value =>
    if offset = 0x10 then old else if offset = 0x11 then value &&& 0xF0 ||| old &&& 0x0F else value
  bar_restores := by
    intro _ offset old value _ _
    have hnibbles : ∀ b : Byte, b &&& 0xF0 ||| b &&& 0x0F = b := by decide
    have hlow : ∀ b c : Byte, (b &&& 0xF0 ||| c &&& 0x0F) &&& 0x0F = c &&& 0x0F := by
      intro b c
      rw [BitVec.and_or_distrib_right, BitVec.and_assoc, BitVec.and_assoc]
      simp
    split_ifs
    · rfl
    · rw [hlow, hnibbles]
    · rfl
  command_clears := by
    intro _ offset old value hfirst hlast
    rw [if_neg (by omega), if_neg (by omega)]
    simp

/-- A config space with the first BAR at 16#f000_0000# and another header. -/
def headerSpace (header : Byte) : DeviceSpace := fun pos =>
  if pos = 0x0E then header else if pos = 0x13 then 0xF0 else 0

/-- A config space with an MSI capability at an offset that is not aligned, next to its end. -/
def wrappedSpace : DeviceSpace := fun pos => if pos = 0x34 then 0xFD else if pos = 0xFD then 0x05 else 0

def sizeRequests : List Request := [⟨1, emulReqWrite, barOffset 0, 0xFFFFFFFF⟩]

/-- The first BAR of the second device is at 16#e000_0000#. -/
def pairSpaces : SID → DeviceSpace := fun sid =>
  if sid = 2 then fun pos => if pos = 0x13 then 0xE0 else 0 else headerSpace 0

/-- The guest sizes the first BARs of both devices, and writes an address to that of the second one. -/
def pairRequests : List Request :=
  [⟨1, emulReqWrite, barOffset 0, 0xFFFFFFFF⟩, ⟨2, emulReqWrite, barOffset 0, 0xFFFFFFFF⟩,
    ⟨2, emulReqWrite, barOffset 0, 0x12345678⟩]

/-- The guest is shown the size of the first BAR and the address of the second one, it does not set other bits of the
command register, and a request for a third device changes nothing. -/
theorem request_confined_page :
    let s := emulateAll pageHardware {1, 2} ⟨pairSpaces, []⟩ pairRequests;
    (emulate pageHardware {1, 2} s ⟨1, emulReqRead, barOffset 0, 0⟩).2 = 0xFFFFF000 ∧
      (emulate pageHardware {1, 2} s ⟨2, emulReqRead, barOffset 0, 0⟩).2 = 0xE0000000 ∧
      ((emulate pageHardware {1, 2} s ⟨2, emulReqWrite, fieldCommand, 0xFFFF⟩).1.memory.space 2).readWord16
        fieldCommand &&& ~~~allowedCommand = 0 ∧
      (emulate pageHardware {1, 2} s ⟨3, emulReqWrite, fieldCommand, 0xFFFF⟩).1 = s := by
  have hconfined := request_confined pageHardware {1, 2} (by decide) (by decide) ⟨pairSpaces, []⟩ pairRequests
  have hfirst : Emulated {1, 2} pairSpaces 1 := ⟨by decide, by decide⟩
  have hsecond : Emulated {1, 2} pairSpaces 2 := ⟨by decide, by decide⟩
  have hthird : ¬Emulated {1, 2} pairSpaces 3 := fun h => absurd h.known (by decide)
  refine ⟨?_, ?_, (hconfined ⟨2, emulReqWrite, fieldCommand, 0xFFFF⟩).command rfl rfl hsecond,
    (hconfined ⟨3, emulReqWrite, fieldCommand, 0xFFFF⟩).unsupported hthird⟩
  · rw [(hconfined ⟨1, emulReqRead, barOffset 0, 0⟩).shown rfl 0 rfl hfirst]
    decide
  · rw [(hconfined ⟨2, emulReqRead, barOffset 0, 0⟩).shown rfl 0 rfl hsecond]
    decide

/-- The write of a guest to offset 5 reaches the command register of a device with such a capability, and a BAR of
a device with several functions is not shown. -/
theorem request_not_confined :
    (let s := emulateAll pageHardware {1} ⟨fun _ => wrappedSpace, []⟩ [⟨1, emulReqWrite, 5, 0xFF⟩];
      ⟨1, 5, [0xFF, 0]⟩ ∈ s.memory.writes ∧
        (s.memory.space 1).readWord16 fieldCommand &&& ~~~allowedCommand ≠ 0) ∧
    (let r := emulate pageHardware {1}
        (emulateAll pageHardware {1} ⟨fun _ => headerSpace 0x80, []⟩ sizeRequests) ⟨1, emulReqRead, barOffset 0, 0⟩;
      r.2 = 0 ∧ barSize pageHardware (headerSpace 0x80) 1 0 = 0xFFFFF000 ∧
        (headerSpace 0x80).readWord32 (barOffset 0) = 0xF0000000) := by
  refine ⟨⟨?_, ?_⟩, ?_, ?_, ?_⟩
  · decide
  · decide
  · decide
  · decide
  · decide

end Muen.Components.Dm
