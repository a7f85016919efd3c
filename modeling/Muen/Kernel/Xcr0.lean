import Muen.Kernel.Handlers
import Muen.Kernel.Interrupts
import Muen.Lib.Machine

/-!
# XCR0 of the CPU and of the subjects

`SK.FPU` with the register XCR0 of the CPU beside the variable `Current_XCR0`, and `Handle_Xsetbv`. An
`XSETBV` with a value that the CPU does not take raises #GP in the kernel.
-/

namespace Muen.Kernel

open Muen.Lib

variable {P : Policy}

/-! ### The CPU -/

/-- Every bit of `a` is a bit of `b`. -/
def Within (a b : Word64) : Prop := a ||| b = b

instance (a b : Word64) : Decidable (Within a b) := inferInstanceAs (Decidable (_ = _))

/-- The FPU bit is set, AVX needs SSE, the three AVX-512 bits go together and need AVX. -/
def validXcr0 (value : Word64) : Bool :=
  bitTest value 0 ∧ (bitTest value 2 → bitTest value 1) ∧
  bitTest value 5 = bitTest value 6 ∧ bitTest value 6 = bitTest value 7 ∧
  (bitTest value 5 → bitTest value 2)

/-- `XSETBV` of XCR0 raises #GP: a feature that CPUID does not report, or bits that do not go together;
the bits of MPX and of AMX come in pairs. -/
def xsetbvFaults (features value : Word64) : Bool :=
  ¬ Within value features ∨ ¬ validXcr0 value ∨
  bitTest value 3 ≠ bitTest value 4 ∨ bitTest value 17 ≠ bitTest value 18

/-- `Constants.XCR0_Supported_Features_Mask`. -/
def xcr0SupportedFeaturesMask : Word64 := 0xe7

/-- The kernel on a CPU: the features that CPUID reports, the register XCR0, and whether an `XSETBV` of
the kernel has raised #GP. -/
structure XcrCpu (P : Policy) where
  kernel : State P
  features : Word64
  xcr0 : Word64
  fault : Bool

namespace XcrCpu

def onFpu (u : Fpu P → Fpu P) (c : XcrCpu P) : XcrCpu P := { c with kernel := c.kernel.onFpu u }

def xsetbv (value : Word64) (c : XcrCpu P) : XcrCpu P :=
  if xsetbvFaults c.features value then { c with fault := true } else { c with xcr0 := value }

/-- `FPU.Write_XCR0`. -/
def writeXcr0 (value : Word64) (c : XcrCpu P) : XcrCpu P :=
  if c.kernel.fpu.currentXcr0 ≠ value then xsetbv value (c.onFpu (fun f => { f with currentXcr0 := value }))
  else c

/-- `FPU.Enable`, from the query of the features on. -/
def enable (c : XcrCpu P) : XcrCpu P :=
  let active := c.features &&& xcr0SupportedFeaturesMask
  let c := c.onFpu (fun f => { f with activeXcr0Features := active, currentXcr0 := c.xcr0 })
  c.writeXcr0 active

/-- `FPU.Reset_State`. -/
def resetState (id : P.Subject) (c : XcrCpu P) : XcrCpu P := c.onFpu (fpuResetState id)

/-- `FPU.Save_State`. -/
def saveState (hw : Hardware) (id : P.Subject) (c : XcrCpu P) : XcrCpu P :=
  let c := c.writeXcr0 c.kernel.fpu.activeXcr0Features
  c.onFpu (fun f => { f with
    subjectStates := Function.update f.subjectStates id { f.subjectStates id with
      xsaveArea := hw.xsave f.activeXcr0Features f.registers (f.subjectStates id).xsaveArea } })

/-- `FPU.Restore_State`. -/
def restoreState (hw : Hardware) (id : P.Subject) (c : XcrCpu P) : XcrCpu P :=
  let c := c.writeXcr0 c.kernel.fpu.activeXcr0Features
  let c := c.onFpu (fun f => { f with
    registers := hw.xrstor f.activeXcr0Features (f.subjectStates id).xsaveArea f.registers })
  c.writeXcr0 (c.kernel.fpu.subjectStates id).xcr0

end XcrCpu

/-! ### Runs -/

/-- The calls; an `XSETBV` exits with the state `d` of the subject. -/
inductive XcrCall (P : Policy)
  | resetState (id : P.Subject)
  | saveState (id : P.Subject)
  | restoreState (id : P.Subject)
  | xsetbv (id : P.Subject) (d : SubjectState) (rax rdx rcx : Word64)

def xcrStep (hw : Hardware) (c : XcrCpu P) : XcrCall P → Option (XcrCpu P)
  | .resetState id => some (c.resetState id)
  | .saveState id => some (c.saveState hw id)
  | .restoreState id => some (c.restoreState hw id)
  | .xsetbv id d rax rdx rcx =>
    ((handleXsetbv id rax rdx rcx).exec (c.kernel.setDescriptor id (fun _ => d))).map
      (fun r => { c with kernel := r.2 })

/-- The FPU is enabled and the state of every subject is reset. -/
def XcrBooted (features : Word64) (c : XcrCpu P) : Prop :=
  ∃ c₀ : XcrCpu P, c₀.features = features ∧ c₀.fault = false ∧
    c = (List.finRange P.subjects).foldl (fun c id => c.resetState id) c₀.enable

/-- The value of an `XSETBV`. -/
def xsetbvValue (rax rdx : Word64) : Word64 :=
  ((rdx.setWidth 32).setWidth 64 <<< 32) + (rax.setWidth 32).setWidth 64

/-- The request is not valid only because its bit HI16_ZMM differs from its bit ZMM_HI256. -/
def onlyHi16ZmmDiffers (active : Word64) (d : SubjectState) (value : Word64) (index : Word32) : Bool :=
  isCpl0 d ∧ index = 0 ∧ Within value active ∧ bitTest value 7 ≠ bitTest value 6 ∧
  validXcr0 (if bitTest value 6 then bitSet value 7 else bitClear value 7)

def xcrAllowed (c : XcrCpu P) : XcrCall P → Prop
  | .xsetbv _ d rax rdx rcx =>
    onlyHi16ZmmDiffers c.kernel.fpu.activeXcr0Features d (xsetbvValue rax rdx) (rcx.setWidth 32) = false
  | _ => True

/-- The stored values are valid, `Current_XCR0` is the register, and no `XSETBV` of the kernel failed. -/
structure Xcr0Valid (c : XcrCpu P) : Prop where
  within : ∀ id, Within (c.kernel.fpu.subjectStates id).xcr0 c.kernel.fpu.activeXcr0Features
  valid : ∀ id, validXcr0 (c.kernel.fpu.subjectStates id).xcr0 = true
  current : c.kernel.fpu.currentXcr0 = c.xcr0
  noFault : c.fault = false

/-- The answer to an `XSETBV` of a subject that exits with the state `d`. -/
def XsetbvAnswered (c c' : XcrCpu P) (id : P.Subject) (d : SubjectState) (value : Word64) : Prop :=
  let fpu := c.kernel.fpu.subjectStates id
  let fpu' := c'.kernel.fpu.subjectStates id
  (fpu'.xcr0 = fpu.xcr0 ∧ (c'.kernel.descriptors id).rip = d.rip ∧
    pendingVectors c'.kernel id = insert 13 (pendingVectors c.kernel id)) ∨
  (fpu'.xcr0 = value ∧ Within fpu'.xsaveArea.xstateBV value)

/-! ### Bits -/

lemma bitTest_or (a b : Word64) (i : Fin 64) : bitTest (a ||| b) i = (bitTest a i || bitTest b i) := by
  simp [bitTest]

lemma bitTest_and (a b : Word64) (i : Fin 64) : bitTest (a &&& b) i = (bitTest a i && bitTest b i) := by
  simp [bitTest]

lemma ext_bitTest {a b : Word64} (h : ∀ i, bitTest a i = bitTest b i) : a = b := by
  apply BitVec.eq_of_getLsbD_eq
  intro i hi
  exact h ⟨i, hi⟩

lemma Within.bit {a b : Word64} (h : Within a b) {i : Fin 64} (hi : bitTest a i = true) : bitTest b i = true := by
  rw [Within] at h
  rw [← h, bitTest_or, hi, Bool.true_or]

lemma within_iff {a b : Word64} : Within a b ↔ ∀ i, bitTest a i = true → bitTest b i = true := by
  refine ⟨fun h i => h.bit, fun h => ext_bitTest (fun i => ?_)⟩
  rw [bitTest_or]
  cases ha : bitTest a i with
  | false => rfl
  | true => rw [h i ha, Bool.true_or]

/-- A valid value among the active features is taken by the CPU. -/
lemma xsetbvFaults_active {features value : Word64}
    (hwithin : Within value (features &&& xcr0SupportedFeaturesMask)) (hvalid : validXcr0 value = true) :
    xsetbvFaults features value = false := by
  have hfeatures : Within value features := by
    rw [within_iff] at hwithin ⊢
    intro i hi
    have hboth := hwithin i hi
    rw [bitTest_and, Bool.and_eq_true] at hboth
    exact hboth.1
  have hclear : ∀ i, bitTest xcr0SupportedFeaturesMask i = false → bitTest value i = false := by
    intro i hmask
    by_contra hi
    have hboth := hwithin.bit (Bool.not_eq_false _ ▸ hi)
    rw [bitTest_and, hmask, Bool.and_false] at hboth
    cases hboth
  have h3 := hclear 3 (by decide)
  have h4 := hclear 4 (by decide)
  have h17 := hclear 17 (by decide)
  have h18 := hclear 18 (by decide)
  simp [xsetbvFaults, hfeatures, hvalid, h3, h4, h17, h18]

/-- A request that the kernel accepts is valid, up to the bit that it does not test. -/
lemma validXcr0_of_accepted {active value : Word64} {d : SubjectState} {index : Word32}
    (haccepted : xsetbvInvalid active d value index = false)
    (hallowed : onlyHi16ZmmDiffers active d value index = false) :
    Within value active ∧ validXcr0 value = true := by
  have hor : active ||| value = active ↔ Within value active := by
    rw [Within, BitVec.or_comm]
  simp only [xsetbvInvalid, hor, decide_eq_false_iff_not, not_or, not_and, not_not] at haccepted
  obtain ⟨hcpl, hindex, hwithin, hfpu, hsse, hzmm, havx⟩ := haccepted
  have hzmm' : bitTest value 5 = bitTest value 6 := by
    cases h5 : bitTest value 5 <;> cases h6 : bitTest value 6 <;> simp [h5, h6] at hzmm ⊢
  have hbit : bitTest value 7 = bitTest value 6 := by
    by_contra hne
    simp only [onlyHi16ZmmDiffers, decide_eq_false_iff_not, not_and] at hallowed
    apply hallowed hcpl hindex hwithin hne
    by_cases h6 : bitTest value 6 = true
    · have h2 := havx (hzmm'.trans h6)
      rw [if_pos h6]
      simp [validXcr0, hfpu, hzmm', h6, h2, hsse h2]
    · rw [if_neg h6, validXcr0, decide_eq_true_eq]
      simp only [bitTest_bitClear]
      simpa [hfpu, hzmm', h6] using hsse
  refine ⟨hwithin, ?_⟩
  rw [validXcr0, decide_eq_true_eq]
  exact ⟨hfpu, hsse, hzmm', hbit.symm, havx⟩

/-! ### Steps -/

namespace XcrCpu

/-- `Write_XCR0` with a value that the CPU takes sets the variable and the register. -/
lemma writeXcr0_eq {c : XcrCpu P} {value : Word64} (hcurrent : c.kernel.fpu.currentXcr0 = c.xcr0)
    (hvalue : xsetbvFaults c.features value = false) :
    c.writeXcr0 value = { c.onFpu (fun f => { f with currentXcr0 := value }) with xcr0 := value } := by
  rw [writeXcr0]
  by_cases h : c.kernel.fpu.currentXcr0 ≠ value
  · rw [if_pos h, xsetbv, if_neg (by simpa [onFpu] using hvalue)]
  · rw [if_neg h]
    rw [not_not] at h
    have hset : c.onFpu (fun f => { f with currentXcr0 := value }) = c := by
      rw [← h]
      rfl
    rw [hset, ← hcurrent.symm.trans h]

end XcrCpu

/-- The invariant of the runs: the features are those that CPUID reports, as far as the kernel uses them. -/
structure XcrInv (features : Word64) (c : XcrCpu P) : Prop where
  reported : c.features = features
  active : c.kernel.fpu.activeXcr0Features = features &&& xcr0SupportedFeaturesMask
  xcr0 : Xcr0Valid c

section Steps

variable {features : Word64} {c : XcrCpu P}

lemma XcrInv.writeXcr0 (h : XcrInv features c) {value : Word64}
    (hwithin : Within value (features &&& xcr0SupportedFeaturesMask)) (hvalid : validXcr0 value = true) :
    c.writeXcr0 value = { c.onFpu (fun f => { f with currentXcr0 := value }) with xcr0 := value } :=
  XcrCpu.writeXcr0_eq h.xcr0.current (h.reported ▸ xsetbvFaults_active hwithin hvalid)

/-- What leaves the stored values of the subjects alone and sets variable and register together keeps the
invariant. -/
lemma XcrInv.of_stored (h : XcrInv features c) {c' : XcrCpu P} (hfeatures : c'.features = c.features)
    (hactive : c'.kernel.fpu.activeXcr0Features = c.kernel.fpu.activeXcr0Features)
    (hstored : ∀ id, (c'.kernel.fpu.subjectStates id).xcr0 = (c.kernel.fpu.subjectStates id).xcr0)
    (hcurrent : c'.kernel.fpu.currentXcr0 = c'.xcr0) (hfault : c'.fault = c.fault) : XcrInv features c' where
  reported := hfeatures.trans h.reported
  active := hactive.trans h.active
  xcr0 := {
    within := fun id => by
      rw [hstored, hactive]
      exact h.xcr0.within id
    valid := fun id => by
      rw [hstored]
      exact h.xcr0.valid id
    current := hcurrent
    noFault := hfault.trans h.xcr0.noFault }

lemma XcrInv.write (h : XcrInv features c) {value : Word64}
    (hwithin : Within value (features &&& xcr0SupportedFeaturesMask)) (hvalid : validXcr0 value = true) :
    XcrInv features (c.writeXcr0 value) := by
  rw [h.writeXcr0 hwithin hvalid]
  exact h.of_stored rfl rfl (fun _ => rfl) rfl rfl

/-- A valid value may be stored for a subject. -/
lemma XcrInv.store (h : XcrInv features c) {c' : XcrCpu P} {id : P.Subject} {x : FpuState}
    (hfeatures : c'.features = c.features)
    (hactive : c'.kernel.fpu.activeXcr0Features = c.kernel.fpu.activeXcr0Features)
    (hstates : c'.kernel.fpu.subjectStates = Function.update c.kernel.fpu.subjectStates id x)
    (hcurrent : c'.kernel.fpu.currentXcr0 = c'.xcr0) (hfault : c'.fault = c.fault)
    (hwithin : Within x.xcr0 (features &&& xcr0SupportedFeaturesMask)) (hvalid : validXcr0 x.xcr0 = true) :
    XcrInv features c' where
  reported := hfeatures.trans h.reported
  active := hactive.trans h.active
  xcr0 := {
    within := fun j => by
      rw [hstates, hactive]
      by_cases hj : j = id
      · subst hj
        rw [Function.update_self, h.active]
        exact hwithin
      · rw [Function.update_of_ne hj]
        exact h.xcr0.within j
    valid := fun j => by
      rw [hstates]
      by_cases hj : j = id
      · subst hj
        rw [Function.update_self]
        exact hvalid
      · rw [Function.update_of_ne hj]
        exact h.xcr0.valid j
    current := hcurrent
    noFault := hfault.trans h.xcr0.noFault }

lemma within_self (a : Word64) : Within a a := BitVec.or_self

lemma XcrInv.resetState (h : XcrInv features c)
    (hactive : validXcr0 (features &&& xcr0SupportedFeaturesMask) = true) (id : P.Subject) :
    XcrInv features (c.resetState id) := by
  have hstates : (c.resetState id).kernel.fpu.subjectStates = Function.update c.kernel.fpu.subjectStates id
      ⟨c.kernel.fpu.activeXcr0Features, ⟨0x037f, 0x1f80, 0xffff, 0, fun _ => 0⟩⟩ := rfl
  rw [← h.active] at hactive
  refine h.store ?_ ?_ hstates h.xcr0.current ?_ ?_ hactive
  · rfl
  · rfl
  · rfl
  · rw [← h.active]
    exact within_self _

lemma XcrInv.saveState (h : XcrInv features c)
    (hactive : validXcr0 (features &&& xcr0SupportedFeaturesMask) = true) (hw : Hardware) (id : P.Subject) :
    XcrInv features (c.saveState hw id) := by
  rw [XcrCpu.saveState, h.active]
  have h₁ := h.write (within_self _) hactive
  refine h₁.of_stored ?_ ?_ (fun j => ?_) h₁.xcr0.current ?_
  · rfl
  · rfl
  · by_cases hj : j = id
    · subst hj
      simp [XcrCpu.onFpu, State.onFpu]
    · simp [XcrCpu.onFpu, State.onFpu, Function.update_of_ne hj]
  · rfl

lemma XcrInv.restoreState (h : XcrInv features c)
    (hactive : validXcr0 (features &&& xcr0SupportedFeaturesMask) = true) (hw : Hardware) (id : P.Subject) :
    XcrInv features (c.restoreState hw id) := by
  rw [XcrCpu.restoreState, h.active]
  have h₁ := h.write (within_self _) hactive
  have h₂ : XcrInv features ((c.writeXcr0 (features &&& xcr0SupportedFeaturesMask)).onFpu (fun f => { f with
      registers := hw.xrstor f.activeXcr0Features (f.subjectStates id).xsaveArea f.registers })) :=
    h₁.of_stored rfl rfl (fun _ => rfl) h₁.xcr0.current rfl
  have hwithin := h₂.xcr0.within id
  rw [h₂.active] at hwithin
  exact h₂.write hwithin (h₂.xcr0.valid id)

lemma handleXsetbv_exec (id : P.Subject) (rax rdx rcx : Word64) (s : State P) :
    (handleXsetbv id rax rdx rcx).exec s = some ((),
      if xsetbvInvalid s.fpu.activeXcr0Features (s.descriptors id) (xsetbvValue rax rdx) (rcx.setWidth 32) then
        insertInterrupt id 13 s
      else incrementRIP id (s.onFpu (fpuSetXcr0 id (xsetbvValue rax rdx)))) := by
  rw [handleXsetbv, Prog.exec_bind]
  by_cases h : xsetbvInvalid s.fpu.activeXcr0Features (s.descriptors id) (xsetbvValue rax rdx)
      (rcx.setWidth 32) = true
  · rw [if_pos h]
    change (Prog.exec (if xsetbvInvalid s.fpu.activeXcr0Features (s.descriptors id) (xsetbvValue rax rdx)
      (rcx.setWidth 32) then _ else _) s) = _
    rw [if_pos h]
    rfl
  · rw [if_neg h]
    change (Prog.exec (if xsetbvInvalid s.fpu.activeXcr0Features (s.descriptors id) (xsetbvValue rax rdx)
      (rcx.setWidth 32) then _ else _) s) = _
    rw [if_neg h]
    rfl

lemma foldl_resetState (ids : List P.Subject) (c : XcrCpu P) :
    let c' := ids.foldl (fun c id => c.resetState id) c
    c'.features = c.features ∧ c'.xcr0 = c.xcr0 ∧ c'.fault = c.fault ∧
    c'.kernel.fpu.activeXcr0Features = c.kernel.fpu.activeXcr0Features ∧
    c'.kernel.fpu.currentXcr0 = c.kernel.fpu.currentXcr0 ∧
    ∀ id, (c'.kernel.fpu.subjectStates id).xcr0 =
      if id ∈ ids then c.kernel.fpu.activeXcr0Features else (c.kernel.fpu.subjectStates id).xcr0 := by
  induction ids generalizing c with
  | nil => simp
  | cons j ids ih =>
    obtain ⟨hfeatures, hregister, hfault, hactive, hcurrent, hstored⟩ := ih (c.resetState j)
    refine ⟨hfeatures, hregister, hfault, hactive, hcurrent, fun id => ?_⟩
    rw [List.foldl_cons, hstored]
    by_cases hid : id ∈ ids
    · rw [if_pos hid, if_pos (List.mem_cons_of_mem j hid)]
      rfl
    · rw [if_neg hid]
      by_cases hj : id = j
      · subst hj
        simp [XcrCpu.resetState, XcrCpu.onFpu, State.onFpu, fpuResetState]
      · simp [XcrCpu.resetState, XcrCpu.onFpu, State.onFpu, fpuResetState, hj, hid]

lemma booted_inv (h : XcrBooted features c)
    (hvalid : validXcr0 (features &&& xcr0SupportedFeaturesMask) = true) : XcrInv features c := by
  obtain ⟨c₀, hfeatures, hfault, rfl⟩ := h
  have henable : c₀.enable = { c₀.onFpu (fun f => { f with
      activeXcr0Features := features &&& xcr0SupportedFeaturesMask
      currentXcr0 := features &&& xcr0SupportedFeaturesMask }) with
      xcr0 := features &&& xcr0SupportedFeaturesMask } := by
    rw [XcrCpu.enable, hfeatures]
    apply XcrCpu.writeXcr0_eq rfl
    simp only [XcrCpu.onFpu, hfeatures]
    exact xsetbvFaults_active (within_self _) hvalid
  obtain ⟨hf, hx, hflt, ha, hc, hstored⟩ := foldl_resetState (List.finRange P.subjects) c₀.enable
  have hall : ∀ id, (((List.finRange P.subjects).foldl (fun c id => c.resetState id)
      c₀.enable).kernel.fpu.subjectStates id).xcr0 = features &&& xcr0SupportedFeaturesMask := by
    intro id
    rw [hstored, if_pos (List.mem_finRange id), henable]
    rfl
  have hactive : ((List.finRange P.subjects).foldl (fun c id => c.resetState id)
      c₀.enable).kernel.fpu.activeXcr0Features = features &&& xcr0SupportedFeaturesMask := by
    rw [ha, henable]
    rfl
  exact {
    reported := by
      rw [hf, henable]
      exact hfeatures
    active := hactive
    xcr0 := {
      within := fun id => by
        rw [hall, hactive]
        exact within_self _
      valid := fun id => by
        rw [hall]
        exact hvalid
      current := by
        rw [hc, hx, henable]
        rfl
      noFault := by
        rw [hflt, henable]
        exact hfault } }

/-- What `Set_XCR0` leaves in XSTATE_BV: the components that the new value enables. -/
lemma sub_cleared_eq (value xstateBV : Word64) :
    xstateBV - ((value ^^^ xstateBV) &&& xstateBV) = xstateBV &&& value := by
  have hdisjoint : (xstateBV &&& value) &&& ((value ^^^ xstateBV) &&& xstateBV) = 0#64 := by
    apply ext_bitTest
    intro i
    simp only [bitTest, BitVec.getLsbD_and, BitVec.getLsbD_xor, BitVec.getLsbD_zero]
    cases value.getLsbD i <;> cases xstateBV.getLsbD i <;> rfl
  have hor : (xstateBV &&& value) ||| ((value ^^^ xstateBV) &&& xstateBV) = xstateBV := by
    apply ext_bitTest
    intro i
    simp only [bitTest, BitVec.getLsbD_and, BitVec.getLsbD_xor, BitVec.getLsbD_or]
    cases value.getLsbD i <;> cases xstateBV.getLsbD i <;> rfl
  have hadd := BitVec.add_eq_or_of_and_eq_zero _ _ hdisjoint
  rw [hor] at hadd
  calc xstateBV - ((value ^^^ xstateBV) &&& xstateBV)
      = (xstateBV &&& value) + ((value ^^^ xstateBV) &&& xstateBV) - ((value ^^^ xstateBV) &&& xstateBV) := by
        rw [hadd]
    _ = xstateBV &&& value := BitVec.add_sub_cancel _ _

lemma xcrStep_xsetbv (hw : Hardware) (c : XcrCpu P) (id : P.Subject) (d : SubjectState) (rax rdx rcx : Word64) :
    xcrStep hw c (.xsetbv id d rax rdx rcx) = some { c with
      kernel :=
        if xsetbvInvalid c.kernel.fpu.activeXcr0Features d (xsetbvValue rax rdx) (rcx.setWidth 32) then
          insertInterrupt id 13 (c.kernel.setDescriptor id (fun _ => d))
        else incrementRIP id ((c.kernel.setDescriptor id (fun _ => d)).onFpu
          (fpuSetXcr0 id (xsetbvValue rax rdx))) } := by
  have hd : (c.kernel.setDescriptor id (fun _ => d)).descriptors id = d := Function.update_self ..
  rw [xcrStep, handleXsetbv_exec, hd]
  rfl

lemma xcrStep_answered (hw : Hardware) (c : XcrCpu P) (id : P.Subject) (d : SubjectState)
    (rax rdx rcx : Word64) :
    ∃ c', xcrStep hw c (.xsetbv id d rax rdx rcx) = some c' ∧
      XsetbvAnswered c c' id d (xsetbvValue rax rdx) := by
  refine ⟨_, xcrStep_xsetbv hw c id d rax rdx rcx, ?_⟩
  by_cases h : xsetbvInvalid c.kernel.fpu.activeXcr0Features d (xsetbvValue rax rdx) (rcx.setWidth 32) = true
  · refine .inl ⟨?_, ?_, ?_⟩
    · rw [if_pos h]
      rfl
    · rw [if_pos h]
      simp [insertInterrupt, State.setInterrupts, State.setDescriptor]
    · rw [if_pos h]
      simp only [insertInterrupt]
      rw [pendingVectors_setInterrupts, vectors_bitSet, Function.update_self]
      rfl
  · refine .inr ⟨?_, ?_⟩
    · rw [if_neg h]
      simp [incrementRIP, State.setDescriptor, State.onFpu, fpuSetXcr0]
    · rw [if_neg h]
      simp only [incrementRIP, State.setDescriptor, State.onFpu, fpuSetXcr0, Function.update_self]
      rw [sub_cleared_eq, within_iff]
      intro i hi
      rw [bitTest_and, Bool.and_eq_true] at hi
      exact hi.2

lemma xcrStep_inv (hw : Hardware) (hactive : validXcr0 (features &&& xcr0SupportedFeaturesMask) = true)
    {c c' : XcrCpu P} {a : XcrCall P} (h : XcrInv features c) (hallowed : xcrAllowed c a)
    (hstep : xcrStep hw c a = some c') : XcrInv features c' := by
  cases a with
  | resetState id =>
    obtain rfl := Option.some.inj hstep
    exact h.resetState hactive id
  | saveState id =>
    obtain rfl := Option.some.inj hstep
    exact h.saveState hactive hw id
  | restoreState id =>
    obtain rfl := Option.some.inj hstep
    exact h.restoreState hactive hw id
  | xsetbv id d rax rdx rcx =>
    rw [xcrStep_xsetbv] at hstep
    obtain rfl := Option.some.inj hstep
    by_cases hinvalid :
        xsetbvInvalid c.kernel.fpu.activeXcr0Features d (xsetbvValue rax rdx) (rcx.setWidth 32) = true
    · rw [if_pos hinvalid]
      refine h.of_stored ?_ ?_ (fun _ => ?_) h.xcr0.current ?_
      · rfl
      · rfl
      · rfl
      · rfl
    · rw [if_neg hinvalid]
      rw [Bool.not_eq_true] at hinvalid
      obtain ⟨hwithin, hvalid⟩ := validXcr0_of_accepted hinvalid hallowed
      rw [h.active] at hwithin
      let old := (c.kernel.fpu.subjectStates id).xsaveArea
      let value := xsetbvValue rax rdx
      exact h.store (x := ⟨value, { old with
        xstateBV := old.xstateBV - ((value ^^^ old.xstateBV) &&& old.xstateBV) }⟩) rfl rfl rfl h.xcr0.current rfl
        hwithin hvalid

/-- In every run in which no subject asks for a value whose only flaw is the bit HI16_ZMM, the values of
XCR0 that are stored for the subjects are valid, and the kernel never loads a value that the CPU does not
take. A request that is refused leaves XCR0 and RIP alone. -/
theorem xcr0_valid (hw : Hardware) {features : Word64}
    (hactive : validXcr0 (features &&& xcr0SupportedFeaturesMask) = true) {c : XcrCpu P}
    (h : Reaches (xcrStep hw) xcrAllowed (XcrBooted features) c) :
    Xcr0Valid c ∧ ∀ id d rax rdx rcx, ∃ c', xcrStep hw c (.xsetbv id d rax rdx rcx) = some c' ∧
      XsetbvAnswered c c' id d (xsetbvValue rax rdx) := by
  have hinv : XcrInv features c :=
    h.invariant (XcrInv features) (fun s hs => booted_inv hs hactive)
      (fun s a s' hs ha hstep => xcrStep_inv hw hactive hs ha hstep)
  exact ⟨hinv.xcr0, xcrStep_answered hw c⟩

end Steps

/-! ### A request with the bit HI16_ZMM alone -/

/-- A CPU on which `XSAVE` and `XRSTOR` move the registers as they are. -/
def plainHardware : Hardware where
  xsave _ registers _ := registers
  xrstor _ area _ := area
  vmxControls _ := (0, BitVec.allOnes 32)
  cr0 := 0
  cr3 := 0
  cr4 := 0
  ia32Efer := 0
  gdtBase := 0
  idtBase := 0
  tssBase := 0
  stackAddress := 0
  exitAddress := 0

/-- A CPU with AVX-512 after boot. -/
def avx512Cpu : XcrCpu smallPolicy :=
  (List.finRange smallPolicy.subjects).foldl (fun c id => c.resetState id)
    (XcrCpu.enable ⟨startState 0 true, 0xe7, 1, false⟩)

lemma avx512Cpu_booted : XcrBooted 0xe7 avx512Cpu := ⟨_, rfl, rfl, rfl⟩

/-- The value 0x87 has HI16_ZMM set and the other two bits of AVX-512 clear. It is accepted, and restoring
the state of the subject raises #GP in the kernel. -/
theorem xcr0_valid_fails :
    ¬ ∀ (P : Policy) (hw : Hardware) (features : Word64),
      validXcr0 (features &&& xcr0SupportedFeaturesMask) = true →
      ∀ c : XcrCpu P, Reaches (xcrStep hw) (fun _ _ => True) (XcrBooted features) c → Xcr0Valid c := by
  intro h
  have hrun : ∃ c₁ c₂ : XcrCpu smallPolicy,
      xcrStep plainHardware avx512Cpu (.xsetbv 0 nullSubjectState 0x87 0 0) = some c₁ ∧
      xcrStep plainHardware c₁ (.restoreState 0) = some c₂ ∧ c₂.fault = true :=
    ⟨_, _, rfl, rfl, rfl⟩
  obtain ⟨c₁, c₂, h₁, h₂, hfault⟩ := hrun
  have hreached : Reaches (xcrStep plainHardware) (fun _ _ => True) (XcrBooted 0xe7) c₂ :=
    ((Reaches.start avx512Cpu_booted).next trivial h₁).next trivial h₂
  have hvalid := h smallPolicy plainHardware 0xe7 (by decide) c₂ hreached
  rw [hvalid.noFault] at hfault
  cases hfault

theorem xcr0_valid_avx512 :
    ∃ c : XcrCpu smallPolicy, (c.kernel.fpu.subjectStates 0).xcr0 = 7 ∧
      Xcr0Valid c ∧ ∀ id d rax rdx rcx, ∃ c', xcrStep plainHardware c (.xsetbv id d rax rdx rcx) = some c' ∧
        XsetbvAnswered c c' id d (xsetbvValue rax rdx) := by
  have hrun : ∃ c : XcrCpu smallPolicy,
      xcrStep plainHardware avx512Cpu (.xsetbv 0 nullSubjectState 7 0 0) = some c ∧
      (c.kernel.fpu.subjectStates 0).xcr0 = 7 := ⟨_, rfl, rfl⟩
  obtain ⟨c, hstep, hstored⟩ := hrun
  have hreached : Reaches (xcrStep plainHardware) xcrAllowed (XcrBooted 0xe7) c := by
    apply (Reaches.start avx512Cpu_booted).next _ hstep
    rw [xcrAllowed]
    decide
  exact ⟨c, hstored, xcr0_valid plainHardware (by decide) hreached⟩

end Muen.Kernel
