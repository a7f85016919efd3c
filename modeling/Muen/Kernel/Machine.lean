import Muen.Kernel.Scheduler

/-!
# SK.VMX, SK.FPU and the state of subjects

The VMCS of the CPU, the FPU, and the transfer of the state of a subject between its descriptor and the
hardware. The results of instructions that are not part of the kernel are given by `Hardware`.
-/

namespace Muen.Kernel

open Lib

variable {P : Policy}

/-- Instructions and registers of the CPU that the kernel relies on. -/
structure Hardware where
  /-- `XSAVE` of the registers under a feature mask into an area. -/
  xsave : Word64 → XsaveArea → XsaveArea → XsaveArea
  /-- `XRSTOR` of an area under a feature mask into the registers. -/
  xrstor : Word64 → XsaveArea → XsaveArea → XsaveArea
  /-- The default settings of a VMX control field: the bits that must be one, and those that may be. -/
  vmxControls : VmcsField → Word32 × Word32
  cr0 : Word64
  cr3 : Word64
  cr4 : Word64
  ia32Efer : Word64
  gdtBase : Word64
  idtBase : Word64
  tssBase : Word64
  stackAddress : Word64
  exitAddress : Word64

/-! ### SK.VMX -/

/-- `VMX.Load`. -/
def vmxLoad (address : Word64) (s : State P) : State P :=
  { s with vmx := { s.vmx with current := some address } }

/-- The VMCS of a subject. -/
def vmcsAddress (id : P.Subject) : Word64 := (P.subjectSpec id).vmcsAddress

/-- `VMX.Reset`: the region is cleared and is not current any more. -/
def vmxReset (address : Word64) (s : State P) : State P :=
  { s with
    vmx :=
      { current := if s.vmx.current = some address then none else s.vmx.current
        memory := Function.update s.vmx.memory address (fun _ => 0) } }

/-- The fields of the current VMCS. -/
def currentVmcs (s : State P) : VmcsField → Word64 :=
  match s.vmx.current with
  | none => fun _ => 0
  | some address => s.vmx.memory address

/-- Writes to fields of the current VMCS, one after the other. -/
def vmcsWriteAll (fields : List (VmcsField × Word64)) (s : State P) : State P :=
  match s.vmx.current with
  | none => s
  | some address =>
    let vmcs := fields.foldl (fun v fv => Function.update v fv.1 fv.2) (s.vmx.memory address)
    { s with vmx := { s.vmx with memory := Function.update s.vmx.memory address vmcs } }

/-- `VMX.VMCS_Read`; without a current VMCS the kernel ends in `VMX_Error`. -/
def vmcsRead (field : VmcsField) : Proc P Word64 := do
  let current ← Prog.read {} (fun s => s.vmx.current)
  match current with
  | none => Prog.halt
  | some address => Prog.read {} (fun s => s.vmx.memory address field)

/-- `VMX.VMCS_Write` of several fields. -/
def vmcsWrite (fields : List (VmcsField × Word64)) : Proc P Unit := do
  let current ← Prog.read {} (fun s => s.vmx.current)
  match current with
  | none => Prog.halt
  | some _ => Prog.modify {} (vmcsWriteAll fields)

/-- `VMX.VMCS_Set_Interrupt_Window`. -/
def vmcsSetInterruptWindow (value : Bool) : Proc P Unit := do
  let flags ← vmcsRead .cpuBasedExecControl
  vmcsWrite [(.cpuBasedExecControl, if value then bitSet flags 2 else bitClear flags 2)]

/-- A VMX control with its default settings applied. -/
def controlValue (hw : Hardware) (field : VmcsField) (value : Word32) : VmcsField × Word64 :=
  (field, ((value &&& (hw.vmxControls field).2) ||| (hw.vmxControls field).1).setWidth 64)

/-- `VMX.VMCS_Setup_Control_Fields`. -/
def controlFields (hw : Hardware) (spec : SubjectSpec) : List (VmcsField × Word64) :=
  [controlValue hw .pinBasedExecControl spec.execPin,
    controlValue hw .cpuBasedExecControl spec.execProc,
    controlValue hw .cpuBasedExecControl2 spec.execProc2,
    (.exceptionBitmap, spec.exceptionBitmap.setWidth 64),
    (.cr0Mask, spec.cr0Mask),
    (.cr4Mask, spec.cr4Mask),
    (.cr3TargetCount, 0),
    (.ioBitmapA, spec.ioBitmapAddress),
    (.ioBitmapB, spec.ioBitmapAddress + 4096),
    (.msrBitmap, spec.msrBitmapAddress),
    (.vmExitMsrStoreAddress, spec.msrStoreAddress),
    (.vmEntryMsrLoadAddress, spec.msrStoreAddress),
    (.vmExitMsrStoreCount, spec.msrCount.setWidth 64),
    (.vmEntryMsrLoadCount, spec.msrCount.setWidth 64),
    controlValue hw .vmExitControls spec.exitCtrls,
    controlValue hw .vmEntryControls spec.entryCtrls]

/-- `VMX.VMCS_Setup_Host_Fields`. -/
def hostFields (hw : Hardware) : List (VmcsField × Word64) :=
  [(.hostSelCs, 8), (.hostSelDs, 16), (.hostSelEs, 16), (.hostSelSs, 16), (.hostSelFs, 16),
    (.hostSelGs, 16), (.hostSelTr, 24), (.hostCr0, hw.cr0), (.hostCr3, hw.cr3), (.hostCr4, hw.cr4),
    (.hostBaseGdtr, hw.gdtBase), (.hostBaseIdtr, hw.idtBase), (.hostBaseTr, hw.tssBase),
    (.hostRsp, hw.stackAddress), (.hostRip, hw.exitAddress), (.hostIa32Efer, hw.ia32Efer)]

/-- `VMX.VMCS_Setup_Guest_Fields`. -/
def guestFields (spec : SubjectSpec) : List (VmcsField × Word64) :=
  [(.vmcsLinkPointer, BitVec.allOnes 64), (.guestCr3, spec.pml4Address), (.eptPointer, spec.eptPointer)]

/-! ### SK.FPU -/

/-- `FPU.Write_XCR0`. -/
def writeXcr0 (value : Word64) (f : Fpu P) : Fpu P := { f with currentXcr0 := value }

/-- `FPU.Save_State`. -/
def fpuSaveState (hw : Hardware) (id : P.Subject) (f : Fpu P) : Fpu P :=
  let f := writeXcr0 f.activeXcr0Features f
  let old := f.subjectStates id
  { f with
    subjectStates := Function.update f.subjectStates id
      { old with xsaveArea := hw.xsave f.activeXcr0Features f.registers old.xsaveArea } }

/-- `FPU.Restore_State`. -/
def fpuRestoreState (hw : Hardware) (id : P.Subject) (f : Fpu P) : Fpu P :=
  let f := writeXcr0 f.activeXcr0Features f
  let f := { f with registers := hw.xrstor f.activeXcr0Features (f.subjectStates id).xsaveArea f.registers }
  writeXcr0 (f.subjectStates id).xcr0 f

/-- `FPU.Reset_State`. -/
def fpuResetState (id : P.Subject) (f : Fpu P) : Fpu P :=
  { f with
    subjectStates := Function.update f.subjectStates id
      ⟨f.activeXcr0Features, ⟨0x037f, 0x1f80, 0xffff, 0, fun _ => 0⟩⟩ }

/-- `FPU.Set_XCR0`: state components that are no longer enabled are dropped from the saved area. -/
def fpuSetXcr0 (id : P.Subject) (value : Word64) (f : Fpu P) : Fpu P :=
  let old := f.subjectStates id
  let xstateBV := old.xsaveArea.xstateBV
  let clearedBits := (value ^^^ xstateBV) &&& xstateBV
  { f with
    subjectStates := Function.update f.subjectStates id
      { xcr0 := value, xsaveArea := { old.xsaveArea with xstateBV := xstateBV - clearedBits } } }

def State.onFpu (u : Fpu P → Fpu P) (s : State P) : State P := { s with fpu := u s.fpu }

/-! ### SK.Subjects -/

/-- `Subjects.Accepts_Interrupts`. -/
def acceptsInterrupts (d : SubjectState) : Bool := d.intrState = 0 ∧ bitTest d.rflags 9 = true

/-- `Subjects.Is_CPL_0`. -/
def isCpl0 (d : SubjectState) : Bool := d.segmentRegs.cs.selector &&& 3 = 0

/-- `Subjects.Filter_State`. -/
def filterState (id : P.Subject) : State P → State P :=
  State.setDescriptor id (fun d => { d with cr4 := bitSet d.cr4 6 })

/-- `Subjects.Reset_State`. -/
def resetState (id : P.Subject) : State P → State P :=
  let spec := P.subjectSpec id
  State.setDescriptor id (fun _ =>
    { nullSubjectState with
      regs := spec.gprs
      rip := spec.entryPoint
      rsp := spec.stackAddress
      cr0 := spec.cr0
      shadowCr0 := spec.cr0Shadow
      cr4 := spec.cr4
      shadowCr4 := spec.cr4Shadow
      rflags := 2
      segmentRegs := spec.segments
      running := true })

/-- `Subjects.Save_Segment`. -/
def saveSegment (vmcs : VmcsField → Word64) (segment : SegmentID) : Segment where
  selector := vmcs (.guestSel segment)
  base := vmcs (.guestBase segment)
  limit := (vmcs (.guestLimit segment)).setWidth 32
  accessRights := (vmcs (.guestAccessRights segment)).setWidth 32

/-- The descriptor that `Subjects.Save_State` fills from the fields of the VMCS. -/
def savedState (vmcs : VmcsField → Word64) (exitReason : Word64) (regs : CpuRegisters) (d : SubjectState) :
    SubjectState where
  regs := regs
  exitReason := exitReason.setWidth 32
  intrState := (vmcs .guestInterruptibility).setWidth 32
  activityState := (vmcs .guestActivityState).setWidth 32
  sysenterCs := (vmcs .guestSysenterCs).setWidth 32
  instructionLen := (vmcs .vmxExitInstructionLen).setWidth 32
  exitQualification := vmcs .vmxExitQualification
  guestPhysAddr := vmcs .guestPhysicalAddress
  rip := vmcs .guestRip
  rsp := vmcs .guestRsp
  cr0 := vmcs .guestCr0
  shadowCr0 := vmcs .cr0ReadShadow
  cr3 := vmcs .guestCr3
  cr4 := vmcs .guestCr4
  shadowCr4 := vmcs .cr4ReadShadow
  rflags := vmcs .guestRflags
  ia32Efer := vmcs .guestIa32Efer
  sysenterEsp := vmcs .guestSysenterEsp
  sysenterEip := vmcs .guestSysenterEip
  segmentRegs :=
    { cs := saveSegment vmcs .cs
      ss := saveSegment vmcs .ss
      ds := saveSegment vmcs .ds
      es := saveSegment vmcs .es
      fs := saveSegment vmcs .fs
      gs := saveSegment vmcs .gs
      tr := saveSegment vmcs .tr
      ldtr := saveSegment vmcs .ldtr }
  gdtr := { d.gdtr with base := vmcs .guestBaseGdtr, limit := (vmcs .guestLimitGdtr).setWidth 32 }
  idtr := { d.idtr with base := vmcs .guestBaseIdtr, limit := (vmcs .guestLimitIdtr).setWidth 32 }
  running := d.running

/-- `Subjects.Save_State`. -/
def saveState (id : P.Subject) (exitReason : Word64) (regs : CpuRegisters) (s : State P) : State P :=
  State.setDescriptor id (savedState (currentVmcs s) exitReason regs) s

/-- `Subjects.Restore_Segment`. -/
def restoreSegment (id : SegmentID) (segment : Segment) : List (VmcsField × Word64) :=
  [(.guestBase id, segment.base), (.guestSel id, segment.selector),
    (.guestLimit id, segment.limit.setWidth 64), (.guestAccessRights id, segment.accessRights.setWidth 64)]

/-- The fields that `Subjects.Restore_State` writes. -/
def restoreFields (d : SubjectState) : List (VmcsField × Word64) :=
  [(.guestInterruptibility, d.intrState.setWidth 64),
    (.guestActivityState, d.activityState.setWidth 64),
    (.guestRip, d.rip),
    (.guestRsp, d.rsp),
    (.guestCr0, d.cr0),
    (.cr0ReadShadow, d.shadowCr0),
    (.guestCr4, d.cr4),
    (.cr4ReadShadow, d.shadowCr4),
    (.guestRflags, d.rflags),
    (.guestIa32Efer, d.ia32Efer),
    (.guestBaseGdtr, d.gdtr.base),
    (.guestLimitGdtr, d.gdtr.limit.setWidth 64),
    (.guestBaseIdtr, d.idtr.base),
    (.guestLimitIdtr, d.idtr.limit.setWidth 64),
    (.guestSysenterCs, d.sysenterCs.setWidth 64),
    (.guestSysenterEip, d.sysenterEip),
    (.guestSysenterEsp, d.sysenterEsp)] ++
  restoreSegment .cs d.segmentRegs.cs ++ restoreSegment .ss d.segmentRegs.ss ++
  restoreSegment .ds d.segmentRegs.ds ++ restoreSegment .es d.segmentRegs.es ++
  restoreSegment .fs d.segmentRegs.fs ++ restoreSegment .gs d.segmentRegs.gs ++
  restoreSegment .tr d.segmentRegs.tr ++ restoreSegment .ldtr d.segmentRegs.ldtr

/-- `Subjects.Restore_State`. -/
def restoreState (id : P.Subject) : Proc P CpuRegisters := do
  let d ← Prog.read {} (fun s => s.descriptors id)
  vmcsWrite (restoreFields d)
  pure d.regs

end Muen.Kernel
