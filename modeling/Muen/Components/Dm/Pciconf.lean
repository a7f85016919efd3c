import Muen.Components.Dm.Addrspace

/-!
# PCI config space emulation

`Dev_Mngr.Pciconf` with its quirks: the table of rules, the devices that are set up on their first request, and
the requests.
-/

namespace Muen.Components.Dm

open Lib (Byte leBytes ofLeBytes)

/-- `Mudm.Emul_Req_Op_Type`. -/
abbrev EmulReqOp := BitVec 8

def emulReqRead : EmulReqOp := 1
def emulReqWrite : EmulReqOp := 2

def nullSID : SID := 0xFFFF

def fieldVendor : Offset := 0x00
def fieldDevice : Offset := 0x02
def fieldCommand : Offset := 0x04
def fieldRevisionClass : Offset := 0x08
def fieldCacheLineSize : Offset := 0x0c
def fieldLatencyTimer : Offset := 0x0d
def fieldHeader : Offset := 0x0e
def fieldBIST : Offset := 0x0f
def fieldBAR0 : Offset := 0x10
def fieldBAR5 : Offset := 0x24
def fieldCapPointer : Offset := 0x34
def fieldMSICtrl : Offset := 0x02

def msiCapID : Byte := 0x05
def msiXCapID : Byte := 0x11

inductive AccessWidth
  | access8
  | access16
  | access32
  deriving DecidableEq

inductive Vread
  | none
  | bar
  deriving DecidableEq

inductive Vwrite
  | none
  | command
  | bar
  | xusb2pr
  | pssen
  deriving DecidableEq

inductive WritePerm
  | denied
  | direct
  | virt
  deriving DecidableEq

def readAllVirt : Word32 := 0x00
def readNoVirt : Word32 := 0xFF

/-- `Rule_Type`. -/
structure Rule where
  offset : Offset
  readMask : Word32
  vread : Vread
  writePerm : WritePerm
  writeWidth : AccessWidth
  vwrite : Vwrite
  deriving DecidableEq

def nullRule : Rule := ⟨0xFF, readAllVirt, .none, .denied, .access8, .none⟩

/-- A field that is read and written in hardware. -/
def directRule (offset : Offset) (width : AccessWidth) : Rule := ⟨offset, readNoVirt, .none, .direct, width, .none⟩

abbrev BarRange := Fin 6

/-- The offset of a BAR: `Field_BAR0` to `Field_BAR5`. -/
def barOffset (i : BarRange) : Offset := fieldBAR0 + BitVec.ofNat 8 (4 * i)

def barRule (i : BarRange) : Rule := ⟨barOffset i, readAllVirt, .bar, .virt, .access32, .bar⟩

def globalRules : List Rule :=
  [⟨fieldCommand, readNoVirt, .none, .virt, .access16, .command⟩, directRule fieldCacheLineSize .access8,
    directRule fieldLatencyTimer .access8, directRule fieldBIST .access8, barRule 0, barRule 1, barRule 2, barRule 3,
    barRule 4, barRule 5]

inductive BarState
  | address
  | size
  deriving DecidableEq

/-- `BAR_Type`. -/
structure Bar where
  state : BarState
  address : Word32
  size : Word32
  deriving DecidableEq

def nullBar : Bar := ⟨.address, 0, 0⟩

/-- `Device_Type`; there are twelve rules. -/
structure Device where
  sid : SID
  bars : BarRange → Bar
  rules : List Rule
  deriving DecidableEq

def nullDevice : Device := ⟨nullSID, fun _ => nullBar, List.replicate 12 nullRule⟩

/-! ### Rules -/

/-- `Append_Rule`. -/
def appendRule : List Rule → Rule → List Rule
  | [], _ => []
  | r :: rs, rule => if r.offset = 0xFF ∨ rule.offset = r.offset then rule :: rs else r :: appendRule rs rule

/-- `Get_Rule` in a table, from a result on. -/
def getRuleFrom (offset : Offset) : List Rule → Rule → Rule
  | [], res => res
  | r :: rs, res => if r = nullRule then res else getRuleFrom offset rs (if r.offset = offset then r else res)

/-- `Get_Rule` for a device. -/
def getRule (offset : Offset) (rules : List Rule) : Rule :=
  let res := getRuleFrom offset globalRules nullRule
  if res = nullRule then getRuleFrom offset rules nullRule else res

/-- The rules of `Append_MSI_Rules`, in their order. -/
def msiRules (offset : Offset) (capID flags : Byte) : List Rule :=
  let isMSI64 := flags.getLsbD 7
  let mask := (flags.setWidth 64).getLsbD 8
  [directRule (offset + fieldMSICtrl) .access16, directRule (offset + 0x04) .access32] ++
    if capID = msiCapID then
      (if isMSI64 then [directRule (offset + 0x08) .access32] else []) ++
      [directRule (offset + (if isMSI64 then 0x0c else 0x08)) .access16] ++
      (if mask then
        [directRule (offset + (if isMSI64 then 0x10 else 0x0c)) .access32,
          directRule (offset + (if isMSI64 then 0x14 else 0x10)) .access32]
      else [])
    else [directRule (offset + 0x08) .access32]

/-- The search for capabilities in `Init`: the number of entries left, the offset of the next one and the rules so
far. -/
def searchCaps (space : DeviceSpace) : ℕ → Offset → List Rule → List Rule
  | 0, _, rules => rules
  | left + 1, offset, rules =>
    if offset = 0 ∨ offset ≤ 0x3F then rules
    else
      let val := space.readWord16 offset
      let capID := val.setWidth 8
      let rules' :=
        if capID = msiCapID ∨ capID = msiXCapID then
          (msiRules offset capID (space.readByte (offset + fieldMSICtrl))).foldl appendRule rules
        else rules
      searchCaps space left ((val >>> 8).setWidth 8) rules'

/-- `USB_Intel_Switchable_xHCI`. -/
def usbIntelSwitchableXHCI (vendor device : Word16) (cls : Word32) : Bool :=
  vendor = 0x8086 && cls = 0x0c0330 && (device = 0x1e31 || (device = 0x8c31 || device = 0x9c31))

def usb3IntelXUSB2PR : Offset := 0xd0
def usb3IntelPSSEN : Offset := 0xd8

def quirkRules : List Rule :=
  [⟨usb3IntelXUSB2PR, readNoVirt, .none, .virt, .access16, .xusb2pr⟩,
    ⟨usb3IntelPSSEN, readNoVirt, .none, .virt, .access8, .pssen⟩]

/-- `Quirks.Register`. -/
def registerQuirks (rules : List Rule) (vendor device : Word16) (cls : Word32) : List Rule :=
  if usbIntelSwitchableXHCI vendor device cls then quirkRules.foldl appendRule rules else rules

/-- The rules that `Init` finds in a config space. -/
def initRules (space : DeviceSpace) : List Rule :=
  registerQuirks (searchCaps space 48 (space.readByte fieldCapPointer) (List.replicate 12 nullRule))
    (space.readWord16 fieldVendor) (space.readWord16 fieldDevice) (space.readWord32 fieldRevisionClass / 2 ^ 8)

/-! ### Devices -/

/-- A round of the loop over the BARs in `Init`. -/
def initBar (hw : Hardware) (sid : SID) (s : Memory × (BarRange → Bar)) (i : BarRange) : Memory × (BarRange → Bar) :=
  let address := (s.1.space sid).readWord32 (barOffset i)
  let sized := s.1.writeWord32 hw sid (barOffset i) 0xFFFFFFFF
  let size := (sized.space sid).readWord32 (barOffset i)
  (sized.writeWord32 hw sid (barOffset i) address, Function.update s.2 i ⟨.address, address, size⟩)

/-- `Init`. -/
def initDevice (hw : Hardware) (m : Memory) (sid : SID) : Memory × Device :=
  let s := (List.finRange 6).foldl (initBar hw sid) (m, fun _ => nullBar)
  (s.1, ⟨sid, s.2, initRules (s.1.space sid)⟩)

/-- `Get_Device`. -/
def getDevice : List Device → SID → Device
  | [], _ => nullDevice
  | d :: ds, sid => if d.sid = sid then d else getDevice ds sid

/-- `Insert_Device`. -/
def insertDevice : List Device → Device → List Device
  | [], _ => []
  | d :: ds, device => if d.sid = nullSID ∨ d.sid = device.sid then device :: ds else d :: insertDevice ds device

/-- `Read_BAR`. -/
def readBar (device : Device) (offset : Offset) : Word32 :=
  let bar := device.bars (Fin.ofNat 6 ((offset - fieldBAR0).toNat / 4))
  match bar.state with
  | .address => bar.address
  | .size => bar.size

/-- `Vread`. -/
def vread (device : Device) (op : Vread) (offset : Offset) : Word32 :=
  match op with
  | .bar => if fieldBAR0 ≤ offset ∧ offset ≤ fieldBAR5 then readBar device offset else 0
  | .none => 0

/-- The state of the device manager. -/
structure Pciconf where
  memory : Memory
  deviceDB : List Device

/-- `Device_DB` at the start. -/
def Pciconf.start (memory : Memory) : Pciconf := ⟨memory, List.replicate 4 nullDevice⟩

/-- `Write_BAR`. -/
def writeBar (s : Pciconf) (device : Device) (offset : Offset) (value : Word32) : Pciconf :=
  let idx : BarRange := Fin.ofNat 6 ((offset - fieldBAR0).toNat / 4)
  let state : BarState := if value = 0xFFFFFFFF then .size else .address
  { s with
    deviceDB := insertDevice s.deviceDB
      { device with bars := Function.update device.bars idx { device.bars idx with state } } }

/-- `Allowed` in `Write_Command`. -/
def allowedCommand : Word16 := 0x0407

/-- `Quirks.Write_XUSB2PR` and `Quirks.Write_PSSEN`: only the bits of the mask are changed. -/
def writeMasked (hw : Hardware) (m : Memory) (sid : SID) (offset : Offset) (mask value : Word32) : Memory :=
  let val := (m.space sid).readWord32 offset
  m.writeWord32 hw sid offset ((val &&& ~~~mask) ||| (value &&& mask))

/-- `Vwrite`. -/
def vwrite (hw : Hardware) (s : Pciconf) (device : Device) (op : Vwrite) (offset : Offset) (value : Word32) : Pciconf :=
  match op with
  | .bar => if fieldBAR0 ≤ offset ∧ offset ≤ fieldBAR5 then writeBar s device offset value else s
  | .command =>
    { s with memory := s.memory.writeWord16 hw device.sid fieldCommand (value.setWidth 16 &&& allowedCommand) }
  | .xusb2pr =>
    { s with
      memory := writeMasked hw s.memory device.sid usb3IntelXUSB2PR 0x7fff ((value.setWidth 16).setWidth 32) }
  | .pssen =>
    { s with memory := writeMasked hw s.memory device.sid usb3IntelPSSEN 0x3f ((value.setWidth 8).setWidth 32) }
  | .none => s

/-! ### Requests -/

structure Request where
  sid : SID
  op : EmulReqOp
  offset : Offset
  value : Word32
  deriving DecidableEq

/-- `Read_Widths`. -/
def readWidth (offset : Offset) : AccessWidth :=
  if offset % 4 = 0 then .access32 else if offset % 4 = 2 then .access16 else .access8

def readReal (space : DeviceSpace) (offset : Offset) : Word32 :=
  match readWidth offset with
  | .access8 => (space.readByte offset).setWidth 32
  | .access16 => (space.readWord16 offset).setWidth 32
  | .access32 => space.readWord32 offset

/-- A read request for a device, with its rule. -/
def emulateRead (space : DeviceSpace) (device : Device) (rule : Rule) (offset : Offset) : Word32 :=
  let real :=
    if rule = nullRule ∨ rule.readMask ≠ readAllVirt then
      (if rule ≠ nullRule ∧ rule.readMask ≠ readNoVirt then readReal space offset &&& rule.readMask
        else readReal space offset)
    else 0
  if rule ≠ nullRule ∧ rule.vread ≠ .none then real ||| vread device rule.vread offset else real

/-- A write request for a device, with its rule. -/
def emulateWrite (hw : Hardware) (s : Pciconf) (sid : SID) (device : Device) (rule : Rule) (offset : Offset)
    (value : Word32) : Pciconf :=
  match rule.writePerm with
  | .denied => s
  | .direct =>
    match rule.writeWidth with
    | .access8 => { s with memory := s.memory.writeByte hw sid offset (value.setWidth 8) }
    | .access16 => { s with memory := s.memory.writeWord16 hw sid offset (value.setWidth 16) }
    | .access32 => { s with memory := s.memory.writeWord32 hw sid offset value }
  | .virt => vwrite hw s device rule.vwrite offset value

/-- A request for a device. -/
def emulateDevice (hw : Hardware) (s : Pciconf) (device : Device) (r : Request) : Pciconf × Word32 :=
  let rule := getRule r.offset device.rules
  if r.op = emulReqRead then (s, emulateRead (s.memory.space r.sid) device rule r.offset)
  else if r.op = emulReqWrite then (emulateWrite hw s r.sid device rule r.offset r.value, 0)
  else (s, 0)

/-- `Emulate`; the devices of the subject are those that `Device_By_SID` finds. -/
def emulate (hw : Hardware) (known : Finset SID) (s : Pciconf) (r : Request) : Pciconf × Word32 :=
  let device := getDevice s.deviceDB r.sid
  if device.sid = nullSID then
    if r.sid ∉ known then (s, 0xFFFF)
    else if (s.memory.space r.sid).readByte fieldHeader ≠ 0 then (s, 0)
    else
      let init := initDevice hw s.memory r.sid
      emulateDevice hw ⟨init.1, insertDevice s.deviceDB init.2⟩ init.2 r
  else emulateDevice hw s device r

end Muen.Components.Dm
