import Muen.Components.Vt.ConsoleVga

/-!
# Terminal screen

`Terminal_Screen`: the parser of the characters that a subject sends to its console, and the control functions it
executes on the VGA console. Log output is left out, but not the conversions of the values that go into it.
-/

namespace Muen.Components.Vt

open Lib (Byte)

/-- `State_Type`. -/
inductive StateType
  | ground | escape | escapeIntermediate | csiEntry | csiParam
deriving DecidableEq, Repr

/-- `CSI_Param_Idx_Range`. -/
abbrev CSIParamIdx := Fin 17

/-- `CSI_Param_Range`. -/
abbrev CSIParamRange := {i : CSIParamIdx // i ≠ 0}

/-- `CSI_Param_Value_Type`. -/
abbrev CSIParamValue := Fin 16384

/-- `Terminal_State_Type`. -/
structure TerminalState where
  state : StateType
  csiCollect : Byte
  csiParams : CSIParamRange → CSIParamValue
  csiParamIdx : CSIParamIdx
  escCollect : Byte

/-- `Null_State`. -/
def nullState : TerminalState := ⟨.ground, 0, fun _ => 0, 0, 0⟩

def semicolon : Byte := 0x3b

/-- The range `16#30# .. 16#39# | Semicolon`. -/
def IsParamChar (c : Byte) : Prop := (0x30 ≤ c ∧ c ≤ 0x39) ∨ c = semicolon

instance : DecidablePred IsParamChar := fun c => inferInstanceAs (Decidable ((0x30 ≤ c ∧ c ≤ 0x39) ∨ c = semicolon))

/-- The value of a digit. -/
def digitValue (c : Byte) : ℕ := (c &&& 0xf).toNat

lemma digitValue_lt (c : Byte) : digitValue c < 16 := by
  have h : (c &&& 0xf).toNat = c.toNat &&& 15 := by simp [BitVec.toNat_and]
  rw [digitValue, h]
  exact Nat.lt_of_le_of_lt Nat.and_le_right (by decide)

namespace TerminalState

def firstParam : CSIParamRange := ⟨1, by decide⟩
def secondParam : CSIParamRange := ⟨2, by decide⟩

/-- `CSI_Add_Param`. -/
def csiAddParam (c : Byte) (fsm : TerminalState) : TerminalState :=
  if c = semicolon then
    if h : fsm.csiParamIdx.val = 16 then fsm
    else { fsm with csiParamIdx := ⟨fsm.csiParamIdx.val + 1, by omega⟩ }
  else if h : fsm.csiParamIdx = 0 then
    { fsm with
      csiParamIdx := 1
      csiParams := Function.update fsm.csiParams firstParam ⟨digitValue c, by have := digitValue_lt c; omega⟩ }
  else
    let value := (fsm.csiParams ⟨fsm.csiParamIdx, h⟩).val * 10 + digitValue c
    if hvalue : value ≤ 16383 then
      { fsm with csiParams := Function.update fsm.csiParams ⟨fsm.csiParamIdx, h⟩ ⟨value, by omega⟩ }
    else fsm

end TerminalState

/-- `To_Height`. -/
def toHeight (param : CSIParamValue) : Height :=
  if param.val = 0 then Height.first
  else if h : 1 ≤ (param.val : ℤ) ∧ (param.val : ℤ) ≤ 25 then ⟨param.val, h⟩
  else Height.last

/-- `To_Width`. -/
def toWidth (param : CSIParamValue) : Width :=
  if param.val = 0 then Width.first
  else if h : 1 ≤ (param.val : ℤ) ∧ (param.val : ℤ) ≤ 80 then ⟨param.val, h⟩
  else Width.last

namespace TerminalState

/-- `CSI_Get_Height` for one parameter. -/
def csiGetHeight (fsm : TerminalState) : Height :=
  if fsm.csiParamIdx = 1 then toHeight (fsm.csiParams firstParam) else Height.first

/-- `CSI_Get_Width`. -/
def csiGetWidth (fsm : TerminalState) : Width :=
  if fsm.csiParamIdx = 1 then toWidth (fsm.csiParams firstParam) else Width.first

/-- `CSI_Get_Height` for two parameters. -/
def csiGetHeights (fsm : TerminalState) : Height × Height :=
  if fsm.csiParamIdx = 2 then (toHeight (fsm.csiParams firstParam), toHeight (fsm.csiParams secondParam))
  else (Height.first, Height.first)

/-- `CSI_Get_Height_Width`. -/
def csiGetHeightWidth (fsm : TerminalState) : Height × Width :=
  if fsm.csiParamIdx = 2 then (toHeight (fsm.csiParams firstParam), toWidth (fsm.csiParams secondParam))
  else (Height.first, Width.first)

/-- The parameters up to `CSI_Param_Idx`. -/
def params (fsm : TerminalState) : List CSIParamValue :=
  (List.range fsm.csiParamIdx.val).attach.map fun i =>
    fsm.csiParams ⟨⟨i.val + 1, by have := List.mem_range.mp i.property; omega⟩,
      by intro h; exact absurd (congrArg Fin.val h) (Nat.succ_ne_zero _)⟩

end TerminalState

/-- `Color_Table`, at the offset of a color from the first of its range. -/
def colorTable : Fin 8 → VGAColor
  | 0 => .black | 1 => .red | 2 => .green | 3 => .yellow
  | 4 => .blue | 5 => .magenta | 6 => .cyan | 7 => .white

/-- The case statement of `CSI_Select_SGR` for one parameter; the message about an unknown one takes it as a byte. -/
def selectSGR (param : CSIParamValue) (v : ConsoleVGA) : Option ConsoleVGA :=
  if param.val = 0 then some ((v.setTextColor .lightGrey).setBkgColor .black)
  else if param.val = 7 ∨ param.val = 27 then some v.swapTextWithBkgColor
  else if h : 30 ≤ param.val ∧ param.val ≤ 37 then some (v.setTextColor (colorTable ⟨param.val - 30, by omega⟩))
  else if param.val = 39 then some (v.setTextColor .lightGrey)
  else if h : 40 ≤ param.val ∧ param.val ≤ 47 then some (v.setBkgColor (colorTable ⟨param.val - 40, by omega⟩))
  else if param.val = 49 then some (v.setBkgColor .black)
  else if param.val = 1 ∨ param.val = 10 then some v
  else do
    let _ ← toByte param.val
    some v

/-- `CSI_Select_SGR`: nothing happens without a parameter. -/
def csiSelectSGR (fsm : TerminalState) (v : ConsoleVGA) : Option ConsoleVGA :=
  fsm.params.foldlM (fun v p => selectSGR p v) v

variable (cursorOffset : ℕ)

/-- The case statement of `CSI_Erase_Display`; the message about an unsupported parameter takes it as a byte. -/
def eraseDisplay (param : CSIParamValue) (v : ConsoleVGA) : Option ConsoleVGA :=
  if param.val = 0 then v.deleteScreenFromCursor cursorOffset
  else if param.val = 2 then v.init cursorOffset
  else do
    let _ ← toByte param.val
    some v

/-- `CSI_Erase_Display`. -/
def csiEraseDisplay (fsm : TerminalState) (v : ConsoleVGA) : Option ConsoleVGA := do
  let v ← if fsm.csiParamIdx = 0 then v.deleteScreenFromCursor cursorOffset else some v
  eraseDisplay cursorOffset (fsm.csiParams TerminalState.firstParam) v

/-- The label that `Init` prints in the first row. -/
def initLabel (label : List Byte) (trusted : Bool) (v : ConsoleVGA) : Option ConsoleVGA := do
  let v := v.setBkgColor (if trusted then .red else .lightGrey)
  let v ← label.foldlM (fun v c => v.putChar cursorOffset c) (v.setTextColor .white)
  let v ← v.deleteLineFromCursor.newLine cursorOffset
  let v := v.setScrollingMargins ⟨2, by decide⟩ Height.last
  some ((v.setBkgColor .black).setTextColor .lightGrey)

/-- `Init`. -/
def initScreen (label : List Byte) (trusted : Bool) (v : ConsoleVGA) : Option ConsoleVGA := do
  let v ← v.init cursorOffset
  if label.length > 0 then initLabel cursorOffset label trusted v else some v

/-- `CSI_Dispatch`. -/
def csiDispatch (c : Byte) (fsm : TerminalState) (v : ConsoleVGA) : Option ConsoleVGA :=
  if c = 0x41 then v.cursorUp cursorOffset fsm.csiGetHeight
  else if c = 0x42 then v.cursorDown cursorOffset fsm.csiGetHeight
  else if c = 0x43 then v.cursorForward cursorOffset fsm.csiGetWidth
  else if c = 0x44 then v.cursorBack cursorOffset fsm.csiGetWidth
  else if c = 0x48 ∨ c = 0x66 then
    v.setPosition cursorOffset fsm.csiGetHeightWidth.2 fsm.csiGetHeightWidth.1
  else if c = 0x4a then csiEraseDisplay cursorOffset fsm v
  else if c = 0x4b then some v.deleteLineFromCursor
  else if c = 0x63 then initScreen cursorOffset [] false v
  else if c = 0x6d then csiSelectSGR fsm v
  else if c = 0x72 then some (v.setScrollingMargins fsm.csiGetHeights.1 fsm.csiGetHeights.2)
  else some v

/-- The state of the package: the parser and the console. -/
structure Terminal where
  fsm : TerminalState
  vga : ConsoleVGA

/-- `Update` in the state `State_Ground`. -/
def updateGround (c : Byte) (t : Terminal) : Option Terminal :=
  if 0x20 ≤ c ∧ c ≤ 0x7f then do return { t with vga := ← t.vga.putChar cursorOffset c }
  else if c = 0x08 then do return { t with vga := ← t.vga.cursorBack cursorOffset Width.first }
  else if c = 0x09 then do return { t with vga := ← t.vga.putTab cursorOffset }
  else if c = 0x0a then do return { t with vga := ← t.vga.newLine cursorOffset }
  else if c = 0x0d then do return { t with vga := ← t.vga.setPositionX cursorOffset Width.first }
  else if c = 0x1b then some { t with fsm := { t.fsm with state := .escape } }
  else some t

/-- `Update` in the state `State_Escape`. `ESC_Dispatch` has no effect but log output. -/
def updateEscape (c : Byte) : TerminalState :=
  if 0x20 ≤ c ∧ c ≤ 0x2f then { nullState with state := .escapeIntermediate, escCollect := c }
  else if c = 0x5b then { nullState with state := .csiEntry }
  else nullState

/-- `Update` in the state `State_Escape_Intermediate`. -/
def updateEscapeIntermediate (c : Byte) (fsm : TerminalState) : TerminalState :=
  if 0x30 ≤ c ∧ c ≤ 0x7e then nullState else fsm

/-- A final byte executes the control function and ends the sequence. -/
def dispatchFinal (c : Byte) (t : Terminal) : Option Terminal := do
  let vga ← csiDispatch cursorOffset c t.fsm t.vga
  some ⟨nullState, vga⟩

/-- `Update` in the state `State_CSI_Entry`. -/
def updateCSIEntry (c : Byte) (t : Terminal) : Option Terminal :=
  if IsParamChar c then
    some { t with fsm := ({ nullState with state := .csiParam } : TerminalState).csiAddParam c }
  else if 0x3c ≤ c ∧ c ≤ 0x3f then
    some { t with fsm := { nullState with state := .csiParam, csiCollect := c } }
  else if 0x40 ≤ c ∧ c ≤ 0x7e then dispatchFinal cursorOffset c { t with fsm := nullState }
  else some { t with fsm := nullState }

/-- `Update` in the state `State_CSI_Param`. -/
def updateCSIParam (c : Byte) (t : Terminal) : Option Terminal :=
  if IsParamChar c then some { t with fsm := t.fsm.csiAddParam c }
  else if 0x40 ≤ c ∧ c ≤ 0x7e then dispatchFinal cursorOffset c t
  else some t

/-- `Update`. -/
def update (t : Terminal) (c : Byte) : Option Terminal :=
  match t.fsm.state with
  | .ground => updateGround cursorOffset c t
  | .escape => some { t with fsm := updateEscape c }
  | .escapeIntermediate => some { t with fsm := updateEscapeIntermediate c t.fsm }
  | .csiEntry => updateCSIEntry cursorOffset c t
  | .csiParam => updateCSIParam cursorOffset c t

/-- `Init`, as the multiplexer calls it, and the characters that follow. -/
def initAndUpdate (label : List Byte) (trusted : Bool) (chars : List Byte) (t : Terminal) : Option Terminal := do
  let vga ← initScreen cursorOffset label trusted t.vga
  chars.foldlM (update cursorOffset) { t with vga := vga }

end Muen.Components.Vt
