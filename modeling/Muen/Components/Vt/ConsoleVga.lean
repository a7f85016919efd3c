import Muen.Lib.Literals
import Muen.Lib.Bytes
import Mathlib.Logic.Function.Basic

/-!
# VGA console

`SK.Console_VGA`, at the width and height that `Terminal_Screen` instantiates it with. The cursor and the margins are
values of the range types of the source, so that an assignment to them is possible only behind the range check that
Ada makes; an operation returns nothing where a range, index or overflow check fails.
-/

namespace Muen.Components.Vt

open Lib (Byte)

/-- `Width_Type`. -/
abbrev Width := {x : ℤ // 1 ≤ x ∧ x ≤ 80}

/-- `Height_Type`. -/
abbrev Height := {y : ℤ // 1 ≤ y ∧ y ≤ 25}

namespace Width

def first : Width := ⟨1, by decide⟩
def last : Width := ⟨80, by decide⟩

/-- The range check of an assignment. -/
def check (x : ℤ) : Option Width := if h : 1 ≤ x ∧ x ≤ 80 then some ⟨x, h⟩ else none

lemma check_of_mem {x : ℤ} (h : 1 ≤ x ∧ x ≤ 80) : check x = some ⟨x, h⟩ := dif_pos h

end Width

namespace Height

def first : Height := ⟨1, by decide⟩
def last : Height := ⟨25, by decide⟩

/-- The range check of an assignment or an index. -/
def check (y : ℤ) : Option Height := if h : 1 ≤ y ∧ y ≤ 25 then some ⟨y, h⟩ else none

lemma check_of_mem {y : ℤ} (h : 1 ≤ y ∧ y ≤ 25) : check y = some ⟨y, h⟩ := dif_pos h

end Height

/-- The last value of the base type of `Width_Type` and `Height_Type`: the compiler derives both from its 8 bit
integer type. -/
def baseLast : ℤ := 127

/-- The overflow check of an addition or subtraction. -/
def overflowCheck (n : ℤ) : Option ℤ := if -128 ≤ n ∧ n ≤ baseLast then some n else none

lemma overflowCheck_of_le {n : ℤ} (h : -128 ≤ n ∧ n ≤ baseLast) : overflowCheck n = some n := if_pos h

/-- The conversion of a number to `SK.Byte`, which has a range check. -/
def toByte (n : ℕ) : Option Byte := if n < 2 ^ 8 then some (BitVec.ofNat 8 n) else none

/-- `VGA_Color_Type`. -/
inductive VGAColor
  | black | blue | green | cyan | red | magenta | brown | lightGrey
  | darkGrey | lightBlue | lightGreen | lightCyan | lightRed | lightMagenta | yellow | white
deriving DecidableEq, Repr

/-- `Screen_Cell_Type`. -/
structure ScreenCell where
  char : Byte
  fgColor : VGAColor
  bgColor : VGAColor
deriving DecidableEq, Repr

/-- `Screen_Row_Type`. -/
abbrev ScreenRow := Width → ScreenCell

/-- `Screen_Type`. -/
abbrev Screen := Height → ScreenRow

/-- The variables of the package, with the two cursor registers that `Update_Cursor` writes. -/
structure ConsoleVGA where
  curX : Width
  curY : Height
  curTxtColor : VGAColor
  curBkgColor : VGAColor
  marginTop : Height
  marginBottom : Height
  screen : Screen
  updateCursorPosition : Bool
  cursorHigh : Byte
  cursorLow : Byte

/-- The blank character. -/
def space : Byte := 0x20

namespace ConsoleVGA

variable (cursorOffset : ℕ)

/-- `Update_Cursor`: `Pos` is a `Positive`, and its bytes go out through the data port. -/
def updateCursor (v : ConsoleVGA) : Option ConsoleVGA :=
  if v.updateCursorPosition then do
    let pos := cursorOffset + ((v.curY.val - 1).toNat * 80 + v.curX.val.toNat - 1)
    guard (0 < pos)
    let high ← toByte (pos / 2 ^ 8)
    let low ← toByte pos
    some { v with cursorHigh := high, cursorLow := low }
  else some v

/-- `Cursor_Back`. -/
def cursorBack (n : Width) (v : ConsoleVGA) : Option ConsoleVGA := do
  let d ← overflowCheck (v.curX.val - n.val)
  let x ← if d > 1 then Width.check d else some Width.first
  updateCursor cursorOffset { v with curX := x }

/-- `Cursor_Down`. -/
def cursorDown (n : Height) (v : ConsoleVGA) : Option ConsoleVGA := do
  let d ← overflowCheck (v.curY.val + n.val)
  let y ← if d < v.marginBottom.val then Height.check d else some v.marginBottom
  updateCursor cursorOffset { v with curY := y }

/-- `Cursor_Forward`. -/
def cursorForward (n : Width) (v : ConsoleVGA) : Option ConsoleVGA := do
  let d ← overflowCheck (v.curX.val + n.val)
  let x ← if d < 80 then Width.check d else some Width.last
  updateCursor cursorOffset { v with curX := x }

/-- `Cursor_Up`. -/
def cursorUp (n : Height) (v : ConsoleVGA) : Option ConsoleVGA := do
  let d ← overflowCheck (v.curY.val - n.val)
  let y ← if d > v.marginTop.val then Height.check d else some v.marginTop
  updateCursor cursorOffset { v with curY := y }

/-- A blank cell in the current colors. -/
def blank (v : ConsoleVGA) : ScreenCell := ⟨space, v.curTxtColor, v.curBkgColor⟩

/-- `Delete_Line_From_Cursor`. -/
def deleteLineFromCursor (v : ConsoleVGA) : ConsoleVGA :=
  { v with
    screen := Function.update v.screen v.curY
      (fun x => if v.curX.val ≤ x.val then v.blank else v.screen v.curY x) }

/-- `Delete_Screen_From_Cursor`. The loop over the remaining rows starts at a value of the base type. -/
def deleteScreenFromCursor (v : ConsoleVGA) : Option ConsoleVGA := do
  let v := v.deleteLineFromCursor
  let start ← overflowCheck (v.curY.val + 1)
  updateCursor cursorOffset
    { v with screen := fun y => if start ≤ y.val then fun _ => v.blank else v.screen y }

/-- `Init`. -/
def init (v : ConsoleVGA) : Option ConsoleVGA :=
  updateCursor cursorOffset
    { v with
      screen := fun _ _ => ⟨space, .lightGrey, .black⟩
      curX := Width.first
      curY := Height.first
      curTxtColor := .lightGrey
      curBkgColor := .black }

/-- One round of the loop of `Scroll`: the row after row `y` is copied over it. -/
def scrollRow (screen : Screen) (y : ℤ) : Option Screen := do
  let target ← Height.check y
  let source ← Height.check (y + 1)
  some (Function.update screen target (screen source))

/-- `Scrolling_Region`: the rows that `Scroll` copies to, in their order. -/
def scrollingRegion (v : ConsoleVGA) : List ℤ :=
  (List.range (v.marginBottom.val - v.marginTop.val).toNat).map (fun i : ℕ => v.marginTop.val + i)

/-- `Scroll`. -/
def scroll (v : ConsoleVGA) : Option ConsoleVGA := do
  let screen ← v.scrollingRegion.foldlM scrollRow v.screen
  updateCursor cursorOffset { v with screen := Function.update screen v.marginBottom (fun _ => v.blank) }

/-- `New_Line`. -/
def newLine (v : ConsoleVGA) : Option ConsoleVGA := do
  let v := { v with curX := Width.first }
  let v ←
    if v.curY = v.marginBottom then scroll cursorOffset v
    else do
      let d ← overflowCheck (v.curY.val + 1)
      let y ← Height.check d
      some { v with curY := y }
  updateCursor cursorOffset v

/-- `Put_Char`. -/
def putChar (item : Byte) (v : ConsoleVGA) : Option ConsoleVGA := do
  let v := { v with
    screen := Function.update v.screen v.curY
      (Function.update (v.screen v.curY) v.curX ⟨item, v.curTxtColor, v.curBkgColor⟩) }
  let v ←
    if v.curX = Width.last then newLine cursorOffset v
    else do
      let d ← overflowCheck (v.curX.val + 1)
      let x ← Width.check d
      some { v with curX := x }
  updateCursor cursorOffset v

/-- The number of spaces that `Put_Tab` writes. -/
def tabSpaces (v : ConsoleVGA) : ℕ :=
  let xMod8 := (v.curX.val - 1).toNat % 8
  if xMod8 ≠ 0 then 8 - xMod8 else 8

/-- `Put_Tab`. -/
def putTab (v : ConsoleVGA) : Option ConsoleVGA :=
  (List.replicate v.tabSpaces space).foldlM (fun v c => putChar cursorOffset c v) v

/-- `Set_Position` in the current row. -/
def setPositionX (x : Width) (v : ConsoleVGA) : Option ConsoleVGA :=
  updateCursor cursorOffset { v with curX := x }

/-- `Set_Position`. -/
def setPosition (x : Width) (y : Height) (v : ConsoleVGA) : Option ConsoleVGA := do
  let v ← setPositionX cursorOffset x v
  let curY :=
    if y.val < v.marginTop.val then v.marginTop
    else if y.val > v.marginBottom.val then v.marginBottom
    else y
  updateCursor cursorOffset { v with curY := curY }

/-- `Set_Scrolling_Margins`. -/
def setScrollingMargins (top bottom : Height) (v : ConsoleVGA) : ConsoleVGA :=
  { v with marginTop := top, marginBottom := bottom }

def setTextColor (color : VGAColor) (v : ConsoleVGA) : ConsoleVGA := { v with curTxtColor := color }

def setBkgColor (color : VGAColor) (v : ConsoleVGA) : ConsoleVGA := { v with curBkgColor := color }

def swapTextWithBkgColor (v : ConsoleVGA) : ConsoleVGA :=
  { v with curTxtColor := v.curBkgColor, curBkgColor := v.curTxtColor }

def enableCursorUpdate (v : ConsoleVGA) : ConsoleVGA := { v with updateCursorPosition := true }

def disableCursorUpdate (v : ConsoleVGA) : ConsoleVGA := { v with updateCursorPosition := false }

/-! ## Operations while the hardware cursor belongs to the other screen -/

section Disabled

variable {v : ConsoleVGA} (hoff : v.updateCursorPosition = false)

include hoff

lemma updateCursor_disabled : updateCursor cursorOffset v = some v := by
  rw [updateCursor, hoff]
  rfl

lemma cursorBack_disabled (n : Width) : ∃ x, cursorBack cursorOffset n v = some { v with curX := x } := by
  have hx := v.curX.property
  have hn := n.property
  have hd : overflowCheck (v.curX.val - n.val) = some (v.curX.val - n.val) :=
    overflowCheck_of_le ⟨by omega, by simp only [baseLast]; omega⟩
  simp only [cursorBack, hd, Option.bind_eq_bind, Option.bind_some]
  by_cases h : v.curX.val - n.val > 1
  · rw [if_pos h, Width.check_of_mem ⟨by omega, by omega⟩]
    exact ⟨_, updateCursor_disabled cursorOffset hoff⟩
  · rw [if_neg h]
    exact ⟨_, updateCursor_disabled cursorOffset hoff⟩

lemma cursorDown_disabled (n : Height) : ∃ y, cursorDown cursorOffset n v = some { v with curY := y } := by
  have hy := v.curY.property
  have hn := n.property
  have hb := v.marginBottom.property
  have hd : overflowCheck (v.curY.val + n.val) = some (v.curY.val + n.val) :=
    overflowCheck_of_le ⟨by omega, by simp only [baseLast]; omega⟩
  simp only [cursorDown, hd, Option.bind_eq_bind, Option.bind_some]
  by_cases h : v.curY.val + n.val < v.marginBottom.val
  · rw [if_pos h, Height.check_of_mem ⟨by omega, by omega⟩]
    exact ⟨_, updateCursor_disabled cursorOffset hoff⟩
  · rw [if_neg h]
    exact ⟨_, updateCursor_disabled cursorOffset hoff⟩

lemma cursorForward_disabled (n : Width) (hsum : v.curX.val + n.val ≤ baseLast) :
    ∃ x, cursorForward cursorOffset n v = some { v with curX := x } := by
  have hx := v.curX.property
  have hn := n.property
  have hd : overflowCheck (v.curX.val + n.val) = some (v.curX.val + n.val) :=
    overflowCheck_of_le ⟨by omega, hsum⟩
  simp only [cursorForward, hd, Option.bind_eq_bind, Option.bind_some]
  by_cases h : v.curX.val + n.val < 80
  · rw [if_pos h, Width.check_of_mem ⟨by omega, by omega⟩]
    exact ⟨_, updateCursor_disabled cursorOffset hoff⟩
  · rw [if_neg h]
    exact ⟨_, updateCursor_disabled cursorOffset hoff⟩

lemma cursorUp_disabled (n : Height) : ∃ y, cursorUp cursorOffset n v = some { v with curY := y } := by
  have hy := v.curY.property
  have hn := n.property
  have ht := v.marginTop.property
  have hd : overflowCheck (v.curY.val - n.val) = some (v.curY.val - n.val) :=
    overflowCheck_of_le ⟨by omega, by simp only [baseLast]; omega⟩
  simp only [cursorUp, hd, Option.bind_eq_bind, Option.bind_some]
  by_cases h : v.curY.val - n.val > v.marginTop.val
  · rw [if_pos h, Height.check_of_mem ⟨by omega, by omega⟩]
    exact ⟨_, updateCursor_disabled cursorOffset hoff⟩
  · rw [if_neg h]
    exact ⟨_, updateCursor_disabled cursorOffset hoff⟩

lemma deleteScreenFromCursor_disabled :
    ∃ screen, deleteScreenFromCursor cursorOffset v = some { v with screen := screen } := by
  have hy := v.curY.property
  have hd : overflowCheck (v.curY.val + 1) = some (v.curY.val + 1) :=
    overflowCheck_of_le ⟨by omega, by simp only [baseLast]; omega⟩
  have hrow : v.deleteLineFromCursor.curY = v.curY := rfl
  simp only [deleteScreenFromCursor, hrow, hd, Option.bind_eq_bind, Option.bind_some]
  exact ⟨_, updateCursor_disabled cursorOffset hoff⟩

lemma setPosition_disabled (x : Width) (y : Height) :
    ∃ y', setPosition cursorOffset x y v = some { v with curX := x, curY := y' } := by
  have hx : setPositionX cursorOffset x v = some { v with curX := x } := updateCursor_disabled cursorOffset hoff
  simp only [setPosition, hx, Option.bind_eq_bind, Option.bind_some]
  exact ⟨_, updateCursor_disabled cursorOffset hoff⟩

end Disabled

/-! ## Scrolling -/

/-- Row `y` lies outside of the scrolling margins. -/
def OutsideMargins (v : ConsoleVGA) (y : Height) : Prop := y.val < v.marginTop.val ∨ v.marginBottom.val < y.val

/-- The copies of the loop leave a row alone that is not the target of one of them. -/
lemma foldlM_scrollRow {rows : List ℤ} (screen : Screen) (hrows : ∀ y ∈ rows, 1 ≤ y ∧ y < 25) :
    ∃ screen', rows.foldlM scrollRow screen = some screen' ∧ ∀ y : Height, y.val ∉ rows → screen' y = screen y := by
  induction rows generalizing screen with
  | nil => exact ⟨screen, rfl, fun _ _ => rfl⟩
  | cons r rows ih =>
    have hr := hrows r List.mem_cons_self
    have hstep : scrollRow screen r =
        some (Function.update screen ⟨r, hr.1, by omega⟩ (screen ⟨r + 1, by omega, by omega⟩)) := by
      rw [scrollRow, Height.check_of_mem ⟨hr.1, by omega⟩, Height.check_of_mem ⟨by omega, by omega⟩]
      rfl
    obtain ⟨screen', hrun, hkept⟩ := ih (Function.update screen ⟨r, hr.1, by omega⟩ (screen ⟨r + 1, by omega, by omega⟩))
      (fun y hy => hrows y (List.mem_cons_of_mem _ hy))
    refine ⟨screen', ?_, fun y hy => ?_⟩
    · rw [List.foldlM_cons, hstep]
      exact hrun
    · rw [List.mem_cons, not_or] at hy
      rw [hkept y hy.2, Function.update_of_ne]
      intro h
      exact hy.1 (congrArg Subtype.val h)

lemma scroll_disabled {v : ConsoleVGA} (hoff : v.updateCursorPosition = false) :
    ∃ screen, scroll cursorOffset v = some { v with screen := screen } ∧
      (v.marginTop.val ≤ v.marginBottom.val → ∀ y, v.OutsideMargins y → screen y = v.screen y) := by
  have ht := v.marginTop.property
  have hb := v.marginBottom.property
  have hrows : ∀ y ∈ v.scrollingRegion, v.marginTop.val ≤ y ∧ y < v.marginBottom.val := by
    intro y hy
    obtain ⟨i, hi, rfl⟩ := List.mem_map.mp hy
    have hlt := List.mem_range.mp hi
    omega
  obtain ⟨screen, hrun, hkept⟩ := foldlM_scrollRow v.screen
    (fun y hy => ⟨by have := hrows y hy; omega, by have := hrows y hy; omega⟩)
  refine ⟨Function.update screen v.marginBottom (fun _ => v.blank), ?_, fun hle y hy => ?_⟩
  · rw [scroll]
    exact (congrArg (fun r => r >>= _) hrun).trans (updateCursor_disabled cursorOffset hoff)
  · rw [Function.update_of_ne, hkept]
    · intro hmem
      have := hrows _ hmem
      rcases hy with hy | hy <;> omega
    · intro h
      rw [h] at hy
      rcases hy with hy | hy <;> omega

/-! ## Output of characters -/

/-- The cursor is in a row from which the next line can be started. -/
def LineOk (v : ConsoleVGA) : Prop :=
  (v.curY = v.marginBottom → v.marginTop.val ≤ v.marginBottom.val) ∧ (v.curY ≠ v.marginBottom → v.curY.val < 25)

/-- The step from `v` to `v'` leaves margins and cursor updates alone, and with them the rows outside of the margins
that `own` does not name. -/
structure Keeps (own : Height → Prop) (v v' : ConsoleVGA) : Prop where
  top : v'.marginTop = v.marginTop
  bottom : v'.marginBottom = v.marginBottom
  update : v'.updateCursorPosition = v.updateCursorPosition
  rows : ∀ y, v.OutsideMargins y → ¬ own y → v'.screen y = v.screen y

lemma newLine_disabled {v : ConsoleVGA} (hoff : v.updateCursorPosition = false) (hline : v.LineOk) :
    ∃ v', newLine cursorOffset v = some v' ∧ Keeps (fun _ => False) v v' := by
  by_cases h : v.curY = v.marginBottom
  · obtain ⟨screen, hrun, hkept⟩ := scroll_disabled cursorOffset
      (v := { v with curX := Width.first }) hoff
    refine ⟨{ v with curX := Width.first, screen := screen }, ?_, ⟨rfl, rfl, rfl, fun y hy _ => hkept (hline.1 h) y hy⟩⟩
    simp only [newLine]
    rw [if_pos h, hrun]
    exact updateCursor_disabled cursorOffset hoff
  · have hy := v.curY.property
    have hlt := hline.2 h
    have hnext : 1 ≤ v.curY.val + 1 ∧ v.curY.val + 1 ≤ 25 := ⟨by omega, by omega⟩
    refine ⟨{ v with curX := Width.first, curY := ⟨v.curY.val + 1, hnext⟩ }, ?_, ⟨rfl, rfl, rfl, fun y _ _ => rfl⟩⟩
    simp only [newLine]
    rw [if_neg h, overflowCheck_of_le ⟨by omega, by simp only [baseLast]; omega⟩]
    simp only [Option.bind_eq_bind, Option.bind_some]
    rw [Height.check_of_mem hnext]
    exact updateCursor_disabled cursorOffset hoff

lemma putChar_disabled {v : ConsoleVGA} (hoff : v.updateCursorPosition = false) (item : Byte)
    (hline : v.curX = Width.last → v.LineOk) :
    ∃ v', putChar cursorOffset item v = some v' ∧ Keeps (fun y => y = v.curY) v v' ∧
      (v.curX ≠ Width.last → v'.curX.val = v.curX.val + 1 ∧ v'.curY = v.curY) := by
  let put : ConsoleVGA := { v with
    screen := Function.update v.screen v.curY
      (Function.update (v.screen v.curY) v.curX ⟨item, v.curTxtColor, v.curBkgColor⟩) }
  have hrows : ∀ y, y ≠ v.curY → put.screen y = v.screen y := fun y hy => Function.update_of_ne hy _ _
  by_cases h : v.curX = Width.last
  · obtain ⟨v', hrun, hkeeps⟩ := newLine_disabled cursorOffset (v := put) hoff (hline h)
    refine ⟨v', ?_, ⟨hkeeps.top, hkeeps.bottom, hkeeps.update, fun y hy hown => ?_⟩, fun hne => absurd h hne⟩
    · simp only [putChar]
      rw [if_pos h]
      exact (congrArg (fun r => r >>= _) hrun).trans (updateCursor_disabled cursorOffset (hkeeps.update.trans hoff))
    · rw [hkeeps.rows y hy not_false, hrows y hown]
  · have hx := v.curX.property
    have hne : v.curX.val ≠ 80 := fun h80 => h (Subtype.ext h80)
    have hnext : 1 ≤ v.curX.val + 1 ∧ v.curX.val + 1 ≤ 80 := ⟨by omega, by omega⟩
    refine ⟨{ put with curX := ⟨v.curX.val + 1, hnext⟩ }, ?_, ⟨rfl, rfl, rfl, fun y _ hown => hrows y hown⟩,
      fun _ => ⟨rfl, rfl⟩⟩
    simp only [putChar]
    rw [if_neg h, overflowCheck_of_le ⟨by omega, by simp only [baseLast]; omega⟩]
    simp only [Option.bind_eq_bind, Option.bind_some]
    rw [Width.check_of_mem hnext]
    exact updateCursor_disabled cursorOffset hoff

lemma Keeps.trans {own : Height → Prop} {v₁ v₂ v₃ : ConsoleVGA} (h₁ : Keeps own v₁ v₂) (h₂ : Keeps own v₂ v₃) :
    Keeps own v₁ v₃ := by
  refine ⟨h₂.top.trans h₁.top, h₂.bottom.trans h₁.bottom, h₂.update.trans h₁.update, fun y hy hown => ?_⟩
  have hy₂ : v₂.OutsideMargins y := by
    rw [OutsideMargins, h₁.top, h₁.bottom]
    exact hy
  rw [h₂.rows y hy₂ hown, h₁.rows y hy hown]

/-- Characters up to the end of the row; the last of them may start the next one. -/
lemma putChars_disabled {v : ConsoleVGA} (hoff : v.updateCursorPosition = false) (items : List Byte)
    (hfit : v.curX.val + items.length ≤ 81) (hline : v.curX.val + items.length = 81 → v.LineOk) :
    ∃ v', items.foldlM (fun v c => putChar cursorOffset c v) v = some v' ∧ Keeps (fun y => y = v.curY) v v' := by
  induction items generalizing v with
  | nil => exact ⟨v, rfl, rfl, rfl, rfl, fun _ _ _ => rfl⟩
  | cons c items ih =>
    rw [List.length_cons] at hfit hline
    have hlast : v.curX = Width.last → v.LineOk := by
      intro h
      have h80 : v.curX.val = 80 := congrArg Subtype.val h
      exact hline (by push_cast at hfit ⊢; omega)
    obtain ⟨v₁, hput, hkeeps, hnext⟩ := putChar_disabled cursorOffset hoff c hlast
    by_cases h : v.curX = Width.last
    · have h80 : v.curX.val = 80 := congrArg Subtype.val h
      have hnil : items = [] := List.eq_nil_of_length_eq_zero (by push_cast at hfit; omega)
      subst hnil
      refine ⟨v₁, ?_, hkeeps⟩
      rw [List.foldlM_cons, hput]
      rfl
    · obtain ⟨hx, hy⟩ := hnext h
      have hline₁ : v₁.curX.val + items.length = 81 → v₁.LineOk := by
        intro hend
        have hok := hline (by push_cast; omega)
        rw [LineOk, hy, hkeeps.top, hkeeps.bottom]
        exact hok
      obtain ⟨v', hrun, hkeeps'⟩ := ih (hkeeps.update.trans hoff) (by push_cast at hfit; omega) hline₁
      rw [hy] at hkeeps'
      refine ⟨v', ?_, hkeeps.trans hkeeps'⟩
      rw [List.foldlM_cons, hput]
      exact hrun

lemma curX_add_tabSpaces (v : ConsoleVGA) : v.curX.val + v.tabSpaces ≤ 81 := by
  have hx := v.curX.property
  simp only [tabSpaces]
  split <;> omega

/-- The tabulators of the last eight columns end in the next row. -/
lemma le_of_curX_add_tabSpaces {v : ConsoleVGA} (h : v.curX.val + v.tabSpaces = 81) : 73 ≤ v.curX.val := by
  have hx := v.curX.property
  simp only [tabSpaces] at h
  split at h <;> omega

lemma putTab_disabled {v : ConsoleVGA} (hoff : v.updateCursorPosition = false)
    (hline : 73 ≤ v.curX.val → v.LineOk) :
    ∃ v', putTab cursorOffset v = some v' ∧ Keeps (fun y => y = v.curY) v v' := by
  apply putChars_disabled cursorOffset hoff
  · rw [List.length_replicate]
    exact v.curX_add_tabSpaces
  · rw [List.length_replicate]
    exact fun h => hline (le_of_curX_add_tabSpaces h)

end ConsoleVGA

end Muen.Components.Vt
