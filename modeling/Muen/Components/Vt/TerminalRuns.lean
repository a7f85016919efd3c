import Muen.Components.Vt.CsiParams

/-!
# Runs of the terminal

The characters after `Init` one by one. Cursor motion clamps the cursor to the margins but nothing keeps it between
them when they are set, and a line is started below the bottom margin without a look at the last row. The other checks
that can fail are conversions: of the hardware cursor position, and of a parameter in a message.
-/

namespace Muen.Components.Vt

open Lib (Byte)

variable (cursorOffset : ℕ)

/-- The character starts the next line. -/
def StartsLine (v : ConsoleVGA) (c : Byte) : Prop :=
  c = 0x0a ∨ ((0x20 ≤ c ∧ c ≤ 0x7f) ∧ v.curX = Width.last) ∨ (c = 0x09 ∧ 73 ≤ v.curX.val)

/-- The control function adds to the cursor column within its base type, and takes no parameter as a byte that is
none. -/
def DispatchOk (c : Byte) (fsm : TerminalState) (v : ConsoleVGA) : Prop :=
  (c = 0x43 → v.curX.val + fsm.csiGetWidth.val ≤ baseLast) ∧
  (c = 0x4a → (fsm.csiParams TerminalState.firstParam).val < 2 ^ 8) ∧
  (c = 0x6d → ∀ p ∈ fsm.params, p.val < 2 ^ 8)

/-- The character meets no command that goes wrong in this state. -/
def StepOk (t : Terminal) (c : Byte) : Prop :=
  (t.fsm.state = .ground → StartsLine t.vga c → t.vga.LineOk) ∧
  (t.fsm.state = .csiParam → DispatchOk c t.fsm t.vga)

instance (v : ConsoleVGA) (c : Byte) : Decidable (StartsLine v c) := inferInstanceAs (Decidable (_ ∨ _ ∨ _))

instance (c : Byte) (fsm : TerminalState) (v : ConsoleVGA) : Decidable (DispatchOk c fsm v) :=
  inferInstanceAs (Decidable (_ ∧ _ ∧ _))

instance (t : Terminal) (c : Byte) : Decidable (StepOk t c) :=
  inferInstanceAs (Decidable ((_ → _ → (_ → _) ∧ (_ → _)) ∧ (_ → _)))

/-- A character of the text has changed rows between the scrolling margins only, and the row of the cursor if it was
printed there. -/
def ScrollsWithin (t : Terminal) (c : Byte) (t' : Terminal) : Prop :=
  t.fsm.state = .ground → ∀ y, t.vga.OutsideMargins y → (c = 0x0a ∨ y ≠ t.vga.curY) → t'.vga.screen y = t.vga.screen y

/-- Every character is processed without a failing check and scrolls within the margins. -/
def SafeRun : Terminal → List Byte → Prop
  | _, [] => True
  | t, c :: cs => ∃ t', update cursorOffset t c = some t' ∧ ScrollsWithin t c t' ∧ SafeRun t' cs

/-- The condition holds at every step of the run. -/
def RunOk : Terminal → List Byte → Prop
  | _, [] => True
  | t, c :: cs => StepOk t c ∧ ∀ t', update cursorOffset t c = some t' → RunOk t' cs

instance decidableRunOk : ∀ (t : Terminal) (cs : List Byte), Decidable (RunOk cursorOffset t cs)
  | _, [] => isTrue trivial
  | t, c :: cs =>
    match h : update cursorOffset t c with
    | none => decidable_of_iff (StepOk t c) (by simp [RunOk, h])
    | some t' =>
      have := decidableRunOk t' cs
      decidable_of_iff (StepOk t c ∧ RunOk cursorOffset t' cs) (by simp [RunOk, h])

lemma toByte_of_lt {n : ℕ} (h : n < 2 ^ 8) : toByte n = some (BitVec.ofNat 8 n) := if_pos h

lemma toByte_of_le {n : ℕ} (h : 2 ^ 8 ≤ n) : toByte n = none := if_neg (Nat.not_lt.mpr h)

/-! ## Control functions -/

lemma selectSGR_disabled {p : CSIParamValue} (hp : p.val < 2 ^ 8) {v : ConsoleVGA}
    (hoff : v.updateCursorPosition = false) :
    ∃ v', selectSGR p v = some v' ∧ v'.updateCursorPosition = false := by
  rw [selectSGR, toByte_of_lt hp]
  split
  · exact ⟨_, rfl, hoff⟩
  split
  · exact ⟨_, rfl, hoff⟩
  split
  · exact ⟨_, rfl, hoff⟩
  split
  · exact ⟨_, rfl, hoff⟩
  split
  · exact ⟨_, rfl, hoff⟩
  split
  · exact ⟨_, rfl, hoff⟩
  split
  · exact ⟨_, rfl, hoff⟩
  · exact ⟨_, rfl, hoff⟩

lemma csiSelectSGR_disabled {fsm : TerminalState} (hparams : ∀ p ∈ fsm.params, p.val < 2 ^ 8) {v : ConsoleVGA}
    (hoff : v.updateCursorPosition = false) :
    ∃ v', csiSelectSGR fsm v = some v' ∧ v'.updateCursorPosition = false := by
  rw [csiSelectSGR]
  generalize fsm.params = params at hparams
  induction params generalizing v with
  | nil => exact ⟨v, rfl, hoff⟩
  | cons p params ih =>
    obtain ⟨v₁, hsel, hoff₁⟩ := selectSGR_disabled (hparams p List.mem_cons_self) hoff
    rw [List.foldlM_cons, hsel]
    exact ih hoff₁ (fun q hq => hparams q (List.mem_cons_of_mem _ hq))

lemma init_disabled {v : ConsoleVGA} (hoff : v.updateCursorPosition = false) :
    ∃ v', v.init cursorOffset = some v' ∧ v'.updateCursorPosition = false ∧
      v'.marginTop = v.marginTop ∧ v'.marginBottom = v.marginBottom :=
  ⟨_, ConsoleVGA.updateCursor_disabled cursorOffset hoff, hoff, rfl, rfl⟩

lemma eraseDisplay_disabled {p : CSIParamValue} (hp : p.val < 2 ^ 8) {v : ConsoleVGA}
    (hoff : v.updateCursorPosition = false) :
    ∃ v', eraseDisplay cursorOffset p v = some v' ∧ v'.updateCursorPosition = false := by
  rw [eraseDisplay]
  by_cases h0 : p.val = 0
  · obtain ⟨screen, hdel⟩ := ConsoleVGA.deleteScreenFromCursor_disabled cursorOffset hoff
    rw [if_pos h0]
    exact ⟨_, hdel, hoff⟩
  rw [if_neg h0]
  by_cases h2 : p.val = 2
  · obtain ⟨v', hinit, hoff', _⟩ := init_disabled cursorOffset hoff
    rw [if_pos h2]
    exact ⟨v', hinit, hoff'⟩
  · rw [if_neg h2, toByte_of_lt hp]
    exact ⟨_, rfl, hoff⟩

lemma csiEraseDisplay_disabled {fsm : TerminalState} (hparam : (fsm.csiParams TerminalState.firstParam).val < 2 ^ 8)
    {v : ConsoleVGA} (hoff : v.updateCursorPosition = false) :
    ∃ v', csiEraseDisplay cursorOffset fsm v = some v' ∧ v'.updateCursorPosition = false := by
  rw [csiEraseDisplay]
  by_cases h : fsm.csiParamIdx = 0
  · obtain ⟨screen, hdel⟩ := ConsoleVGA.deleteScreenFromCursor_disabled cursorOffset hoff
    rw [if_pos h, hdel]
    exact eraseDisplay_disabled cursorOffset hparam (v := { v with screen := screen }) hoff
  · rw [if_neg h]
    exact eraseDisplay_disabled cursorOffset hparam hoff

lemma csiDispatch_disabled {c : Byte} {fsm : TerminalState} {v : ConsoleVGA} (hok : DispatchOk c fsm v)
    (hoff : v.updateCursorPosition = false) :
    ∃ v', csiDispatch cursorOffset c fsm v = some v' ∧ v'.updateCursorPosition = false := by
  rw [csiDispatch]
  by_cases hA : c = 0x41
  · obtain ⟨y, hrun⟩ := ConsoleVGA.cursorUp_disabled cursorOffset hoff fsm.csiGetHeight
    rw [if_pos hA]
    exact ⟨_, hrun, hoff⟩
  rw [if_neg hA]
  by_cases hB : c = 0x42
  · obtain ⟨y, hrun⟩ := ConsoleVGA.cursorDown_disabled cursorOffset hoff fsm.csiGetHeight
    rw [if_pos hB]
    exact ⟨_, hrun, hoff⟩
  rw [if_neg hB]
  by_cases hC : c = 0x43
  · obtain ⟨x, hrun⟩ := ConsoleVGA.cursorForward_disabled cursorOffset hoff fsm.csiGetWidth (hok.1 hC)
    rw [if_pos hC]
    exact ⟨_, hrun, hoff⟩
  rw [if_neg hC]
  by_cases hD : c = 0x44
  · obtain ⟨x, hrun⟩ := ConsoleVGA.cursorBack_disabled cursorOffset hoff fsm.csiGetWidth
    rw [if_pos hD]
    exact ⟨_, hrun, hoff⟩
  rw [if_neg hD]
  by_cases hH : c = 0x48 ∨ c = 0x66
  · obtain ⟨y, hrun⟩ := ConsoleVGA.setPosition_disabled cursorOffset hoff fsm.csiGetHeightWidth.2 fsm.csiGetHeightWidth.1
    rw [if_pos hH]
    exact ⟨_, hrun, hoff⟩
  rw [if_neg hH]
  by_cases hJ : c = 0x4a
  · rw [if_pos hJ]
    exact csiEraseDisplay_disabled cursorOffset (hok.2.1 hJ) hoff
  rw [if_neg hJ]
  by_cases hK : c = 0x4b
  · rw [if_pos hK]
    exact ⟨_, rfl, hoff⟩
  rw [if_neg hK]
  by_cases hc : c = 0x63
  · obtain ⟨v', hinit, hoff', _⟩ := init_disabled cursorOffset hoff
    rw [if_pos hc, initScreen, hinit]
    exact ⟨v', rfl, hoff'⟩
  rw [if_neg hc]
  by_cases hm : c = 0x6d
  · rw [if_pos hm]
    exact csiSelectSGR_disabled (hok.2.2 hm) hoff
  rw [if_neg hm]
  split
  · exact ⟨_, rfl, hoff⟩
  · exact ⟨_, rfl, hoff⟩

/-! ## Steps -/

lemma updateGround_ok {t : Terminal} {c : Byte} (hoff : t.vga.updateCursorPosition = false)
    (hline : StartsLine t.vga c → t.vga.LineOk) :
    ∃ t', updateGround cursorOffset c t = some t' ∧ t'.vga.updateCursorPosition = false ∧
      ∀ y, t.vga.OutsideMargins y → (c = 0x0a ∨ y ≠ t.vga.curY) → t'.vga.screen y = t.vga.screen y := by
  rw [updateGround]
  by_cases hprint : 0x20 ≤ c ∧ c ≤ 0x7f
  · obtain ⟨v', hrun, hkeeps, _⟩ := ConsoleVGA.putChar_disabled cursorOffset hoff c
      (fun hlast => hline (Or.inr (Or.inl ⟨hprint, hlast⟩)))
    rw [if_pos hprint, hrun]
    refine ⟨_, rfl, hkeeps.update.trans hoff, fun y hy hown => hkeeps.rows y hy ?_⟩
    apply hown.resolve_left
    rintro rfl
    exact absurd hprint.1 (by decide)
  rw [if_neg hprint]
  by_cases hbs : c = 0x08
  · obtain ⟨x, hrun⟩ := ConsoleVGA.cursorBack_disabled cursorOffset hoff Width.first
    rw [if_pos hbs, hrun]
    exact ⟨_, rfl, hoff, fun _ _ _ => rfl⟩
  rw [if_neg hbs]
  by_cases htab : c = 0x09
  · obtain ⟨v', hrun, hkeeps⟩ := ConsoleVGA.putTab_disabled cursorOffset hoff
      (fun h73 => hline (Or.inr (Or.inr ⟨htab, h73⟩)))
    rw [if_pos htab, hrun]
    refine ⟨_, rfl, hkeeps.update.trans hoff, fun y hy hown => hkeeps.rows y hy ?_⟩
    apply hown.resolve_left
    rw [htab]
    decide
  rw [if_neg htab]
  by_cases hlf : c = 0x0a
  · obtain ⟨v', hrun, hkeeps⟩ := ConsoleVGA.newLine_disabled cursorOffset hoff (hline (Or.inl hlf))
    rw [if_pos hlf, hrun]
    exact ⟨_, rfl, hkeeps.update.trans hoff, fun y hy _ => hkeeps.rows y hy not_false⟩
  rw [if_neg hlf]
  by_cases hcr : c = 0x0d
  · have hrun : t.vga.setPositionX cursorOffset Width.first = some { t.vga with curX := Width.first } :=
      ConsoleVGA.updateCursor_disabled cursorOffset hoff
    rw [if_pos hcr, hrun]
    exact ⟨_, rfl, hoff, fun _ _ _ => rfl⟩
  rw [if_neg hcr]
  split
  · exact ⟨_, rfl, hoff, fun _ _ _ => rfl⟩
  · exact ⟨_, rfl, hoff, fun _ _ _ => rfl⟩

lemma dispatchFinal_ok {t : Terminal} {c : Byte} (hok : DispatchOk c t.fsm t.vga)
    (hoff : t.vga.updateCursorPosition = false) :
    ∃ t', dispatchFinal cursorOffset c t = some t' ∧ t'.vga.updateCursorPosition = false := by
  obtain ⟨v', hrun, hoff'⟩ := csiDispatch_disabled cursorOffset hok hoff
  rw [dispatchFinal, hrun]
  exact ⟨_, rfl, hoff'⟩

/-- Without parameters no control function goes wrong. -/
lemma dispatchOk_nullState (c : Byte) (v : ConsoleVGA) : DispatchOk c nullState v := by
  refine ⟨fun _ => ?_, fun _ => by decide, fun _ p hp => absurd hp (by simp [TerminalState.params, nullState])⟩
  have hx := v.curX.property
  have hone : nullState.csiGetWidth.val = 1 := rfl
  rw [hone, baseLast]
  omega

lemma update_ok {t : Terminal} {c : Byte} (hoff : t.vga.updateCursorPosition = false) (hok : StepOk t c) :
    ∃ t', update cursorOffset t c = some t' ∧ t'.vga.updateCursorPosition = false ∧ ScrollsWithin t c t' := by
  rw [update]
  cases hstate : t.fsm.state with
  | ground =>
    obtain ⟨t', hrun, hoff', hrows⟩ := updateGround_ok cursorOffset hoff (hok.1 hstate)
    exact ⟨t', hrun, hoff', fun _ => hrows⟩
  | escape => exact ⟨_, rfl, hoff, fun hground => absurd (hstate.symm.trans hground) (by decide)⟩
  | escapeIntermediate => exact ⟨_, rfl, hoff, fun hground => absurd (hstate.symm.trans hground) (by decide)⟩
  | csiEntry =>
    have hscroll : ∀ t', ScrollsWithin t c t' := fun t' hground => absurd (hstate.symm.trans hground) (by decide)
    simp only [updateCSIEntry]
    split
    · exact ⟨_, rfl, hoff, hscroll _⟩
    split
    · exact ⟨_, rfl, hoff, hscroll _⟩
    split
    · obtain ⟨t', hrun, hoff'⟩ := dispatchFinal_ok cursorOffset (t := { t with fsm := nullState })
        (dispatchOk_nullState c t.vga) hoff
      exact ⟨t', hrun, hoff', hscroll _⟩
    · exact ⟨_, rfl, hoff, hscroll _⟩
  | csiParam =>
    have hscroll : ∀ t', ScrollsWithin t c t' := fun t' hground => absurd (hstate.symm.trans hground) (by decide)
    simp only [updateCSIParam]
    split
    · exact ⟨_, rfl, hoff, hscroll _⟩
    split
    · obtain ⟨t', hrun, hoff'⟩ := dispatchFinal_ok cursorOffset (hok.2 hstate) hoff
      exact ⟨t', hrun, hoff', hscroll _⟩
    · exact ⟨_, rfl, hoff, hscroll _⟩

lemma safeRun_of_runOk {t : Terminal} {cs : List Byte} (hoff : t.vga.updateCursorPosition = false)
    (hok : RunOk cursorOffset t cs) : SafeRun cursorOffset t cs := by
  induction cs generalizing t with
  | nil => trivial
  | cons c cs ih =>
    obtain ⟨t', hrun, hoff', hscroll⟩ := update_ok cursorOffset hoff hok.1
    exact ⟨t', hrun, hscroll, ih hoff' (hok.2 t' hrun)⟩

/-! ## Initialization -/

/-- A console as the package is elaborated: the margins are the whole screen. -/
def Elaborated (v : ConsoleVGA) : Prop := v.marginTop = Height.first ∧ v.marginBottom = Height.last

lemma lineOk_of_elaborated {v : ConsoleVGA} (h : Elaborated v) : v.LineOk := by
  rw [ConsoleVGA.LineOk, h.1, h.2]
  refine ⟨fun _ => by decide, fun hne => ?_⟩
  have hy := v.curY.property
  have h25 : v.curY.val ≠ 25 := fun heq => hne (Subtype.ext heq)
  omega

lemma putLabel {v : ConsoleVGA} (hoff : v.updateCursorPosition = false) (hwhole : Elaborated v) (label : List Byte) :
    ∃ v', label.foldlM (fun v c => v.putChar cursorOffset c) v = some v' ∧ v'.updateCursorPosition = false ∧
      Elaborated v' := by
  induction label generalizing v with
  | nil => exact ⟨v, rfl, hoff, hwhole⟩
  | cons c label ih =>
    obtain ⟨v₁, hput, hkeeps, _⟩ := ConsoleVGA.putChar_disabled cursorOffset hoff c (fun _ => lineOk_of_elaborated hwhole)
    rw [List.foldlM_cons, hput]
    exact ih (hkeeps.update.trans hoff) ⟨hkeeps.top.trans hwhole.1, hkeeps.bottom.trans hwhole.2⟩

lemma initScreen_disabled {v : ConsoleVGA} (hoff : v.updateCursorPosition = false) (hwhole : Elaborated v)
    (label : List Byte) (trusted : Bool) :
    ∃ v', initScreen cursorOffset label trusted v = some v' ∧ v'.updateCursorPosition = false := by
  obtain ⟨v₁, hinit, hoff₁, htop, hbottom⟩ := init_disabled cursorOffset hoff
  have hwhole₁ : Elaborated v₁ := ⟨htop.trans hwhole.1, hbottom.trans hwhole.2⟩
  rw [initScreen, hinit, Option.bind_eq_bind, Option.bind_some]
  by_cases hlabel : label.length > 0
  · obtain ⟨v₂, hput, hoff₂, hwhole₂⟩ := putLabel cursorOffset
      (v := (v₁.setBkgColor (if trusted then .red else .lightGrey)).setTextColor .white) hoff₁ hwhole₁ label
    obtain ⟨v₃, hline, hkeeps⟩ := ConsoleVGA.newLine_disabled cursorOffset (v := v₂.deleteLineFromCursor) hoff₂
      (lineOk_of_elaborated hwhole₂)
    rw [if_pos hlabel]
    simp only [initLabel, hput, Option.bind_eq_bind, Option.bind_some, hline]
    exact ⟨_, rfl, hkeeps.update.trans hoff₂⟩
  · rw [if_neg hlabel]
    exact ⟨v₁, rfl, hoff₁⟩

/-- The hardware cursor of the first cell cannot be set on the screens of the multiplexer. -/
lemma initScreen_enabled {v : ConsoleVGA} (hon : v.updateCursorPosition = true)
    (hoffset : cursorOffset = 0 ∨ 2 ^ 8 ≤ cursorOffset) (label : List Byte) (trusted : Bool) :
    initScreen cursorOffset label trusted v = none := by
  have hinit : v.init cursorOffset = none := by
    rw [ConsoleVGA.init, ConsoleVGA.updateCursor, if_pos hon]
    rcases hoffset with h0 | h256
    · subst h0
      rfl
    · have hpos : 0 < cursorOffset := by omega
      have hlow : toByte (cursorOffset + ((Height.first.val - 1).toNat * 80 + Width.first.val.toNat - 1)) = none :=
        toByte_of_le (by omega)
      simp only [hlow]
      cases toByte ((cursorOffset + ((Height.first.val - 1).toNat * 80 + Width.first.val.toNat - 1)) / 2 ^ 8) <;>
        simp
  rw [initScreen, hinit]
  rfl

/-- **Output stays on the screen.** After `Init` with any label, a run of characters in which no step meets one of the
failing commands fails no range, index or overflow check and scrolls within the margins, while the hardware cursor
belongs to the other screen. On the screen that has it, `Init` fails at the offsets of the multiplexer. -/
theorem terminal_safe (v : ConsoleVGA) (hwhole : Elaborated v) (label : List Byte) (trusted : Bool) (cs : List Byte) :
    (v.updateCursorPosition = false →
      ∃ v', initScreen cursorOffset label trusted v = some v' ∧
        (RunOk cursorOffset ⟨nullState, v'⟩ cs → SafeRun cursorOffset ⟨nullState, v'⟩ cs)) ∧
    (v.updateCursorPosition = true → cursorOffset = 0 ∨ 2 ^ 8 ≤ cursorOffset →
      initScreen cursorOffset label trusted v = none) := by
  constructor
  · intro hoff
    obtain ⟨v', hinit, hoff'⟩ := initScreen_disabled cursorOffset hoff hwhole label trusted
    exact ⟨v', hinit, fun hok => safeRun_of_runOk cursorOffset hoff' hok⟩
  · exact fun hon hoffset => initScreen_enabled cursorOffset hon hoffset label trusted

/-- The sequences `ESC [ 2 ; 5 r` and `ESC [ 5 ; 1 H`, a letter and a line feed in the last row between the margins. -/
def scrolledLine : List Byte :=
  [0x1b, 0x5b, 0x32, 0x3b, 0x35, 0x72, 0x1b, 0x5b, 0x35, 0x3b, 0x31, 0x48, 0x42, 0x0a]

/-- On the screen that is not shown the letter is scrolled to the row before. -/
theorem terminal_safe_line :
    ∃ v', initScreen 0 [] false blankConsole = some v' ∧ SafeRun 0 ⟨nullState, v'⟩ scrolledLine ∧
      ∃ t', scrolledLine.foldlM (update 0) ⟨nullState, v'⟩ = some t' ∧
        (t'.vga.marginTop.val, t'.vga.marginBottom.val, t'.vga.curY.val) = (2, 5, 5) ∧
        (t'.vga.screen ⟨4, by decide⟩ Width.first).char = 0x42 := by
  obtain ⟨v', hinit, hsafe⟩ := (terminal_safe 0 blankConsole ⟨rfl, rfl⟩ [] false scrolledLine).1 rfl
  have hv' : v' = blankConsole := Option.some.inj (hinit.symm.trans rfl)
  subst hv'
  exact ⟨blankConsole, hinit, hsafe (by decide), _, rfl, by decide, by decide⟩

/-- The sequences `ESC [ 25 ; 1 H` and `ESC [ 1 ; 5 r` leave the cursor in the last row, below the bottom margin. -/
def belowMargin : List Byte := [0x1b, 0x5b, 0x32, 0x35, 0x3b, 0x31, 0x48, 0x1b, 0x5b, 0x31, 0x3b, 0x35, 0x72]

/-- A line feed there takes the cursor to row 26, which is none. -/
theorem terminal_unsafe :
    ¬ ∀ (offset : ℕ) (v : ConsoleVGA), Elaborated v → ∀ (label : List Byte) (trusted : Bool) (cs : List Byte),
      ∃ v', initScreen offset label trusted v = some v' ∧ SafeRun offset ⟨nullState, v'⟩ cs := by
  intro h
  obtain ⟨v', hinit, hsafe⟩ := h 0 blankConsole ⟨rfl, rfl⟩ [] false (belowMargin ++ [0x0a])
  have hrun : ∀ (t : Terminal) (cs : List Byte), SafeRun 0 t cs → (cs.foldlM (update 0) t).isSome = true := by
    intro t cs
    induction cs generalizing t with
    | nil => exact fun _ => rfl
    | cons c cs ih =>
      rintro ⟨t', hstep, _, hrest⟩
      rw [List.foldlM_cons, hstep]
      exact ih t' hrest
  have hnone : ((initScreen 0 [] false blankConsole).bind
      (fun v' => (belowMargin ++ [0x0a]).foldlM (update 0) ⟨nullState, v'⟩)).isSome = false := by
    decide
  rw [hinit, Option.bind_some, hrun _ _ hsafe] at hnone
  exact absurd hnone (by decide)

end Muen.Components.Vt
