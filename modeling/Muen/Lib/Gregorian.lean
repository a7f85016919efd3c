import Mathlib.Data.Nat.Basic
import Mathlib.Tactic.IntervalCases
import Mathlib.Order.Monotone.Basic
import Mathlib.Logic.Function.Iterate

/-!
# The Gregorian calendar

Dates of the proleptic Gregorian calendar, with the date of the following day. In years that start with March the leap
day is the last one, so the days before a year and those before a month in it have closed forms; their sum numbers the
dates in order without gaps.
-/

namespace Muen.Lib

def leapYear (year : Nat) : Bool := year % 4 = 0 && (year % 100 ≠ 0 || year % 400 = 0)

def monthDays (year month : Nat) : Nat :=
  if month = 2 then (if leapYear year then 29 else 28)
  else if month = 4 ∨ month = 6 ∨ month = 9 ∨ month = 11 then 30
  else 31

structure Date where
  year : Nat
  month : Nat
  day : Nat
deriving DecidableEq

namespace Date

structure Valid (d : Date) : Prop where
  year_pos : 0 < d.year
  month_pos : 0 < d.month
  month_le : d.month ≤ 12
  day_pos : 0 < d.day
  day_le : d.day ≤ monthDays d.year d.month

/-- The date of the following day. -/
def next (d : Date) : Date :=
  if d.day < monthDays d.year d.month then ⟨d.year, d.month, d.day + 1⟩
  else if d.month < 12 then ⟨d.year, d.month + 1, 1⟩
  else ⟨d.year + 1, 1, 1⟩

/-- The lexicographic order of year, month and day. -/
def Before (d d' : Date) : Prop :=
  d.year < d'.year ∨ d.year = d'.year ∧ (d.month < d'.month ∨ d.month = d'.month ∧ d.day < d'.day)

/-! ### Years that start with March -/

def marchYear (d : Date) : Nat := if d.month ≤ 2 then d.year - 1 else d.year

/-- The months of such a year are numbered from 3 to 14. -/
def marchMonth (d : Date) : Nat := if d.month ≤ 2 then d.month + 12 else d.month

/-- The days before such a year. -/
def daysBeforeYear (year : Nat) : Nat := 365 * year + year / 4 - year / 100 + year / 400

/-- The days before a month of such a year. -/
def daysBeforeMonth (month : Nat) : Nat := (153 * month - 457) / 5

/-- The number of the day in its year. -/
def marchDay (d : Date) : Nat := daysBeforeMonth d.marchMonth + d.day - 1

/-- The days since the first of March of the year 0. -/
def dayNumber (d : Date) : Nat := daysBeforeYear d.marchYear + d.marchDay

lemma leapYear_iff {year : Nat} : leapYear year = true ↔ year % 4 = 0 ∧ (year % 100 ≠ 0 ∨ year % 400 = 0) := by
  simp [leapYear]

/-- The days of the year that ends with the February of the given one. -/
def yearDays (year : Nat) : Nat := if leapYear year then 366 else 365

lemma daysBeforeYear_succ (year : Nat) : daysBeforeYear (year + 1) = daysBeforeYear year + yearDays (year + 1) := by
  have hle : year / 100 ≤ year / 4 := Nat.div_le_div_left (by decide) (by decide)
  have h4 : 100 ∣ year + 1 → 4 ∣ year + 1 := (by decide : 4 ∣ 100).trans
  have h100 : 400 ∣ year + 1 → 100 ∣ year + 1 := (by decide : 100 ∣ 400).trans
  unfold daysBeforeYear yearDays
  rw [Nat.succ_div, Nat.succ_div, Nat.succ_div]
  by_cases hleap : leapYear (year + 1) = true
  · rw [if_pos hleap]
    simp only [leapYear_iff, ← Nat.dvd_iff_mod_eq_zero, ne_eq] at hleap
    by_cases hcentury : 100 ∣ year + 1
    · rw [if_pos hleap.1, if_pos hcentury, if_pos (hleap.2.resolve_left (not_not.mpr hcentury))]
      omega
    · rw [if_pos hleap.1, if_neg hcentury, if_neg (fun h => hcentury (h100 h))]
      omega
  · rw [if_neg hleap]
    simp only [leapYear_iff, ← Nat.dvd_iff_mod_eq_zero, ne_eq, not_and, not_or, not_not] at hleap
    by_cases hfour : 4 ∣ year + 1
    · rw [if_pos hfour, if_pos (hleap hfour).1, if_neg (hleap hfour).2]
      omega
    · have hcentury : ¬100 ∣ year + 1 := fun h => hfour (h4 h)
      rw [if_neg hfour, if_neg hcentury, if_neg (fun h => hcentury (h100 h))]
      omega

lemma daysBeforeYear_mono : Monotone daysBeforeYear := by
  apply monotone_nat_of_le_succ
  intro year
  rw [daysBeforeYear_succ]
  exact Nat.le_add_right _ _

/-- The last day of a month in years that start with March. -/
lemma marchDay_lt_month {d : Date} (h : d.Valid) (hmonth : d.marchMonth < 14) :
    d.marchDay < daysBeforeMonth (d.marchMonth + 1) := by
  obtain ⟨year, month, day⟩ := d
  obtain ⟨-, hpos, hle, hday, hlast⟩ := h
  simp only [marchDay, marchMonth, monthDays, daysBeforeMonth] at hmonth hlast ⊢
  interval_cases month <;> simp at hlast hmonth ⊢ <;> omega

lemma marchDay_lt {d : Date} (h : d.Valid) : d.marchDay < yearDays (d.marchYear + 1) := by
  obtain ⟨year, month, day⟩ := d
  obtain ⟨hyear, hpos, hle, hday, hlast⟩ := h
  simp only [marchDay, marchMonth, marchYear, monthDays, daysBeforeMonth, yearDays] at hyear hlast ⊢
  interval_cases month
  case «2» =>
    simp only [if_true, le_refl, Nat.sub_add_cancel hyear] at hlast ⊢
    split_ifs at hlast ⊢ <;> omega
  all_goals
    simp at hlast ⊢
    split_ifs <;> omega

/-! ### The days in order -/

lemma monthDays_pos (year month : Nat) : 28 ≤ monthDays year month ∧ monthDays year month ≤ 31 := by
  unfold monthDays
  split_ifs <;> omega

lemma next_valid {d : Date} (h : d.Valid) : d.next.Valid := by
  unfold next
  by_cases hday : d.day < monthDays d.year d.month
  · rw [if_pos hday]
    exact ⟨h.year_pos, h.month_pos, h.month_le, Nat.succ_pos _, hday⟩
  · rw [if_neg hday]
    by_cases hmonth : d.month < 12
    · rw [if_pos hmonth]
      refine ⟨h.year_pos, Nat.succ_pos _, hmonth, Nat.one_pos, ?_⟩
      have hpos := (monthDays_pos d.year (d.month + 1)).1
      simp only
      omega
    · rw [if_neg hmonth]
      refine ⟨Nat.succ_pos _, Nat.one_pos, Nat.le_add_left 1 11, Nat.one_pos, ?_⟩
      have hpos := (monthDays_pos (d.year + 1) 1).1
      simp only
      omega

lemma dayNumber_next {d : Date} (h : d.Valid) : d.next.dayNumber = d.dayNumber + 1 := by
  obtain ⟨year, month, day⟩ := d
  obtain ⟨hyear, hpos, hle, hday, hlast⟩ := h
  simp only at hyear hpos hle hday hlast
  unfold next dayNumber
  by_cases hsame : day < monthDays year month
  · simp only [if_pos hsame, marchYear, marchDay, marchMonth]
    omega
  · have heq : day = monthDays year month := by omega
    simp only [if_neg hsame]
    by_cases hdecember : month < 12
    · simp only [if_pos hdecember]
      by_cases hfebruary : month = 2
      · -- the first of March starts the year
        have hsucc := daysBeforeYear_succ (year - 1)
        rw [Nat.sub_add_cancel hyear, yearDays] at hsucc
        subst hfebruary
        simp only [marchYear, marchDay, marchMonth, daysBeforeMonth, heq, monthDays, if_true, le_refl,
          show ¬2 + 1 ≤ 2 by decide, if_false]
        by_cases hleap : leapYear year = true
        · rw [if_pos hleap] at hsucc ⊢
          omega
        · rw [if_neg hleap] at hsucc ⊢
          omega
      · have hmonth : daysBeforeMonth (marchMonth ⟨year, month + 1, 1⟩) =
            daysBeforeMonth (marchMonth ⟨year, month, day⟩) + monthDays year month := by
          unfold marchMonth daysBeforeMonth monthDays
          interval_cases month <;> simp at hfebruary ⊢
        have hyears : marchYear ⟨year, month + 1, 1⟩ = marchYear ⟨year, month, day⟩ := by
          simp only [marchYear]
          split_ifs <;> omega
        rw [hyears, marchDay, marchDay, hmonth, heq]
        simp only
        have hpos := (monthDays_pos year month).1
        omega
    · have htwelve : month = 12 := by omega
      subst htwelve
      simp only [heq, marchYear, marchDay, marchMonth, daysBeforeMonth, monthDays]
      simp

/-- The number of the date some days later. -/
lemma dayNumber_iterate {d : Date} (h : d.Valid) (n : Nat) :
    (next^[n] d).Valid ∧ (next^[n] d).dayNumber = d.dayNumber + n := by
  induction n with
  | zero => exact ⟨h, rfl⟩
  | succ n ih =>
    rw [Function.iterate_succ_apply']
    exact ⟨next_valid ih.1, by rw [dayNumber_next ih.1, ih.2]; rfl⟩

/-- Dates of different months are in the order of their months. -/
lemma marchDay_lt_marchDay {d d' : Date} (h : d.Valid) (h' : d'.Valid)
    (hlt : d.marchMonth < d'.marchMonth ∨ d.marchMonth = d'.marchMonth ∧ d.day < d'.day) : d.marchDay < d'.marchDay := by
  have hday := h.day_pos
  have hday' := h'.day_pos
  rcases hlt with hmonth | ⟨hmonth, hlt⟩
  · have hle : d'.marchMonth ≤ 14 := by
      have hle := h'.month_le
      unfold marchMonth
      split_ifs <;> omega
    have hbefore := marchDay_lt_month h (by omega)
    have hmono : daysBeforeMonth (d.marchMonth + 1) ≤ daysBeforeMonth d'.marchMonth := by
      unfold daysBeforeMonth
      omega
    have hstart : daysBeforeMonth d'.marchMonth ≤ d'.marchDay := by
      unfold marchDay
      omega
    omega
  · unfold marchDay
    rw [hmonth]
    omega

/-- The numbers of the days are in the order of their dates. -/
lemma dayNumber_lt {d d' : Date} (h : d.Valid) (h' : d'.Valid) (hlt : d.Before d') : d.dayNumber < d'.dayNumber := by
  have hyear := h.year_pos
  have hyear' := h'.year_pos
  have hmonth := h.month_le
  have hmonth' := h'.month_pos
  have hcases : d.marchYear < d'.marchYear ∨ d.marchYear = d'.marchYear ∧
      (d.marchMonth < d'.marchMonth ∨ d.marchMonth = d'.marchMonth ∧ d.day < d'.day) := by
    unfold Before at hlt
    unfold marchYear marchMonth
    split_ifs <;> omega
  unfold dayNumber
  rcases hcases with hyears | ⟨hyears, hmonths⟩
  · have hday := marchDay_lt h
    have hsucc := daysBeforeYear_succ d.marchYear
    have hmono : daysBeforeYear (d.marchYear + 1) ≤ daysBeforeYear d'.marchYear := daysBeforeYear_mono hyears
    omega
  · rw [hyears]
    have hday := marchDay_lt_marchDay h h' hmonths
    omega

end Date

end Muen.Lib
