import Muen.Lib.Gregorian

/-!
# Mutime

Timestamps in microseconds and dates. `Split` and `Time_Of` compute with 64-bit numbers, but on the ranges of their
types no value is near the bound, so the numbers are natural ones here; conversions to a type with a range are checked.
-/

namespace Muen.Components.Mutime
open Muen.Lib

def timestampLast : Nat := 253402300799000000

abbrev Timestamp := {n : Nat // n ≤ timestampLast}

/-- A date and time with each component in its range. -/
structure DateTime where
  year : Nat
  month : Nat
  day : Nat
  hour : Nat
  minute : Nat
  second : Nat
  year_range : 1970 ≤ year ∧ year ≤ 9999
  month_range : 1 ≤ month ∧ month ≤ 12
  day_range : 1 ≤ day ∧ day ≤ 31
  hour_range : hour ≤ 23
  minute_range : minute ≤ 59
  second_range : second ≤ 59

def DateTime.check (year month day hour minute second : Nat) : Option DateTime :=
  if h : (1970 ≤ year ∧ year ≤ 9999) ∧ (1 ≤ month ∧ month ≤ 12) ∧ (1 ≤ day ∧ day ≤ 31) ∧ hour ≤ 23 ∧
      minute ≤ 59 ∧ second ≤ 59 then
    some ⟨year, month, day, hour, minute, second, h.1, h.2.1, h.2.2.1, h.2.2.2.1, h.2.2.2.2.1, h.2.2.2.2.2⟩
  else none

def Timestamp.check (n : Nat) : Option Timestamp := if h : n ≤ timestampLast then some ⟨n, h⟩ else none

/-- The epoch shifted to 0000-03-01. -/
def epochShiftDays : Nat := 719468

def secsPerHour : Nat := 60 * 60

def secsPerDay : Nat := secsPerHour * 24

/-- Year, month and day of a number of days. -/
def splitDays (days : Nat) : Nat × Nat × Nat :=
  let n1 := 4 * days + 3
  let century := n1 / 146097
  let dayOfCentury := n1 % 146097 / 4
  let n2 := (4 * dayOfCentury + 3) * 2939745
  let yearOfCentury := n2 / 2 ^ 32
  let dayOfYear := n2 % 2 ^ 32 / 2939745 / 4
  let n3 := dayOfYear * 2141 + 197913
  let month := n3 / 2 ^ 16
  let day := n3 % 2 ^ 16 / 2141
  let year := 100 * century + yearOfCentury
  if dayOfYear ≥ 306 then (year + 1, month - 12, day + 1) else (year, month, day + 1)

def split (timestamp : Timestamp) : Option DateTime :=
  let days := timestamp.val / 10 ^ 6 / secsPerDay + epochShiftDays
  let r := timestamp.val / 10 ^ 6 % secsPerDay
  let hour := r / secsPerHour
  let r := r % secsPerHour
  let date := splitDays days
  DateTime.check date.1 date.2.1 date.2.2 hour (r / 60) (r % 60)

/-- The days since the shifted epoch of a year, month and day. -/
def daysOf (year month day : Nat) : Nat :=
  let m := if month ≤ 2 then month + 12 else month
  let y := if month ≤ 2 then year - 1 else year
  let d := day - 1
  let c := y / 100
  let y1 := 1461 * y / 4 - c + c / 4
  let m1 := (979 * m - 2919) / 2 ^ 5
  y1 + m1 + d

def timeOf (d : DateTime) : Option Timestamp := do
  let time ← Timestamp.check (daysOf d.year d.month d.day - epochShiftDays)
  let time ← Timestamp.check (time.val * 24 + d.hour)
  let time ← Timestamp.check (time.val * 60 + d.minute)
  let time ← Timestamp.check (time.val * 60 + d.second)
  Timestamp.check (time.val * 10 ^ 6)

namespace DateTime

def date (d : DateTime) : Date := ⟨d.year, d.month, d.day⟩

def timeOfDay (d : DateTime) : Nat := d.hour * secsPerHour + d.minute * 60 + d.second

/-- The lexicographic order of all components. -/
def Before (d d' : DateTime) : Prop :=
  d.date.Before d'.date ∨ d.date = d'.date ∧ (d.hour < d'.hour ∨ d.hour = d'.hour ∧
    (d.minute < d'.minute ∨ d.minute = d'.minute ∧ d.second < d'.second))

end DateTime

def epoch : Date := ⟨1970, 1, 1⟩

/-! ### Days -/

lemma daysBeforeYear_century (century : Nat) {year : Nat} (hyear : year < 100) :
    Date.daysBeforeYear (100 * century + year) = 36524 * century + century / 4 + 365 * year + year / 4 := by
  have h4 : (100 * century + year) / 4 = 25 * century + year / 4 := by omega
  have h100 : (100 * century + year) / 100 = century := by omega
  have h400 : (100 * century + year) / 400 = century / 4 := by omega
  unfold Date.daysBeforeYear
  rw [h4, h100, h400]
  omega

/-- In the last year of a century without a leap day, and in years before one without, there are 365 days. -/
lemma marchDay_century {d : Date} (h : d.Valid) {century year : Nat} (hyear : d.marchYear = 100 * century + year) :
    d.marchDay < 365 ∨ d.marchDay = 365 ∧ year % 4 = 3 ∧ (year = 99 → century % 4 = 3) := by
  have hday := Date.marchDay_lt h
  rw [hyear] at hday
  unfold Date.yearDays at hday
  by_cases hleap : leapYear (100 * century + year + 1) = true
  · rw [if_pos hleap] at hday
    rw [Date.leapYear_iff] at hleap
    omega
  · rw [if_neg hleap] at hday
    exact Or.inl hday

/-- The multiplication and the shift divide by the days of four years. -/
lemma div_mulShift {n : Nat} (h : n < 146100) :
    n * 2939745 / 2 ^ 32 = n / 1461 ∧ n * 2939745 % 2 ^ 32 / 2939745 = n % 1461 := by
  have hsplit := Nat.div_add_mod n 1461
  have hmod := Nat.mod_lt n (by decide : 0 < 1461)
  have hdiv : n / 1461 < 100 := by omega
  have hproduct : n * 2939745 = 2 ^ 32 * (n / 1461) + (149 * (n / 1461) + 2939745 * (n % 1461)) := by omega
  have hsmall : 149 * (n / 1461) + 2939745 * (n % 1461) < 2 ^ 32 := by omega
  rw [hproduct, Nat.mul_add_div (by decide), Nat.div_eq_of_lt hsmall, Nat.mul_add_mod, Nat.mod_eq_of_lt hsmall]
  omega

/-- The days before a year of a century as they are computed. -/
lemma daysBeforeYear_computed (century year : Nat) (hyear : year < 100) :
    1461 * (100 * century + year) / 4 - (100 * century + year) / 100 + (100 * century + year) / 100 / 4 =
      Date.daysBeforeYear (100 * century + year) := by
  have h100 : (100 * century + year) / 100 = century := by omega
  have h4 : 1461 * (100 * century + year) / 4 = 36525 * century + 365 * year + year / 4 := by omega
  rw [daysBeforeYear_century century hyear, h100, h4]
  omega

lemma daysOf_dayNumber {d : Date} (h : d.Valid) : daysOf d.year d.month d.day = d.dayNumber := by
  obtain ⟨hyear, hpos, hle, hday, -⟩ := h
  have hmonth : (979 * d.marchMonth - 2919) / 2 ^ 5 = Date.daysBeforeMonth d.marchMonth := by
    have hrange : 3 ≤ d.marchMonth ∧ d.marchMonth ≤ 14 := by
      unfold Date.marchMonth
      split_ifs <;> omega
    unfold Date.daysBeforeMonth
    omega
  have hyears : 1461 * d.marchYear / 4 - d.marchYear / 100 + d.marchYear / 100 / 4 =
      Date.daysBeforeYear d.marchYear := by
    have hcentury := daysBeforeYear_computed (d.marchYear / 100) (d.marchYear % 100) (Nat.mod_lt _ (by decide))
    rwa [Nat.div_add_mod] at hcentury
  change 1461 * d.marchYear / 4 - d.marchYear / 100 + d.marchYear / 100 / 4 + (979 * d.marchMonth - 2919) / 2 ^ 5 +
    (d.day - 1) = _
  rw [hyears, hmonth]
  unfold Date.dayNumber Date.marchDay
  omega

/-- The multiplication and the shift divide by the days of the months. -/
lemma month_mulShift {d : Date} (h : d.Valid) :
    (d.marchDay * 2141 + 197913) / 2 ^ 16 = d.marchMonth ∧
      (d.marchDay * 2141 + 197913) % 2 ^ 16 / 2141 = d.day - 1 ∧ (306 ≤ d.marchDay ↔ d.month ≤ 2) := by
  obtain ⟨year, month, day⟩ := d
  obtain ⟨-, hpos, hle, hday, hlast⟩ := h
  simp only at hpos hle hday hlast
  have hfebruary : month = 2 → day ≤ 29 := by
    rintro rfl
    unfold monthDays at hlast
    split_ifs at hlast <;> omega
  have hshort : month = 4 ∨ month = 6 ∨ month = 9 ∨ month = 11 → day ≤ 30 := by
    intro hmonth
    unfold monthDays at hlast
    split_ifs at hlast <;> omega
  have hlong : day ≤ 31 := hlast.trans (Date.monthDays_pos year month).2
  simp only [Date.marchDay, Date.marchMonth, Date.daysBeforeMonth]
  interval_cases month <;> simp at hfebruary hshort ⊢ <;> omega

/-- The year, month and day of a date are found again from its number. -/
lemma splitDays_dayNumber {d : Date} (h : d.Valid) : splitDays d.dayNumber = (d.year, d.month, d.day) := by
  have hlt := Nat.mod_lt d.marchYear (by decide : 0 < 100)
  have hyears := (Nat.div_add_mod d.marchYear 100).symm
  generalize d.marchYear / 100 = century at hyears
  generalize d.marchYear % 100 = year at hlt hyears
  have hday := marchDay_century h hyears
  have hnumber : d.dayNumber = 36524 * century + century / 4 + 365 * year + year / 4 + d.marchDay := by
    unfold Date.dayNumber
    rw [hyears, daysBeforeYear_century century hlt]
  have hcentury : (4 * d.dayNumber + 3) / 146097 = century := by omega
  have hrest : (4 * d.dayNumber + 3) % 146097 / 4 = 365 * year + year / 4 + d.marchDay := by omega
  have hfour : (4 * (365 * year + year / 4 + d.marchDay) + 3) / 1461 = year ∧
      (4 * (365 * year + year / 4 + d.marchDay) + 3) % 1461 / 4 = d.marchDay := by
    have hvalue : 4 * (365 * year + year / 4 + d.marchDay) + 3 = 1461 * year + (4 * d.marchDay + (3 - year % 4)) := by
      omega
    have hsmall : 4 * d.marchDay + (3 - year % 4) < 1461 := by omega
    rw [hvalue, Nat.mul_add_div (by decide), Nat.div_eq_of_lt hsmall, Nat.mul_add_mod, Nat.mod_eq_of_lt hsmall]
    omega
  obtain ⟨hshift, hshiftMod⟩ := div_mulShift (n := 4 * (365 * year + year / 4 + d.marchDay) + 3) (by omega)
  obtain ⟨hmonth, hdayOfMonth, hafter⟩ := month_mulShift h
  have hday := h.day_pos
  have hyearPos := h.year_pos
  unfold splitDays
  simp only [hcentury, hrest, hshift, hshiftMod, hfour.1, hfour.2, hmonth, hdayOfMonth]
  rw [← hyears, Nat.sub_add_cancel hday]
  by_cases hjanuary : d.month ≤ 2
  · rw [if_pos (hafter.mpr hjanuary)]
    simp only [Date.marchYear, Date.marchMonth, if_pos hjanuary, Nat.sub_add_cancel hyearPos, Nat.add_sub_cancel]
  · rw [if_neg (fun hlate => hjanuary (hafter.mp hlate))]
    simp only [Date.marchYear, Date.marchMonth, if_neg hjanuary]

/-! ### Dates and times -/

lemma epoch_valid : epoch.Valid := ⟨by decide, by decide, by decide, by decide, by decide⟩

lemma dayNumber_epoch : epoch.dayNumber = epochShiftDays := by decide

/-- The years of dates are in range if their days are. -/
lemma year_range_iff {d : Date} (h : d.Valid) :
    1970 ≤ d.year ∧ d.year ≤ 9999 ↔ epochShiftDays ≤ d.dayNumber ∧ d.dayNumber ≤ epochShiftDays + 2932896 := by
  have hlastValid : (⟨9999, 12, 31⟩ : Date).Valid := ⟨by decide, by decide, by decide, by decide, by decide⟩
  have hlastNumber : (⟨9999, 12, 31⟩ : Date).dayNumber = epochShiftDays + 2932896 := by decide
  have hepoch := dayNumber_epoch
  have hmonth := h.month_pos
  have hmonthLe := h.month_le
  have hday := h.day_pos
  have hdayLe := h.day_le.trans (Date.monthDays_pos d.year d.month).2
  constructor
  · rintro ⟨hfirst, hlast⟩
    have hlower : epoch.dayNumber ≤ d.dayNumber := by
      by_cases heq : d = epoch
      · rw [heq]
      · apply le_of_lt
        apply Date.dayNumber_lt epoch_valid h
        obtain ⟨year, month, day⟩ := d
        simp only [epoch, Date.mk.injEq] at heq
        simp only at hfirst hmonth hday
        change 1970 < year ∨ 1970 = year ∧ (1 < month ∨ 1 = month ∧ 1 < day)
        omega
    have hupper : d.dayNumber ≤ (⟨9999, 12, 31⟩ : Date).dayNumber := by
      by_cases heq : d = ⟨9999, 12, 31⟩
      · rw [heq]
      · apply le_of_lt
        apply Date.dayNumber_lt h hlastValid
        obtain ⟨year, month, day⟩ := d
        simp only [Date.mk.injEq] at heq
        simp only at hlast hmonthLe hdayLe
        change year < 9999 ∨ year = 9999 ∧ (month < 12 ∨ month = 12 ∧ day < 31)
        omega
    omega
  · rintro ⟨hlower, hupper⟩
    constructor
    · by_contra hlt
      have hbefore := Date.dayNumber_lt h epoch_valid (Or.inl (by simp only [epoch]; omega))
      omega
    · by_contra hlt
      have hbefore := Date.dayNumber_lt hlastValid h (Or.inl (by simp only; omega))
      omega

lemma DateTime.timeOfDay_lt (d : DateTime) : d.timeOfDay < secsPerDay := by
  have hhour := d.hour_range
  have hminute := d.minute_range
  have hsecond := d.second_range
  unfold timeOfDay secsPerDay secsPerHour
  omega

lemma DateTime.dayNumber_range {d : DateTime} (h : d.date.Valid) :
    epochShiftDays ≤ d.date.dayNumber ∧ d.date.dayNumber ≤ epochShiftDays + 2932896 :=
  (year_range_iff h).mp d.year_range

lemma Timestamp.check_of_le {n : Nat} (h : n ≤ timestampLast) : Timestamp.check n = some ⟨n, h⟩ := dif_pos h

lemma Timestamp.check_bind {β : Type} {n : Nat} (h : n ≤ timestampLast) (f : Timestamp → Option β) :
    (Timestamp.check n >>= f) = f ⟨n, h⟩ := by
  rw [Timestamp.check_of_le h]
  rfl

/-- The timestamp of a date and time. -/
lemma timeOf_eq {d : DateTime} (h : d.date.Valid) :
    ∃ t : Timestamp, timeOf d = some t ∧
      t.val = ((d.date.dayNumber - epochShiftDays) * secsPerDay + d.timeOfDay) * 10 ^ 6 := by
  obtain ⟨hlower, hupper⟩ := DateTime.dayNumber_range h
  have hdays : daysOf d.year d.month d.day = d.date.dayNumber := daysOf_dayNumber h
  have hhour := d.hour_range
  have hminute := d.minute_range
  have hsecond := d.second_range
  have hnumber : d.date.dayNumber - epochShiftDays ≤ 2932896 := by omega
  have htimeOf : timeOf d = (do
      let time ← Timestamp.check (d.date.dayNumber - epochShiftDays)
      let time ← Timestamp.check (time.val * 24 + d.hour)
      let time ← Timestamp.check (time.val * 60 + d.minute)
      let time ← Timestamp.check (time.val * 60 + d.second)
      Timestamp.check (time.val * 10 ^ 6)) := by
    unfold timeOf
    rw [hdays]
  rw [htimeOf]
  generalize d.date.dayNumber - epochShiftDays = days at hnumber
  have h₁ : days ≤ timestampLast := by unfold timestampLast; omega
  have h₂ : days * 24 + d.hour ≤ timestampLast := by unfold timestampLast; omega
  have h₃ : (days * 24 + d.hour) * 60 + d.minute ≤ timestampLast := by unfold timestampLast; omega
  have h₄ : ((days * 24 + d.hour) * 60 + d.minute) * 60 + d.second ≤ timestampLast := by unfold timestampLast; omega
  have h₅ : (((days * 24 + d.hour) * 60 + d.minute) * 60 + d.second) * 10 ^ 6 ≤ timestampLast := by
    unfold timestampLast
    omega
  refine ⟨⟨_, h₅⟩, ?_, ?_⟩
  · rw [Timestamp.check_bind h₁, Timestamp.check_bind h₂, Timestamp.check_bind h₃, Timestamp.check_bind h₄]
    exact Timestamp.check_of_le h₅
  · have hseconds : ((days * 24 + d.hour) * 60 + d.minute) * 60 + d.second = days * secsPerDay + d.timeOfDay := by
      unfold secsPerDay DateTime.timeOfDay secsPerHour
      omega
    exact congrArg (· * 10 ^ 6) hseconds

/-- A date and time whose number of seconds is that of the timestamp is the one that it is split into. -/
lemma split_eq {t : Timestamp} {d : DateTime} (h : d.date.Valid)
    (hseconds : t.val / 10 ^ 6 = (d.date.dayNumber - epochShiftDays) * secsPerDay + d.timeOfDay) : split t = some d := by
  obtain ⟨hlower, -⟩ := DateTime.dayNumber_range h
  have htime := d.timeOfDay_lt
  have hdays : t.val / 10 ^ 6 / secsPerDay + epochShiftDays = d.date.dayNumber := by
    rw [hseconds, Nat.mul_comm, Nat.mul_add_div (by decide), Nat.div_eq_of_lt htime]
    omega
  have hrest : t.val / 10 ^ 6 % secsPerDay = d.timeOfDay := by
    rw [hseconds, Nat.mul_comm, Nat.mul_add_mod, Nat.mod_eq_of_lt htime]
  have hhour := d.hour_range
  have hminute := d.minute_range
  have hsecond := d.second_range
  have hhours : d.timeOfDay / secsPerHour = d.hour := by
    unfold DateTime.timeOfDay secsPerHour
    omega
  have hminutes : d.timeOfDay % secsPerHour / 60 = d.minute := by
    unfold DateTime.timeOfDay secsPerHour
    omega
  have hsecs : d.timeOfDay % secsPerHour % 60 = d.second := by
    unfold DateTime.timeOfDay secsPerHour
    omega
  unfold split
  dsimp only
  rw [hdays, hrest, splitDays_dayNumber h, hhours, hminutes, hsecs]
  exact dif_pos ⟨d.year_range, d.month_range, d.day_range, hhour, hminute, hsecond⟩

/-- A timestamp is split into the date as many days after the epoch, and the time of that day. -/
lemma split_date (t : Timestamp) : ∃ d, split t = some d ∧ d.date.Valid ∧
    d.date = Date.next^[t.val / 10 ^ 6 / secsPerDay] epoch ∧ d.timeOfDay = t.val / 10 ^ 6 % secsPerDay := by
  obtain ⟨hvalid, hnumber⟩ := Date.dayNumber_iterate epoch_valid (t.val / 10 ^ 6 / secsPerDay)
  have ht := t.property
  have hdays : t.val / 10 ^ 6 / secsPerDay ≤ 2932896 := by
    unfold timestampLast at ht
    unfold secsPerDay secsPerHour
    omega
  rw [dayNumber_epoch] at hnumber
  have hyear := (year_range_iff hvalid).mpr
    (hnumber ▸ ⟨Nat.le_add_right _ _, Nat.add_le_add_left hdays _⟩)
  generalize hdate : Date.next^[t.val / 10 ^ 6 / secsPerDay] epoch = date at *
  have hlt := Nat.mod_lt (t.val / 10 ^ 6) (by decide : 0 < secsPerDay)
  have hsplit := Nat.div_add_mod (t.val / 10 ^ 6) secsPerDay
  generalize hrest : t.val / 10 ^ 6 % secsPerDay = r at *
  unfold secsPerDay secsPerHour at hlt
  let d : DateTime := ⟨date.year, date.month, date.day, r / secsPerHour, r % secsPerHour / 60, r % secsPerHour % 60,
    hyear, ⟨hvalid.month_pos, hvalid.month_le⟩,
    ⟨hvalid.day_pos, hvalid.day_le.trans (Date.monthDays_pos _ _).2⟩, by unfold secsPerHour; omega,
    by unfold secsPerHour; omega, by unfold secsPerHour; omega⟩
  have htime : d.timeOfDay = r := by
    change r / secsPerHour * secsPerHour + r % secsPerHour / 60 * 60 + r % secsPerHour % 60 = r
    unfold secsPerHour
    omega
  have hd : d.date = date := rfl
  refine ⟨d, split_eq (hd ▸ hvalid) ?_, hd ▸ hvalid, hd, htime⟩
  rw [hd, hnumber, htime, Nat.add_sub_cancel_left, Nat.mul_comm]
  exact hsplit.symm

/-- Times of day are in the order of their components. -/
lemma timeOfDay_lt_timeOfDay {d d' : DateTime} (h : d.hour < d'.hour ∨ d.hour = d'.hour ∧
    (d.minute < d'.minute ∨ d.minute = d'.minute ∧ d.second < d'.second)) : d.timeOfDay < d'.timeOfDay := by
  have hminute := d.minute_range
  have hsecond := d.second_range
  unfold DateTime.timeOfDay secsPerHour
  omega

/-- Splitting timestamps and making them are exact inverses up to microseconds, by the proleptic Gregorian calendar,
and the order of dates is that of timestamps. -/
theorem split_timeOf_exact :
    (∀ t : Timestamp, ∃ d, split t = some d ∧ d.date.Valid ∧
      d.date = Date.next^[t.val / 10 ^ 6 / secsPerDay] epoch ∧ d.timeOfDay = t.val / 10 ^ 6 % secsPerDay ∧
      ∃ t', timeOf d = some t' ∧ t'.val = t.val - t.val % 10 ^ 6) ∧
    (∀ d : DateTime, d.date.Valid → ∃ t, timeOf d = some t ∧ split t = some d) ∧
    ∀ d d' : DateTime, d.date.Valid → d'.date.Valid → d.Before d' →
      ∃ t t', timeOf d = some t ∧ timeOf d' = some t' ∧ t.val < t'.val := by
  refine ⟨?_, ?_, ?_⟩
  · intro t
    obtain ⟨d, hsplit, hvalid, hdate, htime⟩ := split_date t
    obtain ⟨t', ht', hval⟩ := timeOf_eq hvalid
    refine ⟨d, hsplit, hvalid, hdate, htime, t', ht', ?_⟩
    have hnumber := (Date.dayNumber_iterate epoch_valid (t.val / 10 ^ 6 / secsPerDay)).2
    rw [← hdate, dayNumber_epoch] at hnumber
    rw [hval, hnumber, htime, Nat.add_sub_cancel_left, Nat.mul_comm (t.val / 10 ^ 6 / secsPerDay), Nat.div_add_mod]
    omega
  · intro d hvalid
    obtain ⟨t, ht, hval⟩ := timeOf_eq hvalid
    refine ⟨t, ht, split_eq hvalid ?_⟩
    rw [hval, Nat.mul_div_cancel _ (by decide)]
  · intro d d' hvalid hvalid' hbefore
    obtain ⟨t, ht, hval⟩ := timeOf_eq hvalid
    obtain ⟨t', ht', hval'⟩ := timeOf_eq hvalid'
    refine ⟨t, t', ht, ht', ?_⟩
    obtain ⟨hlower, -⟩ := DateTime.dayNumber_range hvalid
    have htime := d.timeOfDay_lt
    rw [hval, hval']
    apply Nat.mul_lt_mul_of_pos_right _ (by decide)
    rcases hbefore with hdate | ⟨hdate, htimes⟩
    · have hlt := Date.dayNumber_lt hvalid hvalid' hdate
      have hsucc : (d.date.dayNumber - epochShiftDays) * secsPerDay + secsPerDay ≤
          (d'.date.dayNumber - epochShiftDays) * secsPerDay := by
        rw [← Nat.succ_mul]
        exact Nat.mul_le_mul_right _ (by omega)
      omega
    · rw [hdate]
      exact Nat.add_lt_add_left (timeOfDay_lt_timeOfDay htimes) _

/-- The last second of a leap day. -/
def leapDay : DateTime :=
  ⟨2000, 2, 29, 23, 59, 59, by decide, by decide, by decide, by decide, by decide, by decide⟩

theorem split_timeOf_leapDay : ∃ t, timeOf leapDay = some t ∧ split t = some leapDay :=
  split_timeOf_exact.2.1 leapDay ⟨by decide, by decide, by decide, by decide, by decide⟩

end Muen.Components.Mutime
