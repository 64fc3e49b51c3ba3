import Mathlib.Order.Basic
import Provision.Time.Calendar

/-!
# Days and their dates

A date is found from the day within an era of 400 years, the year of the era and the day of that year.
The year is found by a division of the days without those that leap years have more.  This number of
days never falls from a day to the next one, so the year is right for every day if it is right for
the first and the last day of each of the 400 years.

**Results.**
* `Date.ofDayNumber_isValid`: every day has a date of the calendar.
* `Date.dayNumber_ofDayNumber`: the date of a day tells the day.
-/

namespace Provision
namespace Date

/-- A date of the calendar. -/
structure IsValid (d : Date) : Prop where
  month_pos : 1 ≤ d.month
  month_le : d.month ≤ 12
  day_pos : 1 ≤ d.day
  day_le : d.day ≤ daysInMonth d.year d.month

theorem daysInMonth_le
    (year : Int)
    (month : Nat) :
    daysInMonth year month ≤ 31 := by
  rw [daysInMonth]
  split
  · split <;> decide
  · split <;> decide

/-! ## Years of an era -/

theorem isLeap_add_era
    (era year : Int) :
    isLeap (era * 400 + year) = isLeap year := by
  have h4 : (era * 400 + year) % 4 = year % 4 := by omega
  have h100 : (era * 400 + year) % 100 = year % 100 := by omega
  have h400 : (era * 400 + year) % 400 = year % 400 := by omega
  rw [isLeap, isLeap, h4, h100, h400]

/-- The days of an era before one of its years. -/
def daysBeforeYear (year : Nat) : Nat :=
  365 * year + year / 4 - year / 100 + year / 400

def daysInYear (year : Int) : Nat :=
  if isLeap year then 366 else 365

/-- The days of an era up to a day, as if no year had a leap day. -/
def plainDays (dayOfEra : Nat) : Nat :=
  dayOfEra - dayOfEra / 1460 + dayOfEra / 36524 - dayOfEra / 146096

/-- The year of an era that a day lies in. -/
def yearOfEra (dayOfEra : Nat) : Nat :=
  plainDays dayOfEra / 365

/-- A year that starts in March ends with the February of the next calendar year. -/
theorem daysBeforeYear_succ :
    ∀ year < 400, daysBeforeYear (year + 1) =
      daysBeforeYear year + daysInYear ((year + 1 : Nat) : Int) := by
  decide +kernel

theorem plainDays_mono
    {day day' : Nat}
    (h : day ≤ day')
    (hday : day' < 146097) :
    plainDays day ≤ plainDays day' := by
  induction h with
  | refl => exact Nat.le_refl _
  | @step day' _ ih =>
      refine Nat.le_trans (ih (by omega)) ?_
      rw [plainDays, plainDays]
      omega

/-- The first and the last day of a year lie in this year. -/
theorem plainDays_year :
    ∀ year < 400, 365 * year ≤ plainDays (daysBeforeYear year) ∧
      plainDays (daysBeforeYear (year + 1) - 1) < 365 * (year + 1) := by
  decide +kernel

section Year

variable {dayOfEra : Nat} (h : dayOfEra < 146097)
include h

theorem yearOfEra_lt :
    yearOfEra dayOfEra < 400 := by
  have hlast : plainDays dayOfEra ≤ plainDays 146096 := plainDays_mono (by omega) (by omega)
  have hvalue : plainDays 146096 = 145999 := by decide +kernel
  rw [yearOfEra]
  omega

/-- A day lies in its year. -/
theorem yearOfEra_spec :
    daysBeforeYear (yearOfEra dayOfEra) ≤ dayOfEra ∧
      dayOfEra < daysBeforeYear (yearOfEra dayOfEra + 1) := by
  have hyear := yearOfEra_lt h
  have hlow : 365 * yearOfEra dayOfEra ≤ plainDays dayOfEra := by
    rw [yearOfEra]
    omega
  have hhigh : plainDays dayOfEra < 365 * (yearOfEra dayOfEra + 1) := by
    rw [yearOfEra]
    omega
  constructor
  · -- A day before the year would lie in the year before.
    by_contra hbefore
    cases hzero : yearOfEra dayOfEra with
    | zero => simp [hzero, daysBeforeYear] at hbefore
    | succ year =>
        rw [hzero] at hbefore hlow hyear
        have hmono : plainDays dayOfEra ≤ plainDays (daysBeforeYear (year + 1) - 1) :=
          plainDays_mono (by omega) (by rw [daysBeforeYear] at *; omega)
        have := (plainDays_year year (by omega)).2
        omega
  · -- A day after the year would lie in the year after it.
    by_contra hafter
    rcases Nat.lt_or_ge (yearOfEra dayOfEra + 1) 400 with hnext | hnext
    · have hmono : plainDays (daysBeforeYear (yearOfEra dayOfEra + 1)) ≤ plainDays dayOfEra :=
        plainDays_mono (by omega) h
      have := (plainDays_year _ hnext).1
      omega
    · have hend : yearOfEra dayOfEra + 1 = 400 := by omega
      rw [hend] at hafter
      exact hafter h

end Year

/-! ## Months of a year -/

/-- The month, counted from March on, that a day of a year lies in. -/
def monthOfYear (dayOfYear : Nat) : Nat :=
  (5 * dayOfYear + 2) / 153

theorem monthOfYear_spec
    {dayOfYear : Nat}
    (h : dayOfYear < 366) :
    monthOfYear dayOfYear < 12 ∧ daysBefore (monthOfYear dayOfYear) ≤ dayOfYear ∧
      dayOfYear < daysBefore (monthOfYear dayOfYear + 1) := by
  rw [monthOfYear, daysBefore, daysBefore]
  omega

/-- The months from March to January have the same days in every year. -/
theorem daysBefore_succ
    {month : Nat}
    (h : month < 11)
    (year : Int) :
    daysBefore (month + 1) =
      daysBefore month + daysInMonth year (if month < 10 then month + 3 else month - 9) := by
  have hmonths : ∀ month < 11, (if month < 10 then month + 3 else month - 9) ≠ 2 ∧
      daysBefore (month + 1) = daysBefore month +
        daysInMonth 0 (if month < 10 then month + 3 else month - 9) := by
    decide +kernel
  obtain ⟨hother, hdays⟩ := hmonths month h
  rw [hdays, daysInMonth, daysInMonth, if_neg hother, if_neg hother]

/-! ## Dates -/

/-- A day, taken apart into an era and the year, the month and the day that it has there. -/
structure Parts (n : Int) (era : Int) (year month day : Nat) : Prop where
  sum : n + 719468 = era * 146097 + (daysBeforeYear year + daysBefore month + day : Nat)
  year_lt : year < 400
  month_lt : month < 12
  day_lt : daysBefore month + day < daysBefore (month + 1)
  day_lt_year : daysBefore month + day < daysInYear (year + 1 : Nat)
  date : ofDayNumber n =
    if month < 10 then ⟨era * 400 + year, month + 3, day + 1⟩
    else ⟨era * 400 + year + 1, month - 9, day + 1⟩

theorem exists_parts
    (n : Int) :
    ∃ era year month day, Parts n era year month day := by
  let dayOfEra := ((n + 719468) % 146097).toNat
  have hdayOfEra : dayOfEra < 146097 := by omega
  let year := yearOfEra dayOfEra
  have hyear : year < 400 := yearOfEra_lt hdayOfEra
  obtain ⟨hlow, hhigh⟩ : daysBeforeYear year ≤ dayOfEra ∧ dayOfEra < daysBeforeYear (year + 1) :=
    yearOfEra_spec hdayOfEra
  let dayOfYear := dayOfEra - daysBeforeYear year
  have hdayOfYear : dayOfYear < daysInYear (year + 1 : Nat) := by
    rw [daysBeforeYear_succ year hyear] at hhigh
    omega
  have hmost : daysInYear (year + 1 : Nat) ≤ 366 := by
    rw [daysInYear]
    split <;> omega
  have hmonth := monthOfYear_spec (Nat.lt_of_lt_of_le hdayOfYear hmost)
  refine ⟨(n + 719468) / 146097, year, monthOfYear dayOfYear,
    dayOfYear - daysBefore (monthOfYear dayOfYear), ?_, hyear, hmonth.1, by omega, by omega, ?_⟩
  · omega
  · have hshort : 365 * year + year / 4 - year / 100 = daysBeforeYear year := by
      rw [daysBeforeYear]
      omega
    have hdays : dayOfYear = dayOfEra - (365 * year + year / 4 - year / 100) := by rw [hshort]
    rw [hdays]
    rfl

/-- The last day of a year is the last one of February. -/
theorem Parts.day_lt_daysInMonth
    {n era : Int}
    {year month day : Nat}
    (h : Parts n era year month day) :
    day < daysInMonth (if month < 10 then era * 400 + year else era * 400 + year + 1)
      (if month < 10 then month + 3 else month - 9) := by
  have hday := h.day_lt
  have hmonth := h.month_lt
  rcases Nat.lt_or_ge month 11 with hother | hlast
  · rw [daysBefore_succ hother] at hday
    exact Nat.lt_of_add_lt_add_left hday
  · obtain rfl : month = 11 := by omega
    have hyear := h.day_lt_year
    have hleap : isLeap (era * 400 + year + 1) = isLeap (year + 1 : Nat) := by
      rw [Int.add_assoc, isLeap_add_era, Int.natCast_add, Int.natCast_one]
    have hbefore : daysBefore 11 = 337 := rfl
    rw [daysInYear, hbefore] at hyear
    rw [if_neg (by decide), if_neg (by decide), daysInMonth, if_pos rfl, hleap]
    split at hyear <;> rename_i hyes
    · rw [if_pos hyes]
      omega
    · rw [if_neg hyes]
      omega

/-- Every day has a date of the calendar. -/
theorem ofDayNumber_isValid
    (n : Int) :
    (ofDayNumber n).IsValid := by
  obtain ⟨era, year, month, day, h⟩ := exists_parts n
  have hday := h.day_lt_daysInMonth
  have hmonth := h.month_lt
  rw [h.date]
  split
  · rename_i hspring
    rw [if_pos hspring, if_pos hspring] at hday
    exact ⟨Nat.le_add_left _ _, by dsimp only; omega, Nat.le_add_left _ _, hday⟩
  · rename_i hwinter
    rw [if_neg hwinter, if_neg hwinter] at hday
    exact ⟨by dsimp only; omega, by dsimp only; omega, Nat.le_add_left _ _, hday⟩

/-- The date of a day tells the day. -/
theorem dayNumber_ofDayNumber
    (n : Int) :
    (ofDayNumber n).dayNumber = n := by
  obtain ⟨era, year, month, day, h⟩ := exists_parts n
  have hyear := h.year_lt
  have hmonth := h.month_lt
  have hsum := h.sum
  have hera : (era * 400 + year) / 400 = era ∧ (era * 400 + year) % 400 = year := by omega
  have hyears : ((year * 365 + year / 4 - year / 100 : Int)) = (daysBeforeYear year : Nat) := by
    rw [daysBeforeYear]
    omega
  rw [h.date]
  split
  · rw [dayNumber]
    dsimp only
    rw [if_neg (by omega), if_neg (by omega), hera.1, hera.2, hyears, Nat.add_sub_cancel]
    omega
  · rw [dayNumber]
    dsimp only
    rw [if_pos (by omega), if_pos (by omega), Int.add_sub_cancel, hera.1, hera.2, hyears,
      Nat.sub_add_cancel (by omega)]
    omega

end Date
end Provision
