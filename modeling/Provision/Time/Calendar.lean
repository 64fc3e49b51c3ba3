/-!
# Calendar

Input:
* years, months and days of the Gregorian calendar, before its introduction too.

Algorithm:
* a year is counted from March on, so that a leap day is its last day; 400 such years have 146097
  days.

Results:
* `dayNumber` counts the days since 1 January 1970, and `ofDayNumber` gives the date of a day.
-/

namespace Provision

structure Date where
  year : Int
  month : Nat
  day : Nat
  deriving DecidableEq, Inhabited

namespace Date

/-- Whether a year has a leap day. -/
def isLeap (year : Int) : Bool :=
  year % 4 = 0 && (year % 100 != 0 || year % 400 = 0)

/-- The number of days of a month. -/
def daysInMonth (year : Int) (month : Nat) : Nat :=
  if month = 2 then (if isLeap year then 29 else 28)
  else if month = 4 ∨ month = 6 ∨ month = 9 ∨ month = 11 then 30
  else 31

/-- The days of a year counted from March on that lie before a month. -/
def daysBefore (month : Nat) : Nat := (153 * month + 2) / 5

/-- The number of days since 1 January 1970. -/
def dayNumber (d : Date) : Int :=
  let year := if d.month ≤ 2 then d.year - 1 else d.year
  let month := if d.month ≤ 2 then d.month + 9 else d.month - 3
  let era := year / 400
  let yearOfEra := year % 400
  let dayOfYear : Int := daysBefore month + d.day - 1
  era * 146097 + (yearOfEra * 365 + yearOfEra / 4 - yearOfEra / 100 + dayOfYear) - 719468

/-- The date of the day with a number. -/
def ofDayNumber (n : Int) : Date :=
  let shifted := n + 719468
  let era := shifted / 146097
  let dayOfEra := (shifted % 146097).toNat
  let yearOfEra := (dayOfEra - dayOfEra / 1460 + dayOfEra / 36524 - dayOfEra / 146096) / 365
  let dayOfYear := dayOfEra - (365 * yearOfEra + yearOfEra / 4 - yearOfEra / 100)
  let month := (5 * dayOfYear + 2) / 153
  let day := dayOfYear - daysBefore month + 1
  let year := era * 400 + yearOfEra
  if month < 10 then ⟨year, month + 3, day⟩ else ⟨year + 1, month - 9, day⟩

end Date
end Provision
