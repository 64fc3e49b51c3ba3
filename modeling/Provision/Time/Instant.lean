import Provision.Number.Power
import Provision.Time.Calendar
import Provision.Text.Blank

/-!
# Instants

Input:
* a point in time, as a day and the time of that day in universal time, or its written form.

Algorithm:
* the written form is a date, a `T`, a time of day and `Z`; the fraction of a second has as many
  groups of three digits as it needs;
* a form that is read may leave out leading zeros, have blanks between its parts, and tell its
  distance from universal time in hours and minutes.

Results:
* `Instant.text` writes an instant, `Instant.ofText` reads one or tells why it cannot.
-/

namespace Provision

structure Instant where
  /-- Days since 1 January 1970. -/
  day : Int
  /-- Seconds since the start of the day. -/
  second : Nat
  /-- Billionths of a second; a whole second more within a leap second. -/
  nanos : Nat
  deriving DecidableEq, Inhabited

inductive TimeFault where
  | outOfRange
  | invalid
  | tooShort
  | tooLong
  deriving DecidableEq, Inhabited

def TimeFault.message : TimeFault → String
  | .outOfRange => "input is out of range"
  | .invalid => "input contains invalid characters"
  | .tooShort => "premature end of input"
  | .tooLong => "trailing input"

namespace Instant

/-- A number with at least `width` digits. -/
def padded (width n : Nat) : String :=
  let digits := toString n
  String.ofList (List.replicate (width - digits.length) '0') ++ digits

/-- The written form of a year; one that has not four digits has a sign. -/
def yearText (year : Int) : String :=
  if 0 ≤ year ∧ year ≤ 9999 then padded 4 year.toNat
  else (if year < 0 then "-" else "+") ++ padded 4 year.natAbs

/-- The written form of a fraction of a second. -/
def fractionText (nanos : Nat) : String :=
  if nanos = 0 then ""
  else if nanos % 1000000 = 0 then "." ++ padded 3 (nanos / 1000000)
  else if nanos % 1000 = 0 then "." ++ padded 6 (nanos / 1000)
  else "." ++ padded 9 nanos

def text (t : Instant) : String :=
  let date := Date.ofDayNumber t.day
  let leap := if 1000000000 ≤ t.nanos then 1 else 0
  yearText date.year ++ "-" ++ padded 2 date.month ++ "-" ++ padded 2 date.day ++ "T" ++
    padded 2 (t.second / 3600) ++ ":" ++ padded 2 (t.second / 60 % 60) ++ ":" ++
    padded 2 (t.second % 60 + leap) ++ fractionText (t.nanos % 1000000000) ++ "Z"

def value (digits : List Char) : Nat :=
  digits.foldl (fun n c => n * 10 + (c.toNat - '0'.toNat)) 0

/-- Reads a number of at most `width` digits. -/
def readNumber (width : Nat) (cs : List Char) : Except TimeFault (List Char × List Char) :=
  let digits := (cs.take width).takeWhile Char.isDigit
  if cs.isEmpty then .error .tooShort
  else if digits.isEmpty then .error .invalid
  else .ok (digits, cs.drop digits.length)

/-- Reads a number between two bounds, after blanks. -/
def readField (low high : Nat) (cs : List Char) : Except TimeFault (Nat × List Char) := do
  let (digits, rest) ← readNumber 2 (Text.dropBlanks cs)
  if low ≤ value digits ∧ value digits ≤ high then return (value digits, rest)
  else .error .outOfRange

/-- Reads a year, which may have a sign, after blanks. -/
def readYear (cs : List Char) : Except TimeFault (Int × List Char) :=
  match Text.dropBlanks cs with
  | '-' :: rest => (readNumber rest.length rest).map fun r => (-(value r.1 : Int), r.2)
  | '+' :: rest => (readNumber rest.length rest).map fun r => ((value r.1 : Int), r.2)
  | rest => (readNumber 4 rest).map fun r => ((value r.1 : Int), r.2)

def readMark (mark : Char) (cs : List Char) : Except TimeFault (List Char) :=
  match Text.dropBlanks cs with
  | [] => .error .tooShort
  | c :: rest => if c = mark then .ok rest else .error .invalid

/-- Reads the mark between a date and a time of day. -/
def readDivider : List Char → Except TimeFault (List Char)
  | [] => .error .tooShort
  | c :: rest => if c = 'T' || c = 't' || c = ' ' then .ok rest else .error .invalid

/-- Reads a fraction of a second, if there is one; digits after the ninth do not count. -/
def readFraction : List Char → Except TimeFault (Nat × List Char)
  | '.' :: rest => do
    let (digits, rest) ← readNumber 9 rest
    return (value digits * Number.tenTo (9 - digits.length), rest.dropWhile Char.isDigit)
  | rest => .ok (0, rest)

/-- Reads two digits, the first of which is at most `high`. -/
def readPair (high : Char) : List Char → Except TimeFault (Nat × List Char)
  | [] => .error .tooShort
  | [c] => .error (if c.toNat < 0x80 then .tooShort else .invalid)
  | a :: b :: rest =>
    if a.isDigit && b.isDigit then
      if a ≤ high then .ok (value [a, b], rest) else .error .outOfRange
    else .error .invalid

/-- Reads a distance from universal time in seconds. -/
def readOffset (cs : List Char) : Except TimeFault (Int × List Char) :=
  match cs with
  | [] => .error .tooShort
  | c :: rest =>
    if c = 'Z' || c = 'z' then .ok (0, rest)
    else if (cs.take 3).map Char.toLower = ['u', 't', 'c'] then .ok (0, cs.drop 3)
    else if c = '+' || c = '-' || c = '−' then do
      let (hours, rest) ← readPair '9' rest
      let (minutes, rest) ← readPair '5' (rest.dropWhile fun c => c = ':' || Text.isBlank c)
      let seconds : Int := hours * 3600 + minutes * 60
      return (if c = '+' then seconds else -seconds, rest)
    else .error .invalid

def isCounted (year : Int) : Bool := -262143 ≤ year && year ≤ 262142

def ofText (s : String) : Except TimeFault Instant := do
  let (year, rest) ← readYear s.toList
  let (month, rest) ← readField 1 12 (← readMark '-' rest)
  let (day, rest) ← readField 1 31 (← readMark '-' rest)
  let (hour, rest) ← readField 0 23 (← readDivider rest)
  let (minute, rest) ← readField 0 59 (← readMark ':' rest)
  let (second, rest) ← readField 0 60 (← readMark ':' rest)
  let (fraction, rest) ← readFraction rest
  let (offset, rest) ← readOffset (Text.dropBlanks rest)
  if !(Text.dropBlanks rest).isEmpty then .error .tooLong
  else if !isCounted year || Date.daysInMonth year month < day || 86400 ≤ offset.natAbs then
    .error .outOfRange
  else
    let ofDay : Int := hour * 3600 + minute * 60 + min second 59 - offset
    return ⟨Date.dayNumber ⟨year, month, day⟩ + ofDay / 86400, (ofDay % 86400).toNat,
      fraction + (if second = 60 then 1000000000 else 0)⟩

end Instant
end Provision
