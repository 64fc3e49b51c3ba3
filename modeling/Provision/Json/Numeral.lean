import Provision.Json.Fault
import Provision.Tree

/-!
# Numerals of JSON

Input:
* the characters that follow the sign of a numeral.

Algorithm:
* digits are collected into a natural number below `2 ^ 64`; once the next digit does not fit, the
  remaining digits before the point only raise the exponent, and those after it are skipped;
* without point and exponent the numeral is an integer if its range admits it, otherwise the
  significand is scaled by powers of ten, one rounding for each step.

Results:
* `readNumeral negative cs` is the number and the text after it.
-/

namespace Provision
namespace Json

/-- One step of reading: a value and the text after it. -/
abbrev Step (α : Type) := Except Failure (α × List Char)

def largestWord : Nat := Number.twoTo 64 - 1

def digitValue (c : Char) : Nat := c.toNat - '0'.toNat

/-- Collects digits while the number fits a word: the number, how many digits were taken, and the
text from the first digit that did not fit or the first character that is no digit. -/
def collectDigits (n taken : Nat) : List Char → Nat × Nat × List Char
  | [] => (n, taken, [])
  | c :: rest =>
    if c.isDigit && n * 10 + digitValue c ≤ largestWord then
      collectDigits (n * 10 + digitValue c) (taken + 1) rest
    else (n, taken, c :: rest)

/-- Scales a number by a power of ten, at most `10 ^ 308` in one step. -/
def scaleSteps : Nat → Double → Int → Option Double
  | 0, x, _ => some x
  | fuel + 1, x, e =>
    if e.natAbs ≤ 308 then
      if 0 ≤ e then
        let y := x.mul (Double.ofDecimal false 1 e)
        if y.isFinite then some y else none
      else some (x.div (Double.ofDecimal false 1 (-e)))
    else if x.magnitude.1 = 0 then some x
    else if 0 ≤ e then none
    else scaleSteps fuel (x.div (Double.ofDecimal false 1 308)) (e + 308)

/-- The number with a significand and a decimal exponent; none beyond the largest number. After
four steps of `10 ^ 308` every significand has become zero. -/
def scale (negative : Bool) (significand : Nat) (e : Int) : Option Double :=
  (scaleSteps 4 (Double.ofInt significand) e).map fun x => if negative then x.neg else x

/-- Ends a numeral that has a point or an exponent. -/
def finishDecimal (negative : Bool) (significand : Nat) (e : Int) (rest : List Char) :
    Step Number :=
  match scale negative significand e with
  | some x => .ok (.decimal x, rest)
  | none => .error ⟨.numberOutOfRange, rest, 0⟩

def largestExponent : Nat := Number.twoTo 31 - 1

/-- Collects the digits of an exponent: its value, or none with the text after the digit at which
it became too large. -/
def collectExponent (n : Nat) : List Char → Option Nat × List Char
  | [] => (some n, [])
  | c :: rest =>
    if c.isDigit then
      if n * 10 + digitValue c ≤ largestExponent then
        collectExponent (n * 10 + digitValue c) rest
      else (none, rest)
    else (some n, c :: rest)

/-- Brings an exponent into the range of a 32-bit integer. -/
def clampExponent (e : Int) : Int :=
  max (-2147483648) (min 2147483647 e)

/-- Reads what follows the letter of an exponent. -/
def readExponent (negative : Bool) (significand : Nat) (start : Int) (cs : List Char) :
    Step Number :=
  let (negativeExponent, cs) :=
    match cs with
    | '+' :: rest => (false, rest)
    | '-' :: rest => (true, rest)
    | _ => (false, cs)
  match cs with
  | [] => .error ⟨.unfinishedValue, [], 0⟩
  | c :: rest =>
    if c.isDigit then
      match collectExponent (digitValue c) rest with
      | (some e, rest) =>
        let shift : Int := if negativeExponent then -(e : Int) else e
        finishDecimal negative significand (clampExponent (start + shift)) rest
      | (none, rest) =>
        if significand != 0 && !negativeExponent then .error ⟨.numberOutOfRange, rest, 0⟩
        else .ok (.decimal (Double.ofSign negative 0), rest.dropWhile Char.isDigit)
    else .error ⟨.invalidNumber, c :: rest, 1⟩

/-- Reads what follows the point of a numeral. -/
def readFraction (negative : Bool) (significand : Nat) (start : Int) (cs : List Char) :
    Step Number :=
  match collectDigits significand 0 cs with
  | (n, taken, rest) =>
    let beyond := rest.takeWhile Char.isDigit
    let rest := rest.dropWhile Char.isDigit
    if taken = 0 && beyond.isEmpty then
      match rest with
      | [] => .error ⟨.unfinishedValue, [], 0⟩
      | _ => .error ⟨.invalidNumber, rest, 1⟩
    else
      let e := start - taken
      match rest with
      | 'e' :: r => readExponent negative n e r
      | 'E' :: r => readExponent negative n e r
      | _ => finishDecimal negative n e rest

/-- The number written without point and exponent. -/
def integerOf (negative : Bool) (n : Nat) : Number :=
  if negative then
    if n = 0 ∨ Number.twoTo 63 < n then .decimal (Double.ofInt n).neg else .integer (-(n : Int))
  else .integer n

/-- Reads what follows the digits before the point; `dropped` counts those that did not fit. -/
def readTail (negative : Bool) (significand dropped : Nat) (rest : List Char) : Step Number :=
  match rest with
  | '.' :: r => readFraction negative significand dropped r
  | 'e' :: r => readExponent negative significand dropped r
  | 'E' :: r => readExponent negative significand dropped r
  | _ =>
    if dropped = 0 then .ok (integerOf negative significand, rest)
    else finishDecimal negative significand dropped rest

def readNumeral (negative : Bool) (cs : List Char) : Step Number :=
  match cs with
  | [] => .error ⟨.unfinishedValue, [], 0⟩
  | c :: rest =>
    if c = '0' then
      match rest with
      | d :: _ =>
        if d.isDigit then .error ⟨.invalidNumber, rest, 1⟩ else readTail negative 0 0 rest
      | [] => readTail negative 0 0 rest
    else if c.isDigit then
      match collectDigits 0 0 cs with
      | (n, _, rest) =>
        readTail negative n (rest.takeWhile Char.isDigit).length (rest.dropWhile Char.isDigit)
    else .error ⟨.invalidNumber, cs, 1⟩

end Json
end Provision
