import Provision.Number.Shortest

/-!
# Decimal text of numbers

Input:
* a double-precision number and a layout: which decimal exponents are written with a plain point,
  and how a positive exponent is marked.

Algorithm:
* the shortest digits are written with a point, at least one digit on both sides of it, or with one
  digit before the point and an exponent.

Results:
* `Double.text` is the form used for values, `Double.markupText` the one of the indented form and
  `Double.plainText` the one of messages.
-/

namespace Provision

/-- How the digits of a number are laid out. -/
structure Layout where
  /-- Whether a number whose leading digit stands for `10 ^ e` is written without exponent. -/
  isPositional : Int → Bool
  /-- What stands between `e` and a positive exponent. -/
  positiveMark : String

namespace Layout

/-- Values are positional from `1e-5` up to, but without, `1e16`; positive exponents have a sign. -/
def value : Layout := ⟨fun e => -5 ≤ e && e < 16, "+"⟩

/-- The indented form differs from values in its positive exponents, which have no sign. -/
def markup : Layout := ⟨fun e => -5 ≤ e && e < 16, ""⟩

def message : Layout := ⟨fun _ => true, ""⟩

end Layout

namespace Double

def zeros (n : Nat) : String :=
  String.ofList (List.replicate n '0')

/-- Digits with a point; `point` counts the digits before it and may be outside the digits. -/
def positional (digits : List Char) (point : Int) : String :=
  if point ≤ 0 then
    "0." ++ zeros (-point).toNat ++ String.ofList digits
  else if (digits.length : Int) ≤ point then
    String.ofList digits ++ zeros (point - digits.length).toNat ++ ".0"
  else
    String.ofList (digits.take point.toNat) ++ "." ++ String.ofList (digits.drop point.toNat)

/-- Digits with an exponent; the point follows the first digit and is left out after a single
one. -/
def scientific (l : Layout) (digits : List Char) (e : Int) : String :=
  let fraction := digits.drop 1
  String.ofList (digits.take 1) ++
    (if fraction.isEmpty then "" else "." ++ String.ofList fraction) ++
    "e" ++ (if e < 0 then "-" else l.positiveMark) ++ toString e.natAbs

/-- The text of a finite number in a layout. -/
def textIn (l : Layout) (x : Double) : String :=
  let sign := if x.isNegative then "-" else ""
  if x.magnitude.1 = 0 then sign ++ "0.0"
  else
    let d := x.shortestDecimal
    let digits := Nat.toDigits 10 d.1
    let e : Int := digits.length + d.2 - 1
    sign ++ if l.isPositional e then positional digits (e + 1) else scientific l digits e

/-- The text of a number as a value. -/
def text (x : Double) : String :=
  x.textIn Layout.value

/-- The text of a number in the indented form. -/
def markupText (x : Double) : String :=
  x.textIn Layout.markup

/-- The text of a number in messages; a number that is not finite is named. -/
def plainText (x : Double) : String :=
  if x.isFinite then x.textIn Layout.message
  else if x.fractionField != 0 then "NaN"
  else if x.isNegative then "-inf" else "inf"

end Double
end Provision
