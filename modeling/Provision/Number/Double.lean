import Provision.Number.Rounding

/-!
# Double-precision numbers

Input:
* the 64 bits of a binary floating-point number, or a quotient of natural numbers to approximate.

Algorithm:
* one sign bit, eleven exponent bits and fifty-two fraction bits encode `± m · 2 ^ q`;
* a quotient is encoded by the nearest such number, and by an infinity beyond the largest one;
* a product and a quotient of two numbers are the exact ones, rounded once.

Results:
* `Double.magnitude` gives `m` and `q`, and `Double.ofRatio` rounds into the format. All of it is
  arithmetic of natural numbers, so that statements about numbers can be computed.
-/

namespace Provision

/-- A double-precision number, given by its bits. -/
structure Double where
  bits : UInt64
  deriving DecidableEq, Inhabited

namespace Double

/-- Fifty-three binary digits, the finest grid at `2 ^ -1074`. -/
def precision : Number.Precision := ⟨53, -1074⟩

def isNegative (x : Double) : Bool :=
  Number.twoTo 63 ≤ x.bits.toNat

def exponentField (x : Double) : Nat :=
  x.bits.toNat / Number.twoTo 52 % Number.twoTo 11

def fractionField (x : Double) : Nat :=
  x.bits.toNat % Number.twoTo 52

/-- Whether the number is neither infinite nor undefined. -/
def isFinite (x : Double) : Bool :=
  x.exponentField != 2047

/-- The factors `m` and `q` of the absolute value `m · 2 ^ q` of a finite number. -/
def magnitude (x : Double) : Nat × Int :=
  match x.exponentField with
  | 0 => (x.fractionField, -1074)
  | e + 1 => (x.fractionField + Number.twoTo 52, (e : Int) - 1074)

def encodeMagnitude (m : Nat) (e : Int) : Nat :=
  if m < Number.twoTo 52 then m
  else min ((e + 1075).toNat * Number.twoTo 52 + (m - Number.twoTo 52)) (2047 * Number.twoTo 52)

/-- The number with the given sign and bits of the absolute value. -/
def ofSign (negative : Bool) (magnitude : Nat) : Double :=
  ⟨UInt64.ofNat ((if negative then Number.twoTo 63 else 0) + magnitude)⟩

/-- The number nearest to a quotient, with a sign. -/
def ofRatio (negative : Bool) (num den : Nat) : Double :=
  if num = 0 ∨ den = 0 then ofSign negative 0
  else
    let r := Number.roundTo precision num den
    ofSign negative (encodeMagnitude r.1 r.2)

def ofInt (i : Int) : Double :=
  ofRatio (i < 0) i.natAbs 1

/-- The number nearest to `± m · 10 ^ e`. An exponent beyond every number of the format is cut
before the power is computed. -/
def ofDecimal (negative : Bool) (m : Nat) (e : Int) : Double :=
  let places : Int := (Nat.toDigits 10 m).length
  if m = 0 ∨ e + places < -400 then ofSign negative 0
  else if 400 < e + places then ofSign negative (2047 * Number.twoTo 52)
  else ofRatio negative (m * Number.tenTo e.toNat) (Number.tenTo (-e).toNat)

/-- The absolute value of a finite number as a quotient. -/
def ratio (x : Double) : Nat × Nat :=
  (x.magnitude.1 * Number.twoTo x.magnitude.2.toNat, Number.twoTo (-x.magnitude.2).toNat)

/-- The product of two finite numbers, rounded. -/
def mul (x y : Double) : Double :=
  ofRatio (x.isNegative != y.isNegative) (x.ratio.1 * y.ratio.1) (x.ratio.2 * y.ratio.2)

/-- The quotient of two finite numbers, rounded. -/
def div (x y : Double) : Double :=
  ofRatio (x.isNegative != y.isNegative) (x.ratio.1 * y.ratio.2) (x.ratio.2 * y.ratio.1)

def neg (x : Double) : Double :=
  ofSign (!x.isNegative) (x.bits.toNat % Number.twoTo 63)

/-- Twenty-four binary digits, the finest grid at `2 ^ -149`. -/
def singlePrecision : Number.Precision := ⟨24, -149⟩

/-- The number nearest to a quotient among those of single precision. -/
def ofRatioSingle (negative : Bool) (num den : Nat) : Double :=
  if num = 0 ∨ den = 0 then ofSign negative 0
  else
    let r := Number.roundTo singlePrecision num den
    if Number.twoTo 128 ≤ r.1 * Number.twoTo r.2.toNat then ofSign negative (2047 * Number.twoTo 52)
    else ofRatio negative (r.1 * Number.twoTo r.2.toNat) (Number.twoTo (-r.2).toNat)

/-- The nearest number of single precision; an infinity stays one. -/
def toSingle (x : Double) : Double :=
  if x.isFinite then ofRatioSingle x.isNegative x.ratio.1 x.ratio.2 else x

end Double
end Provision
