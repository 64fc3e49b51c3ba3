import Provision.Number.Double

/-!
# Shortest decimal digits of a double-precision number

Input:
* a finite number other than zero.

Algorithm:
* the reals that are read back as the number form an interval around it, whose ends belong to it
  when the fraction is even;
* from the coarsest power of ten downward, the two neighbours of the number among the multiples of
  that power are tested; the first power with a neighbour inside the interval is taken, and of two
  neighbours the nearer one.

Results:
* `shortestDecimal x` is a pair `(d, k)` with `d · 10 ^ k` read back as `x` and no shorter digits.
-/

namespace Provision
namespace Double

/-- The interval of a number in units of a quarter of its last place: the number, both ends, and
whether the ends belong to the interval. -/
structure Interval where
  centre : Nat
  low : Nat
  high : Nat
  closed : Bool
  /-- Exponent of two of the unit. -/
  unit : Int

/-- The reals that are read back as a given number. -/
def interval (x : Double) : Interval :=
  let m := x.magnitude.1
  let q := x.magnitude.2
  let low := if m = Number.twoTo 52 ∧ -1074 < q then 4 * m - 1 else 4 * m - 2
  ⟨4 * m, low, 4 * m + 2, m % 2 = 0, q - 2⟩

/-- Whether `d · den` lies between the ends of the interval scaled by `num`. -/
def Interval.holds (v : Interval) (num den d : Nat) : Bool :=
  if v.closed then v.low * num ≤ d * den && d * den ≤ v.high * num
  else v.low * num < d * den && d * den < v.high * num

/-- The multiple of `10 ^ k` inside the interval that is nearest to the number. -/
def onGrid? (v : Interval) (k : Int) : Option Nat :=
  let num := Number.twoTo v.unit.toNat * Number.tenTo (-k).toNat
  let den := Number.twoTo (-v.unit).toNat * Number.tenTo k.toNat
  let below := v.centre * num / den
  let rest := v.centre * num % den
  let inBelow := below != 0 && v.holds num den below
  let inAbove := v.holds num den (below + 1)
  if inBelow && inAbove then
    some (if 2 * rest < den ∨ (2 * rest = den ∧ below % 2 = 0) then below else below + 1)
  else if inBelow then some below
  else if inAbove then some (below + 1)
  else none

/-- Tests the powers of ten from `k` downward, at most `n` of them. -/
def searchGrid (v : Interval) : Nat → Int → Nat × Int
  | 0, k => (v.centre, k)
  | n + 1, k =>
    match onGrid? v k with
    | some d => (d, k)
    | none => searchGrid v n (k - 1)

/-- An exponent of ten that is at least that of the leading digit. -/
def leadingPlace (x : Double) : Int :=
  let top : Int := (x.magnitude.1.log2 : Int) + x.magnitude.2
  top * 30103 / 100000 + 1

/-- The shortest decimal `d · 10 ^ k` that is read back as the number. -/
def shortestDecimal (x : Double) : Nat × Int :=
  searchGrid x.interval 24 x.leadingPlace

end Double
end Provision
