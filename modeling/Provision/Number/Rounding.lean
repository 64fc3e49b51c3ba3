import Provision.Number.Power

/-!
# Rounding a quotient to a binary grid

Input:
* a quotient of natural numbers and a precision: how many binary digits are kept and which power of
  two is the finest grid.

Algorithm:
* the grid is the power of two at which the quotient has exactly that many binary digits, but never
  finer than the finest one;
* the quotient is rounded to the nearest multiple of the grid, a half to the even multiple.

Results:
* `roundHalfEven` is within half a unit of the quotient (`roundHalfEven_bounds`).
-/

namespace Provision
namespace Number

/-- The integer nearest to `num / den`; a half goes to the even neighbour. -/
def roundHalfEven (num den : Nat) : Nat :=
  let q := num / den
  let r := num % den
  if den < 2 * r ∨ (2 * r = den ∧ q % 2 = 1) then q + 1 else q

/-- Rounding moves a quotient by at most half a unit. -/
theorem roundHalfEven_bounds
    (num den : Nat)
    (h : 0 < den) :
    2 * num ≤ (2 * roundHalfEven num den + 1) * den ∧
      2 * roundHalfEven num den * den ≤ 2 * num + den := by
  have hdiv := Nat.div_add_mod num den
  have hmod := Nat.mod_lt num h
  simp only [roundHalfEven]
  generalize num / den = q at *
  generalize num % den = r at *
  have hq : den * q = q * den := Nat.mul_comm den q
  split <;> constructor <;> simp only [Nat.add_mul, Nat.mul_add, Nat.mul_assoc] <;> omega

/-- How fine a binary number format is. -/
structure Precision where
  /-- Number of binary digits that are kept. -/
  digits : Nat
  /-- Exponent of the finest grid. -/
  finest : Int

/-- The exponent of the highest binary digit of a positive quotient. -/
def highestPlace (num den : Nat) : Int :=
  let guess : Int := (num.log2 : Int) - den.log2
  if den * twoTo guess.toNat ≤ num * twoTo (-guess).toNat then guess else guess - 1

/-- A quotient rounded to the grid of a precision, as a multiple and the exponent of the grid. -/
def roundTo (p : Precision) (num den : Nat) : Nat × Int :=
  let e := max p.finest (highestPlace num den - (p.digits - 1))
  (roundHalfEven (num * twoTo (-e).toNat) (den * twoTo e.toNat), e)

end Number
end Provision
