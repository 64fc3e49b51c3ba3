import Provision.Number.Double

/-!
# Finite numbers

A quotient below `2 ^ 1023` is rounded to a finite number.  Its highest binary digit is at most at
place `1022`, so the grid it is rounded to is at most `2 ^ 970`, and at most fifty-three digits and a
carry are kept.  Dividing a finite number by two or more stays below that bound.

**Results.**
* `Number.highestPlace_lower`, `Number.highestPlace_upper`: the highest digit of a quotient.
* `Double.ofRatio_isFinite`: quotients below the bound have finite approximations.
* `Double.div_isFinite`: so has the quotient of a finite number and a divisor of two or more.
-/

namespace Provision
namespace Number

theorem twoTo_add
    (a b : Nat) :
    twoTo (a + b) = twoTo a * twoTo b :=
  Nat.pow_add 2 a b

theorem twoTo_le_twoTo
    {a b : Nat}
    (h : a ≤ b) :
    twoTo a ≤ twoTo b :=
  Nat.pow_le_pow_right (by omega) h

theorem twoTo_log2_le
    {n : Nat}
    (h : n ≠ 0) :
    twoTo n.log2 ≤ n :=
  Nat.log2_self_le h

theorem lt_twoTo_log2
    (n : Nat) :
    n < twoTo (n.log2 + 1) :=
  Nat.lt_log2_self

/-- A comparison with a power of two holds for greater powers as well. -/
theorem shift_lt
    {num den a b a' b' : Nat}
    (h : num * twoTo b < den * twoTo a)
    (hab : a + b' ≤ a' + b) :
    num * twoTo b' < den * twoTo a' := by
  have hscaled : num * twoTo b' * twoTo b < den * twoTo a' * twoTo b := by
    calc num * twoTo b' * twoTo b
        = num * twoTo b * twoTo b' := Nat.mul_right_comm _ _ _
      _ < den * twoTo a * twoTo b' := Nat.mul_lt_mul_of_pos_right h (twoTo_pos b')
      _ = den * twoTo (a + b') := by rw [twoTo_add, Nat.mul_assoc]
      _ ≤ den * twoTo (a' + b) := Nat.mul_le_mul_left den (twoTo_le_twoTo hab)
      _ = den * twoTo a' * twoTo b := by rw [twoTo_add, Nat.mul_assoc]
  exact Nat.lt_of_mul_lt_mul_right hscaled

/-- The highest digit of a quotient does not exceed it. -/
theorem highestPlace_lower
    {num den : Nat}
    (hnum : num ≠ 0) :
    den * twoTo (highestPlace num den).toNat ≤ num * twoTo (-highestPlace num den).toNat := by
  unfold highestPlace
  dsimp only
  split
  · assumption
  · calc den * twoTo ((num.log2 : Int) - den.log2 - 1).toNat
        ≤ twoTo (den.log2 + 1) * twoTo ((num.log2 : Int) - den.log2 - 1).toNat :=
          Nat.mul_le_mul_right _ (Nat.le_of_lt (lt_twoTo_log2 den))
      _ = twoTo (den.log2 + 1 + ((num.log2 : Int) - den.log2 - 1).toNat) := (twoTo_add _ _).symm
      _ ≤ twoTo (num.log2 + (-((num.log2 : Int) - den.log2 - 1)).toNat) :=
          twoTo_le_twoTo (by omega)
      _ = twoTo num.log2 * twoTo (-((num.log2 : Int) - den.log2 - 1)).toNat := twoTo_add _ _
      _ ≤ num * twoTo (-((num.log2 : Int) - den.log2 - 1)).toNat :=
          Nat.mul_le_mul_right _ (twoTo_log2_le hnum)

/-- A quotient lies below the place above its highest digit. -/
theorem highestPlace_upper
    {num den : Nat}
    (hden : den ≠ 0) :
    num * twoTo (-(highestPlace num den + 1)).toNat <
      den * twoTo (highestPlace num den + 1).toNat := by
  unfold highestPlace
  dsimp only
  split
  · have hlogs : num * twoTo den.log2 < den * twoTo (num.log2 + 1) := by
      calc num * twoTo den.log2
          < twoTo (num.log2 + 1) * twoTo den.log2 :=
            Nat.mul_lt_mul_of_pos_right (lt_twoTo_log2 num) (twoTo_pos _)
        _ ≤ twoTo (num.log2 + 1) * den := Nat.mul_le_mul_left _ (twoTo_log2_le hden)
        _ = den * twoTo (num.log2 + 1) := Nat.mul_comm _ _
    exact shift_lt hlogs (by omega)
  · rename_i hnot
    rw [Int.sub_add_cancel]
    exact Nat.lt_of_not_le hnot

/-- A quotient below a bound has its highest digit below the place of the bound. -/
theorem highestPlace_lt
    {num den n : Nat}
    (hnum : num ≠ 0)
    (h : num < den * twoTo n) :
    highestPlace num den < n := by
  by_cases hplace : highestPlace num den < n
  · exact hplace
  · have hlower : den * twoTo (highestPlace num den).toNat ≤
        num * twoTo (-highestPlace num den).toNat := highestPlace_lower hnum
    have hzero : (-highestPlace num den).toNat = 0 := by omega
    have hbound : den * twoTo n ≤ den * twoTo (highestPlace num den).toNat :=
      Nat.mul_le_mul_left den (twoTo_le_twoTo (by omega))
    rw [hzero, twoTo_zero, Nat.mul_one] at hlower
    omega

/-- Rounding does not exceed an integer that the quotient does not exceed. -/
theorem roundHalfEven_le
    {num den k : Nat}
    (hden : 0 < den)
    (h : num ≤ k * den) :
    roundHalfEven num den ≤ k := by
  have hround := (roundHalfEven_bounds num den hden).2
  have hscaled : 2 * roundHalfEven num den * den ≤ (2 * k + 1) * den := by
    rw [Nat.add_mul, Nat.one_mul, Nat.mul_assoc 2 k den]
    omega
  have hle := Nat.le_of_mul_le_mul_right hscaled hden
  omega

/-- As many digits are kept as the precision says, or a power of two after a carry. -/
theorem roundTo_digits_le
    {p : Precision}
    {num den : Nat}
    (hden : den ≠ 0) :
    (roundTo p num den).1 ≤ twoTo p.digits := by
  simp only [roundTo]
  generalize he : max p.finest (highestPlace num den - (p.digits - 1)) = e
  have hupper : num * twoTo (-e).toNat < den * twoTo (e.toNat + p.digits) :=
    shift_lt (highestPlace_upper hden) (by omega)
  refine roundHalfEven_le (Nat.mul_pos (Nat.pos_of_ne_zero hden) (twoTo_pos _)) ?_
  rw [twoTo_add, ← Nat.mul_assoc, Nat.mul_comm _ (twoTo p.digits)] at hupper
  exact Nat.le_of_lt hupper

end Number

namespace Double

open Number (twoTo twoTo_pos twoTo_add twoTo_le_twoTo)

/-- A magnitude below the bits of the infinities encodes a finite number. -/
theorem ofSign_isFinite
    {negative : Bool}
    {magnitude : Nat}
    (h : magnitude < 2047 * twoTo 52) :
    (ofSign negative magnitude).isFinite = true := by
  have hexponent : (ofSign negative magnitude).exponentField < 2047 := by
    have h52 : twoTo 52 = 4503599627370496 := rfl
    have h11 : twoTo 11 = 2048 := rfl
    have h63 : twoTo 63 = 9223372036854775808 := rfl
    simp only [exponentField, ofSign, UInt64.toNat_ofNat', h11, h52] at h ⊢
    cases negative <;> simp only [h63, if_true, Bool.false_eq_true, if_false] <;> omega
  simp only [isFinite, bne_iff_ne, ne_eq]
  omega

theorem encodeMagnitude_lt
    {m : Nat}
    {e : Int}
    (hm : m ≤ twoTo 53)
    (he : e ≤ 970) :
    encodeMagnitude m e < 2047 * twoTo 52 := by
  have h52 : twoTo 52 = 4503599627370496 := rfl
  have h53 : twoTo 53 = 9007199254740992 := rfl
  simp only [encodeMagnitude, h52, h53] at hm ⊢
  split <;> omega

/-- A quotient below `2 ^ 1023` has a finite approximation. -/
theorem ofRatio_isFinite
    {negative : Bool}
    {num den : Nat}
    (h : num < den * twoTo 1023) :
    (ofRatio negative num den).isFinite = true := by
  unfold ofRatio
  split
  · exact ofSign_isFinite (Nat.mul_pos (by omega) (twoTo_pos 52))
  · rename_i hpositive
    obtain ⟨hnum, hden⟩ := not_or.mp hpositive
    have hplace := Number.highestPlace_lt hnum h
    refine ofSign_isFinite (encodeMagnitude_lt (Number.roundTo_digits_le hden) ?_)
    simp only [Number.roundTo, precision]
    omega

/-- Every integer of 65 bits has a finite approximation. -/
theorem ofInt_isFinite
    {i : Int}
    (h : i.natAbs < twoTo 65) :
    (ofInt i).isFinite = true := by
  refine ofRatio_isFinite ?_
  rw [Nat.one_mul]
  exact Nat.lt_of_lt_of_le h (twoTo_le_twoTo (by omega))

theorem neg_isFinite
    {x : Double}
    (h : x.isFinite = true) :
    x.neg.isFinite = true := by
  have h52 : twoTo 52 = 4503599627370496 := rfl
  have h11 : twoTo 11 = 2048 := rfl
  have h63 : twoTo 63 = 9223372036854775808 := rfl
  refine ofSign_isFinite ?_
  simp only [isFinite, exponentField, bne_iff_ne, ne_eq, h11, h52, h63] at h ⊢
  omega

theorem ratio_pos
    (x : Double) :
    0 < x.ratio.2 :=
  twoTo_pos _

/-- Finite numbers are below `2 ^ 1024`. -/
theorem ratio_lt
    {x : Double}
    (h : x.isFinite = true) :
    x.ratio.1 < x.ratio.2 * twoTo 1024 := by
  have hfield : x.exponentField < 2047 := by
    have hlt : x.exponentField < twoTo 11 := Nat.mod_lt _ (twoTo_pos 11)
    have h11 : twoTo 11 = 2048 := rfl
    simp only [isFinite, bne_iff_ne, ne_eq] at h
    omega
  have hfraction : x.fractionField < twoTo 52 := Nat.mod_lt _ (twoTo_pos 52)
  have hdigits : x.magnitude.1 < twoTo 53 := by
    have h53 : twoTo 53 = twoTo 52 + twoTo 52 := rfl
    unfold magnitude
    split <;> dsimp only <;> omega
  have hgrid : x.magnitude.2 ≤ 971 := by
    unfold magnitude
    split <;> dsimp only <;> omega
  calc x.magnitude.1 * twoTo x.magnitude.2.toNat
      < twoTo 53 * twoTo x.magnitude.2.toNat :=
        Nat.mul_lt_mul_of_pos_right hdigits (twoTo_pos _)
    _ ≤ twoTo 53 * twoTo 971 := Nat.mul_le_mul_left _ (twoTo_le_twoTo (by omega))
    _ = twoTo 1024 := (twoTo_add 53 971).symm
    _ ≤ x.ratio.2 * twoTo 1024 := Nat.le_mul_of_pos_left _ x.ratio_pos

/-- A finite number divided by two or more is finite. -/
theorem div_isFinite
    {x y : Double}
    (hx : x.isFinite = true)
    (hy : 2 * y.ratio.2 ≤ y.ratio.1) :
    (x.div y).isFinite = true := by
  refine ofRatio_isFinite ?_
  have hpos : 0 < y.ratio.1 := Nat.lt_of_lt_of_le (Nat.mul_pos (by omega) y.ratio_pos) hy
  have h1024 : twoTo 1024 = 2 * twoTo 1023 :=
    (Number.twoTo_succ 1023).trans (Nat.mul_comm _ _)
  have hdouble : 2 * (x.ratio.1 * y.ratio.2) < 2 * (x.ratio.2 * y.ratio.1 * twoTo 1023) := by
    calc 2 * (x.ratio.1 * y.ratio.2)
        = x.ratio.1 * (2 * y.ratio.2) := Nat.mul_left_comm _ _ _
      _ ≤ x.ratio.1 * y.ratio.1 := Nat.mul_le_mul_left _ hy
      _ < x.ratio.2 * twoTo 1024 * y.ratio.1 := Nat.mul_lt_mul_of_pos_right (ratio_lt hx) hpos
      _ = 2 * (x.ratio.2 * y.ratio.1 * twoTo 1023) := by
          rw [h1024, Nat.mul_left_comm x.ratio.2 2, Nat.mul_assoc 2, Nat.mul_right_comm x.ratio.2]
  omega

end Double
end Provision
