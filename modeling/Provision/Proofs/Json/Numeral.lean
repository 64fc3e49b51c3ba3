import Provision.Json.Reader
import Provision.Proofs.Chain
import Provision.Proofs.Number.Finite

/-!
# Numbers that a numeral stands for

The digits that are collected fit a word, so they have a finite approximation.  Scaling upwards
checks that the outcome is finite, and scaling downwards divides by powers of ten.  So the reader
gives no number outside of the ranges that a document can hold.

**Results.**
* `Json.scale_isFinite`: a scaled significand is finite.
* `Json.readNumeral_sound`, `Json.read_number_sound`: every number that is read is sound.
-/

namespace Provision

/-- A number that a document can hold: an integer that fits a word with or without a sign, or a
finite number of double precision. -/
def Number.Sound : Number → Prop
  | .integer i => -(Number.twoTo 63 : Int) ≤ i ∧ i < Number.twoTo 64
  | .decimal x => x.isFinite = true

namespace Json

/-- The powers of ten by which numbers are scaled down are two or more. -/
theorem two_le_scale :
    ∀ k < 309, 0 < k →
      2 * (Double.ofDecimal false 1 (k : Nat)).ratio.2 ≤ (Double.ofDecimal false 1 k).ratio.1 := by
  decide +kernel

theorem div_scale_isFinite
    {x : Double}
    (hx : x.isFinite = true)
    {e : Int}
    (hlow : 0 < e)
    (hhigh : e ≤ 308) :
    (x.div (Double.ofDecimal false 1 e)).isFinite = true := by
  obtain ⟨k, rfl⟩ := Int.eq_ofNat_of_zero_le (Int.le_of_lt hlow)
  exact Double.div_isFinite hx (two_le_scale k (by omega) (by omega))

theorem scaleSteps_isFinite
    {fuel : Nat}
    {x y : Double}
    {e : Int}
    (hx : x.isFinite = true)
    (h : scaleSteps fuel x e = some y) :
    y.isFinite = true := by
  induction fuel generalizing x e with
  | zero =>
      cases h
      exact hx
  | succ fuel ih =>
      simp only [scaleSteps] at h
      split at h
      · split at h
        · split at h
          · cases h
            assumption
          · cases h
        · cases h
          exact div_scale_isFinite hx (by omega) (by omega)
      · split at h
        · cases h
          exact hx
        · split at h
          · cases h
          · exact ih (div_scale_isFinite hx (by omega) (by omega)) h

/-- A scaled significand is finite. -/
theorem scale_isFinite
    {negative : Bool}
    {significand : Nat}
    {e : Int}
    {x : Double}
    (hword : significand ≤ largestWord)
    (h : scale negative significand e = some x) :
    x.isFinite = true := by
  have hstart : (Double.ofInt significand).isFinite = true := by
    refine Double.ofInt_isFinite ?_
    have hlargest : largestWord < Number.twoTo 65 := by decide +kernel
    rw [Int.natAbs_natCast]
    omega
  obtain ⟨y, hy, rfl⟩ := Option.map_eq_some_iff.mp h
  have hfinite := scaleSteps_isFinite hstart hy
  cases negative with
  | false => exact hfinite
  | true => exact Double.neg_isFinite hfinite

theorem collectDigits_le
    {n taken : Nat}
    {cs : List Char}
    (h : n ≤ largestWord) :
    (collectDigits n taken cs).1 ≤ largestWord := by
  induction cs generalizing n taken with
  | nil => exact h
  | cons c rest ih =>
      simp only [collectDigits]
      split
      · rename_i hfits
        simp only [Bool.and_eq_true, decide_eq_true_eq] at hfits
        exact ih hfits.2
      · exact h

theorem finishDecimal_sound
    {negative : Bool}
    {significand : Nat}
    {e : Int}
    {rest rest' : List Char}
    {n : Number}
    (hword : significand ≤ largestWord)
    (h : finishDecimal negative significand e rest = .ok (n, rest')) :
    n.Sound := by
  simp only [finishDecimal] at h
  split at h
  · rename_i x hx
    cases h
    exact scale_isFinite hword hx
  · cases h

theorem readExponent_sound
    {negative : Bool}
    {significand : Nat}
    {start : Int}
    {cs rest : List Char}
    {n : Number}
    (hword : significand ≤ largestWord)
    (h : readExponent negative significand start cs = .ok (n, rest)) :
    n.Sound := by
  unfold readExponent at h
  split at h
  split at h
  · cases h
  · split at h
    · split at h
      · exact finishDecimal_sound hword h
      · split at h
        · cases h
        · cases h
          exact Double.ofSign_isFinite (by decide +kernel)
    · cases h

theorem readFraction_sound
    {negative : Bool}
    {significand : Nat}
    {start : Int}
    {cs rest : List Char}
    {n : Number}
    (hword : significand ≤ largestWord)
    (h : readFraction negative significand start cs = .ok (n, rest)) :
    n.Sound := by
  have hmore : (collectDigits significand 0 cs).1 ≤ largestWord := collectDigits_le hword
  simp only [readFraction] at h
  split at h
  · split at h <;> cases h
  · split at h
    · exact readExponent_sound hmore h
    · exact readExponent_sound hmore h
    · exact finishDecimal_sound hmore h

theorem integerOf_sound
    {negative : Bool}
    {n : Nat}
    (hword : n ≤ largestWord) :
    (integerOf negative n).Sound := by
  have hlargest : largestWord + 1 = Number.twoTo 64 := by decide +kernel
  have h65 : Number.twoTo 64 < Number.twoTo 65 := by decide +kernel
  cases negative with
  | false => exact ⟨by omega, by omega⟩
  | true =>
      simp only [integerOf, if_true]
      split
      · refine Double.neg_isFinite (Double.ofInt_isFinite ?_)
        rw [Int.natAbs_natCast]
        omega
      · exact ⟨by omega, by omega⟩

theorem readTail_sound
    {negative : Bool}
    {significand dropped : Nat}
    {cs rest : List Char}
    {n : Number}
    (hword : significand ≤ largestWord)
    (h : readTail negative significand dropped cs = .ok (n, rest)) :
    n.Sound := by
  simp only [readTail] at h
  split at h
  · exact readFraction_sound hword h
  · exact readExponent_sound hword h
  · exact readExponent_sound hword h
  · split at h
    · cases h
      exact integerOf_sound hword
    · exact finishDecimal_sound hword h

theorem readNumeral_sound
    {negative : Bool}
    {cs rest : List Char}
    {n : Number}
    (h : readNumeral negative cs = .ok (n, rest)) :
    n.Sound := by
  have hzero : 0 ≤ largestWord := Nat.zero_le _
  simp only [readNumeral] at h
  split at h
  · cases h
  · split at h
    · split at h
      · split at h
        · cases h
        · exact readTail_sound hzero h
      · exact readTail_sound hzero h
    · split at h
      · exact readTail_sound (collectDigits_le hzero) h
      · cases h

/-- A draft of a number comes from a numeral. -/
theorem ofStep_number
    {r : Step Number}
    {n : Number}
    (h : (Reading.ofStep Draft.number r).1 = .number n) :
    ∃ rest, r = .ok (n, rest) := by
  cases r with
  | error f => cases h
  | ok p =>
      obtain ⟨m, rest⟩ := p
      cases h
      exact ⟨rest, rfl⟩

theorem ofText_ne_number
    {r : Step String}
    {n : Number} :
    (Reading.ofStep Draft.text r).1 ≠ .number n := by
  cases r <;> simp [Reading.ofStep]

theorem ofWord_ne_number
    {d : Draft}
    {r : Except Failure (List Char)}
    {n : Number}
    (h : d ≠ .number n) :
    (Reading.ofWord d r).1 ≠ .number n := by
  cases r with
  | error f => simp [Reading.ofWord]
  | ok rest => exact h

/-- A value that is a number stands where a numeral starts. -/
theorem readValue_sound
    {fuel depth : Nat}
    {cs : List Char}
    {n : Number}
    (h : (readValue fuel depth cs).1 = .number n) :
    n.Sound := by
  cases fuel with
  | zero =>
      rw [readValue] at h
      cases h
  | succ fuel =>
      rw [readValue] at h
      split at h
      · cases h
      · exact absurd h (ofWord_ne_number (by simp))
      · exact absurd h (ofWord_ne_number (by simp))
      · exact absurd h (ofWord_ne_number (by simp))
      · exact absurd h ofText_ne_number
      · cases depth <;> cases h
      · cases depth <;> cases h
      · obtain ⟨rest, hnumeral⟩ := ofStep_number h
        exact readNumeral_sound hnumeral
      · split at h
        · obtain ⟨rest, hnumeral⟩ := ofStep_number h
          exact readNumeral_sound hnumeral
        · cases h

theorem toTree_eq_number
    {d : Draft}
    {n : Number}
    (h : d.toTree = .ok (.number n)) :
    d = .number n := by
  cases d with
  | number m =>
      cases h
      rfl
  | list items =>
      obtain ⟨ts, _, hlist⟩ := map_eq_ok_iff.mp h
      cases hlist
  | object entries =>
      obtain ⟨es, _, hobject⟩ := map_eq_ok_iff.mp h
      cases hobject
  | _ => cases h

/-- A text that is read as a number stands for one that a document can hold. -/
theorem read_number_sound
    {text : String}
    {n : Number}
    (h : read text = .ok (.number n)) :
    n.Sound := by
  obtain ⟨t, ht, hend⟩ := bind_eq_ok_iff.mp h
  obtain ⟨_, _, heq⟩ := bind_eq_ok_iff.mp hend
  cases heq
  exact readValue_sound (toTree_eq_number ht)

end Json
end Provision
