import Provision.Proofs.Json.Numeral

/-!
# Integers that are read back

An integer is written as its decimal digits, behind a minus sign if it is negative.  The digits are
collected as long as the number fits a word, and what stands in front of further digits is never the
greater number.  A numeral ends where neither a digit nor a point or an exponent follows; then what
was collected is the integer.

**Results.**
* `Json.collectDigits_append`: the digits of a number that fits a word are all collected.
* `Json.readNumeral_toDigits`: the digits of a natural number are read back.
* `Json.readValue_integer`: an integer that a document can hold is read back.
-/

namespace Provision
namespace Json

/-- Texts in front of which a numeral without point and exponent ends. -/
def EndsNumeral (rest : List Char) : Prop :=
  ∀ c ∈ rest.head?, c.isDigit = false ∧ c ≠ '.' ∧ c ≠ 'e' ∧ c ≠ 'E'

theorem EndsNumeral.takeWhile_eq
    {rest : List Char}
    (h : EndsNumeral rest) :
    rest.takeWhile Char.isDigit = [] := by
  cases rest with
  | nil => rfl
  | cons c rest => exact List.takeWhile_cons_of_neg (by simp [(h c rfl).1])

theorem EndsNumeral.dropWhile_eq
    {rest : List Char}
    (h : EndsNumeral rest) :
    rest.dropWhile Char.isDigit = rest := by
  cases rest with
  | nil => rfl
  | cons c rest => exact List.dropWhile_cons_of_neg (by simp [(h c rfl).1])

/-- Further digits do not make a number smaller. -/
theorem le_ofDigitChars
    (digits : List Char)
    (n : Nat) :
    n ≤ Nat.ofDigitChars 10 digits n := by
  induction digits generalizing n with
  | nil => exact Nat.le_refl n
  | cons c digits ih =>
      rw [Nat.ofDigitChars_cons]
      have := ih (10 * n + (c.toNat - '0'.toNat))
      omega

/-- Digits are collected to the last one, if the number they stand for fits a word. -/
theorem collectDigits_append
    {digits : List Char}
    (hdigits : ∀ c ∈ digits, c.isDigit = true)
    {n : Nat}
    (hfits : Nat.ofDigitChars 10 digits n ≤ largestWord)
    {rest : List Char}
    (hrest : EndsNumeral rest)
    (taken : Nat) :
    collectDigits n taken (digits ++ rest) =
      (Nat.ofDigitChars 10 digits n, taken + digits.length, rest) := by
  induction digits generalizing n taken with
  | nil =>
      cases rest with
      | nil => rfl
      | cons c rest =>
          rw [List.nil_append, collectDigits, (hrest c rfl).1, Bool.false_and,
            if_neg Bool.false_ne_true]
          rfl
  | cons c digits ih =>
      obtain ⟨hdigit, hdigits⟩ := List.forall_mem_cons.mp hdigits
      have hnext : n * 10 + digitValue c = 10 * n + (c.toNat - '0'.toNat) := by
        rw [digitValue, Nat.mul_comm]
      rw [Nat.ofDigitChars_cons, ← hnext] at hfits ⊢
      have hword : n * 10 + digitValue c ≤ largestWord :=
        Nat.le_trans (le_ofDigitChars digits _) hfits
      rw [List.cons_append, collectDigits, hdigit, Bool.true_and, if_pos (decide_eq_true hword),
        ih hdigits hfits, List.length_cons, Nat.add_assoc, Nat.add_comm 1]

theorem readTail_of_endsNumeral
    {rest : List Char}
    (h : EndsNumeral rest)
    (negative : Bool)
    (n : Nat) :
    readTail negative n 0 rest = .ok (integerOf negative n, rest) := by
  unfold readTail
  split
  · exact absurd rfl (h _ rfl).2.1
  · exact absurd rfl (h _ rfl).2.2.1
  · exact absurd rfl (h _ rfl).2.2.2
  · rfl

/-- The digits of a number start with a digit. -/
theorem exists_toDigits_cons
    (n : Nat) :
    ∃ c digits, Nat.toDigits 10 n = c :: digits ∧ c.isDigit = true := by
  obtain ⟨c, digits, hcons⟩ := List.exists_cons_of_ne_nil
    (Nat.toDigits_ne_nil : Nat.toDigits 10 n ≠ [])
  exact ⟨c, digits, hcons,
    Nat.isDigit_of_mem_toDigits (by decide) (by decide) (hcons ▸ List.mem_cons_self)⟩

/-- The digits of a positive number start with another digit than zero. -/
theorem head_toDigits_ne_zero
    {n : Nat}
    (hpos : 0 < n)
    {c : Char}
    {digits : List Char}
    (h : Nat.toDigits 10 n = c :: digits) :
    c ≠ '0' := by
  induction n using Nat.strongRecOn generalizing digits with
  | ind n ih =>
      by_cases hbase : 10 ≤ n
      · rw [Nat.toDigits_of_base_le (by decide) hbase] at h
        obtain ⟨d, front, hfront, _⟩ := exists_toDigits_cons (n / 10)
        rw [hfront] at h
        cases h
        exact ih (n / 10) (by omega) (by omega) hfront
      · rw [Nat.toDigits_of_lt_base (by omega)] at h
        cases h
        exact fun hzero => Nat.ne_of_gt hpos (Nat.digitChar_eq_zero.mp hzero)

theorem readNumeral_zero
    {rest : List Char}
    (hrest : EndsNumeral rest)
    (negative : Bool) :
    readNumeral negative ('0' :: rest) = .ok (integerOf negative 0, rest) := by
  have htail := readTail_of_endsNumeral hrest negative 0
  cases rest with
  | nil => exact htail
  | cons d rest =>
      show (if d.isDigit then _ else readTail negative 0 0 (d :: rest)) = _
      rw [(hrest d rfl).1, if_neg Bool.false_ne_true, htail]

theorem readNumeral_of_collectDigits
    {c : Char}
    (hdigit : c.isDigit = true)
    (hzero : c ≠ '0')
    {cs rest : List Char}
    (hrest : EndsNumeral rest)
    {n taken : Nat}
    (h : collectDigits 0 0 (c :: cs) = (n, taken, rest))
    (negative : Bool) :
    readNumeral negative (c :: cs) = .ok (integerOf negative n, rest) := by
  simp only [readNumeral, if_neg hzero, hdigit, if_true, h, hrest.takeWhile_eq, hrest.dropWhile_eq,
    List.length_nil]
  exact readTail_of_endsNumeral hrest negative n

/-- The digits of a number that fits a word are read back. -/
theorem readNumeral_toDigits
    {n : Nat}
    (hword : n ≤ largestWord)
    {rest : List Char}
    (hrest : EndsNumeral rest)
    (negative : Bool) :
    readNumeral negative (Nat.toDigits 10 n ++ rest) = .ok (integerOf negative n, rest) := by
  rcases Nat.eq_zero_or_pos n with rfl | hpos
  · exact readNumeral_zero hrest negative
  · have hdigits : ∀ c ∈ Nat.toDigits 10 n, c.isDigit = true :=
      fun c hc => Nat.isDigit_of_mem_toDigits (by decide) (by decide) hc
    have hvalue : Nat.ofDigitChars 10 (Nat.toDigits 10 n) 0 = n := Nat.ofDigitChars_ten_toDigits
    have hcollected := collectDigits_append hdigits (hvalue.symm ▸ hword) hrest 0
    obtain ⟨c, digits, hcons, hdigit⟩ := exists_toDigits_cons n
    rw [hvalue, hcons] at hcollected
    rw [hcons]
    exact readNumeral_of_collectDigits hdigit (head_toDigits_ne_zero hpos hcons) hrest hcollected
      negative

theorem toList_text_integer
    (i : Int) :
    (Number.integer i).text.toList =
      if 0 ≤ i then Nat.toDigits 10 i.toNat else '-' :: Nat.toDigits 10 (-i).toNat := by
  rw [Number.text, Int.toString_eq_repr, Int.repr_eq_if]
  split
  · exact Nat.toList_repr
  · rw [String.toList_append, Nat.toList_repr]
    rfl

/-- An integer starts with a digit or a minus sign. -/
theorem exists_text_integer_cons
    (i : Int) :
    ∃ c cs, (Number.integer i).text.toList = c :: cs ∧ (c.isDigit = true ∨ c = '-') := by
  rw [toList_text_integer]
  split
  · obtain ⟨c, digits, hcons, hdigit⟩ := exists_toDigits_cons i.toNat
    exact ⟨c, digits, hcons, .inl hdigit⟩
  · exact ⟨'-', _, rfl, .inr rfl⟩

theorem integerOf_true
    {n : Nat}
    (hpos : 0 < n)
    (hrange : n ≤ Number.twoTo 63) :
    integerOf true n = .integer (-(n : Int)) := by
  rw [integerOf, if_pos rfl, if_neg (by omega)]

theorem skipSpace_cons
    {c : Char}
    (h : isSpace c = false)
    (cs : List Char) :
    skipSpace (c :: cs) = c :: cs :=
  List.dropWhile_cons_of_neg (by simp [h])

theorem ne_of_isDigit
    {c d : Char}
    (hc : c.isDigit = true)
    (hd : d.isDigit = false) :
    c ≠ d := by
  rintro rfl
  rw [hc] at hd
  cases hd

theorem isSpace_of_isDigit
    {c : Char}
    (h : c.isDigit = true) :
    isSpace c = false := by
  have hne : ∀ {d : Char}, d.isDigit = false → c ≠ d := ne_of_isDigit h
  simp [isSpace, hne]

/-- A value that starts with a digit is a numeral. -/
theorem readValue_digit
    {c : Char}
    (hdigit : c.isDigit = true)
    (fuel depth : Nat)
    (cs : List Char) :
    readValue (fuel + 1) depth (c :: cs) = .ofStep .number (readNumeral false (c :: cs)) := by
  rw [readValue, skipSpace_cons (isSpace_of_isDigit hdigit)]
  split
  case h_1 h => cases h
  case h_9 h =>
    cases h
    exact if_pos hdigit
  -- The other characters that a value can start with are no digits.
  all_goals
    rename_i h
    exact absurd (List.cons.inj h).1 (ne_of_isDigit hdigit rfl)

/-- A value that starts with a minus sign is a numeral. -/
theorem readValue_minus
    (fuel depth : Nat)
    (cs : List Char) :
    readValue (fuel + 1) depth ('-' :: cs) = .ofStep .number (readNumeral true cs) := by
  rw [readValue, skipSpace_cons (by decide)]
  rfl

/-- An integer that a document can hold is read back. -/
theorem readValue_integer
    {i : Int}
    (hsound : (Number.integer i).Sound)
    {rest : List Char}
    (hrest : EndsNumeral rest)
    (fuel depth : Nat) :
    readValue (fuel + 1) depth ((Number.integer i).text.toList ++ rest) =
      (.number (.integer i), some rest) := by
  have hlargest : largestWord + 1 = Number.twoTo 64 := by decide +kernel
  have hhalf : Number.twoTo 63 ≤ largestWord := by decide +kernel
  obtain ⟨hlow, hhigh⟩ := hsound
  rw [toList_text_integer]
  split
  · obtain ⟨n, rfl⟩ := Int.eq_ofNat_of_zero_le ‹0 ≤ i›
    obtain ⟨c, digits, hcons, hdigit⟩ := exists_toDigits_cons n
    have hread := readNumeral_toDigits (n := n) (by omega) hrest false
    rw [Int.toNat_natCast]
    rw [hcons] at hread ⊢
    rw [List.cons_append, readValue_digit hdigit, ← List.cons_append, hread]
    rfl
  · obtain ⟨n, hn⟩ := Int.eq_ofNat_of_zero_le (a := -i) (by omega)
    have hi : i = -(n : Int) := by omega
    rw [hn, Int.toNat_natCast, List.cons_append, readValue_minus,
      readNumeral_toDigits (by omega) hrest true, integerOf_true (by omega) (by omega), hi]
    rfl

end Json
end Provision
