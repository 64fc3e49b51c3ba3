import Mathlib.Data.List.TakeWhile
import Provision.Proofs.Chain
import Provision.Proofs.Text.Letters
import Provision.Proofs.Time.Calendar
import Provision.Time.Instant

/-!
# Instants that are read back

The written form of an instant is read part by part: every number is written with as many digits as
are read, or ends where the next mark stands.  A leap second is written as the second after the one it
belongs to; it is read as a leap second only at the end of a minute.

**Results.**
* `Instant.ofText_text`: every instant is read back from its written form.
-/

namespace Provision
namespace Instant

/-! ## Numbers with leading zeros -/

section Padded

variable {width n : Nat}

theorem value_eq_ofDigitChars
    (digits : List Char) :
    value digits = Nat.ofDigitChars 10 digits 0 :=
  Text.foldl_digits digits

theorem toList_padded
    (width n : Nat) :
    (padded width n).toList =
      List.replicate (width - (Nat.toDigits 10 n).length) '0' ++ Nat.toDigits 10 n := by
  rw [padded, Nat.toString_eq_repr, String.toList_append, String.toList_ofList, Nat.toList_repr,
    ← String.length_toList, Nat.toList_repr]

theorem value_padded :
    value (padded width n).toList = n := by
  rw [value_eq_ofDigitChars, toList_padded, Nat.ofDigitChars_append,
    Nat.ofDigitChars_replicate_zero, Nat.mul_zero, Nat.ofDigitChars_ten_toDigits]

theorem isDigit_of_mem_padded :
    ∀ c ∈ (padded width n).toList, c.isDigit = true := by
  rw [toList_padded]
  intro c hc
  rcases List.mem_append.mp hc with hzero | hdigit
  · rw [List.eq_of_mem_replicate hzero]
    rfl
  · exact Nat.isDigit_of_mem_toDigits (by decide) (by decide) hdigit

theorem padded_ne_nil :
    (padded width n).toList ≠ [] := by
  rw [toList_padded]
  exact List.append_ne_nil_of_right_ne_nil _ Nat.toDigits_ne_nil

theorem length_padded
    (hwidth : 0 < width)
    (h : n < Number.tenTo width) :
    (padded width n).toList.length = width := by
  have hlength := (Nat.length_toDigits_le_iff (b := 10) (by decide) hwidth).mpr h
  rw [toList_padded, List.length_append, List.length_replicate]
  omega

end Padded

/-! ## Parts of the written form -/

section Parts

variable {rest : List Char}

theorem isBlank_of_isDigit
    {c : Char}
    (h : c.isDigit = true) :
    Text.isBlank c = false := by
  have hrange : 48 ≤ c.toNat ∧ c.toNat ≤ 57 := by
    rw [Char.isDigit, Bool.and_eq_true, decide_eq_true_eq, decide_eq_true_eq] at h
    exact h
  simp only [Text.isBlank, Bool.or_eq_false_iff, Bool.and_eq_false_iff, decide_eq_false_iff_not,
    beq_eq_false_iff_ne]
  omega

/-- A number starts with a digit. -/
theorem exists_padded_cons
    (width n : Nat) :
    ∃ c cs, (padded width n).toList = c :: cs ∧ c.isDigit = true := by
  have hne : (padded width n).toList ≠ [] := padded_ne_nil
  obtain ⟨c, cs, hcons⟩ := List.exists_cons_of_ne_nil hne
  exact ⟨c, cs, hcons, isDigit_of_mem_padded c (hcons ▸ List.mem_cons_self)⟩

theorem dropBlanks_padded
    (width n : Nat) :
    Text.dropBlanks ((padded width n).toList ++ rest) = (padded width n).toList ++ rest := by
  obtain ⟨c, cs, hcons, hdigit⟩ := exists_padded_cons width n
  rw [hcons, List.cons_append, Text.dropBlanks_cons (isBlank_of_isDigit hdigit)]

/-- A number is read up to its last digit, if no further digit is looked for or none follows. -/
theorem readNumber_padded
    {width limit n : Nat}
    (hlimit : (padded width n).toList.length ≤ limit)
    (hend : (padded width n).toList.length = limit ∨ ∀ c ∈ rest.head?, c.isDigit = false) :
    readNumber limit ((padded width n).toList ++ rest) = .ok ((padded width n).toList, rest) := by
  have hrest : (rest.take (limit - (padded width n).toList.length)).takeWhile Char.isDigit = [] := by
    rcases hend with hfull | hmark
    · rw [hfull, Nat.sub_self]
      rfl
    · cases rest with
      | nil => simp
      | cons c rest =>
          cases limit - (padded width n).toList.length with
          | zero => rfl
          | succ k => rw [List.take_succ_cons, List.takeWhile_cons_of_neg (by simp [hmark c rfl])]
  have hdigits : (((padded width n).toList ++ rest).take limit).takeWhile Char.isDigit =
      (padded width n).toList := by
    rw [List.take_append, List.take_of_length_le hlimit,
      List.takeWhile_append_of_pos isDigit_of_mem_padded, hrest, List.append_nil]
  have hne : (padded width n).toList.isEmpty = false :=
    List.isEmpty_eq_false_iff.mpr padded_ne_nil
  have hne' : ((padded width n).toList ++ rest).isEmpty = false :=
    List.isEmpty_eq_false_iff.mpr (List.append_ne_nil_of_left_ne_nil padded_ne_nil _)
  rw [readNumber, hdigits, hne, hne', List.drop_left]
  rfl

theorem readField_padded
    {low high n : Nat}
    (hlow : low ≤ n)
    (hhigh : n ≤ high)
    (hshort : n < 100) :
    readField low high ((padded 2 n).toList ++ rest) = .ok (n, rest) := by
  have hlength : (padded 2 n).toList.length = 2 := length_padded (by decide) hshort
  rw [readField, dropBlanks_padded, readNumber_padded (Nat.le_of_eq hlength) (.inl hlength)]
  refine (if_pos ?_).trans ?_
  · rw [value_padded]
    exact ⟨hlow, hhigh⟩
  · rw [value_padded]
    rfl

theorem readMark_cons
    {mark : Char}
    (h : Text.isBlank mark = false) :
    readMark mark (mark :: rest) = .ok rest := by
  rw [readMark, Text.dropBlanks_cons h]
  exact if_pos rfl

theorem readYear_sign
    (year : Int)
    (cs : List Char) :
    readYear ((if year < 0 then "-" else "+" : String).toList ++ cs) =
      (readNumber cs.length cs).map fun r =>
        (if year < 0 then -(value r.1 : Int) else value r.1, r.2) := by
  split
  · show readYear ('-' :: cs) = _
    rw [readYear, Text.dropBlanks_cons (by decide)]
    rfl
  · show readYear ('+' :: cs) = _
    rw [readYear, Text.dropBlanks_cons (by decide)]
    rfl

/-- A year that has a sign ends at the mark that follows it. -/
theorem readNumber_signed
    (n : Nat) :
    readNumber ((padded 4 n).toList ++ '-' :: rest).length ((padded 4 n).toList ++ '-' :: rest) =
      .ok ((padded 4 n).toList, '-' :: rest) := by
  refine readNumber_padded ?_ (.inr ?_)
  · rw [List.length_append]
    exact Nat.le_add_right _ _
  · rintro c ⟨⟩
    rfl

theorem readYear_yearText
    (year : Int) :
    readYear ((yearText year).toList ++ '-' :: rest) = .ok (year, '-' :: rest) := by
  rw [yearText]
  split
  · rename_i hrange
    have hfour : year.toNat < 10000 := by omega
    have hlength : (padded 4 year.toNat).toList.length = 4 := length_padded (by decide) hfour
    have hnumber : readNumber 4 ((padded 4 year.toNat).toList ++ '-' :: rest) =
        .ok ((padded 4 year.toNat).toList, '-' :: rest) :=
      readNumber_padded (Nat.le_of_eq hlength) (.inl hlength)
    have hyear : ((value (padded 4 year.toNat).toList : Nat) : Int) = year := by
      rw [value_padded, Int.toNat_of_nonneg hrange.1]
    obtain ⟨c, cs, hcons, hdigit⟩ := exists_padded_cons 4 year.toNat
    rw [readYear, dropBlanks_padded]
    rw [hcons] at hnumber hyear ⊢
    split
    · rename_i hsign
      rw [(List.cons.inj hsign).1] at hdigit
      cases hdigit
    · rename_i hsign
      rw [(List.cons.inj hsign).1] at hdigit
      cases hdigit
    · rw [hnumber]
      exact congrArg (fun y => Except.ok (y, '-' :: rest)) hyear
  · have hyear : (if year < 0 then -(year.natAbs : Int) else year.natAbs) = year := by
      split <;> omega
    rw [String.toList_append, List.append_assoc, readYear_sign, readNumber_signed, Except.map,
      value_padded, hyear]

/-- A fraction with a number of digits, of which each stands for a share of a second. -/
theorem readFraction_padded
    {width n nanos : Nat}
    (hwidth : 0 < width)
    (hlimit : width ≤ 9)
    (hn : n < Number.tenTo width)
    (hnanos : n * Number.tenTo (9 - width) = nanos) :
    readFraction (("." ++ padded width n).toList ++ ['Z']) = .ok (nanos, ['Z']) := by
  have hlength := length_padded hwidth hn
  have hnumber : readNumber 9 ((padded width n).toList ++ ['Z']) =
      .ok ((padded width n).toList, ['Z']) := by
    refine readNumber_padded (by omega) (.inr ?_)
    rintro c ⟨⟩
    rfl
  rw [String.toList_append]
  show readFraction ('.' :: ((padded width n).toList ++ ['Z'])) = _
  rw [readFraction, hnumber]
  show Except.ok (value (padded width n).toList *
    Number.tenTo (9 - (padded width n).toList.length), ['Z']) = _
  rw [value_padded, hlength, hnanos]

/-- A fraction ends before the mark of universal time. -/
theorem readFraction_fractionText
    {nanos : Nat}
    (h : nanos < 1000000000) :
    readFraction ((fractionText nanos).toList ++ ['Z']) = .ok (nanos, ['Z']) := by
  have hthousand : Number.tenTo 3 = 1000 := rfl
  have hmillion : Number.tenTo 6 = 1000000 := rfl
  rw [fractionText]
  split
  · rename_i hzero
    rw [hzero]
    rfl
  · split
    · exact readFraction_padded (by decide) (by decide) (by omega) (by rw [hmillion]; omega)
    · split
      · exact readFraction_padded (by decide) (by decide) (by omega) (by rw [hthousand]; omega)
      · exact readFraction_padded (by decide) (by decide) h (Nat.mul_one nanos)

end Parts

/-! ## Whole instants -/

/-- A point in time of a year that is counted. -/
structure IsValid (t : Instant) : Prop where
  year : isCounted (Date.ofDayNumber t.day).year = true
  second : t.second < 86400
  nanos : t.nanos < 2000000000

/-- The instant as it is written: within a minute, the second after a leap second is meant. -/
def asWritten (t : Instant) : Instant :=
  if 1000000000 ≤ t.nanos ∧ t.second % 60 ≠ 59 then ⟨t.day, t.second + 1, t.nanos - 1000000000⟩
  else t

/-- The second that is written, one more in a leap second, makes up the time of the day again. -/
theorem time_asWritten
    {t : Instant}
    (h : t.IsValid)
    {leap : Nat}
    (hleap : leap = if 1000000000 ≤ t.nanos then 1 else 0) :
    t.second / 3600 * 3600 + t.second / 60 % 60 * 60 + min (t.second % 60 + leap) 59 =
        t.asWritten.second ∧
      t.nanos % 1000000000 + (if t.second % 60 + leap = 60 then 1000000000 else 0) =
        t.asWritten.nanos ∧
      t.asWritten.second < 86400 ∧ t.asWritten.day = t.day := by
  have hsecond := h.second
  have hnanos := h.nanos
  rw [asWritten]
  by_cases hextra : 1000000000 ≤ t.nanos
  · rw [if_pos hextra] at hleap
    by_cases hlast : t.second % 60 = 59
    · have hend : t.second % 60 + leap = 60 := by omega
      rw [if_neg (by omega), if_pos hend]
      omega
    · have hend : t.second % 60 + leap ≠ 60 := by omega
      rw [if_pos ⟨hextra, hlast⟩, if_neg hend]
      dsimp only
      omega
  · rw [if_neg hextra] at hleap
    have hend : t.second % 60 + leap ≠ 60 := by omega
    rw [if_neg (by omega), if_neg hend]
    omega

/-- The written form of an instant, part by part. -/
theorem toList_text
    (t : Instant)
    {leap : Nat}
    (hleap : leap = if 1000000000 ≤ t.nanos then 1 else 0) :
    t.text.toList =
      (yearText (Date.ofDayNumber t.day).year).toList ++ '-' ::
        ((padded 2 (Date.ofDayNumber t.day).month).toList ++ '-' ::
          ((padded 2 (Date.ofDayNumber t.day).day).toList ++ 'T' ::
            ((padded 2 (t.second / 3600)).toList ++ ':' ::
              ((padded 2 (t.second / 60 % 60)).toList ++ ':' ::
                ((padded 2 (t.second % 60 + leap)).toList ++
                  ((fractionText (t.nanos % 1000000000)).toList ++ ['Z'])))))) := by
  have hdash : ("-" : String).toList = ['-'] := rfl
  have hcolon : (":" : String).toList = [':'] := rfl
  have hdivider : ("T" : String).toList = ['T'] := rfl
  have hend : ("Z" : String).toList = ['Z'] := rfl
  simp only [text, String.toList_append, hdash, hcolon, hdivider, hend, hleap, List.append_assoc,
    List.cons_append, List.nil_append]

/-- Every instant is read back from its written form. -/
theorem ofText_text
    {t : Instant}
    (h : t.IsValid) :
    ofText t.text = .ok t.asWritten := by
  have hdate := Date.ofDayNumber_isValid t.day
  have hday : (Date.ofDayNumber t.day).day ≤ 31 :=
    Nat.le_trans hdate.day_le (Date.daysInMonth_le _ _)
  have hsecond := h.second
  obtain ⟨leap, hleap⟩ : ∃ leap, leap = if 1000000000 ≤ t.nanos then 1 else 0 := ⟨_, rfl⟩
  have hone : leap ≤ 1 := by
    rw [hleap]
    split <;> decide
  obtain ⟨hwritten, hnanos, hwithin, hsame⟩ := time_asWritten h hleap
  rw [ofText, toList_text t hleap]
  refine bind_eq_ok_iff.mpr ⟨_, readYear_yearText _, ?_⟩
  refine bind_eq_ok_iff.mpr ⟨_, readMark_cons (by decide), ?_⟩
  refine bind_eq_ok_iff.mpr ⟨_, readField_padded hdate.month_pos hdate.month_le
    (Nat.lt_of_le_of_lt hdate.month_le (by decide)), ?_⟩
  refine bind_eq_ok_iff.mpr ⟨_, readMark_cons (by decide), ?_⟩
  refine bind_eq_ok_iff.mpr ⟨_, readField_padded hdate.day_pos hday (by omega), ?_⟩
  refine bind_eq_ok_iff.mpr ⟨_, rfl, ?_⟩
  refine bind_eq_ok_iff.mpr ⟨_, readField_padded (Nat.zero_le _) (by omega) (by omega), ?_⟩
  refine bind_eq_ok_iff.mpr ⟨_, readMark_cons (by decide), ?_⟩
  refine bind_eq_ok_iff.mpr ⟨_, readField_padded (Nat.zero_le _) (by omega) (by omega), ?_⟩
  refine bind_eq_ok_iff.mpr ⟨_, readMark_cons (by decide), ?_⟩
  refine bind_eq_ok_iff.mpr ⟨_, readField_padded (Nat.zero_le _) (by omega) (by omega), ?_⟩
  refine bind_eq_ok_iff.mpr ⟨_, readFraction_fractionText (by omega), ?_⟩
  refine bind_eq_ok_iff.mpr ⟨_, rfl, ?_⟩
  have hrange : (!isCounted (Date.ofDayNumber t.day).year ||
      decide (Date.daysInMonth (Date.ofDayNumber t.day).year (Date.ofDayNumber t.day).month <
        (Date.ofDayNumber t.day).day) || decide (86400 ≤ Int.natAbs 0)) = false := by
    rw [h.year]
    simpa using hdate.day_le
  have htime : ((t.second / 3600 : Nat) * 3600 + (t.second / 60 % 60 : Nat) * 60 +
      (min (t.second % 60 + leap) 59 : Nat) - 0 : Int) = t.asWritten.second := by
    omega
  dsimp only
  rw [if_neg (by simp [Text.dropBlanks]), hrange, if_neg Bool.false_ne_true, htime, hnanos,
    Date.dayNumber_ofDayNumber]
  have hsameDay : t.day + (t.asWritten.second : Int) / 86400 = t.asWritten.day := by
    omega
  have hsameSecond : ((t.asWritten.second : Int) % 86400).toNat = t.asWritten.second := by
    omega
  rw [hsameDay, hsameSecond]
  rfl

end Instant
end Provision
