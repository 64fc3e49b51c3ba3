import Provision.Json.Printer
import Provision.Json.Reader

/-!
# Texts that are read back

A character of a text is written as itself, or as a backslash with marks that the reader takes for
this character.  None of the two forms is taken for the closing quote, so a text ends where its
writing ended, whatever follows it.

**Results.**
* `Json.escape_cases`: the two forms in which a character is written.
* `Json.readChars_escaped`, `Json.readText_escaped`: a text is read back from its written form.
-/

namespace Provision
namespace Json

theorem hexValue?_hexDigit :
    ∀ n < 16, hexValue? (hexDigit n) = some n := by
  decide

theorem utf8Size_hexDigit :
    ∀ n < 16, (hexDigit n).utf8Size = 1 := by
  decide

/-- The code of a control character is read back from its two hexadecimal digits. -/
theorem readHex_control
    {n : Nat}
    (h : n < 0x20)
    (rest : List Char) :
    readHex ('0' :: '0' :: hexDigit (n / 16) :: hexDigit (n % 16) :: rest) = .ok (n, rest) := by
  have hhigh : n / 16 < 16 := by omega
  have hlow : n % 16 < 16 := by omega
  have hzero : hexValue? '0' = some 0 := by decide
  have hzeroSize : ('0').utf8Size = 1 := by decide
  have hlength : byteLength
      (List.take 4 ('0' :: '0' :: hexDigit (n / 16) :: hexDigit (n % 16) :: rest)) = 4 := by
    simp only [List.take_succ_cons, List.take_zero, byteLength, List.foldr_cons, List.foldr_nil,
      hzeroSize, utf8Size_hexDigit _ hhigh, utf8Size_hexDigit _ hlow]
  rw [readHex, hlength, if_neg (by decide)]
  simp only [hzero, hexValue?_hexDigit _ hhigh, hexValue?_hexDigit _ hlow]
  rw [show ((0 * 16 + 0) * 16 + n / 16) * 16 + n % 16 = n by omega]

/-- The characters whose escape names them by a letter or a mark. -/
def named : List Char :=
  ['"', '\\', '\x08', '\t', '\n', '\x0c', '\r']

theorem escape_of_mem_named
    {c : Char}
    (h : c ∈ named) :
    ∃ marks, escape c = '\\' :: marks ∧ ∀ rest, readEscape (marks ++ rest) = .ok (c, rest) := by
  simp only [named, List.mem_cons, List.not_mem_nil, or_false] at h
  obtain rfl | rfl | rfl | rfl | rfl | rfl | rfl := h <;> exact ⟨_, rfl, fun _ => rfl⟩

theorem escape_of_not_mem_named
    {c : Char}
    (h : c ∉ named) :
    escape c =
      if c.toNat < 0x20 then
        ['\\', 'u', '0', '0', hexDigit (c.toNat / 16), hexDigit (c.toNat % 16)]
      else [c] := by
  simp only [named, List.mem_cons, List.not_mem_nil, or_false, not_or] at h
  simp only [escape, h, if_false]

theorem readEscape_control
    {c : Char}
    (h : c.toNat < 0x20)
    (rest : List Char) :
    readEscape ('u' :: '0' :: '0' :: hexDigit (c.toNat / 16) :: hexDigit (c.toNat % 16) :: rest) =
      .ok (c, rest) := by
  simp only [readEscape, readHex_control h]
  rw [if_neg (by omega), if_neg (by omega), Char.ofNat_toNat]

/-- A character is written as itself, unless it is a quote, a backslash or a control character; then
it is written as a backslash with marks from which it is read back. -/
theorem escape_cases
    (c : Char) :
    (escape c = [c] ∧ c ≠ '"' ∧ c ≠ '\\' ∧ 0x20 ≤ c.toNat) ∨
      ∃ marks, escape c = '\\' :: marks ∧ ∀ rest, readEscape (marks ++ rest) = .ok (c, rest) := by
  by_cases hnamed : c ∈ named
  · exact .inr (escape_of_mem_named hnamed)
  · rw [escape_of_not_mem_named hnamed]
    split
    · rename_i hcontrol
      exact .inr ⟨_, rfl, readEscape_control hcontrol⟩
    · rename_i hplain
      refine .inl ⟨rfl, ?_, ?_, Nat.le_of_not_lt hplain⟩
      · exact fun h => hnamed (h ▸ by decide)
      · exact fun h => hnamed (h ▸ by decide)

theorem readChars_plain
    {fuel : Nat}
    {c : Char}
    (hquote : c ≠ '"')
    (hbackslash : c ≠ '\\')
    (hprintable : 0x20 ≤ c.toNat)
    {cs s rest : List Char}
    (h : readChars fuel cs = .ok (s, rest)) :
    readChars (fuel + 1) (c :: cs) = .ok (c :: s, rest) := by
  rw [readChars, if_neg (Nat.not_lt.mpr hprintable), h]
  · exact hquote
  · exact hbackslash

theorem readChars_backslash
    {fuel : Nat}
    {c : Char}
    {cs cs' s rest : List Char}
    (hescape : readEscape cs = .ok (c, cs'))
    (h : readChars fuel cs' = .ok (s, rest)) :
    readChars (fuel + 1) ('\\' :: cs) = .ok (c :: s, rest) := by
  simp only [readChars, hescape, h]

/-- The characters of a text are read from their written forms up to the closing quote. -/
theorem readChars_escaped
    {fuel : Nat}
    {s : List Char}
    (hfuel : s.length < fuel)
    (rest : List Char) :
    readChars fuel (s.flatMap escape ++ '"' :: rest) = .ok (s, rest) := by
  induction s generalizing fuel with
  | nil =>
      obtain ⟨fuel, rfl⟩ := Nat.exists_eq_add_one.mpr hfuel
      rfl
  | cons c s ih =>
      obtain ⟨fuel, rfl⟩ := Nat.exists_eq_add_one.mpr (Nat.zero_lt_of_lt hfuel)
      have hrest := ih (Nat.lt_of_succ_lt_succ hfuel)
      rw [List.flatMap_cons, List.append_assoc]
      obtain ⟨hself, hquote, hbackslash, hprintable⟩ | ⟨marks, hmarks, hread⟩ := escape_cases c
      · rw [hself]
        exact readChars_plain hquote hbackslash hprintable hrest
      · rw [hmarks]
        exact readChars_backslash (hread _) hrest

theorem length_le_length_escaped
    (s : List Char) :
    s.length ≤ (s.flatMap escape).length := by
  induction s with
  | nil => exact Nat.le_refl 0
  | cons c s ih =>
      have hpos : 0 < (escape c).length := by
        obtain ⟨hself, _⟩ | ⟨marks, hmarks, _⟩ := escape_cases c
        · rw [hself]
          exact Nat.zero_lt_one
        · rw [hmarks]
          exact Nat.zero_lt_succ _
      rw [List.flatMap_cons, List.length_append, List.length_cons]
      omega

/-- A text is read back from its written form, behind the opening quote. -/
theorem readText_escaped
    (s : String)
    (rest : List Char) :
    readText (s.toList.flatMap escape ++ '"' :: rest) = .ok (s, rest) := by
  have hfuel : s.toList.length <
      (s.toList.flatMap escape ++ '"' :: rest).length + 1 := by
    have := length_le_length_escaped s.toList
    rw [List.length_append]
    omega
  rw [readText, readChars_escaped hfuel]
  exact congrArg (fun s => Except.ok (s, rest)) String.ofList_toList

end Json
end Provision
