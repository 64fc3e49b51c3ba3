import Mathlib
import Provision.Text.Blank
import Provision.Text.Name

/-!
# Letters and digits

Names are compared in two ways: letter by letter, where only ASCII letters have a case, or by the
lower case of all characters, which may take several characters.  Apart from `k`, which is also the
lower case of the Kelvin sign, no small letter and no digit comes from outside of ASCII.  So both ways
agree on names that consist of such characters.

**Results.**
* `flatMap_lower_eq_iff`: which texts have a given lower case.
* `sameName_iff_lowerAscii`: the spellings of such a name without separators.
* `trim_eq_self`: a text without blanks at its ends stays as it is.
* `foldl_digits`: the number that digits stand for.
-/

namespace Provision
namespace Text

/-! ## Lower case -/

/-- Small letters and digits that are the lower case of ASCII characters only. -/
def IsBasic (c : Char) : Prop :=
  ((0x61 ≤ c.toNat ∧ c.toNat ≤ 0x7A) ∨ (0x30 ≤ c.toNat ∧ c.toNat ≤ 0x39)) ∧ c ≠ 'k'

instance decideIsBasic (c : Char) : Decidable (IsBasic c) :=
  inferInstanceAs (Decidable (_ ∧ _))

/-- Characters of which each is basic. -/
def AreBasic (cs : List Char) : Prop :=
  ∀ c ∈ cs, IsBasic c

instance decideAreBasic (cs : List Char) : Decidable (AreBasic cs) :=
  List.decidableBAll IsBasic cs

theorem not_isBasic_of_not_ascii
    {c : Char}
    (h : ¬ c.toNat < 0x80) :
    ¬ IsBasic c := by
  rw [IsBasic]
  omega

theorem isUpper_bounds
    {c : Char}
    (h : c.isUpper = true) :
    0x41 ≤ c.toNat ∧ c.toNat ≤ 0x5A := by
  simpa [Char.isUpper, UInt32.le_iff_toNat_le] using h

theorem lower_of_ascii
    {c : Char}
    (h : c.toNat < 0x80) :
    lower c = [c.toLower] := by
  rw [lower, if_pos h]
  by_cases hupper : c.isUpper = true
  · rw [if_pos hupper, Char.toLower_eq_of_isUpper hupper]
  · rw [if_neg hupper, Char.toLower_eq_of_not_isUpper hupper]

theorem toLower_of_not_ascii
    {c : Char}
    (h : ¬ c.toNat < 0x80) :
    c.toLower = c := by
  refine Char.toLower_eq_of_not_isUpper fun hupper => ?_
  have hbounds := isUpper_bounds hupper
  omega

/-- Characters beyond ASCII have their lower case beyond ASCII, except for the Kelvin sign. -/
theorem lowerRuns_beyond_ascii :
    ∀ r ∈ lowerRuns, r.last < 0x80 ∨ 0x80 ≤ r.first + r.offset ∨
      r.first = 0x212A ∧ r.last = 0x212A ∧ r.offset = -0x20BF := by
  decide +kernel

/-- A number beyond ASCII is that of no basic character. -/
theorem not_isBasic_ofNat
    {n : Nat}
    (h : 0x80 ≤ n) :
    ¬ IsBasic (Char.ofNat n) := by
  rw [IsBasic, Char.toNat_ofNat]
  split <;> omega

/-- The lower case of a character beyond ASCII does not consist of basic characters. -/
theorem exists_not_isBasic
    {c : Char}
    (h : ¬ c.toNat < 0x80) :
    ∃ d ∈ lower c, ¬ IsBasic d := by
  rw [lower, if_neg h]
  split
  · exact ⟨Char.ofNat 0x307, by simp, not_isBasic_ofNat (by decide)⟩
  · cases hrun : runOf c.toNat with
    | none => exact ⟨c, List.mem_singleton_self c, not_isBasic_of_not_ascii h⟩
    | some r =>
        refine ⟨_, List.mem_singleton_self _, ?_⟩
        have hmem : r ∈ lowerRuns := List.mem_of_find?_eq_some hrun
        have hcontains : r.contains c.toNat = true :=
          List.find?_some (p := fun r => LowerRun.contains r c.toNat) hrun
        simp only [LowerRun.contains, Bool.and_eq_true, decide_eq_true_eq] at hcontains
        rcases lowerRuns_beyond_ascii r hmem with hascii | hbeyond | ⟨hfirst, hlast, hoffset⟩
        · omega
        · exact not_isBasic_ofNat (by omega)
        · have hkelvin : (c.toNat + r.offset).toNat = 'k'.toNat := by
            have hk : 'k'.toNat = 0x6B := rfl
            omega
          rw [hkelvin, Char.ofNat_toNat]
          exact fun hbasic => hbasic.2 rfl

/-- A text of basic characters is the lower case of the texts from which it differs in the case of
ASCII letters. -/
theorem flatMap_lower_eq_iff
    {cs basic : List Char}
    (h : AreBasic basic) :
    cs.flatMap lower = basic ↔ cs.map Char.toLower = basic := by
  induction cs generalizing basic with
  | nil => rw [List.flatMap_nil, List.map_nil]
  | cons c cs ih =>
      rw [List.flatMap_cons, List.map_cons]
      by_cases hascii : c.toNat < 0x80
      · rw [lower_of_ascii hascii, List.singleton_append]
        cases basic with
        | nil => simp
        | cons b basic =>
            rw [List.cons.injEq, List.cons.injEq, ih (List.forall_mem_cons.mp h).2]
      · rw [toLower_of_not_ascii hascii]
        constructor
        · rintro rfl
          obtain ⟨d, hd, hnot⟩ := exists_not_isBasic hascii
          exact absurd (h d (List.mem_append_left _ hd)) hnot
        · rintro rfl
          exact absurd (h c List.mem_cons_self) (not_isBasic_of_not_ascii hascii)

theorem IsBasic.toLower_eq
    {c : Char}
    (h : IsBasic c) :
    c.toLower = c := by
  refine Char.toLower_eq_of_not_isUpper fun hupper => ?_
  have hbounds := isUpper_bounds hupper
  have hbasic := h.1
  omega

/-! ## Names -/

/-- A text without separators is folded letter by letter. -/
theorem foldName_of_not_mem
    {s : String}
    (hunderscore : '_' ∉ s.toList)
    (hdash : '-' ∉ s.toList) :
    foldName s = s.toList.flatMap lower := by
  have hkept : ∀ c ∈ s.toList, (c != '_' && c != '-') = true := by
    intro c hc
    simp only [Bool.and_eq_true, bne_iff_ne]
    exact ⟨fun h => hunderscore (h ▸ hc), fun h => hdash (h ▸ hc)⟩
  rw [foldName, List.filter_eq_self.mpr hkept]

theorem AreBasic.map_toLower_eq
    {cs : List Char}
    (h : AreBasic cs) :
    cs.map Char.toLower = cs := by
  rw [List.map_congr_left fun c hc => (h c hc).toLower_eq, List.map_id']

theorem AreBasic.lowerAscii_eq
    {name : String}
    (h : AreBasic name.toList) :
    lowerAscii name = name := by
  rw [lowerAscii, h.map_toLower_eq, String.ofList_toList]

/-- Texts without separators are the same name as one of basic characters iff it is what is left of
them when ASCII letters are written small. -/
theorem sameName_iff_lowerAscii
    {name s : String}
    (hname : AreBasic name.toList)
    (hunderscore : '_' ∉ s.toList)
    (hdash : '-' ∉ s.toList) :
    sameName name s = true ↔ lowerAscii s = name := by
  have hfold : foldName name = name.toList := by
    rw [foldName_of_not_mem (fun h => absurd (hname _ h) (by decide))
      (fun h => absurd (hname _ h) (by decide)), flatMap_lower_eq_iff hname]
    exact hname.map_toLower_eq
  rw [sameName_iff, hfold, foldName_of_not_mem hunderscore hdash, eq_comm,
    flatMap_lower_eq_iff hname, lowerAscii, ← String.toList_inj, String.toList_ofList]

/-! ## Blanks -/

theorem dropBlanks_eq_self
    {cs : List Char}
    (h : ∀ c ∈ cs.head?, isBlank c = false) :
    dropBlanks cs = cs := by
  cases cs with
  | nil => rfl
  | cons c cs => exact dropBlanks_cons (h c rfl) cs

/-- A text without blanks at its ends stays as it is. -/
theorem trim_eq_self
    {s : String}
    (hfirst : ∀ c ∈ s.toList.head?, isBlank c = false)
    (hlast : ∀ c ∈ s.toList.getLast?, isBlank c = false) :
    trim s = s := by
  rw [← List.head?_reverse] at hlast
  rw [trim, trimChars, dropBlanks_eq_self hfirst, dropBlanks_eq_self hlast, List.reverse_reverse,
    String.ofList_toList]

/-! ## Digits -/

/-- Digits are read from left to right. -/
theorem foldl_digits
    (digits : List Char) :
    digits.foldl (fun n c => n * 10 + (c.toNat - '0'.toNat)) 0 = Nat.ofDigitChars 10 digits 0 := by
  rw [Nat.ofDigitChars_eq_foldl]
  congr
  funext n c
  rw [Nat.mul_comm]

end Text
end Provision
