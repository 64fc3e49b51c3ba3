import Mathlib
import Provision.Template.Placeholder

/-!
# The forms of placeholders

A placeholder is written in one of three forms: between two braces, between two braces with an
ampersand after the opening ones, or between three braces.  In every form blanks may stand around
the name.  `IsPlaceholder name p` says that `p` is written so; it is stated on its own, without the
reader of placeholders.

**Results.**
* `placeholder?_eq_some_iff`: the reader takes a placeholder off the front of some characters iff
  they start with one.
* `IsPlaceholder.braces_before`: an opening brace in a placeholder follows opening braces only.
-/

namespace Provision
namespace Template

/-- The characters that a name may start with. -/
def IsNameStart (c : Char) : Prop :=
  ('A' ≤ c ∧ c ≤ 'Z') ∨ ('a' ≤ c ∧ c ≤ 'z') ∨ ('0' ≤ c ∧ c ≤ '9') ∨ c = '_'

/-- The characters that a name may go on with. -/
def IsNamePart (c : Char) : Prop :=
  IsNameStart c ∨ c = ':' ∨ c = '.' ∨ c = '-'

inductive IsName : List Char → Prop
  | cons
      {c : Char}
      {rest : List Char}
      (first : IsNameStart c)
      (others : ∀ d ∈ rest, IsNamePart d) :
      IsName (c :: rest)

/-- How a placeholder is set off from the text around it. -/
inductive Form where
  | double
  | ampersand
  | triple

def Form.opening : Form → List Char
  | .double => ['{', '{']
  | .ampersand => ['{', '{', '&']
  | .triple => ['{', '{', '{']

def Form.closing : Form → List Char
  | .double => ['}', '}']
  | .ampersand => ['}', '}']
  | .triple => ['}', '}', '}']

/-- A name with blanks around it. -/
inductive IsPadded (name : List Char) : List Char → Prop
  | intro
      {before after : List Char}
      (blankBefore : ∀ c ∈ before, Text.isBlank c = true)
      (named : IsName name)
      (blankAfter : ∀ c ∈ after, Text.isBlank c = true) :
      IsPadded name (before ++ name ++ after)

inductive IsPlaceholder (name : List Char) : List Char → Prop
  | intro
      (form : Form)
      {inner : List Char}
      (padded : IsPadded name inner) :
      IsPlaceholder name (form.opening ++ inner ++ form.closing)

/-! ## Classes of characters -/

theorem isNameStart_iff
    {c : Char} :
    isNameStart c = true ↔ IsNameStart c := by
  simp only [isNameStart, IsNameStart, Char.isAlphanum, Char.isAlpha, Char.isUpper, Char.isLower,
    Char.isDigit, Bool.or_eq_true, Bool.and_eq_true, decide_eq_true_eq, ge_iff_le, or_assoc]
  rfl

theorem isNamePart_iff
    {c : Char} :
    isNamePart c = true ↔ IsNamePart c := by
  simp [isNamePart, IsNamePart, isNameStart_iff, or_assoc]

/-- The characters of names lie between the hyphen and the small letters. -/
theorem IsNamePart.bounds
    {c : Char}
    (h : IsNamePart c) :
    0x2D ≤ c.toNat ∧ c.toNat ≤ 0x7A := by
  have hle : ∀ a b : Char, a ≤ b ↔ a.toNat ≤ b.toNat := fun _ _ => Iff.rfl
  have hcodes : 'A'.toNat = 0x41 ∧ 'Z'.toNat = 0x5A ∧ 'a'.toNat = 0x61 ∧ 'z'.toNat = 0x7A ∧
      '0'.toNat = 0x30 ∧ '9'.toNat = 0x39 := by decide
  simp only [IsNamePart, IsNameStart, hle] at h
  rcases h with (h | h | h | rfl) | rfl | rfl | rfl
  · omega
  · omega
  · omega
  all_goals decide

/-- Blanks stand before or after the characters of names and the braces. -/
theorem bounds_of_isBlank
    {c : Char}
    (h : Text.isBlank c = true) :
    c.toNat ≤ 0x20 ∨ 0x7D < c.toNat := by
  simp only [Text.isBlank, Bool.or_eq_true, Bool.and_eq_true, decide_eq_true_eq, beq_iff_eq] at h
  omega

/-- No character of a name is blank. -/
theorem IsNamePart.isBlank_eq_false
    {c : Char}
    (h : IsNamePart c) :
    Text.isBlank c = false := by
  rw [Bool.eq_false_iff]
  intro hblank
  have hname := h.bounds
  have hbounds := bounds_of_isBlank hblank
  omega

/-- A character outside the names and the blanks does not stand inside a placeholder. -/
theorem IsPadded.not_mem
    {c : Char}
    {name inner : List Char}
    (h : IsPadded name inner)
    (hname : ¬ IsNamePart c)
    (hblank : Text.isBlank c = false) :
    c ∉ inner := by
  obtain ⟨blankBefore, ⟨first, others⟩, blankAfter⟩ := h
  simp only [List.mem_append, List.mem_cons, not_or]
  refine ⟨⟨?_, ?_, ?_⟩, ?_⟩
  · intro hc
    rw [blankBefore c hc] at hblank
    cases hblank
  · rintro rfl
    exact hname (Or.inl first)
  · exact fun hc => hname (others c hc)
  · intro hc
    rw [blankAfter c hc] at hblank
    cases hblank

/-! ## Reading placeholders -/

/-- The longest run of a class of characters ends where another character follows. -/
theorem span_append
    {p : Char → Bool}
    {run rest : List Char}
    (hrun : ∀ c ∈ run, p c = true)
    (hrest : ∀ c ∈ rest.head?, p c = false) :
    (run ++ rest).takeWhile p = run ∧ (run ++ rest).dropWhile p = rest := by
  rw [List.takeWhile_append_of_pos hrun, List.dropWhile_append_of_pos hrun]
  cases rest with
  | nil => simp
  | cons c rest =>
      have hc : p c = false := hrest c rfl
      simp [hc]

theorem name?_sound
    {cs name rest : List Char}
    (h : name? cs = some (name, rest)) :
    IsName name ∧ cs = name ++ rest := by
  cases cs with
  | nil => cases h
  | cons c cs =>
      simp only [name?] at h
      split at h
      · rename_i hc
        cases h
        refine ⟨.cons (isNameStart_iff.mp hc) ?_, ?_⟩
        · exact fun d hd => isNamePart_iff.mp (List.mem_takeWhile_imp hd)
        · rw [List.cons_append, List.takeWhile_append_dropWhile]
      · cases h

theorem name?_append
    {name rest : List Char}
    (hname : IsName name)
    (hrest : ∀ c ∈ rest.head?, ¬ IsNamePart c) :
    name? (name ++ rest) = some (name, rest) := by
  obtain ⟨first, others⟩ := hname
  rename_i c tail
  have hspan := span_append (fun d hd => isNamePart_iff.mpr (others d hd)) (fun d hd =>
    Bool.eq_false_iff.mpr fun hpart => hrest d hd (isNamePart_iff.mp hpart))
  rw [List.cons_append, name?, if_pos (isNameStart_iff.mpr first), hspan.1, hspan.2]

/-- A name is taken off between blanks iff it stands there and the closing mark follows. -/
theorem enclosed?_eq_some_iff
    {closing cs name rest : List Char}
    (hclosing : closing.head? = some '}') :
    enclosed? closing cs = some (name, rest) ↔
      ∃ inner, IsPadded name inner ∧ cs = inner ++ closing ++ rest := by
  constructor
  · intro h
    simp only [enclosed?] at h
    split at h
    · cases h
    · rename_i n r hn
      split at h
      · cases h
      · rename_i r' hr
        cases h
        obtain ⟨hname, hcs⟩ := name?_sound hn
        have hr' := Text.afterStart?_eq_some_iff.mp hr
        have hblanks : ∀ l : List Char, l = l.takeWhile Text.isBlank ++ Text.dropBlanks l :=
          fun l => List.takeWhile_append_dropWhile.symm
        refine ⟨cs.takeWhile Text.isBlank ++ name ++ r.takeWhile Text.isBlank,
          .intro (fun c hc => List.mem_takeWhile_imp hc) hname
            (fun c hc => List.mem_takeWhile_imp hc), ?_⟩
        calc cs
          _ = cs.takeWhile Text.isBlank ++ (name ++ r) := by rw [← hcs]; exact hblanks cs
          _ = cs.takeWhile Text.isBlank ++ (name ++ (r.takeWhile Text.isBlank ++
                (closing ++ rest))) := by rw [← hr', ← hblanks r]
          _ = _ := by simp
  · rintro ⟨inner, ⟨blankBefore, hname, blankAfter⟩, rfl⟩
    rename_i before after
    obtain ⟨tail, rfl⟩ := List.head?_eq_some_iff.mp hclosing
    have hleft : (before ++ (name ++ (after ++ ('}' :: tail ++ rest)))).dropWhile Text.isBlank =
        name ++ (after ++ ('}' :: tail ++ rest)) := by
      refine (span_append blankBefore ?_).2
      obtain ⟨first, _⟩ := hname
      intro c hc
      cases hc
      exact IsNamePart.isBlank_eq_false (.inl first)
    have hread : name? (name ++ (after ++ ('}' :: tail ++ rest))) =
        some (name, after ++ ('}' :: tail ++ rest)) := by
      refine name?_append hname ?_
      intro c hc hpart
      cases after with
      | nil =>
          cases hc
          exact absurd hpart.bounds (by decide)
      | cons d after =>
          cases hc
          have hblank := blankAfter c List.mem_cons_self
          rw [hpart.isBlank_eq_false] at hblank
          cases hblank
    have hright : (after ++ ('}' :: tail ++ rest)).dropWhile Text.isBlank =
        '}' :: tail ++ rest := by
      refine (span_append blankAfter ?_).2
      intro c hc
      cases hc
      decide
    have hstart : Text.afterStart? ('}' :: tail) ('}' :: tail ++ rest) = some rest :=
      Text.afterStart?_eq_some_iff.mpr rfl
    simp only [enclosed?, Text.dropBlanks, List.append_assoc] at *
    rw [hleft, hread]
    dsimp only
    rw [hright, hstart]

theorem triple?_eq_some_iff
    {cs name rest : List Char} :
    triple? cs = some (name, rest) ↔
      ∃ inner, IsPadded name inner ∧
        cs = Form.triple.opening ++ inner ++ Form.triple.closing ++ rest := by
  unfold triple?
  split
  · rw [enclosed?_eq_some_iff rfl]
    simp [Form.opening, Form.closing]
  · rename_i hother
    refine ⟨nofun, ?_⟩
    rintro ⟨inner, _, rfl⟩
    exact absurd rfl (hother _)

/-- Between two braces an ampersand may stand in front of the padded name. -/
theorem dropAmpersand_eq_iff
    {cs name inner rest : List Char}
    (hinner : IsPadded name inner) :
    dropAmpersand cs = inner ++ rest ↔ cs = inner ++ rest ∨ cs = '&' :: (inner ++ rest) := by
  have hamp : '&' ∉ inner :=
    hinner.not_mem (fun h => absurd h.bounds (by decide)) (by decide)
  unfold dropAmpersand
  split
  · rename_i cs
    constructor
    · rintro rfl
      exact Or.inr rfl
    · rintro (h | h)
      · obtain ⟨blankBefore, ⟨first, others⟩, blankAfter⟩ := hinner
        rename_i before after c tail
        cases before with
        | nil =>
            cases h
            simp at hamp
        | cons d before =>
            cases h
            simp at hamp
      · exact List.tail_eq_of_cons_eq h
  · rename_i hother
    constructor
    · exact Or.inl
    · rintro (h | h)
      · exact h
      · exact absurd h (hother _)

theorem double?_eq_some_iff
    {cs name rest : List Char} :
    double? cs = some (name, rest) ↔
      ∃ inner, IsPadded name inner ∧
        (cs = Form.double.opening ++ inner ++ Form.double.closing ++ rest ∨
          cs = Form.ampersand.opening ++ inner ++ Form.ampersand.closing ++ rest) := by
  unfold double?
  split
  · rename_i cs
    rw [enclosed?_eq_some_iff rfl]
    refine exists_congr fun inner => and_congr_right fun hinner => ?_
    rw [List.append_assoc, dropAmpersand_eq_iff hinner]
    simp [Form.opening, Form.closing]
  · rename_i hother
    refine ⟨nofun, ?_⟩
    rintro ⟨inner, _, rfl | rfl⟩
    · exact absurd rfl (hother _)
    · exact absurd rfl (hother _)

/-- A third opening brace does not stand in front of a name between two braces. -/
theorem triple?_eq_none
    {cs : List Char}
    (h : cs[2]? ≠ some '{') :
    triple? cs = none := by
  unfold triple?
  split
  · exact absurd rfl h
  · rfl

/-- A placeholder is taken off the front of some characters iff they start with one. -/
theorem placeholder?_eq_some_iff
    {cs name rest : List Char} :
    placeholder? cs = some (name, rest) ↔ ∃ p, IsPlaceholder name p ∧ cs = p ++ rest := by
  constructor
  · intro h
    simp only [placeholder?] at h
    split at h
    · rename_i htriple
      cases h
      obtain ⟨inner, hinner, rfl⟩ := triple?_eq_some_iff.mp htriple
      exact ⟨_, .intro .triple hinner, rfl⟩
    · obtain ⟨inner, hinner, rfl | rfl⟩ := double?_eq_some_iff.mp h
      · exact ⟨_, .intro .double hinner, rfl⟩
      · exact ⟨_, .intro .ampersand hinner, rfl⟩
  · rintro ⟨_, ⟨form, hinner⟩, hcs⟩
    rename_i inner
    have hbrace : '{' ∉ inner :=
      hinner.not_mem (fun h => absurd h.bounds (by decide)) (by decide)
    cases form with
    | triple =>
        have htriple : triple? cs = some (name, rest) :=
          triple?_eq_some_iff.mpr ⟨inner, hinner, hcs⟩
        rw [placeholder?, htriple]
    | ampersand =>
        have hdouble : double? cs = some (name, rest) :=
          double?_eq_some_iff.mpr ⟨inner, hinner, Or.inr hcs⟩
        have hthird : cs[2]? ≠ some '{' := by simp [hcs, Form.opening]
        rw [placeholder?, triple?_eq_none hthird, hdouble]
    | double =>
        have hdouble : double? cs = some (name, rest) :=
          double?_eq_some_iff.mpr ⟨inner, hinner, Or.inl hcs⟩
        have hthird : cs[2]? ≠ some '{' := by
          cases inner with
          | nil => simp [hcs, Form.opening, Form.closing]
          | cons c inner =>
              intro hc
              simp [hcs, Form.opening] at hc
              simp [hc] at hbrace
        rw [placeholder?, triple?_eq_none hthird, hdouble]

theorem Form.dropLast_opening
    (form : Form) :
    ∀ c ∈ form.opening.dropLast, c = '{' := by
  cases form
  all_goals simp [Form.opening]

/-- An opening brace in a placeholder follows opening braces only. -/
theorem IsPlaceholder.braces_before
    {name p before after : List Char}
    (h : IsPlaceholder name p)
    (hp : p = before ++ '{' :: after) :
    ∀ c ∈ before, c = '{' := by
  obtain ⟨form, hinner⟩ := h
  rename_i inner
  have hrest : '{' ∉ inner ++ form.closing := by
    rw [List.mem_append, not_or]
    refine ⟨hinner.not_mem (fun h => absurd h.bounds (by decide)) (by decide), ?_⟩
    cases form
    all_goals simp [Form.closing]
  rw [List.append_assoc] at hp
  rcases List.append_eq_append_iff.mp hp with ⟨between, _, htail⟩ | ⟨between, hopening, htail⟩
  · exact absurd (htail ▸ List.mem_append_right between List.mem_cons_self) hrest
  · cases between with
    | nil => exact absurd (htail ▸ List.mem_cons_self) hrest
    | cons d between =>
        intro c hc
        refine form.dropLast_opening c ?_
        rw [hopening, List.dropLast_append_of_ne_nil (List.cons_ne_nil d between)]
        exact List.mem_append_left _ hc

/-- Every placeholder starts with an opening brace. -/
theorem IsPlaceholder.head?
    {name p : List Char}
    (h : IsPlaceholder name p) :
    p.head? = some '{' := by
  obtain ⟨form, _⟩ := h
  cases form
  all_goals rfl

end Template
end Provision
