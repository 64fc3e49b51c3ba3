import Provision.Proofs.Entries
import Provision.Proofs.Text.Letters
import Provision.Template.Variables

/-!
# The value that a name stands for

A name can be a variable as a whole.  Otherwise it is read as a variable with a walk into its value:
the name is cut at a dot, what stands before the dot is a variable, and the segments after it, between
dots, are walked one after the other.  Dots stand in the names of variables and in keys, too, so
several cuts may lead to a value; the one with the longest variable counts, and a cut whose walk ends
nowhere does not count at all.

**Results.**
* `walk?_eq_some_iff`: where the segments of a name lead.
* `lookupCut?_eq_some_iff`: when a cut leads to a value.
* `lookup?_verdict`: which value a name stands for, and which names stand for none.
-/

namespace Provision
namespace Variables

/-- A segment that leads from a value to a part of it: to the member of an object under that key, or
to the element of a list at that position, written in decimal digits. -/
inductive Leads : List Char → Tree → Tree → Prop
  | member
      {key : List Char}
      {entries : List (String × Tree)}
      {t : Tree}
      (found : Entries.find? (String.ofList key) entries = some t) :
      Leads key (.object entries) t
  | element
      {digits : List Char}
      {items : List Tree}
      {t : Tree}
      (written : digits ≠ [])
      (decimal : ∀ c ∈ digits, c.isDigit = true)
      (inRange : items[Nat.ofDigitChars 10 digits 0]? = some t) :
      Leads digits (.list items) t

/-- Segments that lead from a value to a part of it, one after the other. -/
inductive Walk : List (List Char) → Tree → Tree → Prop
  | nil
      (t : Tree) :
      Walk [] t t
  | cons
      {segment : List Char}
      {segments : List (List Char)}
      {t u v : Tree}
      (first : Leads segment t u)
      (later : Walk segments u v) :
      Walk (segment :: segments) t v

/-- A part of a name, up to a dot, that is a variable from whose value the segments after the dot
lead to a value. -/
inductive Reaches (vars : Variables) (name before : List Char) (t : Tree) : Prop
  | intro
      {after : List Char}
      {segments : List (List Char)}
      {root : Tree}
      (cut : name = before ++ '.' :: after)
      (known : Entries.find? (String.ofList before) vars = some root)
      (parted : Text.Parted '.' segments after)
      (walk : Walk segments root t)

theorem position?_eq_some_iff
    {digits : List Char}
    {n : Nat} :
    position? digits = some n ↔
      digits ≠ [] ∧ (∀ c ∈ digits, c.isDigit = true) ∧ Nat.ofDigitChars 10 digits 0 = n := by
  rw [position?, Text.foldl_digits]
  simp [and_assoc]

theorem step?_eq_some_iff
    {segment : List Char}
    {t u : Tree} :
    step? segment t = some u ↔ Leads segment t u := by
  constructor
  · intro h
    cases t with
    | object entries => exact .member h
    | list items =>
        obtain ⟨n, hn, hitem⟩ := Option.bind_eq_some_iff.mp h
        obtain ⟨hwritten, hdecimal, rfl⟩ := position?_eq_some_iff.mp hn
        exact .element hwritten hdecimal hitem
    | _ => cases h
  · intro h
    cases h with
    | member found => exact found
    | element written decimal inRange =>
        rw [step?, position?_eq_some_iff.mpr ⟨written, decimal, rfl⟩]
        exact inRange

/-- Segments are walked as far as they lead. -/
theorem walk?_eq_some_iff
    {segments : List (List Char)}
    {t u : Tree} :
    walk? segments t = some u ↔ Walk segments t u := by
  constructor
  · intro h
    induction segments generalizing t with
    | nil =>
        cases h
        exact .nil _
    | cons segment segments ih =>
        obtain ⟨v, hv, hu⟩ := Option.bind_eq_some_iff.mp h
        exact .cons (step?_eq_some_iff.mp hv) (ih hu)
  · intro h
    induction h with
    | nil => rfl
    | cons first _ ih => rw [walk?, step?_eq_some_iff.mpr first, Option.bind_some, ih]

/-- A cut of a name gives the value that its first part reaches. -/
theorem lookupCut?_eq_some_iff
    {vars : Variables}
    {name : List Char}
    {cut : List Char × List Char}
    {t : Tree}
    (h : cut ∈ Text.cuts '.' name) :
    lookupCut? vars cut = some t ↔ Reaches vars name cut.1 t := by
  have hname : name = cut.1 ++ '.' :: cut.2 := Text.mem_cuts_iff.mp h
  rw [lookupCut?, Option.bind_eq_some_iff]
  constructor
  · rintro ⟨root, hroot, hwalk⟩
    exact .intro hname hroot (Text.parted_split '.' cut.2) (walk?_eq_some_iff.mp hwalk)
  · rintro ⟨hcut, hknown, hparted, hwalk⟩
    rw [hname, List.append_cancel_left_eq, List.cons.injEq] at hcut
    rw [← hcut.2, ← Text.split_eq_iff] at hparted
    exact ⟨_, hknown, by rw [hparted, walk?_eq_some_iff.mpr hwalk]⟩

theorem Reaches.exists_cut
    {vars : Variables}
    {name before : List Char}
    {t : Tree}
    (h : Reaches vars name before t) :
    ∃ after, (before, after) ∈ Text.cuts '.' name := by
  obtain ⟨hcut, -, -, -⟩ := h
  exact ⟨_, Text.mem_cuts_iff.mpr hcut⟩

/-- A name that is no variable is looked up at its cuts, the last of which counts. -/
theorem lookup?_of_unknown
    {vars : Variables}
    {name : List Char}
    (h : Entries.find? (String.ofList name) vars = none) :
    vars.lookup? name = lastSome? (lookupCut? vars) (Text.cuts '.' name) := by
  rw [lookup?, h]
  rfl

/-- The cuts of a name that is no variable lead to the value that its longest part reaches. -/
theorem lookup?_eq_some_iff_of_unknown
    {vars : Variables}
    {name : List Char}
    {t : Tree}
    (h : Entries.find? (String.ofList name) vars = none) :
    vars.lookup? name = some t ↔
      ∃ before, Reaches vars name before t ∧
        ∀ longer u, Reaches vars name longer u → longer.length ≤ before.length := by
  rw [lookup?_of_unknown h, lastSome?_eq_some_iff (Text.cuts_pairwise '.' name)]
  constructor
  · rintro ⟨cut, hcut, hvalue, hlater⟩
    refine ⟨cut.1, (lookupCut?_eq_some_iff hcut).mp hvalue, fun longer u hlonger => ?_⟩
    obtain ⟨after, hcut'⟩ := hlonger.exists_cut
    by_contra hlength
    have hnone := hlater _ hcut' (Nat.lt_of_not_le hlength)
    rw [(lookupCut?_eq_some_iff hcut').mpr hlonger] at hnone
    cases hnone
  · rintro ⟨before, hbefore, hlongest⟩
    obtain ⟨after, hcut⟩ := hbefore.exists_cut
    refine ⟨_, hcut, (lookupCut?_eq_some_iff hcut).mpr hbefore, fun cut' hcut' hlength => ?_⟩
    rw [Option.eq_none_iff_forall_ne_some]
    intro u hu
    exact absurd (hlongest _ u ((lookupCut?_eq_some_iff hcut').mp hu)) (Nat.not_le_of_lt hlength)

theorem lookup?_eq_none_iff_of_unknown
    {vars : Variables}
    {name : List Char}
    (h : Entries.find? (String.ofList name) vars = none) :
    vars.lookup? name = none ↔ ∀ before t, ¬ Reaches vars name before t := by
  rw [lookup?_of_unknown h, lastSome?_eq_none_iff]
  constructor
  · intro hnone before t hreaches
    obtain ⟨after, hcut⟩ := hreaches.exists_cut
    have hvalue := (lookupCut?_eq_some_iff hcut).mpr hreaches
    rw [hnone _ hcut] at hvalue
    cases hvalue
  · intro hnone cut hcut
    rw [Option.eq_none_iff_forall_ne_some]
    exact fun t ht => hnone _ t ((lookupCut?_eq_some_iff hcut).mp ht)

/-- A name stands for the value of the variable of that name, or else for the value that its longest
part up to a dot reaches; it stands for none if there is neither.  So a part that reaches a value
gives the name one, whatever longer parts reach. -/
theorem lookup?_verdict
    (vars : Variables)
    (name : List Char) :
    (∀ t, vars.lookup? name = some t ↔
      Entries.find? (String.ofList name) vars = some t ∨
        Entries.find? (String.ofList name) vars = none ∧
          ∃ before, Reaches vars name before t ∧
            ∀ longer u, Reaches vars name longer u → longer.length ≤ before.length) ∧
      (vars.lookup? name = none ↔
        Entries.find? (String.ofList name) vars = none ∧
          ∀ before t, ¬ Reaches vars name before t) ∧
      ∀ before t, Reaches vars name before t → ∃ u, vars.lookup? name = some u := by
  cases hwhole : Entries.find? (String.ofList name) vars with
  | some root =>
      have hlookup : vars.lookup? name = some root := by rw [lookup?, hwhole]
      simp [hlookup]
  | none =>
      have hvalue := fun t => lookup?_eq_some_iff_of_unknown (t := t) hwhole
      have hnone := lookup?_eq_none_iff_of_unknown hwhole
      refine ⟨by simpa using hvalue, by simpa using hnone, fun before t hreaches => ?_⟩
      rw [← Option.ne_none_iff_exists']
      exact fun h => hnone.mp h before t hreaches

/-- A variable with nested values, and one whose name goes further but whose value has no parts. -/
def obstructed : Variables :=
  [("a", .object [("b", .list [.object [("", .object [("c", .nat 7)])]])]), ("a.b", .text "flat")]

/-- The longest part of a name that is a variable leads nowhere, a shorter one leads to a value
through a list and an empty segment. -/
theorem obstructed_lookup?_verdict :
    Entries.find? "a.b" obstructed = some (.text "flat") ∧
      Reaches obstructed "a.b.00..c".toList ['a'] (.nat 7) ∧
      (∃ u, obstructed.lookup? "a.b.00..c".toList = some u) ∧
      obstructed.lookup? "a.b.00..c".toList = some (.nat 7) ∧
      ∀ before t, ¬ Reaches obstructed "a.b.1".toList before t := by
  have hreaches : Reaches obstructed "a.b.00..c".toList ['a'] (.nat 7) := by
    refine .intro rfl rfl (Text.parted_split '.' "b.00..c".toList) (walk?_eq_some_iff.mp ?_)
    rfl
  refine ⟨rfl, hreaches, ?_, rfl, ?_⟩
  · exact (lookup?_verdict obstructed "a.b.00..c".toList).2.2 _ _ hreaches
  · exact ((lookup?_verdict obstructed "a.b.1".toList).2.1.mp rfl).2

end Variables
end Provision
