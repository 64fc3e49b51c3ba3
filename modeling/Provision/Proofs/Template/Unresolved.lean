import Provision.Proofs.Entries
import Provision.Proofs.Sorted
import Provision.Proofs.Template.Rendering

/-!
# Names without a value

Writing a template goes from left to right: wherever a placeholder starts it is replaced by the value
of its name or, if the name has none, written as it is, and any other character stands for itself.
`Renders vars cs out filled kept` says so as a relation of its own, which also tells the names of the
placeholders that were replaced and of those that were not.

**Results.**
* `exists_renders`, `Renders.eq_render`: there is one way to write a template, and it is the one that
  `render` and `unresolved` follow.
* `Variables.lookup?_mono`: a name that has a value keeps one when further variables come in.
* `unresolved_names`: the unresolved names are those of the placeholders that are not replaced; a
  template of which nothing is replaced stays as it is; new variables make no further name
  unresolved, and variables for the unresolved names leave none.
-/

namespace Provision

/-! ## Names that have a value -/

namespace Variables

/-- Whether all variables are variables of a second map, too, with the same values. -/
def Within (vars vars' : Variables) : Prop :=
  ∀ key t, Entries.find? key vars = some t → Entries.find? key vars' = some t

/-- New variables leave the others as they are. -/
theorem within_merge
    {vars added : Variables}
    (hnew : ∀ key ∈ Entries.keys added, key ∉ Entries.keys vars) :
    Within vars (vars.merge added) := by
  intro key t hfound
  have hother : ∀ e ∈ added, e.1 ≠ key := by
    rintro e he rfl
    have habsent := Entries.find?_eq_none_iff.mpr (hnew e.1 (List.mem_map_of_mem he))
    rw [hfound] at habsent
    cases habsent
  rw [merge, Entries.find?_insertAll_of_not_mem hother, hfound]

/-- A walk from a variable is the same in a map with further variables. -/
theorem lookupCut?_of_within
    {vars vars' : Variables}
    (hwithin : Within vars vars')
    {cut : List Char × List Char}
    {t : Tree}
    (h : lookupCut? vars cut = some t) :
    lookupCut? vars' cut = some t := by
  obtain ⟨root, hroot, hwalk⟩ := Option.bind_eq_some_iff.mp h
  exact Option.bind_eq_some_iff.mpr ⟨root, hwithin _ _ hroot, hwalk⟩

/-- A name that has a value keeps one when further variables come in.  The value may be another: a
new variable may stand under a longer part of the name. -/
theorem lookup?_mono
    {vars vars' : Variables}
    (hwithin : Within vars vars')
    {name : List Char}
    (h : (vars.lookup? name).isSome) :
    (vars'.lookup? name).isSome := by
  rw [lookup?] at h ⊢
  cases hwhole' : Entries.find? (String.ofList name) vars' with
  | some t => rfl
  | none =>
      cases hwhole : Entries.find? (String.ofList name) vars with
      | some t =>
          rw [hwithin _ _ hwhole] at hwhole'
          cases hwhole'
      | none =>
          rw [hwhole] at h
          simp only [List.findSome?_isSome_iff, List.mem_reverse] at h ⊢
          obtain ⟨cut, hcut, hfound⟩ := h
          obtain ⟨t, ht⟩ := Option.isSome_iff_exists.mp hfound
          exact ⟨cut, hcut, by rw [lookupCut?_of_within hwithin ht, Option.isSome_some]⟩

/-- Without variables no name has a value. -/
@[simp] theorem lookup?_nil
    (name : List Char) :
    lookup? [] name = none := by
  rw [lookup?, Entries.find?_nil]
  exact List.findSome?_eq_none_iff.mpr fun cut _ => rfl

/-- A variable under the whole name gives it a value. -/
theorem lookup?_of_mem_keys
    {vars : Variables}
    {name : List Char}
    (h : String.ofList name ∈ Entries.keys vars) :
    (vars.lookup? name).isSome := by
  rw [lookup?]
  cases hwhole : Entries.find? (String.ofList name) vars with
  | some t => rfl
  | none => exact absurd h (Entries.find?_eq_none_iff.mp hwhole)

end Variables

/-! ## Writing a template -/

namespace Template

/-- Writing a template from left to right.  `filled` are the names of the placeholders that are
replaced by the values of their names, `kept` those of the placeholders that are written as they
are. -/
inductive Renders (vars : Variables) :
    List Char → List Char → List String → List String → Prop
  | nil :
      Renders vars [] [] [] []
  | plain
      {c : Char}
      {rest out : List Char}
      {filled kept : List String}
      (starts : ∀ name p, IsPlaceholder name p → ¬ p <+: c :: rest)
      (later : Renders vars rest out filled kept) :
      Renders vars (c :: rest) (c :: out) filled kept
  | fill
      {name p rest out : List Char}
      {filled kept : List String}
      {t : Tree}
      (written : IsPlaceholder name p)
      (value : vars.lookup? name = some t)
      (later : Renders vars rest out filled kept) :
      Renders vars (p ++ rest) ((Variables.valueText t).toList ++ out)
        (String.ofList name :: filled) kept
  | keep
      {name p rest out : List Char}
      {filled kept : List String}
      (written : IsPlaceholder name p)
      (valueless : vars.lookup? name = none)
      (later : Renders vars rest out filled kept) :
      Renders vars (p ++ rest) (p ++ out) filled (String.ofList name :: kept)

theorem placeholder?_eq_none_iff
    {cs : List Char} :
    placeholder? cs = none ↔ ∀ name p, IsPlaceholder name p → ¬ p <+: cs := by
  constructor
  · rintro h name p hp ⟨rest, rfl⟩
    rw [placeholder?_eq_some_iff.mpr ⟨p, hp, rfl⟩] at h
    cases h
  · intro h
    rw [Option.eq_none_iff_forall_ne_some]
    rintro ⟨name, rest⟩ hfound
    obtain ⟨p, hp, rfl⟩ := placeholder?_eq_some_iff.mp hfound
    exact h name p hp (List.prefix_append p rest)

variable {vars : Variables}

/-- Every template can be written. -/
theorem exists_renders
    (vars : Variables)
    (cs : List Char) :
    ∃ out filled kept, Renders vars cs out filled kept := by
  induction cs using pieces.induct with
  | case1 => exact ⟨[], [], [], .nil⟩
  | case2 c rest name after hfound ih =>
      obtain ⟨p, hp, heq⟩ := placeholder?_eq_some_iff.mp hfound
      obtain ⟨out, filled, kept, hlater⟩ := ih
      rw [heq]
      cases hvalue : vars.lookup? name with
      | some t => exact ⟨_, _, _, .fill hp hvalue hlater⟩
      | none => exact ⟨_, _, _, .keep hp hvalue hlater⟩
  | case3 c rest hnone ih =>
      obtain ⟨out, filled, kept, hlater⟩ := ih
      exact ⟨_, _, _, .plain (placeholder?_eq_none_iff.mp hnone) hlater⟩

/-- A template is written in one way only, piece by piece. -/
theorem Renders.eq_render
    {cs out : List Char}
    {filled kept : List String}
    (h : Renders vars cs out filled kept) :
    out = (pieces cs).flatMap (Piece.render vars) ∧
      kept = (pieces cs).filterMap (Piece.unresolved? vars) := by
  induction h with
  | nil => simp
  | plain starts later ih =>
      rw [pieces_cons (placeholder?_eq_none_iff.mpr starts), List.flatMap_cons,
        List.filterMap_cons, ← ih.1, ← ih.2]
      exact ⟨rfl, rfl⟩
  | fill written value later ih =>
      rw [pieces_append written, List.flatMap_cons, List.filterMap_cons, ← ih.1, ← ih.2,
        Piece.render, Piece.unresolved?, value]
      exact ⟨rfl, rfl⟩
  | keep written valueless later ih =>
      rw [pieces_append written, List.flatMap_cons, List.filterMap_cons, ← ih.1, ← ih.2,
        Piece.render, Piece.unresolved?, valueless]
      exact ⟨rfl, rfl⟩

/-- The names of the placeholders that are not replaced have no value. -/
theorem Renders.eq_none_of_mem_kept
    {cs out : List Char}
    {filled kept : List String}
    (h : Renders vars cs out filled kept) :
    ∀ name ∈ kept, vars.lookup? name.toList = none := by
  induction h with
  | nil => simp
  | plain starts later ih => exact ih
  | fill written value later ih => exact ih
  | keep written valueless later ih =>
      refine List.forall_mem_cons.mpr ⟨?_, ih⟩
      rw [String.toList_ofList, valueless]

/-- A template stays as it is if no name has a value. -/
theorem Renders.eq_self
    {cs out : List Char}
    {filled kept : List String}
    (h : Renders vars cs out filled kept)
    (hvalueless : ∀ name ∈ filled, vars.lookup? name.toList = none) :
    out = cs := by
  induction h with
  | nil => rfl
  | plain starts later ih => rw [ih hvalueless]
  | fill written value later ih =>
      have hnone := (List.forall_mem_cons.mp hvalueless).1
      rw [String.toList_ofList, value] at hnone
      cases hnone
  | keep written valueless later ih => rw [ih hvalueless]

/-! ## Unresolved names -/

theorem mem_unresolved_iff
    {content name : String} :
    name ∈ unresolved content vars ↔
      ∃ p cs, .hole p cs ∈ pieces content.toList ∧ vars.lookup? cs = none ∧
        String.ofList cs = name := by
  rw [unresolved, Sorted.mem_texts_iff, List.mem_filterMap]
  constructor
  · rintro ⟨piece, hpiece, hname⟩
    cases piece with
    | plain c => cases hname
    | hole p cs =>
        rw [Piece.unresolved?] at hname
        split at hname
        · cases hname
        · rename_i hvalue
          exact ⟨p, cs, hpiece, Option.not_isSome_iff_eq_none.mp hvalue, Option.some.inj hname⟩
  · rintro ⟨p, cs, hpiece, hvalue, rfl⟩
    exact ⟨.hole p cs, hpiece, by rw [Piece.unresolved?, hvalue]; rfl⟩

/-- Further variables make no further name unresolved. -/
theorem unresolved_subset_of_within
    {vars' : Variables}
    (hwithin : vars.Within vars')
    (content : String) :
    unresolved content vars' ⊆ unresolved content vars := by
  intro name h
  obtain ⟨p, cs, hpiece, hvalue', hname⟩ := mem_unresolved_iff.mp h
  refine mem_unresolved_iff.mpr ⟨p, cs, hpiece, ?_, hname⟩
  rw [← Option.not_isSome_iff_eq_none] at hvalue' ⊢
  exact fun hvalue => hvalue' (Variables.lookup?_mono hwithin hvalue)

/-- Unresolved names are no variables. -/
theorem not_mem_keys_of_mem_unresolved
    {content name : String}
    (h : name ∈ unresolved content vars) :
    name ∉ Entries.keys vars := by
  obtain ⟨p, cs, _, hvalue, rfl⟩ := mem_unresolved_iff.mp h
  rw [← Option.not_isSome_iff_eq_none] at hvalue
  exact fun hkey => hvalue (Variables.lookup?_of_mem_keys hkey)

/-- The unresolved names of a template are in increasing order and are those of the placeholders that
are not replaced when it is written.  If they are the names of all its placeholders, it stays as it
is, as it does without variables.  New variables make no further name unresolved, and with a variable
for each unresolved name none is left. -/
theorem unresolved_names
    (content : String)
    (vars : Variables) :
    (unresolved content vars).Pairwise (· < ·) ∧
      (∃ filled kept,
        Renders vars content.toList (render content vars).toList filled kept) ∧
      (∀ out filled kept, Renders vars content.toList out filled kept →
        out = (render content vars).toList ∧
          (∀ name, name ∈ unresolved content vars ↔ name ∈ kept) ∧
          ((∀ name ∈ filled ++ kept, name ∈ unresolved content vars) →
            render content vars = content)) ∧
      render content [] = content ∧
      (∀ added : Variables, (∀ key ∈ Entries.keys added, key ∉ Entries.keys vars) →
        unresolved content (vars.merge added) ⊆ unresolved content vars) ∧
      ∀ added : Variables,
        (∀ name, name ∈ Entries.keys added ↔ name ∈ unresolved content vars) →
          unresolved content (vars.merge added) = [] := by
  have hwritten : ∀ {vars : Variables} {out : List Char} {filled kept : List String},
      Renders vars content.toList out filled kept → out = (render content vars).toList := by
    intro vars out filled kept h
    rw [render, String.toList_ofList]
    exact h.eq_render.1
  refine ⟨Sorted.texts_pairwise _, ?_, ?_, ?_, ?_, ?_⟩
  · obtain ⟨out, filled, kept, h⟩ := exists_renders vars content.toList
    exact ⟨filled, kept, hwritten h ▸ h⟩
  · intro out filled kept h
    have hkept : ∀ name, name ∈ unresolved content vars ↔ name ∈ kept := by
      intro name
      rw [unresolved, Sorted.mem_texts_iff, ← h.eq_render.2]
    refine ⟨hwritten h, hkept, fun hall => ?_⟩
    rw [← String.toList_inj, ← hwritten h]
    refine h.eq_self fun name hname => h.eq_none_of_mem_kept name ?_
    exact (hkept name).mp (hall name (List.mem_append_left kept hname))
  · obtain ⟨out, filled, kept, h⟩ := exists_renders [] content.toList
    rw [← String.toList_inj, ← hwritten h]
    exact h.eq_self fun name _ => Variables.lookup?_nil name.toList
  · exact fun added hnew => unresolved_subset_of_within (Variables.within_merge hnew) content
  · intro added hadded
    have hwithin : vars.Within (vars.merge added) :=
      Variables.within_merge fun key hkey => not_mem_keys_of_mem_unresolved ((hadded key).mp hkey)
    refine List.eq_nil_iff_forall_not_mem.mpr fun name hname => ?_
    have hlisted := unresolved_subset_of_within hwithin content hname
    have hkey : name ∈ Entries.keys (vars.merge added) :=
      Entries.mem_keys_insertAll_iff.mpr (Or.inr ((hadded name).mpr hlisted))
    exact not_mem_keys_of_mem_unresolved hname hkey

/-- Characters that are taken off as a placeholder with nothing after it are one. -/
theorem isPlaceholder_of_alone
    {name p : List Char}
    (h : placeholder? p = some (name, [])) :
    IsPlaceholder name p := by
  obtain ⟨p', hp, heq⟩ := placeholder?_eq_some_iff.mp h
  rw [heq, List.append_nil]
  exact hp

/-- Two placeholders without anything in between. -/
def adjacent : String := "\x7b\x7b a.b \x7d\x7d\x7b\x7b\x7bside:c\x7d\x7d\x7d"

/-- A variable under a part of a name, with a value that leads nowhere. -/
def rootVariable : Variables := [("a", .text "1")]

/-- A part of a name that has a value does not give the name one; a variable for one of the two names
leaves the other, and variables for both leave none. -/
theorem adjacent_unresolved_names :
    Renders rootVariable adjacent.toList adjacent.toList [] ["a.b", "side:c"] ∧
      (∀ name ∈ [] ++ ["a.b", "side:c"], name ∈ unresolved adjacent rootVariable) ∧
      render adjacent rootVariable = adjacent ∧
      "a.b" ∉ Entries.keys rootVariable ∧
      unresolved adjacent (rootVariable.merge [("a.b", .null)]) ⊆
        unresolved adjacent rootVariable ∧
      unresolved adjacent (rootVariable.merge [("side:c", .null), ("a.b", .null)]) = [] := by
  have hdotted : IsPlaceholder ['a', '.', 'b'] "\x7b\x7b a.b \x7d\x7d".toList :=
    isPlaceholder_of_alone (by decide)
  have hside : IsPlaceholder ['s', 'i', 'd', 'e', ':', 'c']
      "\x7b\x7b\x7bside:c\x7d\x7d\x7d".toList :=
    isPlaceholder_of_alone (by decide)
  have hrun : Renders rootVariable adjacent.toList adjacent.toList [] ["a.b", "side:c"] :=
    .keep hdotted rfl (.keep hside rfl .nil)
  have hnew : "a.b" ∉ Entries.keys rootVariable := by decide
  obtain ⟨_, _, hruns, _, hmore, hfilled⟩ := unresolved_names adjacent rootVariable
  obtain ⟨_, hkept, hsame⟩ := hruns _ _ _ hrun
  have hall : ∀ name ∈ [] ++ ["a.b", "side:c"], name ∈ unresolved adjacent rootVariable :=
    fun name hname => (hkept name).mpr hname
  refine ⟨hrun, hall, hsame hall, hnew, hmore _ ?_, hfilled _ ?_⟩
  · intro key hkey
    rw [List.mem_singleton.mp hkey]
    exact hnew
  · intro name
    rw [hkept]
    simp [Entries.keys, or_comm]

end Template
end Provision
