import Provision.Document
import Provision.Proofs.Json.RoundTrip

/-!
# Documents that are read back

A document does not say in which syntax it is written; this is told from its first character.  The
text of a list or an object starts with a bracket or a brace, whatever it holds, so it is tried as
JSON.  Then the reader undoes what the printer did, and YAML never comes into it.

The tree that is written has lost its null entries, and it is this tree that is read back.

**Results.**
* `parse_of_read`: a text that starts with a bracket or a brace is read as JSON if it can be.
* `parse_toJson`: the tree of a document is read back from its JSON text.
-/

namespace Provision

/-- A tree that is a list or an object. -/
def Tree.IsContainer (t : Tree) : Prop :=
  (∃ items, t = .list items) ∨ ∃ entries, t = .object entries

theorem Tree.IsContainer.withoutNulls
    {t : Tree}
    (h : t.IsContainer) :
    t.withoutNulls.IsContainer := by
  obtain ⟨items, rfl⟩ | ⟨entries, rfl⟩ := h
  · exact .inl ⟨_, rfl⟩
  · exact .inr ⟨_, rfl⟩

/-- A text that starts with a bracket or a brace is read as JSON if it can be. -/
theorem parse_of_read
    {text : String}
    {c : Char}
    {cs : List Char}
    (htext : text.toList = c :: cs)
    (hopening : c = '[' ∨ c = '{')
    {t : Tree}
    (hread : Json.read text = .ok t)
    (document : String) :
    parse document text = .ok t := by
  have hblanks : Text.dropBlanks text.toList = c :: cs := by
    rw [htext]
    obtain rfl | rfl := hopening <;> rfl
  have hformat : Format.detect text = .json := by
    rw [Format.detect, hblanks]
    obtain rfl | rfl := hopening <;> rfl
  rw [parse, hblanks, hformat, hread]
  rfl

/-- Lists and objects are written with a bracket or a brace in front. -/
theorem Json.exists_pretty_cons
    {t : Tree}
    (h : t.IsContainer) :
    ∃ c cs, (Json.pretty t).toList = c :: cs ∧ (c = '[' ∨ c = '{') := by
  obtain ⟨items, rfl⟩ | ⟨entries, rfl⟩ := h
  · cases items with
    | nil => exact ⟨'[', _, Json.toList_prettyAt_list_nil, .inl rfl⟩
    | cons t items => exact ⟨'[', _, Json.toList_prettyAt_list_cons t items, .inl rfl⟩
  · cases entries with
    | nil => exact ⟨'{', _, Json.toList_prettyAt_object_nil, .inr rfl⟩
    | cons e entries => exact ⟨'{', _, Json.toList_prettyAt_object_cons e.1 e.2 entries, .inr rfl⟩

/-- The tree of a list or an object is read back from its JSON text: any texts and keys, integers
that fit a word with or without a sign, and at most 127 levels of nesting. Objects have their
entries in key order, as in every tree that is read. -/
theorem parse_toJson
    {t : Tree}
    (hcontainer : t.IsContainer)
    (hordered : t.InOrder)
    (hintegral : t.Integral)
    (hdepth : t.depth ≤ 127)
    (document : String) :
    parse document (Shape.tree.toJson t) = .ok (Shape.tree.toTree t) := by
  obtain ⟨c, cs, htext, hopening⟩ := Json.exists_pretty_cons hcontainer.withoutNulls
  have hread : Json.read (Json.pretty t.withoutNulls) = .ok t.withoutNulls :=
    Json.read_pretty hordered.withoutNulls hintegral.withoutNulls
      (Tree.depth_withoutNulls_le hdepth)
  exact parse_of_read htext hopening hread document

example :
    Shape.tree.toJson (.list [.int (-1), .null, .text "\t\x01"]) =
      "[\n  -1,\n  null,\n  \"\\t\\u0001\"\n]" := by
  cbv

/-- A tree with the least and the greatest integer, characters that must be escaped in a text and in
a key, a null entry and a null element. -/
def Tree.tangled : Tree :=
  .object [
    ("", .list [.int (-9223372036854775808), .int 18446744073709551615, .int 0, .null]),
    ("a\"\\", .text "\x00\t\x1f\"\\/\né𝄞"),
    ("gone", .null),
    ("nested", .list [.object [("b", .bool true), ("gone", .null)], .list [], .object []])]

theorem tangled_parse_toJson :
    Tree.tangled.IsContainer ∧ Tree.tangled.InOrder ∧ Tree.tangled.Integral ∧
      Tree.tangled.depth ≤ 127 ∧
      parse "document" (Shape.tree.toJson .tangled) = .ok (.object [
        ("", .list [.int (-9223372036854775808), .int 18446744073709551615, .int 0, .null]),
        ("a\"\\", .text "\x00\t\x1f\"\\/\né𝄞"),
        ("nested", .list [.object [("b", .bool true)], .list [], .object []])]) := by
  have hcontainer : Tree.tangled.IsContainer := .inr ⟨_, rfl⟩
  have hinner : Entries.Ordered [("b", Tree.bool true), ("gone", .null)] := by decide
  have hordered : Tree.tangled.InOrder := by
    refine .object (by decide) ?_
    simp [Tree.int, hinner]
  have hintegral : Tree.tangled.Integral := by
    simp [Tree.tangled, Tree.int, Number.Sound, Number.twoTo]
  have hdepth : Tree.tangled.depth ≤ 127 := by decide
  exact ⟨hcontainer, hordered, hintegral, hdepth,
    parse_toJson hcontainer hordered hintegral hdepth "document"⟩

end Provision
