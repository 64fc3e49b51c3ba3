import Provision.Proofs.Document
import Provision.Proofs.Tree.Depth

/-!
# Paths of trees without null entries

A path leads into a tree: a key to the value of an object, a position to the element of a list.  When
null entries are removed, at every depth, paths that meet no null entry lead to what they led to
before, less null entries, and the other paths are gone; positions in lists do not change.

**Results.**
* `Tree.at_withoutNulls_iff`: where paths lead after null entries were removed.
* `Tree.Leads.unique`: in trees with keys in order a path leads to one place.
* `Shape.toTree_verdict`: what is written of a tree.
-/

namespace Provision
namespace Tree

/-- Where a path leads in a tree, if the values of objects on the way are `admitted`. -/
inductive Leads (admitted : Tree → Prop) : List Segment → Tree → Tree → Prop
  | here
      (t : Tree) :
      Leads admitted [] t t
  | entry
      {key : String}
      {path : List Segment}
      {entries : List (String × Tree)}
      {t u : Tree}
      (listed : (key, t) ∈ entries)
      (admits : admitted t)
      (later : Leads admitted path t u) :
      Leads admitted (.key key :: path) (.object entries) u
  | element
      {n : Nat}
      {path : List Segment}
      {items : List Tree}
      {t u : Tree}
      (listed : items[n]? = some t)
      (later : Leads admitted path t u) :
      Leads admitted (.index n :: path) (.list items) u

/-- Where a path leads. -/
abbrev At : List Segment → Tree → Tree → Prop := Leads fun _ => True

/-- Where a path leads on which no entry of an object is null. -/
abbrev ClearAt : List Segment → Tree → Tree → Prop := Leads (· ≠ .null)

variable {admitted : Tree → Prop} {path : List Segment} {t u v : Tree}

theorem Leads.at
    (h : Leads admitted path t u) :
    At path t u := by
  induction h with
  | here t => exact .here t
  | entry listed _ _ ih => exact .entry listed trivial ih
  | element listed _ ih => exact .element listed ih

/-- No path leads on from null. -/
theorem Leads.eq_null
    (h : Leads admitted path .null u) :
    u = .null := by
  cases h
  rfl

/-- Only at its end can a path meet a null entry. -/
theorem Leads.clear
    (h : Leads admitted path t u)
    (hu : u ≠ .null) :
    ClearAt path t u := by
  induction h with
  | here t => exact .here t
  | entry listed _ later ih =>
      refine .entry listed ?_ (ih hu)
      rintro rfl
      exact hu later.eq_null
  | element listed _ ih => exact .element listed (ih hu)

theorem ClearAt.withoutNulls
    (h : ClearAt path t u) :
    At path t.withoutNulls u.withoutNulls := by
  induction h with
  | here t => exact .here _
  | entry listed admits _ ih =>
      exact .entry (mem_entriesWithoutNulls_iff.mpr ⟨_, listed, admits, rfl⟩) trivial ih
  | element listed _ ih =>
      refine .element ?_ ih
      rw [itemsWithoutNulls_eq_map, List.getElem?_map, listed, Option.map_some]

/-- Paths that meet no null entry lead to the same place without its null entries, and there are no
other paths. -/
theorem at_withoutNulls_iff :
    At path t.withoutNulls v ↔ ∃ u, ClearAt path t u ∧ v = u.withoutNulls := by
  constructor
  · intro h
    generalize hstripped : t.withoutNulls = stripped at h
    induction h generalizing t with
    | here => exact ⟨t, .here t, hstripped.symm⟩
    | entry listed _ _ ih =>
        cases t with
        | object entries =>
            cases hstripped
            obtain ⟨t, hmem, hpresent, heq⟩ := mem_entriesWithoutNulls_iff.mp listed
            obtain ⟨u, hu, hv⟩ := ih heq.symm
            exact ⟨u, .entry hmem hpresent hu, hv⟩
        | _ => cases hstripped
    | element listed _ ih =>
        cases t with
        | list items =>
            cases hstripped
            rw [itemsWithoutNulls_eq_map, List.getElem?_map, Option.map_eq_some_iff] at listed
            obtain ⟨t, hmem, heq⟩ := listed
            obtain ⟨u, hu, hv⟩ := ih heq
            exact ⟨u, .element hmem hu, hv⟩
        | _ => cases hstripped
  · rintro ⟨u, hu, rfl⟩
    exact ClearAt.withoutNulls hu

/-- In a tree with keys in order a path leads to one place. -/
theorem Leads.unique
    (hordered : t.InOrder)
    (hu : Leads admitted path t u)
    (hv : Leads admitted path t v) :
    u = v := by
  induction hu with
  | here =>
      cases hv
      rfl
  | entry listed _ _ ih =>
      obtain ⟨hkeys, hvalues⟩ := inOrder_object.mp hordered
      cases hv with
      | entry listed' _ later' =>
          have hsame := hkeys.find?_of_mem listed
          rw [hkeys.find?_of_mem listed', Option.some.injEq] at hsame
          subst hsame
          exact ih (hvalues _ listed) later'
  | element listed _ ih =>
      cases hv with
      | element listed' later' =>
          rw [listed, Option.some.injEq] at listed'
          subst listed'
          exact ih (inOrder_list.mp hordered _ (List.mem_of_getElem? listed)) later'

/-- Scalars are left as they are, and nothing else becomes a scalar. -/
theorem eq_withoutNulls_iff
    {s : Tree}
    (hs : ¬ s.IsContainer) :
    s = u.withoutNulls ↔ s = u := by
  cases u with
  | list items => exact ⟨fun h => absurd (.inl ⟨_, h⟩) hs, fun h => absurd (.inl ⟨_, h⟩) hs⟩
  | object entries => exact ⟨fun h => absurd (.inr ⟨_, h⟩) hs, fun h => absurd (.inr ⟨_, h⟩) hs⟩
  | _ => exact Iff.rfl

/-- A path leads to a scalar iff it did so before null entries were removed and met none. -/
theorem at_withoutNulls_scalar_iff
    {s : Tree}
    (hs : ¬ s.IsContainer) :
    At path t.withoutNulls s ↔ ClearAt path t s := by
  simp only [at_withoutNulls_iff, eq_withoutNulls_iff hs, exists_eq_right']

/-- Where a path leads to a list, the list keeps its length and its null elements. -/
theorem At.list_withoutNulls
    {items : List Tree}
    (h : At path t (.list items)) :
    ∃ items', At path t.withoutNulls (.list items') ∧ items'.length = items.length ∧
      ∀ n : Nat, items'[n]? = some .null ↔ items[n]? = some .null := by
  have hclear : ClearAt path t (.list items) := h.clear nofun
  refine ⟨_, ClearAt.withoutNulls hclear, ?_, fun n => ?_⟩
  · rw [itemsWithoutNulls_eq_map, List.length_map]
  · have hnull : ∀ u : Tree, u.withoutNulls = .null ↔ u = .null := fun u => by
      rw [← isNull_iff, isNull_withoutNulls, isNull_iff]
    simp [itemsWithoutNulls_eq_map, hnull]

end Tree

/-- What is written of a tree is the tree without null entries, at any depth: scalars stand where they
stood, unless an entry on the way is null; lists keep their lengths and their null elements, and
objects their other entries; and there are no new paths. -/
theorem Shape.toTree_verdict
    (t : Tree) :
    (Shape.tree.toTree t).FreeOfNulls ∧
      Shape.tree.toTree (Shape.tree.toTree t) = Shape.tree.toTree t ∧
      (∀ path s, ¬ s.IsContainer →
        (Tree.At path (Shape.tree.toTree t) s ↔ Tree.ClearAt path t s)) ∧
      (∀ path items, Tree.At path t (.list items) →
        ∃ items', Tree.At path (Shape.tree.toTree t) (.list items') ∧
          items'.length = items.length ∧
          ∀ n : Nat, items'[n]? = some .null ↔ items[n]? = some .null) ∧
      (∀ path entries, Tree.At path t (.object entries) →
        ∃ entries', Tree.At path (Shape.tree.toTree t) (.object entries') ∧
          Entries.keys entries' = Entries.keys (entries.filter fun e => !e.2.isNull)) ∧
      (∀ path v, Tree.At path (Shape.tree.toTree t) v → ∃ u, Tree.At path t u) ∧
      (t.InOrder → ∀ path u v, Tree.At path (Shape.tree.toTree t) u →
        Tree.At path (Shape.tree.toTree t) v → u = v) := by
  have hwritten : Shape.tree.toTree t = t.withoutNulls := rfl
  have hagain : Shape.tree.toTree t.withoutNulls = t.withoutNulls := Tree.withoutNulls_withoutNulls t
  rw [hwritten]
  refine ⟨Tree.freeOfNulls_withoutNulls t, hagain, ?_, ?_, ?_, ?_, ?_⟩
  · exact fun path s hs => Tree.at_withoutNulls_scalar_iff hs
  · exact fun path items h => Tree.At.list_withoutNulls h
  · intro path entries h
    have hclear : Tree.ClearAt path t (.object entries) := h.clear nofun
    exact ⟨_, Tree.ClearAt.withoutNulls hclear, Tree.keys_entriesWithoutNulls entries⟩
  · intro path v h
    obtain ⟨u, hu, _⟩ := Tree.at_withoutNulls_iff.mp h
    exact ⟨u, hu.at⟩
  · exact fun hordered path u v hu hv => Tree.Leads.unique hordered.withoutNulls hu hv

/-- A tree with null entries inside a list, beside a null element. -/
def Tree.perforated : Tree :=
  .object [
    ("gone", .null),
    ("rules", .list [.null, .object [("gone", .null), ("size", .text "2")],
      .list [.object [("gone", .null)]]])]

/-- A text behind a null element and beside a null entry is the one thing that is found where it was,
and the list around it keeps its three elements. -/
theorem perforated_toTree_verdict :
    (Shape.tree.toTree .perforated).FreeOfNulls ∧
      Tree.ClearAt [.key "rules", .index 1, .key "size"] .perforated (.text "2") ∧
      Tree.perforated.InOrder ∧
      (∀ u, Tree.At [.key "rules", .index 1, .key "size"] (Shape.tree.toTree .perforated) u ↔
        u = .text "2") ∧
      ∃ items, Tree.At [.key "rules"] (Shape.tree.toTree .perforated) (.list items) ∧
        items.length = 3 ∧ items[0]? = some .null := by
  have hclear : Tree.ClearAt [.key "rules", .index 1, .key "size"] .perforated (.text "2") :=
    .entry (.tail _ (.head _)) nofun (.element rfl (.entry (.tail _ (.head _)) nofun (.here _)))
  have hrules : Tree.At [.key "rules"] .perforated (.list _) :=
    .entry (.tail _ (.head _)) trivial (.here _)
  have hordered : Tree.perforated.InOrder := by
    have hrule : Entries.Ordered [("gone", Tree.null), ("size", .text "2")] := by decide
    have hinner : Entries.Ordered [("gone", Tree.null)] := by decide
    refine .object (by decide) ?_
    simp [hrule, hinner]
  have hscalar : ¬ (Tree.text "2").IsContainer := by rintro (⟨_, ⟨⟩⟩ | ⟨_, ⟨⟩⟩)
  obtain ⟨hfree, _, hscalars, hlists, _, _, hunique⟩ := Shape.toTree_verdict .perforated
  have hfound := (hscalars _ _ hscalar).mpr hclear
  refine ⟨hfree, hclear, hordered, fun u => ⟨fun hu => ?_, fun hu => hu ▸ hfound⟩, ?_⟩
  · exact hunique hordered _ _ _ hu hfound
  · obtain ⟨items, hitems, hlength, hnull⟩ := hlists _ _ hrules
    exact ⟨items, hitems, hlength, (hnull 0).mpr rfl⟩

end Provision
