import Provision.Document
import Provision.Proofs.Entries
import Provision.Proofs.Tree.Nulls

/-!
# Values without null entries

A value is written without null entries.  Fields that are left out in this way are absent ones, which
stand for null; but null entries within free-form trees are lost.  The stripped value is what is left
of a value: its free-form trees and its maps have lost their null entries.

**Results.**
* `Shape.toTree_stripped`: a value and the stripped value are written as the same tree.
* `Shape.stripped_of_freeOfNulls`: a value without null entries is its own stripped value.
-/

namespace Provision

mutual

/-- The value without the null entries of its free-form trees and maps.  Labelled variants are left
as they are. -/
def Shape.stripped {α : Type} : Shape α → α → α
  | .tree, t => t.withoutNulls
  | .option s, a? => a?.map fun a => s.stripped a
  | .list s, as => as.map fun a => s.stripped a
  | .set s _, as => as.map fun a => s.stripped a
  | .map _ _ s, es => es.filterMap fun e =>
      if (s.write e.2).isNull then none else some (e.1, s.stripped e.2)
  | .tuple _ _ fields p, a => p.pack (fields.stripped (p.unpack a))
  | .record _ _ fields p, a => p.pack (fields.stripped (p.unpack a))
  | .bool, a | .natural _ _, a | .int _, a | .real _, a | .char, a | .text, a | .unit _, a
  | .parsed _ _ _, a | .choice _, a | .variant _ _, a => a

def Fields.stripped {β : Type} : Fields β → β → β
  | .nil, b => b
  | .cons _ s _ rest, b => (s.stripped b.1, rest.stripped b.2)

end

mutual

/-- Values whose free-form trees have no null entries, and neither have their maps. -/
def Shape.FreeOfNulls {α : Type} : Shape α → α → Prop
  | .tree, t => t.FreeOfNulls
  | .option s, a? => ∀ a ∈ a?, s.FreeOfNulls a
  | .list s, as => ∀ a ∈ as, s.FreeOfNulls a
  | .set s _, as => ∀ a ∈ as, s.FreeOfNulls a
  | .map _ _ s, es => ∀ e ∈ es, s.write e.2 ≠ .null ∧ s.FreeOfNulls e.2
  | .tuple _ _ fields p, a => fields.FreeOfNulls (p.unpack a)
  | .record _ _ fields p, a => fields.FreeOfNulls (p.unpack a)
  | .bool, _ | .natural _ _, _ | .int _, _ | .real _, _ | .char, _ | .text, _ | .unit _, _
  | .parsed _ _ _, _ | .choice _, _ | .variant _ _, _ => True

def Fields.FreeOfNulls {β : Type} : Fields β → β → Prop
  | .nil, _ => True
  | .cons _ s _ rest, b => s.FreeOfNulls b.1 ∧ rest.FreeOfNulls b.2

end

namespace Shape

theorem toTree_list
    {α : Type}
    (s : Shape α)
    (as : List α) :
    (Shape.list s).toTree as = .list (as.map s.toTree) := by
  simp only [toTree, write, Tree.withoutNulls, Tree.itemsWithoutNulls_eq_map, List.map_map]
  rfl

theorem toTree_map
    {κ α : Type}
    (key : Shape κ)
    (form : κ → String)
    (s : Shape α)
    (es : Entries α) :
    (Shape.map key form s).toTree es =
      .object (Tree.entriesWithoutNulls (es.map fun e => (e.1, s.write e.2))) := rfl

theorem toTree_tuple
    {α β : Type}
    (title full : String)
    (fields : Fields β)
    (p : Packing β α)
    (a : α) :
    (Shape.tuple title full fields p).toTree a =
      .list ((fields.write (p.unpack a)).map fun e => e.2.withoutNulls) := by
  simp only [toTree, write, Tree.withoutNulls, Tree.itemsWithoutNulls_eq_map, List.map_map]
  rfl

theorem toTree_record
    {α β : Type}
    (title : String)
    (strict : Bool)
    (fields : Fields β)
    (p : Packing β α)
    (a : α) :
    (Shape.record title strict fields p).toTree a =
      .object (Tree.entriesWithoutNulls (Entries.ofList (fields.write (p.unpack a)))) := rfl

/-- Entries of a map without null entries, before or after the values are stripped. -/
theorem entriesWithoutNulls_stripped
    {κ α : Type}
    {key : Shape κ}
    {form : κ → String}
    {s : Shape α}
    (hs : ∀ a, s.toTree (s.stripped a) = s.toTree a)
    (es : Entries α) :
    Tree.entriesWithoutNulls
        (((Shape.map key form s).stripped es).map fun e => (e.1, s.write e.2)) =
      Tree.entriesWithoutNulls (es.map fun e => (e.1, s.write e.2)) := by
  rw [stripped]
  induction es with
  | nil => rfl
  | cons e rest ih =>
      obtain ⟨k, a⟩ := e
      rw [List.filterMap_cons, List.map_cons]
      by_cases hnull : s.write a = .null
      · simp only [hnull, Tree.isNull, if_true, Tree.entriesWithoutNulls_cons_of_null]
        exact ih
      · have hpresent : (s.write a).isNull = false := by simpa [← Tree.isNull_iff] using hnull
        have hstays : s.write (s.stripped a) ≠ .null := by
          have hsame := congrArg Tree.isNull (hs a)
          rw [toTree, toTree, Tree.isNull_withoutNulls, Tree.isNull_withoutNulls, hpresent] at hsame
          simpa [← Tree.isNull_iff] using hsame
        simp only [hpresent, Bool.false_eq_true, if_false, List.map_cons]
        rw [Tree.entriesWithoutNulls_cons_of_ne_null hstays,
          Tree.entriesWithoutNulls_cons_of_ne_null hnull, ih]
        exact congrArg (fun t => (k, t) :: _) (hs a)

end Shape

mutual

/-- A value and the stripped value are written as the same tree. -/
theorem Shape.toTree_stripped
    {α : Type}
    (s : Shape α)
    (a : α) :
    s.toTree (s.stripped a) = s.toTree a := by
  cases s with
  | tree => exact Tree.withoutNulls_withoutNulls a
  | option s =>
      cases a with
      | none => rfl
      | some a => exact Shape.toTree_stripped s a
  | list s =>
      rw [Shape.toTree_list, Shape.toTree_list, Shape.stripped, List.map_map]
      exact congrArg Tree.list (List.map_congr_left fun a _ => Shape.toTree_stripped s a)
  | set s before =>
      have hlist := Shape.toTree_list s
      rw [show (Shape.set s before).toTree = (Shape.list s).toTree from rfl, hlist, hlist,
        Shape.stripped, List.map_map]
      exact congrArg Tree.list (List.map_congr_left fun a _ => Shape.toTree_stripped s a)
  | map key form s =>
      rw [Shape.toTree_map, Shape.toTree_map]
      have hs : ∀ a, s.toTree (s.stripped a) = s.toTree a := fun a => Shape.toTree_stripped s a
      exact congrArg Tree.object (Shape.entriesWithoutNulls_stripped hs a)
  | tuple title full fields p =>
      rw [Shape.toTree_tuple, Shape.toTree_tuple, Shape.stripped, p.unpack_pack]
      have hwrite := congrArg (List.map fun e => e.2) (Fields.write_stripped fields (p.unpack a))
      rw [List.map_map, List.map_map] at hwrite
      exact congrArg Tree.list hwrite
  | record title strict fields p =>
      rw [Shape.toTree_record, Shape.toTree_record, Shape.stripped, p.unpack_pack]
      refine congrArg Tree.object (Tree.entriesWithoutNulls_congr ?_)
      have hwrite := congrArg Entries.ofList (Fields.write_stripped fields (p.unpack a))
      rw [Entries.ofList_mapValues, Entries.ofList_mapValues] at hwrite
      exact hwrite
  | _ => rfl

/-- The fields of a value and of the stripped value differ in null entries only. -/
theorem Fields.write_stripped
    {β : Type}
    (fields : Fields β)
    (b : β) :
    (fields.write (fields.stripped b)).map (fun e => (e.1, e.2.withoutNulls)) =
      (fields.write b).map fun e => (e.1, e.2.withoutNulls) := by
  cases fields with
  | nil => rfl
  | cons name s absence rest =>
      obtain ⟨a, b⟩ := b
      have hhead : (s.write (s.stripped a)).withoutNulls = (s.write a).withoutNulls :=
        Shape.toTree_stripped s a
      rw [Fields.stripped, Fields.write, Fields.write, List.map_cons, List.map_cons, hhead,
        Fields.write_stripped rest b]

end

mutual

/-- A value without null entries is its own stripped value. -/
theorem Shape.stripped_of_freeOfNulls
    {α : Type}
    (s : Shape α)
    {a : α}
    (h : s.FreeOfNulls a) :
    s.stripped a = a := by
  cases s with
  | tree => exact Tree.withoutNulls_of_freeOfNulls h
  | option s =>
      cases a with
      | none => rfl
      | some a => exact congrArg some (Shape.stripped_of_freeOfNulls s (h a rfl))
  | list s | set s _ =>
      have hs : ∀ x ∈ a, s.stripped x = x := fun x hx => Shape.stripped_of_freeOfNulls s (h x hx)
      rw [Shape.stripped, List.map_congr_left hs, List.map_id']
  | map key form s =>
      have hs : ∀ e ∈ a, (if (s.write e.2).isNull then none else some (e.1, s.stripped e.2)) =
          some e := by
        intro e he
        obtain ⟨hpresent, hfree⟩ := h e he
        rw [if_neg (by simpa [Tree.isNull_iff] using hpresent),
          Shape.stripped_of_freeOfNulls s hfree]
      rw [Shape.stripped, List.filterMap_congr hs, List.filterMap_some]
  | tuple _ _ fields p | record _ _ fields p =>
      rw [Shape.stripped, Fields.stripped_of_freeOfNulls fields h, p.pack_unpack]
  | _ => rfl

theorem Fields.stripped_of_freeOfNulls
    {β : Type}
    (fields : Fields β)
    {b : β}
    (h : fields.FreeOfNulls b) :
    fields.stripped b = b := by
  cases fields with
  | nil => rfl
  | cons name s absence rest =>
      rw [Fields.stripped, Shape.stripped_of_freeOfNulls s h.1,
        Fields.stripped_of_freeOfNulls rest h.2]

end

end Provision
