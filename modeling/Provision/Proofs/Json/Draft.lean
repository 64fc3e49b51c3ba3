import Provision.Json.Draft
import Provision.Proofs.Chain
import Provision.Proofs.Tree.Depth

/-!
# Drafts of trees

The draft of a tree holds the elements and entries as they stand in the tree.  If its keys are in
order, putting the entries in order changes nothing, and the tree of the draft is the tree itself.
The tree of any draft is in order.

**Results.**
* `Json.Draft.toTree_ofTree`: the draft of a tree in order has this tree.
* `Json.Draft.inOrder_of_toTree`: the tree of a draft is in order.
-/

namespace Provision
namespace Json
namespace Draft

mutual

/-- The draft of a text that was read to its end. -/
def ofTree : Tree → Draft
  | .null => .null
  | .bool b => .bool b
  | .number n => .number n
  | .text s => .text s
  | .list items => .list (ofItems items)
  | .object entries => .object (ofEntries entries)

def ofItems : List Tree → List Draft
  | [] => []
  | t :: rest => ofTree t :: ofItems rest

def ofEntries : List (String × Tree) → List (String × Draft)
  | [] => []
  | (key, t) :: rest => (key, ofTree t) :: ofEntries rest

end

theorem itemTrees_ofItems
    {items : List Tree}
    (h : ∀ t ∈ items, (ofTree t).toTree = .ok t) :
    itemTrees (ofItems items) = .ok items := by
  induction items with
  | nil => rfl
  | cons t items ih =>
      obtain ⟨ht, hitems⟩ := List.forall_mem_cons.mp h
      rw [ofItems, itemTrees, ht, ih hitems]

theorem entryTrees_ofEntries
    {entries : List (String × Tree)}
    (h : ∀ e ∈ entries, (ofTree e.2).toTree = .ok e.2) :
    entryTrees (ofEntries entries) = .ok entries := by
  induction entries with
  | nil => rfl
  | cons e entries ih =>
      obtain ⟨key, t⟩ := e
      obtain ⟨ht, hentries⟩ := List.forall_mem_cons.mp h
      rw [ofEntries, entryTrees, ht, ih hentries]

/-- The draft of a tree whose keys are in order has this tree. -/
theorem toTree_ofTree
    {t : Tree}
    (h : t.InOrder) :
    (ofTree t).toTree = .ok t := by
  induction h with
  | list _ ih =>
      rw [ofTree, toTree, itemTrees_ofItems ih]
      rfl
  | object hordered _ ih =>
      rw [ofTree, toTree, entryTrees_ofEntries ih]
      show Except.ok (Tree.object (Entries.ofList _)) = _
      rw [Entries.ofList_of_ordered hordered]
  | null => rfl
  | bool b => rfl
  | number n => rfl
  | text s => rfl

mutual

/-- The tree of a draft is in order, in whatever order its text has the entries. -/
theorem inOrder_of_toTree
    {d : Draft}
    {t : Tree}
    (h : d.toTree = .ok t) :
    t.InOrder := by
  cases d with
  | list items =>
      obtain ⟨ts, hts, rfl⟩ := map_eq_ok_iff.mp h
      exact .list (inOrder_of_itemTrees hts)
  | object entries =>
      obtain ⟨es, hes, rfl⟩ := map_eq_ok_iff.mp h
      refine .object (Entries.ofList_ordered es) fun e he => ?_
      obtain hnone | hread := Entries.mem_insertAll he
      · cases hnone
      · exact inOrder_of_entryTrees hes e hread
  | null =>
      cases h
      exact .null
  | bool b =>
      cases h
      exact .bool b
  | number n =>
      cases h
      exact .number n
  | text s =>
      cases h
      exact .text s
  | broken f => cases h

theorem inOrder_of_itemTrees
    {items : List Draft}
    {ts : List Tree}
    (h : itemTrees items = .ok ts) :
    ∀ t ∈ ts, t.InOrder := by
  cases items with
  | nil =>
      cases h
      nofun
  | cons d items =>
      rw [itemTrees] at h
      split at h
      · cases h
      · split at h
        · cases h
        · rename_i ht _ _ hts
          cases h
          exact List.forall_mem_cons.mpr ⟨inOrder_of_toTree ht, inOrder_of_itemTrees hts⟩

theorem inOrder_of_entryTrees
    {entries : List (String × Draft)}
    {es : List (String × Tree)}
    (h : entryTrees entries = .ok es) :
    ∀ e ∈ es, e.2.InOrder := by
  cases entries with
  | nil =>
      cases h
      nofun
  | cons e entries =>
      obtain ⟨key, d⟩ := e
      rw [entryTrees] at h
      split at h
      · cases h
      · split at h
        · cases h
        · rename_i ht _ _ hes
          cases h
          exact List.forall_mem_cons.mpr ⟨inOrder_of_toTree ht, inOrder_of_entryTrees hes⟩

end

end Draft
end Json
end Provision
