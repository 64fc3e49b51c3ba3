import Provision.Proofs.Json.Numeral
import Provision.Proofs.Tree.Nulls

/-!
# Depth, order and numbers of trees

A tree nests as deep as its lists and objects stand within one another.  Its keys are in order if
every object, at any depth, has its entries in key order, and it is integral if all its numbers are
integers that a document can hold.  Removing null entries makes no tree deeper and keeps the other
two.

**Results.**
* `Tree.depth_list_le_iff`, `Tree.depth_object_le_iff`: the depth of a tree from that of its parts.
* `Tree.depth_withoutNulls_le`, `Tree.InOrder.withoutNulls`, `Tree.Integral.withoutNulls`: what
  remains after null entries were removed.
-/

namespace Provision
namespace Tree

mutual

/-- How many lists and objects stand within one another, at most. -/
def depth : Tree → Nat
  | .list items => depthOfItems items + 1
  | .object entries => depthOfEntries entries + 1
  | _ => 0

def depthOfItems : List Tree → Nat
  | [] => 0
  | t :: rest => max (depth t) (depthOfItems rest)

def depthOfEntries : List (String × Tree) → Nat
  | [] => 0
  | (_, t) :: rest => max (depth t) (depthOfEntries rest)

end

/-- Trees of which all objects, at any depth, have their entries in key order. -/
inductive InOrder : Tree → Prop
  | null : InOrder .null
  | bool (b : Bool) : InOrder (.bool b)
  | number (n : Number) : InOrder (.number n)
  | text (s : String) : InOrder (.text s)
  | list {items : List Tree} :
      (∀ t ∈ items, InOrder t) →
      InOrder (.list items)
  | object {entries : List (String × Tree)} :
      Entries.Ordered entries →
      (∀ e ∈ entries, InOrder e.2) →
      InOrder (.object entries)

/-- Trees of which all numbers are integers that a document can hold. -/
inductive Integral : Tree → Prop
  | null : Integral .null
  | bool (b : Bool) : Integral (.bool b)
  | integer {i : Int} :
      (Number.integer i).Sound →
      Integral (.number (.integer i))
  | text (s : String) : Integral (.text s)
  | list {items : List Tree} :
      (∀ t ∈ items, Integral t) →
      Integral (.list items)
  | object {entries : List (String × Tree)} :
      (∀ e ∈ entries, Integral e.2) →
      Integral (.object entries)

@[simp] theorem inOrder_null :
    Tree.null.InOrder := .null

@[simp] theorem inOrder_bool
    {b : Bool} :
    (Tree.bool b).InOrder := .bool b

@[simp] theorem inOrder_number
    {n : Number} :
    (Tree.number n).InOrder := .number n

@[simp] theorem inOrder_text
    {s : String} :
    (Tree.text s).InOrder := .text s

@[simp] theorem inOrder_list
    {items : List Tree} :
    (Tree.list items).InOrder ↔ ∀ t ∈ items, t.InOrder :=
  ⟨fun h => by cases h; assumption, .list⟩

@[simp] theorem inOrder_object
    {entries : List (String × Tree)} :
    (Tree.object entries).InOrder ↔ Entries.Ordered entries ∧ ∀ e ∈ entries, e.2.InOrder :=
  ⟨fun h => by cases h; exact ⟨by assumption, by assumption⟩, fun h => .object h.1 h.2⟩

@[simp] theorem integral_null :
    Tree.null.Integral := .null

@[simp] theorem integral_bool
    {b : Bool} :
    (Tree.bool b).Integral := .bool b

@[simp] theorem integral_integer
    {i : Int} :
    (Tree.number (.integer i)).Integral ↔ (Number.integer i).Sound :=
  ⟨fun h => by cases h; assumption, .integer⟩

@[simp] theorem integral_text
    {s : String} :
    (Tree.text s).Integral := .text s

@[simp] theorem integral_list
    {items : List Tree} :
    (Tree.list items).Integral ↔ ∀ t ∈ items, t.Integral :=
  ⟨fun h => by cases h; assumption, .list⟩

@[simp] theorem integral_object
    {entries : List (String × Tree)} :
    (Tree.object entries).Integral ↔ ∀ e ∈ entries, e.2.Integral :=
  ⟨fun h => by cases h; assumption, .object⟩

theorem depthOfItems_le_iff
    {items : List Tree}
    {n : Nat} :
    depthOfItems items ≤ n ↔ ∀ t ∈ items, t.depth ≤ n := by
  induction items with
  | nil => simp [depthOfItems]
  | cons t rest ih => rw [depthOfItems, Nat.max_le, ih, List.forall_mem_cons]

theorem depthOfEntries_le_iff
    {entries : List (String × Tree)}
    {n : Nat} :
    depthOfEntries entries ≤ n ↔ ∀ e ∈ entries, e.2.depth ≤ n := by
  induction entries with
  | nil => simp [depthOfEntries]
  | cons e rest ih => rw [depthOfEntries, Nat.max_le, ih, List.forall_mem_cons]

theorem depth_list_le_iff
    {items : List Tree}
    {n : Nat} :
    (Tree.list items).depth ≤ n + 1 ↔ ∀ t ∈ items, t.depth ≤ n := by
  rw [depth, Nat.add_le_add_iff_right, depthOfItems_le_iff]

theorem depth_object_le_iff
    {entries : List (String × Tree)}
    {n : Nat} :
    (Tree.object entries).depth ≤ n + 1 ↔ ∀ e ∈ entries, e.2.depth ≤ n := by
  rw [depth, Nat.add_le_add_iff_right, depthOfEntries_le_iff]

/-- Removing null entries makes no tree deeper. -/
theorem depth_withoutNulls_le
    {t : Tree}
    {n : Nat}
    (h : t.depth ≤ n) :
    t.withoutNulls.depth ≤ n := by
  induction n generalizing t with
  | zero =>
      cases t with
      | list items => cases h
      | object entries => cases h
      | _ => exact h
  | succ n ih =>
      cases t with
      | list items =>
          rw [withoutNulls, itemsWithoutNulls_eq_map, depth_list_le_iff, List.forall_mem_map]
          exact fun t ht => ih (depth_list_le_iff.mp h t ht)
      | object entries =>
          rw [withoutNulls, depth_object_le_iff]
          intro e he
          obtain ⟨t, ht, _, hsame⟩ := mem_entriesWithoutNulls_iff.mp he
          rw [hsame]
          exact ih (depth_object_le_iff.mp h _ ht)
      | _ => exact h

theorem InOrder.withoutNulls
    {t : Tree}
    (h : t.InOrder) :
    t.withoutNulls.InOrder := by
  induction h with
  | list _ ih =>
      rw [Tree.withoutNulls, itemsWithoutNulls_eq_map]
      exact .list (List.forall_mem_map.mpr ih)
  | object hordered _ ih =>
      refine .object (entriesWithoutNulls_ordered hordered) fun e he => ?_
      obtain ⟨t, ht, _, hsame⟩ := mem_entriesWithoutNulls_iff.mp he
      rw [hsame]
      exact ih _ ht
  | null => exact .null
  | bool b => exact .bool b
  | number n => exact .number n
  | text s => exact .text s

theorem Integral.withoutNulls
    {t : Tree}
    (h : t.Integral) :
    t.withoutNulls.Integral := by
  induction h with
  | list _ ih =>
      rw [Tree.withoutNulls, itemsWithoutNulls_eq_map]
      exact .list (List.forall_mem_map.mpr ih)
  | object _ ih =>
      refine .object fun e he => ?_
      obtain ⟨t, ht, _, hsame⟩ := mem_entriesWithoutNulls_iff.mp he
      rw [hsame]
      exact ih _ ht
  | null => exact .null
  | bool b => exact .bool b
  | integer hsound => exact .integer hsound
  | text s => exact .text s

end Tree
end Provision
