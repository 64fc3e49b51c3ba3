import Provision.Entries
import Provision.Number.Layout

/-!
# Document trees

Input:
* what a document holds before it is given a meaning: null, truth values, numbers, texts, lists and
  objects.

Algorithm:
* the entries of an object are kept in key order;
* `withoutNulls` removes the entries of objects whose value is null, at every depth, and keeps the
  elements of lists.

Results:
* equations of `withoutNulls` on lists and entries, by which it is reasoned about.
-/

namespace Provision

/-- A number of a document: an integer between `-2 ^ 63` and `2 ^ 64 - 1`, or a double-precision
number. -/
inductive Number where
  | integer (i : Int)
  | decimal (x : Double)
  deriving DecidableEq, Inhabited

/-- The text of a number as a value. -/
def Number.text : Number → String
  | .integer i => toString i
  | .decimal x => x.text

inductive Tree where
  | null
  | bool (b : Bool)
  | number (n : Number)
  | text (s : String)
  | list (items : List Tree)
  | object (entries : List (String × Tree))
  deriving Inhabited

namespace Tree

def int (i : Int) : Tree := .number (.integer i)

def nat (n : Nat) : Tree := .int n

def isNull : Tree → Bool
  | .null => true
  | _ => false

/-- The tree of an optional value: null when there is none. -/
def ofOption {α : Type} (f : α → Tree) : Option α → Tree
  | some a => f a
  | none => .null

/-- An object of entries in any order. -/
def ofEntries (es : List (String × Tree)) : Tree :=
  .object (Entries.ofList es)

def texts (xs : List String) : Tree :=
  .list (xs.map .text)

mutual

/-- The tree without the null entries of its objects, at every depth. -/
def withoutNulls : Tree → Tree
  | .list items => .list (itemsWithoutNulls items)
  | .object entries => .object (entriesWithoutNulls entries)
  | t => t

/-- The elements of a list, each without null entries; null elements stay. -/
def itemsWithoutNulls : List Tree → List Tree
  | [] => []
  | t :: rest => t.withoutNulls :: itemsWithoutNulls rest

/-- The entries whose value is not null, each without null entries. -/
def entriesWithoutNulls : List (String × Tree) → List (String × Tree)
  | [] => []
  | (_, .null) :: rest => entriesWithoutNulls rest
  | (k, t) :: rest => (k, t.withoutNulls) :: entriesWithoutNulls rest

end

theorem itemsWithoutNulls_eq_map
    (items : List Tree) :
    itemsWithoutNulls items = items.map withoutNulls := by
  induction items with
  | nil => rfl
  | cons t rest ih => simp [itemsWithoutNulls, ih]

theorem entriesWithoutNulls_eq_filterMap
    (es : List (String × Tree)) :
    entriesWithoutNulls es =
      es.filterMap fun e => if e.2.isNull then none else some (e.1, e.2.withoutNulls) := by
  induction es with
  | nil => rfl
  | cons e rest ih =>
      obtain ⟨k, t⟩ := e
      cases t <;> simp [entriesWithoutNulls, isNull, ih]

end Tree
end Provision
