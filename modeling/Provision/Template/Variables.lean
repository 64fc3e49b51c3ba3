import Provision.Json.Printer
import Provision.Text.Split

/-!
# Variables

Input:
* values by name, and the name that a placeholder asks for.

Algorithm:
* the value under the whole name counts; otherwise the name is cut at its dots, from the last one on,
  and the part after the cut is walked into the value under the part before;
* a step leads to an entry of an object by its key, or to an element of a list by its position.

Results:
* `lookup vars name` is the value that a name stands for; `merge` lets the later value of a name
  count.
-/

namespace Provision

abbrev Variables := Entries Tree

namespace Variables

/-- The variables with others laid over them. -/
def merge (base overrides : Variables) : Variables :=
  Entries.insertAll base overrides

/-- Variables laid over each other from left to right. -/
def mergeAll (maps : List Variables) : Variables :=
  maps.foldl merge []

/-- The position that decimal digits stand for.  They have no sign, as names have no `+`. -/
def position? (digits : List Char) : Option Nat :=
  if !digits.isEmpty && digits.all Char.isDigit then
    some (digits.foldl (fun n c => n * 10 + (c.toNat - '0'.toNat)) 0)
  else none

/-- The tree that a step leads to. -/
def step? (step : List Char) : Tree → Option Tree
  | .object entries => Entries.find? (String.ofList step) entries
  | .list items => (position? step).bind fun n => items[n]?
  | _ => none

/-- The tree that steps lead to, one after the other. -/
def walk? : List (List Char) → Tree → Option Tree
  | [], t => some t
  | step :: rest, t => (step? step t).bind (walk? rest)

/-- The value that a name stands for when it is cut in two. -/
def lookupCut? (vars : Variables) (cut : List Char × List Char) : Option Tree :=
  (Entries.find? (String.ofList cut.1) vars).bind (walk? (Text.split '.' cut.2))

/-- The value that a name stands for. -/
def lookup? (vars : Variables) (name : List Char) : Option Tree :=
  match Entries.find? (String.ofList name) vars with
  | some t => some t
  | none => (Text.cuts '.' name).reverse.findSome? (lookupCut? vars)

/-- The text of a value inside a document: lists and objects are written as JSON. -/
def valueText : Tree → String
  | .null => ""
  | .text s => s
  | t => Json.compact t

end Variables
end Provision
