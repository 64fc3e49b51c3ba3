import Provision.Shape.Fault
import Provision.Text.Name

/-!
# Keys of records

Input:
* the entries of an object and the names of the fields of a record.

Algorithm:
* a key equal to a name stands for that field, any other key for the first field of the same name up
  to spelling; the remaining keys are left as they are;
* the entries are taken in key order, and the first key that stands for a field already given is a
  fault.

Results:
* `foldKeys names entries` holds the entries under the names of their fields, in key order.
-/

namespace Provision

/-- Renames keys to the fields they stand for. `given` lists the fields already met with their keys,
and `folded` holds the entries already renamed. -/
def foldKeysFrom (names : List String) :
    List (String × String) → Entries Tree → List (String × Tree) → Except ShapeFault (Entries Tree)
  | _, folded, [] => .ok folded
  | given, folded, (key, t) :: rest =>
    match Text.findName? names key with
    | none => foldKeysFrom names given (Entries.insert key t folded) rest
    | some field =>
      match given.find? fun g => g.1 == field with
      | some g => .error (.collision g.2 key field)
      | none => foldKeysFrom names (given ++ [(field, key)]) (Entries.insert field t folded) rest

/-- Renames the keys of an object to the fields they stand for. -/
def foldKeys (names : List String) (entries : List (String × Tree)) :
    Except ShapeFault (Entries Tree) :=
  foldKeysFrom names [] [] entries

end Provision
