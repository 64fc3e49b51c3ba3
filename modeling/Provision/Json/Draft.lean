import Provision.Json.Fault
import Provision.Tree

/-!
# Drafts

Input:
* a JSON text, read from the left as far as it can be read.

Algorithm:
* a draft keeps the elements and entries in the order of the text, repeated keys included;
* where reading fails, the draft holds the failure in place of the value that should stand there, or
  as a further element or entry; nothing follows a failure.

Results:
* `Draft.toTree` is the tree of a draft without a failure, and the failure otherwise.
-/

namespace Provision
namespace Json

/-- A JSON text as far as it was read. -/
inductive Draft where
  | null
  | bool (b : Bool)
  | number (n : Number)
  | text (s : String)
  | list (items : List Draft)
  | object (entries : List (String × Draft))
  | broken (failure : Failure)
  deriving Inhabited

namespace Draft

mutual

/-- The tree of a draft; the last of equal keys counts. -/
def toTree : Draft → Except Failure Tree
  | .null => .ok .null
  | .bool b => .ok (.bool b)
  | .number n => .ok (.number n)
  | .text s => .ok (.text s)
  | .list items => (itemTrees items).map .list
  | .object entries => (entryTrees entries).map .ofEntries
  | .broken failure => .error failure

/-- The trees of the elements of a list. -/
def itemTrees : List Draft → Except Failure (List Tree)
  | [] => .ok []
  | d :: rest =>
    match toTree d with
    | .error f => .error f
    | .ok t =>
      match itemTrees rest with
      | .error f => .error f
      | .ok ts => .ok (t :: ts)

/-- The trees of the entries of an object, in the order of the text. -/
def entryTrees : List (String × Draft) → Except Failure (List (String × Tree))
  | [] => .ok []
  | (key, d) :: rest =>
    match toTree d with
    | .error f => .error f
    | .ok t =>
      match entryTrees rest with
      | .error f => .error f
      | .ok es => .ok ((key, t) :: es)

end

end Draft
end Json
end Provision
