import Provision.Text.Quoted
import Provision.Tree

/-!
# Faults of a tree that does not have an expected shape

Input:
* what was found in a tree and what was expected there.

Algorithm:
* a fault says what is wrong at one place; the path to that place is collected on the way out, the
  outermost step first.

Results:
* `ShapeFault.message` is the wording of a fault, `pathText` the written form of a path.
-/

namespace Provision

/-- One step of a path into a tree. -/
inductive Segment where
  | key (name : String)
  | index (n : Nat)
  deriving DecidableEq, Inhabited

/-- The written form of the steps that follow others. -/
def stepsText : List Segment → String
  | [] => ""
  | .key name :: rest => "." ++ name ++ stepsText rest
  | .index n :: rest => "[" ++ toString n ++ "]" ++ stepsText rest

/-- The written form of a path; the whole tree has a name of its own. -/
def pathText : List Segment → String
  | [] => "<root>"
  | .key name :: rest => name ++ stepsText rest
  | steps => stepsText steps

/-- What was found where something else was expected. -/
inductive Found where
  | nothing
  | bool (b : Bool)
  | integer (i : Int)
  | decimal (x : Double)
  | text (s : String)
  | list
  | object
  /-- A variant without content. -/
  | bareVariant
  deriving DecidableEq, Inhabited

/-- What a tree is found to be. -/
def Found.ofTree : Tree → Found
  | .null => .nothing
  | .bool b => .bool b
  | .number (.integer i) => .integer i
  | .number (.decimal x) => .decimal x
  | .text s => .text s
  | .list _ => .list
  | .object _ => .object

def Found.phrase : Found → String
  | .nothing => "unit value"
  | .bool b => "boolean `" ++ (if b then "true" else "false") ++ "`"
  | .integer i => "integer `" ++ toString i ++ "`"
  | .decimal x => "floating point `" ++ x.plainText ++ "`"
  | .text s => "string " ++ Text.quoted s
  | .list => "sequence"
  | .object => "map"
  | .bareVariant => "unit variant"

/-- What is wrong at a place of a tree. -/
inductive ShapeFault where
  | wrongType (found : Found) (expected : String)
  | wrongValue (found : Found) (expected : String)
  | wrongLength (length : Nat) (expected : String)
  | missingField (name : String)
  | unknownField (name : String) (known : List String)
  /-- Two keys stand for one field. -/
  | collision (first second field : String)
  | unknownChoice (value : String) (expected : List String)
  | unreadable (message : String)
  deriving DecidableEq, Inhabited

/-- The known fields, as they are listed after an unknown one. -/
def knownFields : List String → String
  | [] => "there are no fields"
  | [a] => "expected `" ++ a ++ "`"
  | [a, b] => "expected `" ++ a ++ "` or `" ++ b ++ "`"
  | names => "expected one of " ++ ", ".intercalate (names.map fun n => "`" ++ n ++ "`")

def ShapeFault.message : ShapeFault → String
  | .wrongType f e => "invalid type: " ++ f.phrase ++ ", expected " ++ e
  | .wrongValue f e => "invalid value: " ++ f.phrase ++ ", expected " ++ e
  | .wrongLength n e => "invalid length " ++ toString n ++ ", expected " ++ e
  | .missingField name => "missing field `" ++ name ++ "`"
  | .unknownField name known => "unknown field `" ++ name ++ "`, " ++ knownFields known
  | .collision first second field =>
    "keys '" ++ first ++ "' and '" ++ second ++ "' both set field '" ++ field ++ "'"
  | .unknownChoice value expected =>
    "unknown value '" ++ value ++ "', expected one of: " ++ ", ".intercalate expected
  | .unreadable m => m

/-- A fault and the path to its place. -/
structure ShapeError where
  path : List Segment
  fault : ShapeFault
  deriving DecidableEq, Inhabited

namespace ShapeError

/-- A fault at the place at hand. -/
def here (fault : ShapeFault) : ShapeError := ⟨[], fault⟩

/-- The error seen from one step further out. -/
def within (step : Segment) (e : ShapeError) : ShapeError := ⟨step :: e.path, e.fault⟩

end ShapeError
end Provision
