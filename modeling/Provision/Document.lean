import Provision.Json.Reader
import Provision.Json.Printer
import Provision.Yaml.Reader
import Provision.Yaml.Printer
import Provision.Shape.Read
import Provision.Shape.Write

/-!
# Configuration documents

Input:
* the text of a document and the name by which messages call it.

Algorithm:
* a text whose first character is a brace or a bracket is tried as JSON; if it is not JSON, and for
  all other texts, it is read as YAML;
* the tree of the text is then read as a value of a shape.

Results:
* `parse`, `Shape.load` and `Shape.materialize` give the tree or the value, or an error that names
  the document; `Shape.toTree`, `toJson` and `toYaml` write a value without null fields.
-/

namespace Provision

/-- The syntax a document seems to be written in. -/
inductive Format where
  | json
  | yaml
  deriving DecidableEq, Inhabited

/-- The syntax told by the first character that is not blank. -/
def Format.detect (text : String) : Format :=
  match Text.dropBlanks text.toList with
  | '{' :: _ => .json
  | '[' :: _ => .json
  | _ => .yaml

inductive SyntaxFault where
  | blank
  /-- Neither JSON, with the failure at a line and a column, nor YAML. -/
  | json (line column : Nat) (message : String)
  | yaml (failure : Yaml.Failure)
  deriving DecidableEq, Inhabited

namespace SyntaxFault

/-- The line of a fault, from one. -/
def line? : SyntaxFault → Option Nat
  | .blank => none
  | .json line _ _ => some line
  | .yaml f => f.position.map (·.1)

/-- The column of a fault, from one; a fault before the first column has none. -/
def column? : SyntaxFault → Option Nat
  | .blank => none
  | .json _ column _ => if column = 0 then none else some column
  | .yaml f => f.position.map (·.2)

def message : SyntaxFault → String
  | .blank => "document is empty"
  | .json _ _ m => m
  | .yaml f => f.message

end SyntaxFault

/-- Why a document gives no configuration, or a configuration no document. -/
inductive ConfigError where
  | malformed (document : String) (fault : SyntaxFault)
  | misshapen (document : String) (error : ShapeError)
  | unreadable (document : String) (cause : String)
  /-- The value has keys that are no texts. -/
  | keysNotText
  deriving DecidableEq, Inhabited

namespace ConfigError

/-- The place of a fault in a text. -/
def placeText (line column : Option Nat) : String :=
  match line, column with
  | some l, some c => " (line " ++ toString l ++ ", column " ++ toString c ++ ")"
  | some l, none => " (line " ++ toString l ++ ")"
  | none, _ => ""

def message : ConfigError → String
  | .malformed document f =>
    "Failed to parse " ++ document ++ placeText f.line? f.column? ++ ": " ++ f.message
  | .misshapen document e =>
    match e.fault with
    | .unknownChoice value expected =>
      "Unknown value '" ++ value ++ "' in " ++ document ++ " at " ++ pathText e.path ++
        "; expected one of: " ++ ", ".intercalate expected
    | fault => "Failed to parse " ++ document ++ " at " ++ pathText e.path ++ ": " ++ fault.message
  | .unreadable document cause => "IO error reading " ++ document ++ ": " ++ cause
  | .keysNotText => "JSON error: key must be a string"

end ConfigError

def parseYaml (document text : String) : Except ConfigError Tree :=
  (Yaml.read text).mapError fun f => .malformed document (.yaml f)

def parse (document text : String) : Except ConfigError Tree :=
  if (Text.dropBlanks text.toList).isEmpty then .error (.malformed document .blank)
  else
    match Format.detect text with
    | .yaml => parseYaml document text
    | .json =>
      match Json.read text with
      | .ok t => .ok t
      | .error f =>
        match parseYaml document text with
        | .ok t => .ok t
        | .error _ =>
          let p := f.position text
          .error (.malformed document (.json p.1 p.2 (f.message text)))

namespace Shape

variable {α : Type}

/-- Reads the value that a tree holds. -/
def materialize (s : Shape α) (document : String) (t : Tree) : Except ConfigError α :=
  (s.read t).mapError (.misshapen document)

/-- Reads the value that a document holds. -/
def load (s : Shape α) (document text : String) : Except ConfigError α := do
  s.materialize document (← parse document text)

/-- The tree of a value without null fields. -/
def toTree (s : Shape α) (a : α) : Tree := (s.write a).withoutNulls

/-- The JSON text of a value without null fields. -/
def toJson (s : Shape α) (a : α) : String := Json.pretty (s.toTree a)

/-- The YAML text of a value without null fields. -/
def toYaml (s : Shape α) (a : α) : String := Yaml.print (s.toTree a)

end Shape

/-- The tree of a map whose keys are no texts; only the empty one has a written form. -/
def treeOfUntitled {α : Type} (entries : List α) : Except ConfigError Tree :=
  if entries.isEmpty then .ok (.object []) else .error .keysNotText

end Provision
