import Provision.Yaml.Cursor

/-!
# Tokens of YAML

Input:
* what a scanner finds in a YAML text.

Algorithm:
* a token is a mark of the block or flow structure, a directive, a property of a node, or a scalar;
  it carries the places where it starts and ends.

Results:
* `TokenKind` lists the tokens; two tokens are compared by kind where only the structure matters.
-/

namespace Provision
namespace Yaml

/-- Whether a scalar is written without quotes. -/
inductive Style where
  | plain
  | quoted
  deriving DecidableEq, Inhabited

inductive TokenKind where
  | streamStart
  | streamEnd
  | versionDirective (major minor : Nat)
  | tagDirective (handle stem : List Char)
  | documentStart
  | documentEnd
  | blockSequenceStart
  | blockMappingStart
  | blockEnd
  | flowSequenceStart
  | flowSequenceEnd
  | flowMappingStart
  | flowMappingEnd
  | blockEntry
  | flowEntry
  | key
  | value
  | alias (name : List Char)
  | anchor (name : List Char)
  | tag (handle suffix : List Char)
  | scalar (text : List Char) (style : Style)
  deriving DecidableEq, Inhabited

/-- A token with the places of its first character and of the character after it. -/
structure Token where
  kind : TokenKind
  first : Mark
  last : Mark
  deriving DecidableEq, Inhabited

end Yaml
end Provision
