import Provision.Tree

/-!
# Writing JSON

Input:
* a tree.

Algorithm:
* texts stand between double quotes, with double quotes, backslashes and control characters escaped;
* the compact form has no space, the pretty form one line for each element, indented by two spaces
  for each level; empty lists and objects are written without a line break.

Results:
* `compact t` and `pretty t` are the two forms of a tree.
-/

namespace Provision
namespace Json

def hexDigit (n : Nat) : Char :=
  Nat.digitChar n

/-- The written form of one character of a text. -/
def escape (c : Char) : List Char :=
  if c = '"' then ['\\', '"']
  else if c = '\\' then ['\\', '\\']
  else if c = '\x08' then ['\\', 'b']
  else if c = '\t' then ['\\', 't']
  else if c = '\n' then ['\\', 'n']
  else if c = '\x0c' then ['\\', 'f']
  else if c = '\r' then ['\\', 'r']
  else if c.toNat < 0x20 then
    ['\\', 'u', '0', '0', hexDigit (c.toNat / 16), hexDigit (c.toNat % 16)]
  else [c]

def textForm (s : String) : String :=
  String.ofList ('"' :: s.toList.flatMap escape ++ ['"'])

mutual

/-- The form of a tree without space. -/
def compact : Tree → String
  | .null => "null"
  | .bool b => if b then "true" else "false"
  | .number n => n.text
  | .text s => textForm s
  | .list items => "[" ++ ",".intercalate (compactItems items) ++ "]"
  | .object entries => "\x7b" ++ ",".intercalate (compactEntries entries) ++ "\x7d"

/-- The forms of the elements of a list. -/
def compactItems : List Tree → List String
  | [] => []
  | t :: rest => compact t :: compactItems rest

/-- The forms of the entries of an object. -/
def compactEntries : List (String × Tree) → List String
  | [] => []
  | (k, t) :: rest => (textForm k ++ ":" ++ compact t) :: compactEntries rest

end

/-- The space in front of a line at a level of nesting. -/
def indent (level : Nat) : String :=
  String.ofList (List.replicate (2 * level) ' ')

/-- Parts on lines of their own, indented by `level + 1`, between an opening and a closing mark. -/
def block (opening closing : String) (level : Nat) (parts : List String) : String :=
  if parts.isEmpty then opening ++ closing
  else
    opening ++ "\n" ++
      ",\n".intercalate (parts.map (indent (level + 1) ++ ·)) ++
      "\n" ++ indent level ++ closing

mutual

/-- The form of a tree with one line for each element, at a level of nesting. -/
def prettyAt : Nat → Tree → String
  | _, .null => "null"
  | _, .bool b => if b then "true" else "false"
  | _, .number n => n.text
  | _, .text s => textForm s
  | level, .list items => block "[" "]" level (prettyItems (level + 1) items)
  | level, .object entries => block "\x7b" "\x7d" level (prettyEntries (level + 1) entries)

/-- The forms of the elements of a list. -/
def prettyItems : Nat → List Tree → List String
  | _, [] => []
  | level, t :: rest => prettyAt level t :: prettyItems level rest

/-- The forms of the entries of an object. -/
def prettyEntries : Nat → List (String × Tree) → List String
  | _, [] => []
  | level, (k, t) :: rest => (textForm k ++ ": " ++ prettyAt level t) :: prettyEntries level rest

end

/-- The form of a tree with one line for each element. -/
def pretty (t : Tree) : String :=
  prettyAt 0 t

end Json
end Provision
