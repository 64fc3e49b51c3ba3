import Provision.Yaml.Cursor
import Provision.Yaml.Plain

/-!
# Writing YAML

Input:
* a tree.

Algorithm:
* collections are written in block form, indented by two columns, except that empty ones are written
  with brackets or braces and that a list inside an object is not indented further;
* a text with a line feed is written as a literal block; any other text stands plain if it is read
  back as itself, else between single quotes, or between double quotes if it holds characters that
  cannot be shown;
* the sheet keeps the column reached, whether white space was written last, and whether the line
  holds nothing but indentation and marks so far.

Results:
* `print t` is the text of a tree, ended by a line feed.
-/

namespace Provision
namespace Yaml

structure Sheet where
  /-- The characters, the last one first. -/
  written : List Char
  column : Nat
  /-- Whether white space was written last. -/
  afterSpace : Bool
  /-- Whether the line holds only indentation and marks. -/
  onlyIndent : Bool

namespace Sheet

def empty : Sheet := ⟨[], 0, true, true⟩

def put (s : Sheet) (c : Char) : Sheet :=
  { s with written := c :: s.written, column := s.column + 1 }

def puts (s : Sheet) (cs : List Char) : Sheet := cs.foldl put s

def newline (s : Sheet) : Sheet := { s with written := '\n' :: s.written, column := 0 }

/-- Writes a line end of a text; those other than a line feed stand for themselves. -/
def putBreak (s : Sheet) (c : Char) : Sheet :=
  if c = '\n' then { s.newline with onlyIndent := true }
  else { s with written := c :: s.written, column := 0, onlyIndent := true }

/-- Goes to a column of a line that holds only indentation and marks. -/
def indentTo (s : Sheet) (column : Nat) : Sheet :=
  let s :=
    if !s.onlyIndent || column < s.column || (s.column = column && !s.afterSpace) then s.newline
    else s
  let s := s.puts (List.replicate (column - s.column) ' ')
  { s with afterSpace := true, onlyIndent := true }

/-- Writes a mark: whether it must follow white space, whether it counts as white space, and whether
it counts as indentation. -/
def mark (s : Sheet) (text : List Char) (apart asSpace asIndent : Bool) : Sheet :=
  let s := if apart && !s.afterSpace then s.put ' ' else s
  { s.puts text with afterSpace := asSpace, onlyIndent := s.onlyIndent && asIndent }

/-- Notes that the end of a scalar is reached. -/
def endScalar (s : Sheet) : Sheet := { s with afterSpace := false, onlyIndent := false }

end Sheet

def isPrintable (c : Char) : Bool :=
  let n := c.toNat
  n = 0xA || (0x20 ≤ n && n ≤ 0x7E) ||
    (0xA0 ≤ n && n != 0xFEFF && n != 0xFFFE && n != 0xFFFF)

/-- What matters about a text for the form it is written in. -/
structure Traits where
  isMultiline : Bool
  plainAllowed : Bool
  singleAllowed : Bool
  literalAllowed : Bool
  deriving DecidableEq, Inhabited

/-- Whether a character at the start of a text has a meaning of its own. -/
def isLeadingIndicator (c : Char) : Bool :=
  "#,[]\x7b\x7d&*!|>'\"%@`".toList.contains c

/-- Whether the characters from here on, which follow `previous`, hold a mark of block structure. -/
def hasInnerIndicator : Char → List Char → Bool
  | _, [] => false
  | previous, c :: rest =>
    (c = ':' && startsWithGap rest) || (c = '#' && isGap previous) || hasInnerIndicator c rest

/-- Whether a text holds a mark of the block structure. -/
def hasIndicator (cs : List Char) : Bool :=
  "---".toList.isPrefixOf cs || "...".toList.isPrefixOf cs ||
    match cs with
    | [] => false
    | c :: rest =>
      isLeadingIndicator c || ((c = '?' || c = ':' || c = '-') && startsWithGap rest) ||
        hasInnerIndicator c rest

/-- Whether a character of the first kind is directly followed by one of the second kind. -/
def hasPair (first second : Char → Bool) (cs : List Char) : Bool :=
  (cs.zip (cs.drop 1)).any fun p => first p.1 && second p.2

def traits (cs : List Char) : Traits :=
  let isSpace : Char → Bool := (· = ' ')
  let edge : Option Char → Bool := fun c => c.any fun c => isSpace c || isBreak c
  let breakSpace := hasPair isBreak isSpace cs
  let unshowable := hasPair isSpace isBreak cs || cs.any (!isPrintable ·)
  let multiline := cs.any isBreak
  if cs.isEmpty then ⟨false, true, true, false⟩
  else
    ⟨multiline,
      !(edge cs.head? || edge cs.getLast? || breakSpace || unshowable || multiline ||
        hasIndicator cs),
      !(breakSpace || unshowable),
      !(cs.getLast?.any isSpace || unshowable)⟩

inductive TextForm where
  | plain
  | single
  | double
  | literal
  deriving DecidableEq, Inhabited

/-- Whether a plain text would be read as something other than itself. -/
def isAmbiguous (cs : List Char) : Bool :=
  Plain.hasSuperfluousZero cs ||
    match Plain.ofText cs with
    | some (.text _) => false
    | _ => true

/-- The form in which a text is written. -/
def TextForm.ofText (cs : List Char) : TextForm :=
  let t := traits cs
  if cs.contains '\n' then
    if t.literalAllowed then .literal else .double
  else if !isAmbiguous cs && t.plainAllowed then .plain
  else if t.singleAllowed then .single
  else .double

def escapeLetter? (c : Char) : Option Char :=
  match c.toNat with
  | 0x00 => some '0'
  | 0x07 => some 'a'
  | 0x08 => some 'b'
  | 0x09 => some 't'
  | 0x0A => some 'n'
  | 0x0B => some 'v'
  | 0x0C => some 'f'
  | 0x0D => some 'r'
  | 0x1B => some 'e'
  | 0x22 => some '"'
  | 0x5C => some '\\'
  | 0x85 => some 'N'
  | 0xA0 => some '_'
  | 0x2028 => some 'L'
  | 0x2029 => some 'P'
  | _ => none

/-- A number in hexadecimal with a given count of digits. -/
def hexText (width n : Nat) : List Char :=
  let digits := (Nat.toDigits 16 n).map Char.toUpper
  List.replicate (width - digits.length) '0' ++ digits

/-- The form of a character between double quotes. -/
def doubleForm (c : Char) : List Char :=
  if isPrintable c && !isBreak c && c != '"' && c != '\\' then [c]
  else
    match escapeLetter? c with
    | some l => ['\\', l]
    | none =>
      if c.toNat ≤ 0xFF then '\\' :: 'x' :: hexText 2 c.toNat
      else if c.toNat ≤ 0xFFFF then '\\' :: 'u' :: hexText 4 c.toNat
      else '\\' :: 'U' :: hexText 8 c.toNat

namespace Sheet

/-- Writes a text between single quotes; `broken` tells whether a line end came before. -/
def putSingle (indent : Nat) : Bool → List Char → Sheet → Sheet
  | broken, [], s => if broken then s.indentTo indent else s
  | broken, c :: rest, s =>
    if c = ' ' then putSingle indent broken rest (s.put c)
    else if isBreak c then
      putSingle indent true rest
        ((if !broken && c = '\n' then s.newline else s).putBreak c)
    else
      let s := if broken then s.indentTo indent else s
      let s := if c = '\'' then s.put '\'' else s
      putSingle indent false rest { s.put c with onlyIndent := false }

/-- Writes the lines of a literal block. -/
def putLiteral (indent : Nat) : Bool → List Char → Sheet → Sheet
  | _, [], s => s
  | broken, c :: rest, s =>
    if isBreak c then putLiteral indent true rest (s.putBreak c)
    else
      let s := if broken then s.indentTo indent else s
      putLiteral indent false rest { s.put c with onlyIndent := false }

/-- The hints after the mark of a literal block: its indentation where the text starts with white
space, and what happens to the line ends after it. -/
def literalHints (cs : List Char) : List Char :=
  let leading := if cs.head?.any fun c => c = ' ' || isBreak c then ['2'] else []
  let chomping :=
    match cs.reverse with
    | [] => ['-']
    | [c] => if isBreak c then ['+'] else ['-']
    | c :: d :: _ => if !isBreak c then ['-'] else if isBreak d then ['+'] else []
  leading ++ chomping

/-- Writes a text as a node whose lines are indented by `indent`. -/
def putText (indent : Nat) (cs : List Char) (s : Sheet) : Sheet :=
  match TextForm.ofText cs with
  | .plain =>
    let s := if !s.afterSpace && !cs.isEmpty then s.put ' ' else s
    (s.puts cs).endScalar
  | .single =>
    let s := putSingle indent false cs (s.mark ['\''] true false false)
    (s.mark ['\''] false false false).endScalar
  | .double =>
    let s := (s.mark ['"'] true false false).puts (cs.flatMap doubleForm)
    (s.mark ['"'] false false false).endScalar
  | .literal =>
    let s := (s.mark ['|'] true false false).mark (literalHints cs) false false false
    putLiteral indent true cs { s.newline with afterSpace := true, onlyIndent := true }

/-- Writes a scalar that needs no quotes. -/
def putWord (text : String) (s : Sheet) : Sheet :=
  let s := if !s.afterSpace then s.put ' ' else s
  (s.puts text.toList).endScalar

end Sheet

def numberText : Number → String
  | .integer i => toString i
  | .decimal x => x.markupText

/-- Whether a key stands on the line of its value. -/
def isSimpleKey (key : String) : Bool :=
  key.utf8ByteSize ≤ 128 && !key.toList.any isBreak

/-- The indentation one level inside a block; nothing is outside all blocks. -/
def deeper : Option Nat → Nat
  | none => 0
  | some n => n + 2

/-- The indentation of the further lines of a scalar. -/
def scalarIndent : Option Nat → Nat
  | none => 2
  | some n => n + 2

mutual

/-- Writes a node inside the block that is indented by `indent`; `asValue` tells whether it belongs
to a mapping. -/
def putNode (indent : Option Nat) (asValue : Bool) : Tree → Sheet → Sheet
  | .null, s => s.putWord "null"
  | .bool b, s => s.putWord (if b then "true" else "false")
  | .number n, s => s.putWord (numberText n)
  | .text t, s => s.putText (scalarIndent indent) t.toList
  | .list [], s => (s.mark ['['] true true false).mark [']'] false false false
  | .list items, s =>
    putItems (if asValue && !s.onlyIndent then indent.getD 0 else deeper indent) items s
  | .object [], s => (s.mark ['{'] true true false).mark ['}'] false false false
  | .object entries, s => putEntries (deeper indent) entries s

def putItems (indent : Nat) : List Tree → Sheet → Sheet
  | [], s => s
  | t :: rest, s =>
    putItems indent rest
      (putNode (some indent) false t ((s.indentTo indent).mark ['-'] true false true))

def putEntries (indent : Nat) : List (String × Tree) → Sheet → Sheet
  | [], s => s
  | (key, t) :: rest, s =>
    let s := s.indentTo indent
    let s :=
      if isSimpleKey key then
        (s.putText (indent + 2) key.toList).mark [':'] false false false
      else
        let s := (s.mark ['?'] true false true).putText (indent + 2) key.toList
        (s.indentTo indent).mark [':'] true false true
    putEntries indent rest (putNode (some indent) true t s)

end

def print (t : Tree) : String :=
  String.ofList ((putNode none false t Sheet.empty).indentTo 0).written.reverse

end Yaml
end Provision
