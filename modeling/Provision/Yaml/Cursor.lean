/-!
# Places in a YAML text

Input:
* the characters of a YAML text.

Algorithm:
* a cursor holds the characters that are left and the place reached, counted in characters, lines
  and columns from zero;
* line feed, carriage return, both together, and the line characters `U+0085`, `U+2028` and `U+2029`
  end a line.

Results:
* `Cursor.skip`, `Cursor.skipWhile` and `Cursor.takeWhile` move a cursor over characters,
  `Cursor.takeBreak` over the end of a line.
-/

namespace Provision
namespace Yaml

structure Mark where
  index : Nat
  line : Nat
  column : Nat
  deriving DecidableEq, Inhabited

def Mark.start : Mark := ⟨0, 0, 0⟩

/-- The characters left and the place of the first of them. -/
structure Cursor where
  rest : List Char
  mark : Mark
  deriving Inhabited

/-- The result of a scanning step; a fault is told by its place. -/
abbrev Scan (α : Type) := Except Mark α

def isBreak (c : Char) : Bool :=
  c = '\n' || c = '\r' || c.toNat = 0x85 || c.toNat = 0x2028 || c.toNat = 0x2029

/-- Whether a character is a space or a tab. -/
def isBlank (c : Char) : Bool :=
  c = ' ' || c = '\t'

/-- Whether a character ends a word: a blank or the end of a line. -/
def isGap (c : Char) : Bool :=
  isBlank c || isBreak c

/-- Whether a character belongs to a name: an ASCII letter or digit, `_` or `-`. -/
def isNameChar (c : Char) : Bool :=
  c.isAlphanum || c = '_' || c = '-'

/-- Whether the text ends or has a word end at its first character. -/
def startsWithGap : List Char → Bool
  | [] => true
  | c :: _ => isGap c

/-- Whether the text ends or has a line end at its first character. -/
def startsWithBreak : List Char → Bool
  | [] => true
  | c :: _ => isBreak c

def hexValue? (c : Char) : Option Nat :=
  if '0' ≤ c && c ≤ '9' then some (c.toNat - '0'.toNat)
  else if 'a' ≤ c && c ≤ 'f' then some (c.toNat - 'a'.toNat + 10)
  else if 'A' ≤ c && c ≤ 'F' then some (c.toNat - 'A'.toNat + 10)
  else none

namespace Mark

/-- The place one character further on the same line. -/
def next (m : Mark) : Mark := ⟨m.index + 1, m.line, m.column + 1⟩

/-- The start of the next line after a line end of `n` characters. -/
def nextLine (m : Mark) (n : Nat) : Mark := ⟨m.index + n, m.line + 1, 0⟩

end Mark

namespace Cursor

/-- The cursor at the start of a text. -/
def ofText (s : String) : Cursor := ⟨s.toList, Mark.start⟩

def peek? (c : Cursor) : Option Char := c.rest.head?

/-- Whether the next character is a given one. -/
def sees (c : Cursor) (x : Char) : Bool := c.rest.head? == some x

/-- Whether the end or a word end is reached. -/
def atGap (c : Cursor) : Bool := startsWithGap c.rest

/-- Whether the end or a line end is reached. -/
def atBreak (c : Cursor) : Bool := startsWithBreak c.rest

/-- Moves over one character of a line. -/
def skip (c : Cursor) : Cursor :=
  match c.rest with
  | [] => c
  | _ :: rest => ⟨rest, c.mark.next⟩

/-- Moves over `n` characters of a line. -/
def skipN : Nat → Cursor → Cursor
  | 0, c => c
  | n + 1, c => skipN n c.skip

/-- Moves over characters of a line as long as they have a property. -/
def skipWhile (p : Char → Bool) (c : Cursor) : Cursor :=
  go c.rest c.mark
where
  /-- Moves along the characters left. -/
  go : List Char → Mark → Cursor
    | [], m => ⟨[], m⟩
    | x :: rest, m => if p x then go rest m.next else ⟨x :: rest, m⟩

/-- The characters in front that have a property, and the cursor after them. -/
def takeWhile (p : Char → Bool) (c : Cursor) : List Char × Cursor :=
  (c.rest.takeWhile p, c.skipWhile p)

/-- Moves over a line end, if there is one, and tells what it counts for in a text: a line feed,
except that `U+2028` and `U+2029` stand for themselves. -/
def takeBreak (c : Cursor) : List Char × Cursor :=
  match c.rest with
  | '\r' :: '\n' :: rest => (['\n'], ⟨rest, c.mark.nextLine 2⟩)
  | x :: rest =>
    if x.toNat = 0x2028 ∨ x.toNat = 0x2029 then ([x], ⟨rest, c.mark.nextLine 1⟩)
    else if isBreak x then (['\n'], ⟨rest, c.mark.nextLine 1⟩)
    else ([], c)
  | [] => ([], c)

/-- Moves over a line end, if there is one. -/
def skipBreak (c : Cursor) : Cursor := c.takeBreak.2

/-- Moves to the end of the line if a comment starts here. -/
def skipComment (c : Cursor) : Cursor :=
  if c.sees '#' then c.skipWhile (!isBreak ·) else c

/-- Whether a line starts here with a mark of three equal characters that stands alone. -/
def atDocumentMark (c : Cursor) (x : Char) : Bool :=
  c.mark.column = 0 &&
    match c.rest with
    | a :: b :: d :: rest => a = x && b = x && d = x && startsWithGap rest
    | _ => false

/-- Whether a line starts here with the mark of a document's start or end. -/
def atAnyDocumentMark (c : Cursor) : Bool :=
  c.atDocumentMark '-' || c.atDocumentMark '.'

end Cursor
end Yaml
end Provision
