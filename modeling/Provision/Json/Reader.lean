import Provision.Json.Draft
import Provision.Json.Numeral

/-!
# Reading JSON

Input:
* a JSON text.

Algorithm:
* a value is told by its first character; lists and objects are read element by element, up to the
  first character that cannot belong to a JSON text;
* lists and objects may be nested up to a given depth; the number of steps is bounded by the length
  of the text, since each step takes at least one character.

Results:
* `readDraft` gives what could be read of a text, `read` its tree or the failure that ended the
  reading.
-/

namespace Provision
namespace Json

/-- Whether a character may stand between the parts of a JSON text. -/
def isSpace (c : Char) : Bool :=
  c = ' ' || c = '\n' || c = '\t' || c = '\r'

/-- The text without the space in front. -/
def skipSpace (cs : List Char) : List Char :=
  cs.dropWhile isSpace

def failAt {α : Type} (fault : Fault) (rest : List Char) : Except Failure α :=
  .error ⟨fault, rest, if rest.isEmpty then 0 else 1⟩

/-- Reads the remaining letters of a word. -/
def readWord : List Char → List Char → Except Failure (List Char)
  | [], rest => .ok rest
  | _ :: _, [] => .error ⟨.unfinishedValue, [], 0⟩
  | e :: es, c :: rest =>
    if c = e then readWord es rest else .error ⟨.expectedWord, c :: rest, 1⟩

def hexValue? (c : Char) : Option Nat :=
  if '0' ≤ c && c ≤ '9' then some (c.toNat - '0'.toNat)
  else if 'a' ≤ c && c ≤ 'f' then some (c.toNat - 'a'.toNat + 10)
  else if 'A' ≤ c && c ≤ 'F' then some (c.toNat - 'A'.toNat + 10)
  else none

def readHex (cs : List Char) : Step Nat :=
  if byteLength (cs.take 4) < 4 then .error ⟨.unfinishedText, [], 0⟩
  else
    match cs with
    | a :: b :: c :: d :: rest =>
      match hexValue? a, hexValue? b, hexValue? c, hexValue? d with
      | some a, some b, some c, some d => .ok (((a * 16 + b) * 16 + c) * 16 + d, rest)
      | _, _, _, _ => .error ⟨.invalidEscape, cs, 4⟩
    | _ => .error ⟨.invalidEscape, cs, 4⟩

/-- Reads the second half of a pair of surrogates after the first half `high`. -/
def readLowSurrogate (high : Nat) (cs : List Char) : Step Char :=
  match cs with
  | [] => .error ⟨.unfinishedText, [], 0⟩
  | '\\' :: [] => .error ⟨.unfinishedText, [], 0⟩
  | '\\' :: 'u' :: rest =>
    match readHex rest with
    | .error f => .error f
    | .ok (low, rest) =>
      if low < 0xDC00 ∨ 0xDFFF < low then .error ⟨.loneSurrogate, rest, 0⟩
      else .ok (Char.ofNat ((high - 0xD800) * 0x400 + (low - 0xDC00) + 0x10000), rest)
  | '\\' :: rest => .error ⟨.unfinishedSurrogate, rest, 1⟩
  | _ => .error ⟨.unfinishedSurrogate, cs, 1⟩

/-- Reads what follows the backslash of an escape. -/
def readEscape (cs : List Char) : Step Char :=
  match cs with
  | [] => .error ⟨.unfinishedText, [], 0⟩
  | '"' :: rest => .ok ('"', rest)
  | '\\' :: rest => .ok ('\\', rest)
  | '/' :: rest => .ok ('/', rest)
  | 'b' :: rest => .ok ('\x08', rest)
  | 'f' :: rest => .ok ('\x0c', rest)
  | 'n' :: rest => .ok ('\n', rest)
  | 'r' :: rest => .ok ('\r', rest)
  | 't' :: rest => .ok ('\t', rest)
  | 'u' :: rest =>
    match readHex rest with
    | .error f => .error f
    | .ok (n, rest) =>
      if 0xDC00 ≤ n ∧ n ≤ 0xDFFF then .error ⟨.loneSurrogate, rest, 0⟩
      else if 0xD800 ≤ n ∧ n ≤ 0xDBFF then readLowSurrogate n rest
      else .ok (Char.ofNat n, rest)
  | _ => .error ⟨.invalidEscape, cs, 1⟩

/-- Reads the characters of a text up to its closing quote, in at most `fuel` steps. -/
def readChars : Nat → List Char → Step (List Char)
  | 0, cs => .error ⟨.unfinishedText, cs, 0⟩
  | fuel + 1, cs =>
    match cs with
    | [] => .error ⟨.unfinishedText, [], 0⟩
    | '"' :: rest => .ok ([], rest)
    | '\\' :: rest =>
      match readEscape rest with
      | .error f => .error f
      | .ok (c, rest) =>
        match readChars fuel rest with
        | .error f => .error f
        | .ok (s, rest) => .ok (c :: s, rest)
    | c :: rest =>
      if c.toNat < 0x20 then .error ⟨.controlCharacter, cs, 1⟩
      else
        match readChars fuel rest with
        | .error f => .error f
        | .ok (s, rest) => .ok (c :: s, rest)

/-- Reads a text after its opening quote. -/
def readText (cs : List Char) : Step String :=
  match readChars (cs.length + 1) cs with
  | .error f => .error f
  | .ok (s, rest) => .ok (String.ofList s, rest)

/-- Reads the colon between a key and its value. -/
def readColon (cs : List Char) : Except Failure (List Char) :=
  match skipSpace cs with
  | ':' :: rest => .ok rest
  | [] => .error ⟨.unfinishedObject, [], 0⟩
  | rest => failAt .expectedColon rest

/-- What was read, and what follows unless reading failed. -/
abbrev Reading (α : Type) := α × Option (List Char)

/-- A value that was read in one step. -/
def Reading.ofStep {α : Type} (f : α → Draft) : Step α → Reading Draft
  | .ok (a, rest) => (f a, some rest)
  | .error failure => (.broken failure, none)

/-- A value that is told by a word. -/
def Reading.ofWord (d : Draft) : Except Failure (List Char) → Reading Draft
  | .ok rest => (d, some rest)
  | .error failure => (.broken failure, none)

mutual

/-- Reads a value with at most `depth` further levels of nesting. -/
def readValue : Nat → Nat → List Char → Reading Draft
  | 0, _, cs => (.broken ⟨.nestedTooDeep, cs, 0⟩, none)
  | fuel + 1, depth, cs =>
    match skipSpace cs with
    | [] => (.broken ⟨.unfinishedValue, [], 0⟩, none)
    | 'n' :: rest => .ofWord .null (readWord ['u', 'l', 'l'] rest)
    | 't' :: rest => .ofWord (.bool true) (readWord ['r', 'u', 'e'] rest)
    | 'f' :: rest => .ofWord (.bool false) (readWord ['a', 'l', 's', 'e'] rest)
    | '"' :: rest => .ofStep .text (readText rest)
    | '[' :: rest =>
      match depth with
      | 0 => (.broken ⟨.nestedTooDeep, '[' :: rest, 1⟩, none)
      | depth + 1 =>
        let (items, rest) := readItems fuel depth true rest
        (.list items, rest)
    | '{' :: rest =>
      match depth with
      | 0 => (.broken ⟨.nestedTooDeep, '{' :: rest, 1⟩, none)
      | depth + 1 =>
        let (entries, rest) := readEntries fuel depth true rest
        (.object entries, rest)
    | '-' :: rest => .ofStep .number (readNumeral true rest)
    | c :: rest =>
      if c.isDigit then .ofStep .number (readNumeral false (c :: rest))
      else (.broken ⟨.expectedValue, c :: rest, 1⟩, none)

/-- Reads the elements of a list up to its closing bracket. -/
def readItems : Nat → Nat → Bool → List Char → Reading (List Draft)
  | 0, _, _, cs => ([.broken ⟨.nestedTooDeep, cs, 0⟩], none)
  | fuel + 1, depth, isFirst, cs =>
    match skipSpace cs with
    | [] => ([.broken ⟨.unfinishedList, [], 0⟩], none)
    | ']' :: rest => ([], some rest)
    | c :: rest =>
      if isFirst then readItem fuel depth (c :: rest)
      else if c = ',' then
        match skipSpace rest with
        | [] => ([.broken ⟨.unfinishedValue, [], 0⟩], none)
        | ']' :: rest => ([.broken ⟨.trailingComma, ']' :: rest, 1⟩], none)
        | rest => readItem fuel depth rest
      else ([.broken ⟨.expectedListEnd, c :: rest, 1⟩], none)

/-- Reads one element of a list and those after it. -/
def readItem : Nat → Nat → List Char → Reading (List Draft)
  | 0, _, cs => ([.broken ⟨.nestedTooDeep, cs, 0⟩], none)
  | fuel + 1, depth, cs =>
    match readValue fuel depth cs with
    | (d, none) => ([d], none)
    | (d, some rest) =>
      let (items, rest) := readItems fuel depth false rest
      (d :: items, rest)

/-- Reads the entries of an object up to its closing brace. -/
def readEntries : Nat → Nat → Bool → List Char → Reading (List (String × Draft))
  | 0, _, _, cs => ([("", .broken ⟨.nestedTooDeep, cs, 0⟩)], none)
  | fuel + 1, depth, isFirst, cs =>
    match skipSpace cs with
    | [] => ([("", .broken ⟨.unfinishedObject, [], 0⟩)], none)
    | '}' :: rest => ([], some rest)
    | c :: rest =>
      if isFirst then
        if c = '"' then readEntry fuel depth rest
        else ([("", .broken ⟨.keyNotText, c :: rest, 1⟩)], none)
      else if c = ',' then
        match skipSpace rest with
        | [] => ([("", .broken ⟨.unfinishedValue, [], 0⟩)], none)
        | '"' :: rest => readEntry fuel depth rest
        | '}' :: rest => ([("", .broken ⟨.trailingComma, '}' :: rest, 1⟩)], none)
        | rest => ([("", .broken ⟨.keyNotText, rest, 1⟩)], none)
      else ([("", .broken ⟨.expectedObjectEnd, c :: rest, 1⟩)], none)

/-- Reads one entry of an object, from within its key, and those after it. -/
def readEntry : Nat → Nat → List Char → Reading (List (String × Draft))
  | 0, _, cs => ([("", .broken ⟨.nestedTooDeep, cs, 0⟩)], none)
  | fuel + 1, depth, cs =>
    match readText cs with
    | .error f => ([("", .broken f)], none)
    | .ok (key, rest) =>
      match readColon rest with
      | .error f => ([(key, .broken f)], none)
      | .ok rest =>
        match readValue fuel depth rest with
        | (d, none) => ([(key, d)], none)
        | (d, some rest) =>
          let (entries, rest) := readEntries fuel depth false rest
          ((key, d) :: entries, rest)

end

/-- How deep the lists and objects of a document may be nested. -/
def nestingLimit : Nat := 127

/-- Reads the value in front of a text with at most `depth` levels of nesting. -/
def readDraft (depth : Nat) (text : String) : Reading Draft :=
  readValue (3 * text.length + 3) depth text.toList

/-- The failure of a text that goes on after its value. -/
def endOfText : Option (List Char) → Except Failure Unit
  | none => .ok ()
  | some rest =>
    match skipSpace rest with
    | [] => .ok ()
    | rest => .error ⟨.trailingCharacters, rest, 1⟩

/-- Reads a whole text with at most `depth` levels of nesting. -/
def readWithin (depth : Nat) (text : String) : Except Failure Tree := do
  let (draft, rest) := readDraft depth text
  let t ← draft.toTree
  endOfText rest
  return t

def read (text : String) : Except Failure Tree :=
  readWithin nestingLimit text

end Json
end Provision
