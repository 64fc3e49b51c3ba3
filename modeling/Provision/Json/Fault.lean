/-!
# Faults of a JSON text

Input:
* a JSON text that cannot be read, and how much of it was left when the fault was found.

Algorithm:
* the fault is placed at the number of bytes that were read, counted as line and column.

Results:
* `Fault.message` is the wording of a fault, `Failure.position` its line (from 1) and column (bytes
  since the start of the line).
-/

namespace Provision
namespace Json

/-- What is wrong with a JSON text. -/
inductive Fault where
  | unfinishedList
  | unfinishedObject
  | unfinishedText
  | unfinishedValue
  | expectedColon
  | expectedListEnd
  | expectedObjectEnd
  | expectedWord
  | expectedValue
  | invalidEscape
  | invalidNumber
  | numberOutOfRange
  | controlCharacter
  | keyNotText
  | loneSurrogate
  | unfinishedSurrogate
  | trailingComma
  | trailingCharacters
  | nestedTooDeep
  deriving DecidableEq, Inhabited

def Fault.message : Fault → String
  | .unfinishedList => "EOF while parsing a list"
  | .unfinishedObject => "EOF while parsing an object"
  | .unfinishedText => "EOF while parsing a string"
  | .unfinishedValue => "EOF while parsing a value"
  | .expectedColon => "expected `:`"
  | .expectedListEnd => "expected `,` or `]`"
  | .expectedObjectEnd => "expected `,` or `\x7d`"
  | .expectedWord => "expected ident"
  | .expectedValue => "expected value"
  | .invalidEscape => "invalid escape"
  | .invalidNumber => "invalid number"
  | .numberOutOfRange => "number out of range"
  | .controlCharacter => "control character (\\u0000-\\u001F) found while parsing a string"
  | .keyNotText => "key must be a string"
  | .loneSurrogate => "lone leading surrogate in hex escape"
  | .unfinishedSurrogate => "unexpected end of hex escape"
  | .trailingComma => "trailing comma"
  | .trailingCharacters => "trailing characters"
  | .nestedTooDeep => "recursion limit exceeded"

/-- A fault together with the text that was left and how many bytes of it had been looked at. -/
structure Failure where
  fault : Fault
  rest : List Char
  seen : Nat
  deriving DecidableEq, Inhabited

/-- The number of bytes of a text. -/
def byteLength (cs : List Char) : Nat :=
  cs.foldr (fun c n => c.utf8Size + n) 0

/-- Line and column reached after the first `n` bytes of a text. -/
def positionAt (text : String) (n : Nat) : Nat × Nat :=
  let read := text.toUTF8.toList.take n
  (1 + read.count 10, (read.reverse.takeWhile (· != 10)).length)

/-- Line and column of a failure within the whole text. -/
def Failure.position (text : String) (f : Failure) : Nat × Nat :=
  positionAt text (text.utf8ByteSize - byteLength f.rest + f.seen)

/-- The wording of a failure with its place. -/
def Failure.message (text : String) (f : Failure) : String :=
  let p := f.position text
  f.fault.message ++ " at line " ++ toString p.1 ++ " column " ++ toString p.2

end Json
end Provision
