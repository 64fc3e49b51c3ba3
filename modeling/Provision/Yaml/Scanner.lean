import Provision.Yaml.Scalar
import Provision.Yaml.Property

/-!
# Scanning YAML into tokens

Input:
* a cursor over a YAML text.

Algorithm:
* the indentation of the open blocks is kept on a stack: a deeper column opens a block, a shallower
  one closes blocks;
* a node that may turn out to be the key of a mapping is remembered, one for each level of the flow
  structure; when a colon follows on the same line and within 1024 characters, the key token is put
  in front of the node, and before it the start of a block where one begins;
* tokens wait in a queue, and the first one is given out once no later colon can put anything in
  front of it.

Results:
* `Scanner.peek` gives the next token, `Scanner.advance` moves past it; a fault is told by the place
  at which the scanner stands.
-/

namespace Provision
namespace Yaml

/-- A node that may be the key of a mapping. -/
structure PossibleKey where
  /-- Whether nothing but a key can stand here. -/
  required : Bool
  /-- The number of the token that starts the node. -/
  number : Nat
  mark : Mark
  deriving DecidableEq, Inhabited

structure Scanner where
  cursor : Cursor
  /-- The column of the innermost open block, `-1` outside all blocks. -/
  indent : Int
  /-- The columns of the blocks around it. -/
  indents : List Int
  /-- Whether a key may start at this place. -/
  keyAllowed : Bool
  /-- The possible key of each flow level, the innermost one first; the last one is that of the
  block structure. -/
  keys : List (Option PossibleKey)
  /-- Tokens that wait. -/
  queue : List Token
  /-- How many tokens have been given out. -/
  given : Nat
  deriving Inhabited

namespace Scanner

/-- A scanner at the start of a text. -/
def ofText (s : String) : Scanner :=
  let c := Cursor.ofText s
  ⟨c, -1, [], true, [none], [⟨.streamStart, c.mark, c.mark⟩], 0⟩

/-- Whether the scanner stands inside brackets or braces. -/
def inFlow (s : Scanner) : Bool := 1 < s.keys.length

/-- The place at which the scanner stands. -/
def mark (s : Scanner) : Mark := s.cursor.mark

def push (s : Scanner) (t : Token) : Scanner := { s with queue := s.queue ++ [t] }

/-- Puts a token in front of the one with the given number. -/
def pushAt (s : Scanner) (number : Nat) (t : Token) : Scanner :=
  let k := number - s.given
  { s with queue := s.queue.take k ++ t :: s.queue.drop k }

/-- Whether a possible key can no longer become one. -/
def isStale (s : Scanner) (k : PossibleKey) : Bool :=
  k.mark.line < s.mark.line || k.mark.index + 1024 < s.mark.index

/-- Forgets the possible keys that can no longer become keys; a required one among them is a
fault. -/
def dropStale (s : Scanner) : Scan Scanner :=
  if s.keys.any fun k => k.any fun k => s.isStale k && k.required then .error s.mark
  else .ok { s with keys := s.keys.map fun k => k.filter fun k => !s.isStale k }

/-- Forgets the possible key of the innermost level; a required one is a fault. -/
def dropKey (s : Scanner) : Scan Scanner :=
  match s.keys with
  | some k :: rest => if k.required then .error s.mark else .ok { s with keys := none :: rest }
  | _ => .ok s

/-- Remembers that a key may start here. -/
def saveKey (s : Scanner) : Scan Scanner :=
  if s.keyAllowed then
    match s.dropKey with
    | .error m => .error m
    | .ok s =>
      let required := !s.inFlow && s.indent == s.mark.column
      let key : PossibleKey := ⟨required, s.given + s.queue.length, s.mark⟩
      .ok { s with keys := some key :: s.keys.drop 1 }
  else .ok s

/-- Opens a block at a deeper column; its first token goes in front of the given token, or to the
end of the queue. -/
def openBlock (s : Scanner) (column : Nat) (number : Option Nat) (kind : TokenKind) (m : Mark) :
    Scanner :=
  if s.inFlow || (column : Int) ≤ s.indent then s
  else
    let s := { s with indents := s.indent :: s.indents, indent := column }
    let t : Token := ⟨kind, m, m⟩
    match number with
    | some n => s.pushAt n t
    | none => s.push t

/-- Closes the blocks that are indented deeper than a column. -/
def closeBlocks (column : Int) : List Int → Scanner → Scanner
  | [], s => s
  | outer :: rest, s =>
    if column < s.indent then
      closeBlocks column rest
        { s.push ⟨.blockEnd, s.mark, s.mark⟩ with indent := outer, indents := rest }
    else s

/-- Closes the blocks that are indented deeper than a column; inside the flow structure columns do
not count. -/
def unroll (s : Scanner) (column : Int) : Scanner :=
  if s.inFlow then s else closeBlocks column s.indents s

/-- Moves over blanks, comments and line ends to the next token. -/
def toNextToken : Nat → Scanner → Scanner
  | 0, s => s
  | fuel + 1, s =>
    let tabs := s.inFlow || !s.keyAllowed
    let c := if s.mark.index = 0 && s.cursor.sees '\uFEFF' then s.cursor.skip else s.cursor
    let c := (c.skipWhile fun x => x = ' ' || (tabs && x = '\t')).skipComment
    if c.peek?.any isBreak then
      toNextToken fuel { s with cursor := c.skipBreak, keyAllowed := s.keyAllowed || !s.inFlow }
    else { s with cursor := c }

/-- Adds the token of the next `n` characters. -/
def pushMark (s : Scanner) (n : Nat) (kind : TokenKind) : Scanner :=
  let after := s.cursor.skipN n
  { s.push ⟨kind, s.mark, after.mark⟩ with cursor := after }

/-- The end of the text counts as the start of a line. -/
def endLine (s : Scanner) : Scanner :=
  if s.mark.column = 0 then s
  else { s with cursor := { s.cursor with mark := ⟨s.mark.index, s.mark.line + 1, 0⟩ } }

def fetchEnd (s : Scanner) : Scan Scanner :=
  (s.endLine.unroll (-1)).dropKey.map fun s => { s.pushMark 0 .streamEnd with keyAllowed := false }

def fetchDirective (s : Scanner) : Scan Scanner := do
  let s ← (s.unroll (-1)).dropKey
  let (t, c) ← scanDirective s.cursor
  return { s.push t with cursor := c, keyAllowed := false }

/-- Fetches the mark of a document's start or end. -/
def fetchDocumentMark (kind : TokenKind) (s : Scanner) : Scan Scanner :=
  (s.unroll (-1)).dropKey.map fun s => { s.pushMark 3 kind with keyAllowed := false }

def fetchFlowStart (kind : TokenKind) (s : Scanner) : Scan Scanner :=
  s.saveKey.map fun s => { s.pushMark 1 kind with keys := none :: s.keys, keyAllowed := true }

def fetchFlowEnd (kind : TokenKind) (s : Scanner) : Scan Scanner :=
  s.dropKey.map fun s =>
    { s.pushMark 1 kind with
      keys := if s.inFlow then s.keys.drop 1 else s.keys, keyAllowed := false }

def fetchFlowEntry (s : Scanner) : Scan Scanner :=
  s.dropKey.map fun s => { s.pushMark 1 .flowEntry with keyAllowed := true }

/-- Fetches the dash of a block sequence. -/
def fetchBlockEntry (s : Scanner) : Scan Scanner :=
  if !s.inFlow && !s.keyAllowed then .error s.mark
  else
    (s.openBlock s.mark.column none .blockSequenceStart s.mark).dropKey.map fun s =>
      { s.pushMark 1 .blockEntry with keyAllowed := true }

/-- Fetches the question mark of a key. -/
def fetchKey (s : Scanner) : Scan Scanner :=
  if !s.inFlow && !s.keyAllowed then .error s.mark
  else
    (s.openBlock s.mark.column none .blockMappingStart s.mark).dropKey.map fun s =>
      { s.pushMark 1 .key with keyAllowed := !s.inFlow }

def fetchValue (s : Scanner) : Scan Scanner :=
  match s.keys with
  | some k :: rest =>
    let s := s.pushAt k.number ⟨.key, k.mark, k.mark⟩
    let s := s.openBlock k.mark.column (some k.number) .blockMappingStart k.mark
    .ok { s.pushMark 1 .value with keys := none :: rest, keyAllowed := false }
  | _ =>
    if !s.inFlow && !s.keyAllowed then .error s.mark
    else
      let s := s.openBlock s.mark.column none .blockMappingStart s.mark
      .ok { s.pushMark 1 .value with keyAllowed := !s.inFlow }

def fetchName (kind : List Char → TokenKind) (s : Scanner) : Scan Scanner := do
  let s ← s.saveKey
  let (t, c) ← scanName kind s.cursor
  return { s.push t with cursor := c, keyAllowed := false }

def fetchTag (s : Scanner) : Scan Scanner := do
  let s ← s.saveKey
  let (t, c) ← scanTag s.inFlow s.cursor
  return { s.push t with cursor := c, keyAllowed := false }

def fetchBlockScalar (literal : Bool) (s : Scanner) : Scan Scanner := do
  let s ← s.dropKey
  let (text, c) ← scanBlock literal s.indent s.cursor
  return { s.push ⟨.scalar text .quoted, s.mark, c.mark⟩ with cursor := c, keyAllowed := true }

def fetchQuoted (quote : Char) (s : Scanner) : Scan Scanner := do
  let s ← s.saveKey
  let (text, c) ← scanQuoted quote s.cursor
  return { s.push ⟨.scalar text .quoted, s.mark, c.mark⟩ with cursor := c, keyAllowed := false }

def fetchPlain (s : Scanner) : Scan Scanner := do
  let s ← s.saveKey
  let p ← scanPlain s.inFlow s.indent s.cursor
  return { s.push ⟨.scalar p.text .plain, s.mark, p.last⟩ with
    cursor := p.after, keyAllowed := p.endsLine }

/-- Whether a character has a meaning of its own at the start of a token. -/
def isIndicator (x : Char) : Bool :=
  "-?:,[]\x7b\x7d#&*!|>'\"%@`".toList.contains x

/-- Whether a plain scalar may start with these characters. -/
def startsPlain (inFlow : Bool) : List Char → Bool
  | [] => false
  | x :: rest =>
    !(isGap x || isIndicator x) || (x = '-' && !rest.head?.any isBlank) ||
      (!inFlow && (x = '?' || x = ':') && !startsWithGap rest)

/-- Fetches the token that starts at the cursor. -/
def fetchToken (s : Scanner) : Scan Scanner :=
  match s.cursor.rest with
  | [] => s.fetchEnd
  | x :: rest =>
    if s.mark.column = 0 && x = '%' then s.fetchDirective
    else if s.cursor.atDocumentMark '-' then s.fetchDocumentMark .documentStart
    else if s.cursor.atDocumentMark '.' then s.fetchDocumentMark .documentEnd
    else if x = '[' then s.fetchFlowStart .flowSequenceStart
    else if x = '{' then s.fetchFlowStart .flowMappingStart
    else if x = ']' then s.fetchFlowEnd .flowSequenceEnd
    else if x = '}' then s.fetchFlowEnd .flowMappingEnd
    else if x = ',' then s.fetchFlowEntry
    else if x = '-' && startsWithGap rest then s.fetchBlockEntry
    else if x = '?' && (s.inFlow || startsWithGap rest) then s.fetchKey
    else if x = ':' && (s.inFlow || startsWithGap rest) then s.fetchValue
    else if x = '*' then s.fetchName .alias
    else if x = '&' then s.fetchName .anchor
    else if x = '!' then s.fetchTag
    else if x = '|' && !s.inFlow then s.fetchBlockScalar true
    else if x = '>' && !s.inFlow then s.fetchBlockScalar false
    else if x = '\'' then s.fetchQuoted '\''
    else if x = '"' then s.fetchQuoted '"'
    else if startsPlain s.inFlow (x :: rest) then s.fetchPlain
    else .error s.mark

/-- Fetches the next token into the queue. -/
def fetch (s : Scanner) : Scan Scanner := do
  let s ← (s.toNextToken (s.cursor.rest.length + 1)).dropStale
  (s.unroll s.mark.column).fetchToken

/-- Whether the first token of the queue may not be given out yet. -/
def needsMore (s : Scanner) : Bool :=
  s.queue.isEmpty || s.keys.any fun k => k.any fun k => k.number == s.given

/-- Fetches tokens until the first one of the queue may be given out. -/
def fill : Nat → Scanner → Scan Scanner
  | 0, s => .ok s
  | fuel + 1, s =>
    if s.queue.isEmpty then
      match s.fetch with
      | .error m => .error m
      | .ok s => fill fuel s
    else
      match s.dropStale with
      | .error m => .error m
      | .ok s =>
        if s.needsMore then
          match s.fetch with
          | .error m => .error m
          | .ok s => fill fuel s
        else .ok s

/-- The next token, and the scanner that holds it first in its queue. -/
def peek (s : Scanner) : Scan (Token × Scanner) :=
  match fill (s.cursor.rest.length + 2) s with
  | .error m => .error m
  | .ok s =>
    match s.queue with
    | t :: _ => .ok (t, s)
    | [] => .error s.mark

/-- Moves past the first token of the queue. -/
def advance (s : Scanner) : Scanner :=
  { s with queue := s.queue.drop 1, given := s.given + 1 }

end Scanner
end Yaml
end Provision
