import Provision.Yaml.Token

/-!
# Scalars of YAML

Input:
* a cursor at the first character of a plain, quoted or block scalar.

Algorithm:
* a run of characters without blanks is followed by a gap of blanks and line ends; inside a scalar a
  single line end counts as a space and of several ones the first is dropped;
* a plain scalar ends at a comment, at a colon before a gap, at a mark of the flow structure, or at a
  line that is indented too little;
* a block scalar takes the lines that are indented as deep as its first one.

Results:
* `scanPlain`, `scanQuoted` and `scanBlock` give the text of the scalar and the cursor after it.
-/

namespace Provision
namespace Yaml

/-- Blanks and line ends between two runs of a scalar. -/
structure Gap where
  /-- Whether a line end belongs to the gap. -/
  broken : Bool
  blanks : List Char
  firstBreak : List Char
  moreBreaks : List Char
  deriving Inhabited

def Gap.none : Gap := ⟨false, [], [], []⟩

/-- What a gap counts for in the text of a scalar. -/
def Gap.fold (g : Gap) : List Char :=
  if g.broken then
    match g.firstBreak with
    | '\n' :: _ => if g.moreBreaks.isEmpty then [' '] else g.moreBreaks
    | _ => g.firstBreak ++ g.moreBreaks
  else g.blanks

/-- Takes blanks and line ends. A tab below column `tabLimit` on a line of its own is a fault. -/
def scanGap (tabLimit : Int) : Nat → Gap → Cursor → Scan (Gap × Cursor)
  | 0, g, c => .ok (g, c)
  | fuel + 1, g, c =>
    match c.rest with
    | [] => .ok (g, c)
    | x :: _ =>
      if isBlank x then
        if g.broken then
          if x = '\t' && (c.mark.column : Int) < tabLimit then .error c.mark
          else scanGap tabLimit fuel g c.skip
        else scanGap tabLimit fuel { g with blanks := g.blanks ++ [x] } c.skip
      else if isBreak x then
        let (text, after) := c.takeBreak
        if g.broken then
          scanGap tabLimit fuel { g with moreBreaks := g.moreBreaks ++ text } after
        else scanGap tabLimit fuel { g with broken := true, blanks := [], firstBreak := text } after
      else .ok (g, c)

/-- Whether a character is a mark of the flow structure. -/
def isFlowMark (c : Char) : Bool :=
  c = ',' || c = '[' || c = ']' || c = '{' || c = '}'

/-- Whether a plain scalar ends before these characters. -/
def endsPlain (inFlow : Bool) : List Char → Bool
  | [] => true
  | x :: rest =>
    isGap x || (x = ':' && startsWithGap rest) || (inFlow && isFlowMark x)

/-- Whether a colon stands before a mark of the flow structure. -/
def strayColon (inFlow : Bool) : List Char → Bool
  | ':' :: x :: _ => inFlow && (isFlowMark x || x = '?')
  | _ => false

/-- Takes a run of characters of a plain scalar. -/
def plainRun (inFlow : Bool) : List Char → Mark → Scan (List Char × Cursor)
  | [], m => .ok ([], ⟨[], m⟩)
  | x :: rest, m =>
    if isGap x then .ok ([], ⟨x :: rest, m⟩)
    else if strayColon inFlow (x :: rest) then .error m
    else if endsPlain inFlow (x :: rest) then .ok ([], ⟨x :: rest, m⟩)
    else
      match plainRun inFlow rest m.next with
      | .error m => .error m
      | .ok (run, after) => .ok (x :: run, after)

/-- A plain scalar that has been scanned. -/
structure Plain where
  text : List Char
  /-- The place after the last character of the text. -/
  last : Mark
  /-- Whether the scalar is followed by the end of a line. -/
  endsLine : Bool
  after : Cursor
  deriving Inhabited

/-- Takes the runs of a plain scalar whose later lines are indented by at least `indent`. -/
def plainRuns (inFlow : Bool) (indent : Int) :
    Nat → List Char → Mark → Gap → Cursor → Scan Plain
  | 0, text, last, g, c => .ok ⟨text, last, g.broken, c⟩
  | fuel + 1, text, last, g, c =>
    if c.atAnyDocumentMark || c.sees '#' then .ok ⟨text, last, g.broken, c⟩
    else
      match plainRun inFlow c.rest c.mark with
      | .error m => .error m
      | .ok (run, after) =>
        let text := if run.isEmpty then text else text ++ g.fold ++ run
        let last := if run.isEmpty then last else after.mark
        let g := if run.isEmpty then g else Gap.none
        if after.rest.isEmpty || !after.atGap then .ok ⟨text, last, g.broken, after⟩
        else
          match scanGap indent after.rest.length g after with
          | .error m => .error m
          | .ok (g, after) =>
            if !inFlow && (after.mark.column : Int) < indent then .ok ⟨text, last, g.broken, after⟩
            else plainRuns inFlow indent fuel text last g after

/-- Scans a plain scalar inside a block that is indented by `indent`. -/
def scanPlain (inFlow : Bool) (indent : Int) (c : Cursor) : Scan Plain :=
  plainRuns inFlow (indent + 1) (c.rest.length + 1) [] c.mark Gap.none c

/-- The value of hexadecimal digits, which must fill all of the given length. -/
def hexNumber? (n : Nat) (cs : List Char) : Option Nat :=
  if cs.length < n then none
  else
    (cs.take n).foldl
      (fun acc x => acc.bind fun v => (hexValue? x).map fun d => v * 16 + d) (some 0)

/-- The character of an escape with a letter of its own. -/
def simpleEscape? (c : Char) : Option Char :=
  match c with
  | '0' => some '\x00'
  | 'a' => some '\x07'
  | 'b' => some '\x08'
  | 't' => some '\t'
  | '\t' => some '\t'
  | 'n' => some '\n'
  | 'v' => some '\x0b'
  | 'f' => some '\x0c'
  | 'r' => some '\r'
  | 'e' => some '\x1b'
  | ' ' => some ' '
  | '"' => some '"'
  | '/' => some '/'
  | '\\' => some '\\'
  | 'N' => some (Char.ofNat 0x85)
  | '_' => some (Char.ofNat 0xA0)
  | 'L' => some (Char.ofNat 0x2028)
  | 'P' => some (Char.ofNat 0x2029)
  | _ => none

/-- How many hexadecimal digits follow the letter of an escape. -/
def escapeDigits? (c : Char) : Option Nat :=
  match c with
  | 'x' => some 2
  | 'u' => some 4
  | 'U' => some 8
  | _ => none

/-- Scans an escape from its backslash on. -/
def scanEscape (c : Cursor) : Scan (Char × Cursor) :=
  match c.rest with
  | _ :: x :: rest =>
    match simpleEscape? x with
    | some y => .ok (y, c.skip.skip)
    | none =>
      match escapeDigits? x with
      | none => .error c.mark
      | some n =>
        match hexNumber? n rest with
        | none => .error (c.skipN 2).mark
        | some v =>
          if (0xD800 ≤ v ∧ v ≤ 0xDFFF) ∨ 0x10FFFF < v then .error (c.skipN 2).mark
          else .ok (Char.ofNat v, c.skipN (n + 2))
  | _ => .error c.mark

/-- What ends a run of a quoted scalar. -/
inductive RunEnd where
  | quote
  | gap
  | escapedBreak
  deriving DecidableEq, Inhabited

/-- Takes a run of characters of a quoted scalar; `taken` holds the ones before, the last one
first. -/
def quotedRun (quote : Char) : Nat → List Char → Cursor → Scan (List Char × RunEnd × Cursor)
  | 0, taken, c => .ok (taken.reverse, .gap, c)
  | fuel + 1, taken, c =>
    match c.rest with
    | [] => .ok (taken.reverse, .gap, c)
    | x :: rest =>
      if isGap x then .ok (taken.reverse, .gap, c)
      else if quote = '\'' && x = '\'' && rest.head? == some '\'' then
        quotedRun quote fuel ('\'' :: taken) c.skip.skip
      else if x = quote then .ok (taken.reverse, .quote, c)
      else if quote = '"' && x = '\\' then
        if rest.head?.any isBreak then .ok (taken.reverse, .escapedBreak, c.skip.skipBreak)
        else
          match scanEscape c with
          | .error m => .error m
          | .ok (y, after) => quotedRun quote fuel (y :: taken) after
      else quotedRun quote fuel (x :: taken) c.skip

/-- Takes the runs and gaps of a quoted scalar up to its closing quote. -/
def quotedRuns (quote : Char) : Nat → List Char → Cursor → Scan (List Char × Cursor)
  | 0, _, c => .error c.mark
  | fuel + 1, text, c =>
    if c.atAnyDocumentMark || c.rest.isEmpty then .error c.mark
    else
      match quotedRun quote (c.rest.length + 1) [] c with
      | .error m => .error m
      | .ok (run, stop, after) =>
        if stop = .quote || after.sees quote then .ok (text ++ run, after.skip)
        else
          let g : Gap := if stop = .escapedBreak then ⟨true, [], [], []⟩ else Gap.none
          match scanGap 0 after.rest.length g after with
          | .error m => .error m
          | .ok (g, after) => quotedRuns quote fuel (text ++ run ++ g.fold) after

/-- Scans a quoted scalar from its opening quote on. -/
def scanQuoted (quote : Char) (c : Cursor) : Scan (List Char × Cursor) :=
  quotedRuns quote (c.rest.length + 1) [] c.skip

/-- What happens to the line ends after a block scalar. -/
inductive Chomping where
  | strip
  | clip
  | keep
  deriving DecidableEq, Inhabited

/-- The chomping that an indicator asks for. -/
def chomping? : Option Char → Option Chomping
  | some '+' => some .keep
  | some '-' => some .strip
  | _ => none

/-- Scans the digit that gives the indentation of a block scalar; zero is a fault. -/
def scanIndentation (c : Cursor) : Scan (Nat × Cursor) :=
  match c.rest with
  | x :: _ =>
    if x.isDigit then
      if x = '0' then .error c.mark else .ok (x.toNat - '0'.toNat, c.skip)
    else .ok (0, c)
  | [] => .ok (0, c)

/-- Scans the indicators after the mark of a block scalar, in either order. -/
def scanIndicators (c : Cursor) : Scan (Chomping × Nat × Cursor) :=
  match chomping? c.peek? with
  | some ch =>
    match scanIndentation c.skip with
    | .error m => .error m
    | .ok (n, after) => .ok (ch, n, after)
  | none =>
    match scanIndentation c with
    | .error m => .error m
    | .ok (0, after) => .ok (.clip, 0, after)
    | .ok (n, after) =>
      match chomping? after.peek? with
      | some ch => .ok (ch, n, after.skip)
      | none => .ok (.clip, n, after)

/-- Takes the empty lines and the indentation in front of a line of a block scalar. While the
indentation is unknown (`indent = 0`), every space counts for it. -/
def blockBreaks (indent : Nat) :
    Nat → Nat → List Char → Cursor → Scan (Nat × List Char × Cursor)
  | 0, widest, breaks, c => .ok (widest, breaks, c)
  | fuel + 1, widest, breaks, c =>
    let spaces := (c.rest.takeWhile (· = ' ')).length
    let c := c.skipN (if indent = 0 then spaces else min spaces (indent - c.mark.column))
    let widest := max widest c.mark.column
    if (indent = 0 || c.mark.column < indent) && c.sees '\t' then .error c.mark
    else
      match c.rest with
      | x :: _ =>
        if isBreak x then
          let (text, after) := c.takeBreak
          blockBreaks indent fuel widest (breaks ++ text) after
        else .ok (widest, breaks, c)
      | [] => .ok (widest, breaks, c)

/-- The indentation of a block scalar whose widest leading line has `widest` spaces. -/
def detectedIndent (outer : Int) (widest : Nat) : Nat :=
  max (max widest (outer + 1).toNat) 1

/-- The text of a block scalar while its lines are taken. -/
structure BlockText where
  text : List Char
  /-- The line end after the last line. -/
  leadingBreak : List Char
  /-- The line ends of the empty lines after it. -/
  trailingBreaks : List Char
  /-- Whether the last line starts with a blank. -/
  leadingBlank : Bool
  deriving Inhabited

/-- Adds a line, joining it to the text before. -/
def BlockText.add (literal : Bool) (b : BlockText) (line : List Char) : BlockText :=
  let startsBlank := line.head?.any isBlank
  let joint :=
    if !literal && b.leadingBreak.head? == some '\n' && !b.leadingBlank && !startsBlank then
      if b.trailingBreaks.isEmpty then [' '] else []
    else b.leadingBreak
  ⟨b.text ++ joint ++ b.trailingBreaks ++ line, [], [], startsBlank⟩

/-- Takes the lines of a block scalar. -/
def blockLines (literal : Bool) (indent : Nat) : Nat → BlockText → Cursor → Scan (BlockText × Cursor)
  | 0, b, c => .ok (b, c)
  | fuel + 1, b, c =>
    if c.mark.column = indent && !c.rest.isEmpty then
      let (line, after) := c.takeWhile (!isBreak ·)
      let b := b.add literal line
      let (text, after) := after.takeBreak
      match blockBreaks indent (after.rest.length + 1) 0 [] after with
      | .error m => .error m
      | .ok (_, breaks, after) =>
        blockLines literal indent fuel { b with leadingBreak := text, trailingBreaks := breaks } after
    else .ok (b, c)

/-- Scans a block scalar from its mark on, inside a block that is indented by `outer`. -/
def scanBlock (literal : Bool) (outer : Int) (c : Cursor) : Scan (List Char × Cursor) :=
  match scanIndicators c.skip with
  | .error m => .error m
  | .ok (chomping, increment, c) =>
    let c := (c.skipWhile isBlank).skipComment
    if !c.atBreak then .error c.mark
    else
      let c := c.skipBreak
      let given : Nat :=
        if increment = 0 then 0
        else if 0 ≤ outer then (outer + increment).toNat else increment
      match blockBreaks given (c.rest.length + 1) 0 [] c with
      | .error m => .error m
      | .ok (widest, breaks, c) =>
        let indent := if given = 0 then detectedIndent outer widest else given
        match blockLines literal indent (c.rest.length + 1) ⟨[], [], breaks, false⟩ c with
        | .error m => .error m
        | .ok (b, c) =>
          let tail :=
            match chomping with
            | .strip => []
            | .clip => b.leadingBreak
            | .keep => b.leadingBreak ++ b.trailingBreaks
          .ok (b.text ++ tail, c)

end Yaml
end Provision
