import Provision.Yaml.Scanner

/-!
# Events of a YAML document

Input:
* the tokens of a YAML text.

Algorithm:
* a pushdown automaton reads the block and flow structure; its stack holds what is to be read after
  the node at hand;
* a missing node counts as an empty plain scalar; handles of tags are replaced by what the
  directives of the document say.

Results:
* `Composer.next` gives the next event and the place at which its node starts, or the place of the
  first token that fits nowhere.
-/

namespace Provision
namespace Yaml

abbrev Tag := List Char

inductive Event where
  | streamEnd
  | documentStart
  | documentEnd
  | alias (name : List Char)
  | scalar (anchor : Option (List Char)) (tag : Option Tag) (text : List Char) (style : Style)
  | sequenceStart (anchor : Option (List Char)) (tag : Option Tag)
  | sequenceEnd
  | mappingStart (anchor : Option (List Char)) (tag : Option Tag)
  | mappingEnd
  deriving DecidableEq, Inhabited

inductive Expect where
  | streamStart
  | implicitDocument
  | document
  | documentContent
  | documentEnd
  | blockNode
  | blockSequenceFirst
  | blockSequenceEntry
  | indentlessEntry
  | blockMappingFirst
  | blockMappingKey
  | blockMappingValue
  | flowSequenceFirst
  | flowSequenceEntry
  | flowPairKey
  | flowPairValue
  | flowPairEnd
  | flowMappingFirst
  | flowMappingKey
  | flowMappingValue
  | flowMappingEmptyValue
  | nothing
  deriving DecidableEq, Inhabited

structure Composer where
  scanner : Scanner
  expect : Expect
  stack : List Expect
  /-- The handles that directives have declared, with the text each stands for. -/
  handles : List (List Char × List Char)
  deriving Inhabited

/-- An event with the place at which its node starts. -/
abbrev Composer.Step := Scan (Event × Mark × Composer)

def defaultHandles : List (List Char × List Char) :=
  [(['!'], ['!']), (['!', '!'], "tag:yaml.org,2002:".toList)]

namespace Composer

/-- The automaton at the start of a text. -/
def ofText (s : String) : Composer :=
  ⟨Scanner.ofText s, .streamStart, [], defaultHandles⟩

def advance (p : Composer) : Composer := { p with scanner := p.scanner.advance }

def peek (p : Composer) : Scan (Token × Composer) :=
  p.scanner.peek.map fun (t, s) => (t, { p with scanner := s })

/-- Goes on with what the stack says. -/
def pop (p : Composer) : Composer :=
  match p.stack with
  | e :: rest => { p with expect := e, stack := rest }
  | [] => { p with expect := .nothing }

def goTo (p : Composer) (e : Expect) : Composer := { p with expect := e }

/-- Sets what is read after the node at hand. -/
def andThen (p : Composer) (e : Expect) : Composer := { p with stack := e :: p.stack }

def emptyScalar (p : Composer) (m : Mark) : Step :=
  .ok (.scalar none none [] .plain, m, p)

/-- Directives in front of a document: whether a version was given, and the handles. -/
def directives (fuel : Nat) (seenVersion : Bool) (declared : List (List Char × List Char))
    (p : Composer) : Scan Composer :=
  match fuel with
  | 0 => .ok p
  | fuel + 1 =>
    match p.peek with
    | .error m => .error m
    | .ok (t, p) =>
      match t.kind with
      | .versionDirective major minor =>
        if seenVersion || major != 1 || (minor != 1 && minor != 2) then .error t.first
        else directives fuel true declared p.advance
      | .tagDirective handle stem =>
        if declared.any fun d => d.1 = handle then .error t.first
        else directives fuel seenVersion (declared ++ [(handle, stem)]) p.advance
      | _ =>
        let fresh := defaultHandles.filter fun d => !declared.any fun e => e.1 = d.1
        .ok { p with handles := declared ++ fresh }

/-- The number of characters left, by which the steps over directives are bounded. -/
def size (p : Composer) : Nat := p.scanner.cursor.rest.length + p.scanner.queue.length + 1

/-- Moves past marks of a document's end. -/
def skipDocumentEnds : Nat → Composer → Scan Composer
  | 0, p => .ok p
  | fuel + 1, p =>
    match p.peek with
    | .error m => .error m
    | .ok (t, p) =>
      match t.kind with
      | .documentEnd => skipDocumentEnds fuel p.advance
      | _ => .ok p

/-- Reads the start of a document that may need to be marked. -/
def documentStart (implicit : Bool) (p : Composer) : Step := do
  let p ← if implicit then .ok p else skipDocumentEnds p.size p
  let (t, p) ← p.peek
  let marked :=
    match t.kind with
    | .versionDirective _ _ | .tagDirective _ _ | .documentStart => true
    | _ => false
  if t.kind = .streamEnd then return (.streamEnd, t.first, p.advance.goTo .nothing)
  else if implicit && !marked then
    return (.documentStart, t.first,
      ({ p with handles := defaultHandles }.andThen .documentEnd).goTo .blockNode)
  else
    let p ← directives p.size false [] p
    let (start, p) ← p.peek
    if start.kind = .documentStart then
      return (.documentStart, t.first, (p.advance.andThen .documentEnd).goTo .documentContent)
    else .error start.first

def documentEnd (p : Composer) : Step := do
  let (t, p) ← p.peek
  let p := if t.kind = .documentEnd then p.advance else p
  return (.documentEnd, t.first, p.goTo .document)

structure Properties where
  anchor : Option (List Char)
  tag : Option (List Char × List Char × Mark)
  /-- The place at which the node starts, if a property stands there. -/
  first : Option Mark

/-- Reads an anchor, if one stands here. -/
def readAnchor (p : Composer) : Scan (Option (List Char × Mark) × Composer) := do
  let (t, p) ← p.peek
  match t.kind with
  | .anchor name => return (some (name, t.first), p.advance)
  | _ => return (none, p)

/-- Reads a tag, if one stands here. -/
def readTag (p : Composer) : Scan (Option (List Char × List Char × Mark) × Composer) := do
  let (t, p) ← p.peek
  match t.kind with
  | .tag handle suffix => return (some (handle, suffix, t.first), p.advance)
  | _ => return (none, p)

/-- Reads the properties of a node, in either order. -/
def readProperties (p : Composer) : Scan (Properties × Composer) := do
  let (anchor, p) ← p.readAnchor
  match anchor with
  | some (name, first) =>
    let (tag, p) ← p.readTag
    return (⟨some name, tag, some first⟩, p)
  | none =>
    let (tag, p) ← p.readTag
    match tag with
    | some (handle, suffix, first) =>
      let (anchor, p) ← p.readAnchor
      return (⟨anchor.map (·.1), some (handle, suffix, first), some first⟩, p)
    | none => return (⟨none, none, none⟩, p)

/-- The full tag of a node; an undeclared handle is a fault at the tag. -/
def resolveTag (p : Composer) (tag : Option (List Char × List Char × Mark)) : Scan (Option Tag) :=
  match tag with
  | none => .ok none
  | some ([], suffix, _) => .ok (some suffix)
  | some (handle, suffix, m) =>
    match p.handles.find? fun d => d.1 = handle with
    | some d => .ok (some (d.2 ++ suffix))
    | none => .error m

def node (block indentless : Bool) (p : Composer) : Step := do
  let (t, p) ← p.peek
  match t.kind with
  | .alias name => return (.alias name, t.first, p.pop.advance)
  | _ =>
    let (props, p) ← p.readProperties
    let (t, p) ← p.peek
    let first := props.first.getD t.first
    let tag ← p.resolveTag props.tag
    let sequence := Event.sequenceStart props.anchor tag
    let mapping := Event.mappingStart props.anchor tag
    match t.kind with
    | .scalar text style =>
      let tag := if tag = some ['!'] then none else tag
      return (.scalar props.anchor tag text style, first, p.pop.advance)
    | .flowSequenceStart => return (sequence, first, p.goTo .flowSequenceFirst)
    | .flowMappingStart => return (mapping, first, p.goTo .flowMappingFirst)
    | kind =>
      if indentless && kind = .blockEntry then return (sequence, first, p.goTo .indentlessEntry)
      else if block && kind = .blockSequenceStart then
        return (sequence, first, p.goTo .blockSequenceFirst)
      else if block && kind = .blockMappingStart then
        return (mapping, first, p.goTo .blockMappingFirst)
      else if props.first.isSome then
        return (.scalar props.anchor tag [] .plain, first, p.pop)
      else .error t.first

/-- Reads the content of a document after its mark. -/
def documentContent (p : Composer) : Step := do
  let (t, p) ← p.peek
  match t.kind with
  | .versionDirective _ _ | .tagDirective _ _ | .documentStart | .documentEnd | .streamEnd =>
    p.pop.emptyScalar t.first
  | _ => p.node true false

/-- Reads an entry of a block sequence. -/
def blockSequenceEntry (p : Composer) : Step := do
  let (t, p) ← p.peek
  match t.kind with
  | .blockEntry =>
    let (u, p) ← p.advance.peek
    match u.kind with
    | .blockEntry | .blockEnd => (p.goTo .blockSequenceEntry).emptyScalar t.last
    | _ => (p.andThen .blockSequenceEntry).node true false
  | .blockEnd => return (.sequenceEnd, t.first, p.pop.advance)
  | _ => .error t.first

/-- Reads an entry of a block sequence that is indented no deeper than its key. -/
def indentlessEntry (p : Composer) : Step := do
  let (t, p) ← p.peek
  match t.kind with
  | .blockEntry =>
    let (u, p) ← p.advance.peek
    match u.kind with
    | .blockEntry | .key | .value | .blockEnd => (p.goTo .indentlessEntry).emptyScalar t.last
    | _ => (p.andThen .indentlessEntry).node true false
  | _ => return (.sequenceEnd, t.first, p.pop)

/-- Reads a key of a block mapping. -/
def blockMappingKey (p : Composer) : Step := do
  let (t, p) ← p.peek
  match t.kind with
  | .key =>
    let (u, p) ← p.advance.peek
    match u.kind with
    | .key | .value | .blockEnd => (p.goTo .blockMappingValue).emptyScalar t.last
    | _ => (p.andThen .blockMappingValue).node true true
  | .blockEnd => return (.mappingEnd, t.first, p.pop.advance)
  | _ => .error t.first

/-- Reads a value of a block mapping. -/
def blockMappingValue (p : Composer) : Step := do
  let (t, p) ← p.peek
  match t.kind with
  | .value =>
    let (u, p) ← p.advance.peek
    match u.kind with
    | .key | .value | .blockEnd => (p.goTo .blockMappingKey).emptyScalar t.last
    | _ => (p.andThen .blockMappingKey).node true true
  | _ => (p.goTo .blockMappingKey).emptyScalar t.first

/-- Moves past the comma in front of every entry but the first. -/
def flowComma (isFirst : Bool) (t : Token) (p : Composer) : Scan (Token × Composer) :=
  if isFirst then .ok (t, p)
  else if t.kind = .flowEntry then p.advance.peek
  else .error t.first

/-- Reads an entry of a flow sequence. -/
def flowSequenceEntry (isFirst : Bool) (p : Composer) : Step := do
  let (t, p) ← p.peek
  let (t, p) ← if t.kind = .flowSequenceEnd then .ok (t, p) else p.flowComma isFirst t
  match t.kind with
  | .flowSequenceEnd => return (.sequenceEnd, t.first, p.pop.advance)
  | .key => return (.mappingStart none none, t.first, p.advance.goTo .flowPairKey)
  | _ => (p.andThen .flowSequenceEntry).node false false

/-- Reads the key of a single pair inside a flow sequence. -/
def flowPairKey (p : Composer) : Step := do
  let (t, p) ← p.peek
  match t.kind with
  | .value | .flowEntry | .flowSequenceEnd => (p.advance.goTo .flowPairValue).emptyScalar t.last
  | _ => (p.andThen .flowPairValue).node false false

/-- Reads the value of a single pair inside a flow sequence. -/
def flowPairValue (p : Composer) : Step := do
  let (t, p) ← p.peek
  match t.kind with
  | .value =>
    let (u, p) ← p.advance.peek
    match u.kind with
    | .flowEntry | .flowSequenceEnd => (p.goTo .flowPairEnd).emptyScalar u.first
    | _ => (p.andThen .flowPairEnd).node false false
  | _ => (p.goTo .flowPairEnd).emptyScalar t.first

/-- Reads the end of a single pair inside a flow sequence. -/
def flowPairEnd (p : Composer) : Step := do
  let (t, p) ← p.peek
  return (.mappingEnd, t.first, p.goTo .flowSequenceEntry)

/-- Reads a key of a flow mapping. -/
def flowMappingKey (isFirst : Bool) (p : Composer) : Step := do
  let (t, p) ← p.peek
  let (t, p) ← if t.kind = .flowMappingEnd then .ok (t, p) else p.flowComma isFirst t
  match t.kind with
  | .flowMappingEnd => return (.mappingEnd, t.first, p.pop.advance)
  | .key =>
    let (u, p) ← p.advance.peek
    match u.kind with
    | .value | .flowEntry | .flowMappingEnd => (p.goTo .flowMappingValue).emptyScalar u.first
    | _ => (p.andThen .flowMappingValue).node false false
  | _ => (p.andThen .flowMappingEmptyValue).node false false

/-- Reads a value of a flow mapping. -/
def flowMappingValue (p : Composer) : Step := do
  let (t, p) ← p.peek
  match t.kind with
  | .value =>
    let (u, p) ← p.advance.peek
    match u.kind with
    | .flowEntry | .flowMappingEnd => (p.goTo .flowMappingKey).emptyScalar u.first
    | _ => (p.andThen .flowMappingKey).node false false
  | _ => (p.goTo .flowMappingKey).emptyScalar t.first

/-- Reads the value of a flow mapping that has a key only. -/
def flowMappingEmptyValue (p : Composer) : Step := do
  let (t, p) ← p.peek
  (p.goTo .flowMappingKey).emptyScalar t.first

/-- Moves past the token that opens a collection. -/
def opened (p : Composer) : Scan Composer :=
  p.peek.map fun (_, p) => p.advance

def next (p : Composer) : Step :=
  match p.expect with
  | .streamStart => do (← p.opened).documentStart true
  | .implicitDocument => p.documentStart true
  | .document => p.documentStart false
  | .documentContent => p.documentContent
  | .documentEnd => p.documentEnd
  | .blockNode => p.node true false
  | .blockSequenceFirst => do (← p.opened).blockSequenceEntry
  | .blockSequenceEntry => p.blockSequenceEntry
  | .indentlessEntry => p.indentlessEntry
  | .blockMappingFirst => do (← p.opened).blockMappingKey
  | .blockMappingKey => p.blockMappingKey
  | .blockMappingValue => p.blockMappingValue
  | .flowSequenceFirst => do (← p.opened).flowSequenceEntry true
  | .flowSequenceEntry => p.flowSequenceEntry false
  | .flowPairKey => p.flowPairKey
  | .flowPairValue => p.flowPairValue
  | .flowPairEnd => p.flowPairEnd
  | .flowMappingFirst => do (← p.opened).flowMappingKey true
  | .flowMappingKey => p.flowMappingKey false
  | .flowMappingValue => p.flowMappingValue
  | .flowMappingEmptyValue => p.flowMappingEmptyValue
  | .nothing => .ok (.streamEnd, p.scanner.mark, p)

end Composer
end Yaml
end Provision
