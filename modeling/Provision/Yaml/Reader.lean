import Provision.Yaml.Event
import Provision.Yaml.Plain

/-!
# Reading YAML

Input:
* a YAML text.

Algorithm:
* the events of the first document are collected; a fault among them does not hide what the events
  before it say;
* an alias is read as the events of the node that carries its anchor, so an anchored node is read
  once for each alias;
* keys are scalars and stand for their text as it is written; a tag of the program's own is a fault.

Results:
* `read text` is the tree of the text, or the fault with its place, if it has one.
-/

namespace Provision
namespace Yaml

/-- What is wrong with a YAML text. -/
inductive Fault where
  /-- The text breaks off or has a character that fits nowhere. -/
  | malformed
  | unknownAnchor
  | unknownTag
  | mismatchedTag
  | integerTooLarge
  | keyNotScalar
  | nestedTooDeep
  | tooManyAliases
  | severalDocuments
  deriving DecidableEq, Inhabited

/-- A fault and its place; some faults concern the text as a whole. -/
structure Failure where
  fault : Fault
  mark : Option Mark
  deriving DecidableEq, Inhabited

/-- Line and column of a failure, counted from one. -/
def Failure.position (f : Failure) : Option (Nat × Nat) :=
  f.mark.map fun m => (m.line + 1, m.column + 1)

/-- The wording of a failure. A reader finds the fault by its place, so all have one wording. -/
def Failure.message (_ : Failure) : String := "<yaml>"

/-- An event of a document whose aliases have been looked up. -/
inductive Item where
  | alias (number : Nat)
  | scalar (tag : Option Tag) (text : List Char) (style : Style)
  | sequenceStart (tag : Option Tag)
  | sequenceEnd
  | mappingStart (tag : Option Tag)
  | mappingEnd
  /-- A text without any document. -/
  | void
  deriving DecidableEq, Inhabited

/-- The events of one document, in order. -/
structure Document where
  items : List (Item × Mark)
  /-- For each number of an anchor, how many events come before its node. -/
  anchored : List (Nat × Nat)
  /-- The fault that ended the document early. -/
  failure : Option Failure
  deriving Inhabited

/-- A document while its events are collected, the last one first. -/
structure Collector where
  items : List (Item × Mark)
  /-- The numbers of the anchors by name. -/
  numbers : List (List Char × Nat)
  anchored : List (Nat × Nat)
  deriving Inhabited

namespace Collector

def empty : Collector := ⟨[], [], []⟩

/-- Notes the anchor of the next event. A name that is used again keeps its place among the names,
but gets the number of names as its number. -/
def noteAnchor (c : Collector) (anchor : Option (List Char)) : Collector :=
  match anchor with
  | none => c
  | some name =>
    let number := c.numbers.length
    let others := c.numbers.filter fun n => n.1 != name
    { c with
      numbers := (name, number) :: others
      anchored := (number, c.items.length) :: c.anchored }

def add (c : Collector) (item : Item) (m : Mark) : Collector :=
  { c with items := (item, m) :: c.items }

def finish (c : Collector) (failure : Option Failure) : Document :=
  ⟨c.items.reverse, c.anchored, failure⟩

end Collector

/-- Collects the events of a document: the document, and the automaton after it if the text goes
on. -/
def collect (isFirst : Bool) : Nat → Collector → Composer → Option (Document × Option Composer)
  | 0, c, _ => some (c.finish none, none)
  | fuel + 1, c, p =>
    match p.next with
    | .error m => some (c.finish (some ⟨.malformed, some m⟩), none)
    | .ok (event, m, p) =>
      match event with
      | .streamEnd =>
        if isFirst then
          some ((if c.items.isEmpty then c.add .void m else c).finish none, none)
        else none
      | .documentStart => collect isFirst fuel c p
      | .documentEnd => some (c.finish none, some p)
      | .alias name =>
        match c.numbers.find? fun n => n.1 = name with
        | some n => collect isFirst fuel (c.add (.alias n.2) m) p
        | none => some (c.finish (some ⟨.unknownAnchor, some m⟩), none)
      | .scalar anchor tag text style =>
        collect isFirst fuel ((c.noteAnchor anchor).add (.scalar tag text style) m) p
      | .sequenceStart anchor tag =>
        collect isFirst fuel ((c.noteAnchor anchor).add (.sequenceStart tag) m) p
      | .sequenceEnd => collect isFirst fuel (c.add .sequenceEnd m) p
      | .mappingStart anchor tag =>
        collect isFirst fuel ((c.noteAnchor anchor).add (.mappingStart tag) m) p
      | .mappingEnd => collect isFirst fuel (c.add .mappingEnd m) p

/-- The text in front of the tags that every document knows. -/
def coreTag (name : String) : Tag :=
  ("tag:yaml.org,2002:" ++ name).toList

/-- Whether a tag is of the program's own kind. -/
def isLocalTag : Option Tag → Bool
  | some ('!' :: _) => true
  | _ => false

def scalarValue (tag : Option Tag) (text : List Char) (style : Style) (m : Mark) :
    Except Failure Tree :=
  let asText : Except Failure Tree := .ok (.text (String.ofList text))
  let mismatch : Except Failure Tree := .error ⟨.mismatchedTag, some m⟩
  match tag with
  | none =>
    match style with
    | .quoted => asText
    | .plain =>
      match Plain.ofText text with
      | some t => .ok t
      | none => .error ⟨.integerTooLarge, some m⟩
  | some tag =>
    if tag = coreTag "bool" then
      match Plain.bool? text with
      | some b => .ok (.bool b)
      | none => mismatch
    else if tag = coreTag "int" then
      match (Plain.integer? text).filter Plain.isDoubleWord with
      | some i => if Plain.isWord i then .ok (.number (.integer i))
        else .error ⟨.integerTooLarge, some m⟩
      | none => mismatch
    else if tag = coreTag "float" then
      match Plain.real? text with
      | some t => .ok t
      | none => mismatch
    else if tag = coreTag "null" then
      if Plain.isNull text then .ok .null else mismatch
    else asText

/-- What reading a document needs besides the events left. -/
structure Context where
  document : Document
  /-- How many aliases may be followed. -/
  aliasLimit : Nat

/-- The result of reading: a value, the events left and how many aliases have been followed. -/
abbrev Reading (α : Type) := Except Failure (α × List (Item × Mark) × Nat)

/-- The failure when no event is left. -/
def Context.exhausted (x : Context) : Failure :=
  x.document.failure.getD ⟨.malformed, none⟩

/-- The events from the node with an anchor's number on. -/
def Context.anchored (x : Context) (number : Nat) : List (Item × Mark) :=
  match x.document.anchored.find? fun a => a.1 = number with
  | some a => x.document.items.drop a.2
  | none => []

/-- How deep the collections of a document may be nested. -/
def nestingLimit : Nat := 128

/-- Follows an alias: the events of its node, unless too many aliases have been followed. -/
def Context.follow (x : Context) (number jumps : Nat) :
    Except Failure (List (Item × Mark) × Nat) :=
  if x.aliasLimit < jumps + 1 then .error ⟨.tooManyAliases, none⟩
  else .ok (x.anchored number, jumps + 1)

def readKey (x : Context) : Nat → List (Item × Mark) → Nat → Reading String
  | 0, _, _ => .error ⟨.tooManyAliases, none⟩
  | fuel + 1, items, jumps =>
    match items with
    | [] => .error x.exhausted
    | (.scalar _ text _, _) :: rest => .ok (String.ofList text, rest, jumps)
    | (.alias number, _) :: rest =>
      match x.follow number jumps with
      | .error f => .error f
      | .ok (target, jumps) =>
        match readKey x fuel target jumps with
        | .error f => .error f
        | .ok (key, _, jumps) => .ok (key, rest, jumps)
    | (_, m) :: _ => .error ⟨.keyNotScalar, some m⟩

mutual

/-- Reads a node with at most `depth` further levels of nesting. -/
def readNode (x : Context) : Nat → Nat → List (Item × Mark) → Nat → Reading Tree
  | 0, _, _, _ => .error ⟨.tooManyAliases, none⟩
  | fuel + 1, depth, items, jumps =>
    match items with
    | [] => .error x.exhausted
    | (.alias number, _) :: rest =>
      match x.follow number jumps with
      | .error f => .error f
      | .ok (target, jumps) =>
        match readNode x fuel depth target jumps with
        | .error f => .error f
        | .ok (t, _, jumps) => .ok (t, rest, jumps)
    | (.scalar tag text style, m) :: rest =>
      if isLocalTag tag then .error ⟨.unknownTag, some m⟩
      else
        match scalarValue tag text style m with
        | .error f => .error f
        | .ok t => .ok (t, rest, jumps)
    | (.sequenceStart tag, m) :: rest =>
      if isLocalTag tag then .error ⟨.unknownTag, some m⟩
      else
        match depth with
        | 0 => .error ⟨.nestedTooDeep, some m⟩
        | depth + 1 =>
          match readItems x fuel depth rest jumps with
          | .error f => .error f
          | .ok (items, rest, jumps) => .ok (.list items, rest, jumps)
    | (.mappingStart tag, m) :: rest =>
      if isLocalTag tag then .error ⟨.unknownTag, some m⟩
      else
        match depth with
        | 0 => .error ⟨.nestedTooDeep, some m⟩
        | depth + 1 =>
          match readEntries x fuel depth rest jumps with
          | .error f => .error f
          | .ok (entries, rest, jumps) => .ok (.object (Entries.ofList entries), rest, jumps)
    | (.void, _) :: rest => .ok (.null, rest, jumps)
    | (.sequenceEnd, m) :: _ => .error ⟨.malformed, some m⟩
    | (.mappingEnd, m) :: _ => .error ⟨.malformed, some m⟩

def readItems (x : Context) : Nat → Nat → List (Item × Mark) → Nat → Reading (List Tree)
  | 0, _, _, _ => .error ⟨.tooManyAliases, none⟩
  | fuel + 1, depth, items, jumps =>
    match items with
    | (.sequenceEnd, _) :: rest => .ok ([], rest, jumps)
    | _ =>
      match readNode x fuel depth items jumps with
      | .error f => .error f
      | .ok (t, rest, jumps) =>
        match readItems x fuel depth rest jumps with
        | .error f => .error f
        | .ok (items, rest, jumps) => .ok (t :: items, rest, jumps)

def readEntries (x : Context) :
    Nat → Nat → List (Item × Mark) → Nat → Reading (List (String × Tree))
  | 0, _, _, _ => .error ⟨.tooManyAliases, none⟩
  | fuel + 1, depth, items, jumps =>
    match items with
    | (.mappingEnd, _) :: rest => .ok ([], rest, jumps)
    | _ =>
      match readKey x fuel items jumps with
      | .error f => .error f
      | .ok (key, rest, jumps) =>
        match readNode x fuel depth rest jumps with
        | .error f => .error f
        | .ok (t, rest, jumps) =>
          match readEntries x fuel depth rest jumps with
          | .error f => .error f
          | .ok (entries, rest, jumps) => .ok ((key, t) :: entries, rest, jumps)

end

/-- The tree of a document. Following all aliases takes at most as many steps as the events read
again for each of them. -/
def Document.tree (d : Document) : Except Failure Tree :=
  let n := d.items.length
  let x : Context := ⟨d, n * 100⟩
  match readNode x ((n + 1) * (n * 100 + 2) + nestingLimit + 2) nestingLimit d.items 0 with
  | .error f => .error f
  | .ok (t, _, _) =>
    match d.failure with
    | some f => .error f
    | none => .ok t

/-- Whether a character may stand in a YAML text. -/
def isAllowed (c : Char) : Bool :=
  let n := c.toNat
  n = 0x9 || n = 0xA || n = 0xD || (0x20 ≤ n && n ≤ 0x7E) || n = 0x85 ||
    (0xA0 ≤ n && n ≤ 0xD7FF) || (0xE000 ≤ n && n ≤ 0xFFFD) || 0x10000 ≤ n

/-- A bound on the number of events of a text. -/
def eventLimit (text : String) : Nat := 8 * text.length + 64

/-- Reads a whole text, which must hold one document at most. -/
def read (text : String) : Except Failure Tree :=
  if text.toList.any fun c => !isAllowed c then .error ⟨.malformed, some Mark.start⟩
  else
    match collect true (eventLimit text) Collector.empty (Composer.ofText text) with
    | none => .ok .null
    | some (d, next) =>
      match d.tree with
      | .error f => .error f
      | .ok t =>
        match next with
        | none => .ok t
        | some p =>
          match collect false (eventLimit text) Collector.empty p with
          | none => .ok t
          | some _ => .error ⟨.severalDocuments, none⟩

end Yaml
end Provision
