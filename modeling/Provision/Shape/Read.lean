import Provision.Shape.Basic
import Provision.Shape.Keys
import Provision.Json.Reader
import Provision.Sorted
import Provision.Text.Blank

/-!
# Reading values of a shape

Input:
* a shape and a tree.

Algorithm:
* scalars are brought into the form the shape asks for: texts that hold a number count as numbers,
  texts that spell a truth value as truth values, numbers and truth values as texts;
* null stands for an absent optional value and for an empty list, set or map;
* keys of records and labels of choices match up to spelling; a record may be given as a list of its
  fields in order;
* of several faulty entries of a record the one with the least key is reported, and a missing field
  only if every given one is sound.

Results:
* `Shape.read s t` is the value that `t` holds, or the fault with the path to it.
-/

namespace Provision
namespace Shape

/-- A fault at the place at hand. -/
def fail {α : Type} (fault : ShapeFault) : Except ShapeError α := .error (.here fault)

/-- The fault of a tree that has another type than expected. -/
def mismatch {α : Type} (t : Tree) (expected : String) : Except ShapeError α :=
  fail (.wrongType (.ofTree t) expected)

/-- Errors seen from one step further out. -/
def within {α : Type} (step : Segment) (r : Except ShapeError α) : Except ShapeError α :=
  r.mapError (.within step)

/-- A text that holds a number is that number; every other tree is left as it is. -/
def asNumber : Tree → Tree
  | .text s =>
    match Json.read (Text.trim s) with
    | .ok (.number n) => .number n
    | _ => .text s
  | t => t

/-- Whether two texts differ only in the case of ASCII letters. -/
def equalsIgnoringCase (a b : String) : Bool := Text.lowerAscii a == Text.lowerAscii b

def readBool : Tree → Except ShapeError Bool
  | .bool b => .ok b
  | .text s =>
    if equalsIgnoringCase (Text.trim s) "true" then .ok true
    else if equalsIgnoringCase (Text.trim s) "false" then .ok false
    else mismatch (.text s) "a boolean"
  | t => mismatch t "a boolean"

/-- Reads an integer between two bounds, the upper one excluded. -/
def readInteger (title : String) (low high : Int) (t : Tree) : Except ShapeError Int :=
  match asNumber t with
  | .number (.integer i) =>
    if low ≤ i ∧ i < high then .ok i else fail (.wrongValue (.integer i) title)
  | t => mismatch t title

/-- Reads a number of double or single precision. -/
def readReal (single : Bool) (t : Tree) : Except ShapeError Double :=
  match asNumber t with
  | .number (.integer i) =>
    .ok (if single then Double.ofRatioSingle (i < 0) i.natAbs 1 else Double.ofInt i)
  | .number (.decimal x) => .ok (if single then x.toSingle else x)
  | t => mismatch t (if single then "f32" else "f64")

def readChar : Tree → Except ShapeError Char
  | .text s =>
    match s.toList with
    | [c] => .ok c
    | _ => fail (.wrongValue (.text s) "a character")
  | t => mismatch t "a character"

def readText (title : String) : Tree → Except ShapeError String
  | .text s => .ok s
  | .number n => .ok n.text
  | .bool b => .ok (if b then "true" else "false")
  | t => mismatch t title

/-- The elements of a list; null has none. -/
def elements (title : String) : Tree → Except ShapeError (List Tree)
  | .null => .ok []
  | .list items => .ok items
  | t => mismatch t title

/-- The entries of an object; null has none. -/
def objectEntries (title : String) : Tree → Except ShapeError (List (String × Tree))
  | .null => .ok []
  | .object entries => .ok entries
  | t => mismatch t title

/-- Reads the elements of a list in order, from a position on. -/
def readEach {α : Type} (read : Tree → Except ShapeError α) :
    Nat → List Tree → Except ShapeError (List α)
  | _, [] => .ok []
  | n, t :: rest => do
    let a ← within (.index n) (read t)
    let as ← readEach read (n + 1) rest
    return a :: as

/-- Reads the entries of a map in key order; the last of equal keys counts. -/
def readEntries {κ α : Type} (readKey : Tree → Except ShapeError κ) (form : κ → String)
    (read : Tree → Except ShapeError α) :
    Entries α → List (String × Tree) → Except ShapeError (Entries α)
  | acc, [] => .ok acc
  | acc, (key, t) :: rest => do
    let k ← within (.key key) (readKey (.text key))
    let a ← within (.key key) (read t)
    readEntries readKey form read (Entries.insert (form k) a acc) rest

/-- The label that a text stands for. -/
def matchLabel (labels : List String) (value : String) : Except ShapeError String :=
  match Text.findName? labels value with
  | some label => .ok label
  | none => fail (.unknownChoice value labels)

/-- A label together with the content that an object gives it, if it is one. -/
def labelled : Tree → Except ShapeError (String × Option Tree)
  | .text s => .ok (s, none)
  | .object [(key, t)] => .ok (key, some t)
  | t => mismatch t "a string or single-key map naming an enum variant"

/-- Reads the missing content of a label that has none. -/
def readBareContent : Option Tree → Except ShapeError Unit
  | none => .ok ()
  | some .null => .ok ()
  | some t => mismatch t "unit variant"

end Shape

/-- What is wrong with the named fields of a record. -/
structure FieldFaults where
  /-- The fields that cannot be read. -/
  faulty : Entries ShapeError
  /-- The fields that are missing, in order of declaration. -/
  missing : List String

namespace FieldFaults

/-- Puts the outcome of one field in front of that of the fields after it. -/
def andThen {α β : Type} (name : String) (first : Except (Option ShapeError) α)
    (rest : Except FieldFaults β) : Except FieldFaults (α × β) :=
  match first, rest with
  | .ok a, .ok b => .ok (a, b)
  | .ok _, .error f => .error f
  | .error e, r =>
    let f : FieldFaults := match r with
      | .ok _ => ⟨[], []⟩
      | .error f => f
    .error (match e with
      | some e => { f with faulty := Entries.insert name e f.faulty }
      | none => { f with missing := name :: f.missing })

/-- The error to report: the one at the least key, else the first missing field. -/
def report (f : FieldFaults) : ShapeError :=
  match f.faulty, f.missing with
  | (_, e) :: _, _ => e
  | [], name :: _ => .here (.missingField name)
  | [], [] => .here (.missingField "")

end FieldFaults

/-- The errors of the keys that a strict record does not know. -/
def unknownKeys (names : List String) (entries : Entries Tree) : Entries ShapeError :=
  (entries.filter fun e => !names.contains e.1).map fun e =>
    (e.1, (ShapeError.here (.unknownField e.1 names)).within (.key e.1))

/-- Adds the errors of unknown keys to the outcome of the known fields. -/
def withUnknown {β : Type} (unknown : Entries ShapeError) (r : Except FieldFaults β) :
    Except ShapeError β :=
  match unknown, r with
  | [], .ok b => .ok b
  | _, .ok _ => .error (FieldFaults.report ⟨unknown, []⟩)
  | _, .error f => .error (FieldFaults.report ⟨Entries.insertAll f.faulty unknown, f.missing⟩)

/-- Reads a record from named entries or from a list in order, given how to read either. -/
def recordFrom {β : Type} (title : String) (strict : Bool) (names : List String)
    (named : Entries Tree → Except FieldFaults β) (ordered : List Tree → Except ShapeError β) :
    Tree → Except ShapeError β
  | .object entries =>
    match foldKeys names entries with
    | .error f => Shape.fail f
    | .ok folded => withUnknown (if strict then unknownKeys names folded else []) (named folded)
  | .list items => ordered items
  | t => Shape.mismatch t title

def Choices.read {α : Type} (c : Choices α) (t : Tree) : Except ShapeError α := do
  let labels := c.options.map (·.1)
  let (value, content) ← Shape.labelled t
  let label ← Shape.matchLabel labels value
  match content with
  | some _ => Shape.within (.key value) (Shape.readBareContent content)
  | none => pure ()
  match c.options.find? fun o => o.1 == label with
  | some o => return o.2
  | none => Shape.fail (.unknownChoice value labels)

mutual

def Shape.read {α : Type} : Shape α → Tree → Except ShapeError α
  | .bool, t => Shape.readBool t
  | .natural title bits, t => (Shape.readInteger title 0 (Number.twoTo bits) t).map Int.toNat
  | .int bits, t =>
    Shape.readInteger ("i" ++ toString bits) (-(Number.twoTo (bits - 1) : Int))
      (Number.twoTo (bits - 1)) t
  | .real single, t => Shape.readReal single t
  | .char, t => Shape.readChar t
  | .text, t => Shape.readText "a string" t
  | .unit _, .null => .ok ()
  | .unit title, t => Shape.mismatch t title
  | .tree, t => .ok t
  | .parsed title parse _, t => do
    let s ← Shape.readText title t
    match parse s with
    | .ok a => .ok a
    | .error m => Shape.fail (.unreadable m)
  | .option _, .null => .ok none
  | .option s, t => (s.read t).map some
  | .list s, t => do
    let items ← Shape.elements "a sequence" t
    Shape.readEach (fun t => s.read t) 0 items
  | .set s before, t => do
    let items ← Shape.elements "a sequence" t
    let as ← Shape.readEach (fun t => s.read t) 0 items
    return Sorted.ofList before as
  | .map key form s, t => do
    let entries ← Shape.objectEntries "a map" t
    Shape.readEntries (fun t => key.read t) form (fun t => s.read t) [] entries
  | .tuple _ full fields p, .list items => (fields.readOrder full 0 items).map p.pack
  | .tuple title _ _ _, t => Shape.mismatch t title
  | .record title strict fields p, t =>
    (recordFrom title strict fields.names (fun entries => fields.readNamed entries)
      (fun items => fields.readOrder (Shape.withCount title fields.names.length) 0 items) t).map
      p.pack
  | .choice c, t => c.read t
  | .variant variants p, t => do
    let (value, content) ← Shape.labelled t
    let label ← Shape.matchLabel variants.labels value
    let read := variants.readAt label content
    let b ← match content with
      | some _ => Shape.within (.key value) read
      | none => read
    return p.pack b

/-- Reads fields from entries under their names. -/
def Fields.readNamed {β : Type} : Fields β → Entries Tree → Except FieldFaults β
  | .nil, _ => .ok ()
  | .cons name s absence rest, entries =>
    let first :=
      match Entries.find? name entries with
      | some t => (Shape.within (.key name) (s.read t)).mapError some
      | none =>
        match absence with
        | .forbidden => .error none
        | .byName a => .ok a
        | .default a => .ok a
    FieldFaults.andThen name first (rest.readNamed entries)

/-- Reads fields from a list in order, from a position on; further elements are left alone. -/
def Fields.readOrder {β : Type} (full : String) : Nat → Fields β → List Tree → Except ShapeError β
  | _, .nil, _ => .ok ()
  | n, .cons _ s _ rest, t :: items => do
    let a ← Shape.within (.index n) (s.read t)
    let b ← rest.readOrder full (n + 1) items
    return (a, b)
  | n, .cons _ _ absence rest, [] =>
    match absence with
    | .default a => do
      let b ← rest.readOrder full (n + 1) []
      return (a, b)
    | _ => Shape.fail (.wrongLength n full)

def Variants.readAt {β : Type} (label : String) :
    Variants β → Option Tree → Except ShapeError β
  | .nil, _ => Shape.fail (.unknownChoice label [])
  | .cons l content rest, t =>
    if l = label then (content.read t).map Sum.inl
    else (rest.readAt label t).map Sum.inr

/-- Reads the content of a variant; none for a label without content. -/
def Content.read {β : Type} : Content β → Option Tree → Except ShapeError β
  | .bare, t => Shape.readBareContent t
  | .value s, some t => s.read t
  | .value _, none => Shape.fail (.wrongType .bareVariant "newtype variant")
  | .tuple title fields, some t => do
    let items ← Shape.elements title t
    fields.readOrder (Shape.withCount title fields.names.length) 0 items
  | .tuple _ _, none => Shape.fail (.wrongType .bareVariant "tuple variant")
  | .record title fields, some t =>
    recordFrom title false fields.names (fun entries => fields.readNamed entries)
      (fun items => fields.readOrder (Shape.withCount title fields.names.length) 0 items) t
  | .record _ _, none => Shape.fail (.wrongType .bareVariant "struct variant")

end

end Provision
