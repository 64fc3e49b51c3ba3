import Provision.Json.Reader
import Provision.Shape.Basic

/-!
# Decoding JSON

Input:
* the draft of a JSON text, and what it should hold.

Algorithm:
* values are taken as they are written, without any coercion;
* the text is decoded from the left, and the first fault met counts, whether the text is not JSON
  there or holds something else than expected;
* the fields of a record are given in any order, each at most once, and unknown ones are left alone;
  a list gives them in order of declaration.

Results:
* a decoder gives a value or the fault that ended the decoding; `decodeText` decodes a whole text.
-/

namespace Provision
namespace Json

inductive DecodeFault where
  | syntaxFault (fault : Fault)
  | wrongType (found : Found) (expected : String)
  | wrongValue (found : Found) (expected : String)
  | wrongLength (length : Nat) (expected : String)
  | missingField (name : String)
  | repeatedField (name : String)
  | unknownLabel (label : String) (known : List String)
  | unreadable (message : String)
  deriving DecidableEq, Inhabited

def foundText : Found → String
  | .nothing => "null"
  | .decimal x => "floating point `" ++ x.text ++ "`"
  | found => found.phrase

def knownLabels : List String → String
  | [a] => "`" ++ a ++ "`"
  | [a, b] => "`" ++ a ++ "` or `" ++ b ++ "`"
  | labels => "one of " ++ ", ".intercalate (labels.map fun l => "`" ++ l ++ "`")

def DecodeFault.message : DecodeFault → String
  | .syntaxFault f => f.message
  | .wrongType f e => "invalid type: " ++ foundText f ++ ", expected " ++ e
  | .wrongValue f e => "invalid value: " ++ foundText f ++ ", expected " ++ e
  | .wrongLength n e => "invalid length " ++ toString n ++ ", expected " ++ e
  | .missingField name => "missing field `" ++ name ++ "`"
  | .repeatedField name => "duplicate field `" ++ name ++ "`"
  | .unknownLabel label known =>
    "unknown variant `" ++ label ++ "`, expected " ++ knownLabels known
  | .unreadable m => m

abbrev Decoder (α : Type) := Draft → Except DecodeFault α

namespace Decoder

/-- The fault of a draft that holds something else than expected. -/
def mismatch {α : Type} (expected : String) : Decoder α
  | .null => .error (.wrongType .nothing expected)
  | .bool b => .error (.wrongType (.bool b) expected)
  | .number (.integer i) => .error (.wrongType (.integer i) expected)
  | .number (.decimal x) => .error (.wrongType (.decimal x) expected)
  | .text s => .error (.wrongType (.text s) expected)
  | .list _ => .error (.wrongType .list expected)
  | .object _ => .error (.wrongType .object expected)
  | .broken f => .error (.syntaxFault f.fault)

def tree : Decoder Tree := fun d => d.toTree.mapError fun f => .syntaxFault f.fault

def text : Decoder String
  | .text s => .ok s
  | d => mismatch "a string" d

def size : Decoder Nat
  | .number (.integer i) =>
    if 0 ≤ i ∧ i < Number.twoTo 64 then .ok i.toNat else .error (.wrongValue (.integer i) "usize")
  | d => mismatch "usize" d

def bool : Decoder Bool
  | .bool b => .ok b
  | d => mismatch "a boolean" d

def each {α : Type} (decoder : Decoder α) : List Draft → Except DecodeFault (List α)
  | [] => .ok []
  | d :: rest => do
    let a ← decoder d
    let as ← each decoder rest
    return a :: as

def list {α : Type} (decoder : Decoder α) : Decoder (List α)
  | .list items => each decoder items
  | d => mismatch "a sequence" d

def treeEntries : Decoder (Entries Tree)
  | .object entries =>
    match Draft.entryTrees entries with
    | .ok es => .ok (Entries.ofList es)
    | .error f => .error (.syntaxFault f.fault)
  | d => mismatch "a map" d

def optional {α : Type} (decoder : Decoder α) : Decoder (Option α)
  | .null => .ok none
  | d => (decoder d).map some

def labelled {α : Type} (options : List (String × α)) (label : String) : Except DecodeFault α :=
  match options.find? fun o => o.1 == label with
  | some o => .ok o.2
  | none => .error (.unknownLabel label (options.map (·.1)))

/-- A choice between labels: a label, or an object with the label as its only key and null under
it. -/
def choice {α : Type} (options : List (String × α)) : Decoder α
  | .text s => labelled options s
  | .object [] => .error (.syntaxFault .expectedValue)
  | .object (("", .broken f) :: _) => .error (.syntaxFault f.fault)
  | .object ((key, d) :: rest) => do
    let a ← labelled options key
    match d with
    | .null => if rest.isEmpty then return a else .error (.syntaxFault .expectedValue)
    | d => mismatch "unit" d
  | .broken f =>
    .error (.syntaxFault (if f.fault = .unfinishedValue then .unfinishedValue else .expectedValue))
  | _ => .error (.syntaxFault .expectedValue)

end Decoder

/-- The fields of a record: their values form a nested pair `β`, and those met so far `γ`. -/
inductive Slots : Type → Type → Type 1 where
  | nil : Slots Unit Unit
  | cons {α β γ : Type} (name : String) (decoder : Decoder α) (absence : Absence α)
      (rest : Slots β γ) : Slots (α × β) (Option α × γ)

namespace Slots

def none {β γ : Type} : Slots β γ → γ
  | .nil => ()
  | .cons _ _ _ rest => (.none, rest.none)

def length {β γ : Type} : Slots β γ → Nat
  | .nil => 0
  | .cons _ _ _ rest => rest.length + 1

/-- Decodes a field; a draft under an unknown name has only to be JSON. -/
def meet {β γ : Type} (key : String) (d : Draft) : Slots β γ → γ → Except DecodeFault γ
  | .nil, () => (Decoder.tree d).map fun _ => ()
  | .cons name decoder _ rest, (known, others) =>
    if key = name then
      match known with
      | some _ => .error (.repeatedField name)
      | .none => (decoder d).map fun a => (some a, others)
    else (rest.meet key d others).map fun others => (known, others)

def meetAll {β γ : Type} (slots : Slots β γ) : List (String × Draft) → γ → Except DecodeFault γ
  | [], met => .ok met
  | (key, d) :: rest, met => do
    let met ← slots.meet key d met
    slots.meetAll rest met

/-- The values of the fields, if none is missing. -/
def finish {β γ : Type} : Slots β γ → γ → Except DecodeFault β
  | .nil, () => .ok ()
  | .cons name _ absence rest, (known, others) => do
    let a ← match known, absence with
      | some a, _ => .ok a
      | .none, .forbidden => .error (.missingField name)
      | .none, .byName a => .ok a
      | .none, .default a => .ok a
    let b ← rest.finish others
    return (a, b)

/-- Decodes the fields from a list in order, from a position on. -/
def inOrder {β γ : Type} (full : String) : Nat → Slots β γ → List Draft → Except DecodeFault β
  | _, .nil, [] => .ok ()
  | _, .nil, .broken f :: _ =>
    .error (.syntaxFault (if f.fault = .trailingComma ∨ f.fault = .unfinishedList then f.fault
      else .trailingCharacters))
  | _, .nil, _ :: _ => .error (.syntaxFault .trailingCharacters)
  | n, .cons _ decoder _ rest, d :: items => do
    let a ← decoder d
    let b ← rest.inOrder full (n + 1) items
    return (a, b)
  | n, .cons _ _ absence rest, [] =>
    match absence with
    | .default a => do
      let b ← rest.inOrder full (n + 1) []
      return (a, b)
    | _ => .error (.wrongLength n full)

def record {β γ : Type} (title : String) (slots : Slots β γ) : Decoder β
  | .object entries => do
    let met ← slots.meetAll entries slots.none
    slots.finish met
  | .list items => slots.inOrder (Shape.withCount title slots.length) 0 items
  | d => Decoder.mismatch title d

end Slots

def decodeText {α : Type} (decoder : Decoder α) (text : String) : Except DecodeFault α := do
  let (d, rest) := readDraft nestingLimit text
  let a ← decoder d
  (endOfText rest).mapError fun f => .syntaxFault f.fault
  return a

end Json
end Provision
