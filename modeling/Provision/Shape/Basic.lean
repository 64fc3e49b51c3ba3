import Provision.Shape.Fault

/-!
# Shapes of configuration

Input:
* a type of configuration values.

Algorithm:
* a shape describes how values of the type are laid out in a tree: scalars, optional values, lists,
  sets, maps, records with named fields, and choices between labelled variants;
* a record is described by the list of its fields, whose values form a nested pair, and by the two
  directions between that pair and the type.

Results:
* reading and writing are both defined by recursion on the shape, so one description of a type
  serves both.
-/

namespace Provision

/-- A type `α` whose values are packed tuples of type `β`. -/
structure Packing (β α : Type) where
  pack : β → α
  unpack : α → β
  pack_unpack : ∀ a, pack (unpack a) = a := by intro a; rfl
  unpack_pack : ∀ b, unpack (pack b) = b := by intro b; rfl

def Packing.id (β : Type) : Packing β β := ⟨fun b => b, fun b => b, fun _ => rfl, fun _ => rfl⟩

/-- The values of a finite type with their labels. -/
structure Choices (α : Type) where
  options : List (String × α)
  label : α → String
  /-- A label finds its value. -/
  find_label : ∀ a, options.find? (fun o => o.1 == label a) = some (label a, a) := by
    intro a; cases a <;> rfl

/-- What a field stands for when it is left out. -/
inductive Absence (α : Type) where
  /-- The field must be given. -/
  | forbidden
  /-- The field may be left out among named fields, but not where fields are given in order. -/
  | byName (value : α)
  /-- The field may be left out everywhere. -/
  | default (value : α)

mutual

/-- How the values of a type are laid out in a tree. -/
inductive Shape : Type → Type 1 where
  | bool : Shape Bool
  /-- Natural numbers below `2 ^ bits`. -/
  | natural (title : String) (bits : Nat) : Shape Nat
  /-- Integers from `-2 ^ (bits - 1)` up to, but without, `2 ^ (bits - 1)`. -/
  | int (bits : Nat) : Shape Int
  /-- Double-precision numbers, rounded to single precision if `single`. -/
  | real (single : Bool) : Shape Double
  | char : Shape Char
  | text : Shape String
  /-- Null. -/
  | unit (title : String) : Shape Unit
  /-- Any tree. -/
  | tree : Shape Tree
  /-- A type with a text form. -/
  | parsed {α : Type} (title : String) (parse : String → Except String α) (form : α → String) :
      Shape α
  | option {α : Type} (s : Shape α) : Shape (Option α)
  | list {α : Type} (s : Shape α) : Shape (List α)
  /-- Lists in increasing order without repetitions. -/
  | set {α : Type} (s : Shape α) (before : α → α → Bool) : Shape (List α)
  /-- Maps whose keys are read as a type with a text form. -/
  | map {κ α : Type} (key : Shape κ) (form : κ → String) (s : Shape α) : Shape (Entries α)
  /-- Tuples; `title` says what is expected, `full` says it with the number of elements. -/
  | tuple {α β : Type} (title full : String) (fields : Fields β) (p : Packing β α) : Shape α
  /-- Records; `strict` ones admit no further keys. -/
  | record {α β : Type} (title : String) (strict : Bool) (fields : Fields β) (p : Packing β α) :
      Shape α
  /-- A choice between labels. -/
  | choice {α : Type} (c : Choices α) : Shape α
  /-- A choice between labelled variants with content. -/
  | variant {α β : Type} (variants : Variants β) (p : Packing β α) : Shape α

/-- The fields of a record or a tuple, in order of declaration. -/
inductive Fields : Type → Type 1 where
  | nil : Fields Unit
  | cons {α β : Type} (name : String) (s : Shape α) (absence : Absence α) (rest : Fields β) :
      Fields (α × β)

/-- The variants of a choice, in order of declaration. -/
inductive Variants : Type → Type 1 where
  | nil : Variants Empty
  | cons {α β : Type} (label : String) (content : Content α) (rest : Variants β) :
      Variants (α ⊕ β)

inductive Content : Type → Type 1 where
  | bare : Content Unit
  | value {α : Type} (s : Shape α) : Content α
  | tuple {β : Type} (title : String) (fields : Fields β) : Content β
  | record {β : Type} (title : String) (fields : Fields β) : Content β

end

namespace Fields

def names {β : Type} : Fields β → List String
  | .nil => []
  | .cons name _ _ rest => name :: rest.names

def required {α β : Type} (name : String) (s : Shape α) (rest : Fields β) : Fields (α × β) :=
  .cons name s .forbidden rest

def optional {α β : Type} (name : String) (s : Shape α) (rest : Fields β) :
    Fields (Option α × β) :=
  .cons name (.option s) (.byName none) rest

def withDefault {α β : Type} (name : String) (s : Shape α) (value : α) (rest : Fields β) :
    Fields (α × β) :=
  .cons name s (.default value) rest

end Fields

def Variants.labels {β : Type} : Variants β → List String
  | .nil => []
  | .cons label _ rest => label :: rest.labels

namespace Shape

/-- Natural numbers of a number of bits. -/
def nat (bits : Nat) : Shape Nat := .natural ("u" ++ toString bits) bits

def size : Shape Nat := .natural "usize" 64

def entries {α : Type} (s : Shape α) : Shape (Entries α) := .map .text (fun k => k) s

def textSet : Shape (List String) := .set .text fun a b => a < b

/-- The null value of the plain kind. -/
def nothing : Shape Unit := .unit "unit"

/-- A title with a number of elements. -/
def withCount (title : String) (n : Nat) : String :=
  title ++ " with " ++ toString n ++ (if n = 1 then " element" else " elements")

end Shape
end Provision
