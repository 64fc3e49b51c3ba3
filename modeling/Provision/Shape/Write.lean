import Provision.Shape.Basic

/-!
# Writing values of a shape

Input:
* a shape and a value of its type.

Algorithm:
* a record is written with all its fields, an absent optional value as null, and a variant as its
  label or as an object with its label as the only key;
* a number that is not finite is written as null.

Results:
* `Shape.write s a` is the tree of `a`; every field of a record is present in it.
-/

namespace Provision

/-- A number as a tree; those that are not finite have none. -/
def Tree.ofDouble (x : Double) : Tree :=
  if x.isFinite then .number (.decimal x) else .null

mutual

def Shape.write {α : Type} : Shape α → α → Tree
  | .bool, b => .bool b
  | .natural _ _, n => .nat n
  | .int _, i => .int i
  | .real _, x => .ofDouble x
  | .char, c => .text (String.singleton c)
  | .text, s => .text s
  | .unit _, _ => .null
  | .tree, t => t
  | .parsed _ _ form, a => .text (form a)
  | .option _, none => .null
  | .option s, some a => s.write a
  | .list s, as => .list (as.map fun a => s.write a)
  | .set s _, as => .list (as.map fun a => s.write a)
  | .map _ _ s, es => .object (es.map fun e => (e.1, s.write e.2))
  | .tuple _ _ fields p, a => .list ((fields.write (p.unpack a)).map (·.2))
  | .record _ _ fields p, a => .ofEntries (fields.write (p.unpack a))
  | .choice c, a => .text (c.label a)
  | .variant variants p, a => variants.write (p.unpack a)

/-- Writes the fields of a record in order of declaration. -/
def Fields.write {β : Type} : Fields β → β → List (String × Tree)
  | .nil, _ => []
  | .cons name s _ rest, (a, b) => (name, s.write a) :: rest.write b

def Variants.write {β : Type} : Variants β → β → Tree
  | .nil, b => nomatch b
  | .cons label content _, .inl a =>
    match content.write a with
    | none => .text label
    | some t => .object [(label, t)]
  | .cons _ _ rest, .inr b => rest.write b

/-- Writes the content of a variant, if it has any. -/
def Content.write {β : Type} : Content β → β → Option Tree
  | .bare, _ => none
  | .value s, a => some (s.write a)
  | .tuple _ fields, b => some (.list ((fields.write b).map (·.2)))
  | .record _ fields, b => some (.ofEntries (fields.write b))

end

end Provision
