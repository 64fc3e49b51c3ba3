import Provision.Document
import Provision.Proofs.Shape.Reading

/-!
# Places in trees

A shape declares what may stand at the places of a tree.  One step leads from a list to an element,
from an object to the value of a key, or from a record to a field; a field is reached under its
name, whichever key stands for it, or at its position in a list.  Optional values are seen through,
so there is no step from an optional value to its content.

A place is reached by a path of steps.  It comes with the rest of the tree: a function that puts a
tree there.

**Conventions.**  The types of configuration follow some conventions, within all their parts: a
record ignores keys that it does not know, its fields have distinct names, every text is a key of a
map, and a field with a collection or an optional value stands for no elements or no value when it
is left out.

**Results.**
* `Step.conventional`, `Place.conventional`: what is declared at a place follows the conventions,
  too.
-/

namespace Provision

open Text (findName?)

/-- A field of a record or a tuple. -/
structure Field : Type 1 where
  {α : Type}
  name : String
  shape : Shape α
  absence : Absence α

/-- What is declared at a place: the shape of a value, or the content of a label. -/
inductive Declared : Type 1 where
  | shape {α : Type} (s : Shape α)
  | content {α : Type} (c : Content α)

/-- The parts that a tree has according to what is declared. -/
inductive Parts : Type 1 where
  | none
  | items (d : Declared)
  | entries (d : Declared)
  /-- Fields at their positions in a list, or else, if they are named, under keys of an object. -/
  | fields (named : Bool) (fields : List Field)
  | labels (labels : List (String × Declared))

def Fields.list : {β : Type} → Fields β → List Field
  | _, .nil => []
  | _, .cons name s absence rest => ⟨name, s, absence⟩ :: rest.list

def Variants.list : {β : Type} → Variants β → List (String × Declared)
  | _, .nil => []
  | _, .cons label content rest => (label, .content content) :: rest.list

def Shape.parts {α : Type} : Shape α → Parts
  | .option s => s.parts
  | .list s => .items (.shape s)
  | .set s _ => .items (.shape s)
  | .map _ _ s => .entries (.shape s)
  | .tuple _ _ fields _ => .fields false fields.list
  | .record _ _ fields _ => .fields true fields.list
  | .choice c => .labels (c.options.map fun o => (o.1, .content .bare))
  | .variant variants _ => .labels variants.list
  | .bool | .natural _ _ | .int _ | .real _ | .char | .text | .unit _ | .tree | .parsed _ _ _ => .none

def Content.parts {α : Type} : Content α → Parts
  | .bare => .none
  | .value s => s.parts
  | .tuple _ fields => .fields false fields.list
  | .record _ fields => .fields true fields.list

/-- The value of a collection without elements, or of an optional value that is absent. -/
def Shape.emptyValue? {α : Type} : Shape α → Option α
  | .option _ => some none
  | .list _ => some []
  | .set _ _ => some []
  | .map _ _ _ => some []
  | .bool | .natural _ _ | .int _ | .real _ | .char | .text | .unit _ | .tree | .parsed _ _ _
  | .tuple _ _ _ _ | .record _ _ _ _ | .choice _ | .variant _ _ => none

/-- What is read for a named field: its tree if there is one, or else what its absence stands for. -/
def Field.given (f : Field) : Option Tree → Except (Option ShapeError) f.α
  | some t => (Shape.within (.key f.name) (f.shape.read t)).mapError some
  | none =>
    match f.absence.value? with
    | some a => .ok a
    | none => .error none

theorem Fields.readNamed_cons
    {α β : Type}
    {name : String}
    {s : Shape α}
    {absence : Absence α}
    {rest : Fields β}
    {es : Entries Tree} :
    (Fields.cons name s absence rest).readNamed es =
      FieldFaults.andThen name
        ((⟨name, s, absence⟩ : Field).given (Entries.find? name es)) (rest.readNamed es) := by
  simp only [readNamed]
  cases Entries.find? name es with
  | some t => rfl
  | none => cases absence <;> rfl

namespace Declared

/-- The type of the values at a place. -/
def Value : Declared → Type
  | @shape α _ => α
  | @content α _ => α

def read : (d : Declared) → Tree → Except ShapeError d.Value
  | .shape s, t => s.read t
  | .content c, t => c.read (some t)

/-- Reads what is declared at a place from a tree of its own. -/
def materialize (d : Declared) (document : String) (t : Tree) : Except ConfigError d.Value :=
  (d.read t).mapError (.misshapen document)

def parts : Declared → Parts
  | .shape s => s.parts
  | .content c => c.parts

end Declared

/-- The names of fields. -/
def namesOf (fields : List Field) : List String := fields.map (·.name)

/-- A step from a tree to one of its parts, with the function that puts a tree there. -/
inductive Step : Parts → Segment → Declared → (Tree → Tree) → Prop where
  | item
      {d : Declared}
      (before after : List Tree) :
      Step (.items d) (.index before.length) d fun u => .list (before ++ u :: after)
  | entry
      {d : Declared}
      (key : String)
      (before after : List (String × Tree)) :
      Step (.entries d) (.key key) d fun u => .object (before ++ (key, u) :: after)
  | position
      {named : Bool}
      {fields : List Field}
      {f : Field}
      (before after : List Tree)
      (declared : fields[before.length]? = some f) :
      Step (.fields named fields) (.index before.length) (.shape f.shape)
        fun u => .list (before ++ u :: after)
  | field
      {fields : List Field}
      {f : Field}
      (key : String)
      (before after : List (String × Tree))
      (declared : f ∈ fields)
      (stands : findName? (namesOf fields) key = some f.name) :
      Step (.fields true fields) (.key f.name) (.shape f.shape)
        fun u => .object (before ++ (key, u) :: after)
  | content
      {labels : List (String × Declared)}
      {e : String × Declared}
      (key : String)
      (declared : e ∈ labels)
      (stands : findName? (labels.map (·.1)) key = some e.1) :
      Step (.labels labels) (.key key) e.2 fun u => .object [(key, u)]

/-- A place in a tree: what is declared there, and the function that puts a tree there. -/
inductive Place : Declared → List Segment → Declared → (Tree → Tree) → Prop where
  | root
      (d : Declared) :
      Place d [] d fun u => u
  | step
      {d d' d'' : Declared}
      {seg : Segment}
      {path : List Segment}
      {outer inner : Tree → Tree}
      (first : Step d.parts seg d' outer)
      (rest : Place d' path d'' inner) :
      Place d (seg :: path) d'' fun u => outer (inner u)

/-- A tree with a part is not null. -/
theorem Step.ne_null
    {parts : Parts}
    {seg : Segment}
    {d : Declared}
    {put : Tree → Tree}
    (h : Step parts seg d put)
    (u : Tree) :
    put u ≠ .null := by
  cases h <;> exact nofun

mutual

/-- Shapes that follow the conventions of configuration. -/
def Shape.Conventional {α : Type} : Shape α → Prop
  | .option s => s.Conventional
  | .list s => s.Conventional
  | .set s _ => s.Conventional
  | .map key _ s => (∀ text, ∃ k, key.read (.text text) = .ok k) ∧ s.Conventional
  | .tuple _ _ fields _ => fields.Conventional
  | .record _ strict fields _ => strict = false ∧ fields.names.Nodup ∧ fields.Conventional
  | .variant variants _ => variants.labels.Nodup ∧ variants.Conventional
  | .bool | .natural _ _ | .int _ | .real _ | .char | .text | .unit _ | .tree | .parsed _ _ _
  | .choice _ => True

def Fields.Conventional {β : Type} : Fields β → Prop
  | .nil => True
  | .cons _ s absence rest =>
    (∀ a, s.emptyValue? = some a → absence.value? = some a) ∧ s.Conventional ∧ rest.Conventional

def Variants.Conventional {β : Type} : Variants β → Prop
  | .nil => True
  | .cons _ content rest => content.Conventional ∧ rest.Conventional

def Content.Conventional {β : Type} : Content β → Prop
  | .bare => True
  | .value s => s.Conventional
  | .tuple _ fields => fields.Conventional
  | .record _ fields => fields.names.Nodup ∧ fields.Conventional

end

def Declared.Conventional : Declared → Prop
  | .shape s => s.Conventional
  | .content c => c.Conventional

/-- A field whose shape follows the conventions, and that is empty when it is left out if it can be
empty. -/
structure Field.Conventional (f : Field) : Prop where
  empty : ∀ a, f.shape.emptyValue? = some a → f.absence.value? = some a
  shape : f.shape.Conventional

theorem Fields.names_eq_namesOf
    {β : Type}
    (fields : Fields β) :
    fields.names = namesOf fields.list := by
  cases fields with
  | nil => rfl
  | cons name s absence rest =>
      rw [names, names_eq_namesOf rest]
      rfl

theorem withUnknown_nil
    {β : Type}
    (r : Except FieldFaults β) :
    withUnknown [] r = r.mapError FieldFaults.report := by
  cases r <;> rfl

/-- Reads fields from an object whose keys stand for them. -/
def Fields.readObject {β : Type} (fields : Fields β) (es : List (String × Tree)) :
    Except ShapeError β := do
  let folded ← (foldKeys (namesOf fields.list) es).mapError .here
  (fields.readNamed folded).mapError FieldFaults.report

/-- A record that ignores unknown keys is read from an object through its fields only. -/
theorem recordFrom_object
    {β : Type}
    {title : String}
    {fields : Fields β}
    {ordered : List Tree → Except ShapeError β}
    {es : List (String × Tree)} :
    recordFrom title false fields.names (fun es => fields.readNamed es) ordered (.object es) =
      fields.readObject es := by
  rw [recordFrom, Fields.readObject, fields.names_eq_namesOf]
  cases foldKeys (namesOf fields.list) es with
  | error fault => rfl
  | ok folded => exact withUnknown_nil _

theorem Variants.labels_eq
    {β : Type}
    (variants : Variants β) :
    variants.labels = variants.list.map (·.1) := by
  cases variants with
  | nil => rfl
  | cons label content rest =>
      rw [labels, labels_eq rest]
      rfl

theorem Fields.Conventional.of_mem
    {β : Type}
    {fields : Fields β}
    (h : fields.Conventional)
    {f : Field}
    (hf : f ∈ fields.list) :
    f.Conventional := by
  cases fields with
  | nil => cases hf
  | cons name s absence rest =>
      obtain ⟨hempty, hshape, hrest⟩ := h
      rcases List.mem_cons.mp hf with rfl | hf
      · exact ⟨hempty, hshape⟩
      · exact Fields.Conventional.of_mem hrest hf

theorem Variants.Conventional.of_mem
    {β : Type}
    {variants : Variants β}
    (h : variants.Conventional)
    {e : String × Declared}
    (he : e ∈ variants.list) :
    e.2.Conventional := by
  cases variants with
  | nil => cases he
  | cons label content rest =>
      obtain ⟨hcontent, hrest⟩ := h
      rcases List.mem_cons.mp he with rfl | he
      · exact hcontent
      · exact Variants.Conventional.of_mem hrest he

/-- Parts that follow the conventions. -/
def Parts.Conventional : Parts → Prop
  | .none => True
  | .items d => d.Conventional
  | .entries d => d.Conventional
  | .fields named fs => (named = true → (namesOf fs).Nodup) ∧ ∀ f ∈ fs, f.Conventional
  | .labels ls => ∀ e ∈ ls, e.2.Conventional

theorem Shape.Conventional.parts
    {α : Type}
    {s : Shape α}
    (h : s.Conventional) :
    s.parts.Conventional := by
  cases s with
  | option s => exact Shape.Conventional.parts (s := s) h
  | list s => exact h
  | set s => exact h
  | map key form s => exact h.2
  | tuple title full fields p => exact ⟨nofun, fun f hf => Fields.Conventional.of_mem h hf⟩
  | record title strict fields p =>
      obtain ⟨_, hnames, hfields⟩ := h
      exact ⟨fun _ => fields.names_eq_namesOf ▸ hnames, fun f hf => hfields.of_mem hf⟩
  | choice c =>
      intro e he
      obtain ⟨o, _, rfl⟩ := List.mem_map.mp he
      trivial
  | variant variants p => exact fun e he => Variants.Conventional.of_mem h.2 he
  | _ => trivial

theorem Declared.Conventional.parts
    {d : Declared}
    (h : d.Conventional) :
    d.parts.Conventional := by
  cases d with
  | shape s => exact Shape.Conventional.parts h
  | content c =>
      cases c with
      | bare => trivial
      | value s => exact Shape.Conventional.parts (s := s) h
      | tuple title fields => exact ⟨nofun, fun f hf => Fields.Conventional.of_mem h hf⟩
      | record title fields =>
          obtain ⟨hnames, hfields⟩ := h
          exact ⟨fun _ => fields.names_eq_namesOf ▸ hnames, fun f hf => hfields.of_mem hf⟩

/-- A step leads to what follows the conventions. -/
theorem Step.conventional
    {d d' : Declared}
    {seg : Segment}
    {put : Tree → Tree}
    (h : d.Conventional)
    (hstep : Step d.parts seg d' put) :
    d'.Conventional := by
  have hparts := h.parts
  generalize d.parts = parts at hparts hstep
  cases hstep with
  | item => exact hparts
  | entry => exact hparts
  | position before after declared => exact (hparts.2 _ (List.mem_of_getElem? declared)).shape
  | field key before after declared => exact (hparts.2 _ declared).shape
  | content key declared => exact hparts _ declared

/-- What is declared at a place follows the conventions. -/
theorem Place.conventional
    {d d' : Declared}
    {path : List Segment}
    {put : Tree → Tree}
    (hplace : Place d path d' put)
    (h : d.Conventional) :
    d'.Conventional := by
  induction hplace with
  | root => exact h
  | step first _ ih => exact ih (first.conventional h)

end Provision
