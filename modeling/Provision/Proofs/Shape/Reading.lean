import Provision.Proofs.Chain
import Provision.Proofs.Lists
import Provision.Proofs.Shape.Keys
import Provision.Shape.Read

/-!
# When a tree can be read

A tree is read as a value iff its parts are read as the parts of the value.  There is one equivalence
for each way in which a shape puts parts together; which fault is reported otherwise is not said
here.

**Results.**
* `Shape.readEach_eq_ok_iff`, `Shape.readEntries_eq_ok_iff`: lists and maps.
* `Fields.readNamed_cons_eq_ok_iff`, `Fields.readOrder_cons_eq_ok_iff`: fields by name and in order.
* `Shape.read_record_eq_ok_iff`: records from objects.
* `Shape.given_of_read_record`: the fields of a record, whatever it is read from.
* `Choices.read_text_eq_ok_iff`, `Choices.read_object_eq_ok_iff`: choices.
-/

namespace Provision

open Text (findName?)

/-- The value of a field that is left out by name. -/
def Absence.value? {α : Type} : Absence α → Option α
  | .forbidden => none
  | .byName a => some a
  | .default a => some a

/-- The value of a field: the one that its tree holds, or that of its absence without a tree. -/
def Absence.Settles {α : Type} (absence : Absence α) (read : Tree → Except ShapeError α) :
    Option Tree → α → Prop
  | some t, a => read t = .ok a
  | none, a => absence.value? = some a

/-- The value that a spelling of a label stands for. -/
def Choices.value? {α : Type} (c : Choices α) (spelling : String) : Option α :=
  (findName? (c.options.map (·.1)) spelling).bind fun label =>
    (c.options.find? fun o => o.1 == label).map (·.2)

namespace Shape

@[simp] theorem within_eq_ok_iff
    {α : Type}
    {step : Segment}
    {r : Except ShapeError α}
    {a : α} :
    within step r = .ok a ↔ r = .ok a :=
  mapError_eq_ok_iff

@[simp] theorem within_ok
    {α : Type}
    {step : Segment}
    {a : α} :
    within step (.ok a) = .ok a := rfl

@[simp] theorem within_error
    {α : Type}
    {step : Segment}
    {e : ShapeError} :
    within step (.error e : Except ShapeError α) = .error (e.within step) := rfl

theorem readEach_eq_ok_iff
    {α : Type}
    {read : Tree → Except ShapeError α}
    {n : Nat}
    {ts : List Tree}
    {as : List α} :
    readEach read n ts = .ok as ↔ List.Forall₂ (fun t a => read t = .ok a) ts as := by
  induction ts generalizing n as with
  | nil => simp [readEach, eq_comm]
  | cons t rest ih =>
      rw [readEach, bind_eq_ok_iff, List.forall₂_cons_left_iff]
      refine exists_congr fun a => ?_
      rw [within_eq_ok_iff, bind_eq_ok_iff, ← exists_and_left]
      refine exists_congr fun as' => ?_
      rw [ih]
      simp [pure, Except.pure, eq_comm]

/-- How an entry of an object is read as one of a map. -/
def ReadsEntry {κ α : Type} (readKey : Tree → Except ShapeError κ) (form : κ → String)
    (read : Tree → Except ShapeError α) (e : String × Tree) (p : String × α) : Prop :=
  ∃ k, readKey (.text e.1) = .ok k ∧ form k = p.1 ∧ read e.2 = .ok p.2

theorem readEntries_eq_ok_iff
    {κ α : Type}
    {readKey : Tree → Except ShapeError κ}
    {form : κ → String}
    {read : Tree → Except ShapeError α}
    {base result : Entries α}
    {es : List (String × Tree)} :
    readEntries readKey form read base es = .ok result ↔
      ∃ pairs, List.Forall₂ (ReadsEntry readKey form read) es pairs ∧
        result = Entries.insertAll base pairs := by
  induction es generalizing base with
  | nil => simp [readEntries, Entries.insertAll, eq_comm]
  | cons e rest ih =>
      obtain ⟨key, t⟩ := e
      simp only [readEntries, bind_eq_ok_iff, within_eq_ok_iff, ih, List.forall₂_cons_left_iff]
      constructor
      · rintro ⟨k, hk, a, ha, pairs, hpairs, rfl⟩
        exact ⟨(form k, a) :: pairs, ⟨(form k, a), pairs, ⟨k, hk, rfl, ha⟩, hpairs, rfl⟩, rfl⟩
      · rintro ⟨_, ⟨⟨_, a⟩, pairs, ⟨k, hk, rfl, ha⟩, hpairs, rfl⟩, rfl⟩
        exact ⟨k, hk, a, ha, pairs, hpairs, rfl⟩

end Shape

theorem FieldFaults.andThen_eq_ok_iff
    {α β : Type}
    {name : String}
    {first : Except (Option ShapeError) α}
    {rest : Except FieldFaults β}
    {b : α × β} :
    andThen name first rest = .ok b ↔ first = .ok b.1 ∧ rest = .ok b.2 := by
  cases first <;> cases rest <;> simp [andThen, Prod.ext_iff]

theorem withUnknown_eq_ok_iff
    {β : Type}
    {unknown : Entries ShapeError}
    {r : Except FieldFaults β}
    {b : β} :
    withUnknown unknown r = .ok b ↔ unknown = [] ∧ r = .ok b := by
  cases unknown <;> cases r <;> simp [withUnknown]

theorem unknownKeys_eq_nil_iff
    {names : List String}
    {es : Entries Tree} :
    unknownKeys names es = [] ↔ ∀ k ∈ Entries.keys es, k ∈ names := by
  simp [unknownKeys, Entries.keys, List.filter_eq_nil_iff]

namespace Fields

theorem readNamed_cons_eq_ok_iff
    {α β : Type}
    {name : String}
    {s : Shape α}
    {absence : Absence α}
    {rest : Fields β}
    {es : Entries Tree}
    {b : α × β} :
    (Fields.cons name s absence rest).readNamed es = .ok b ↔
      absence.Settles (fun t => s.read t) (Entries.find? name es) b.1 ∧
        rest.readNamed es = .ok b.2 := by
  simp only [Fields.readNamed, FieldFaults.andThen_eq_ok_iff]
  refine and_congr_left fun _ => ?_
  cases Entries.find? name es with
  | some t => exact mapError_eq_ok_iff.trans Shape.within_eq_ok_iff
  | none => cases absence <;> simp [Absence.Settles, Absence.value?]

theorem readOrder_cons_eq_ok_iff
    {α β : Type}
    {name full : String}
    {n : Nat}
    {s : Shape α}
    {absence : Absence α}
    {rest : Fields β}
    {t : Tree}
    {items : List Tree}
    {b : α × β} :
    (Fields.cons name s absence rest).readOrder full n (t :: items) = .ok b ↔
      s.read t = .ok b.1 ∧ rest.readOrder full (n + 1) items = .ok b.2 := by
  rw [readOrder]
  simp only [bind_eq_ok_iff, Shape.within_eq_ok_iff]
  constructor
  · rintro ⟨a, ha, b', hb, heq⟩
    cases heq
    exact ⟨ha, hb⟩
  · rintro ⟨ha, hb⟩
    exact ⟨b.1, ha, b.2, hb, rfl⟩

/-- Fields that a list is too short for are left out. -/
theorem readOrder_nil_eq_ok
    {α β : Type}
    {name full : String}
    {n : Nat}
    {s : Shape α}
    {absence : Absence α}
    {rest : Fields β}
    {b : α × β}
    (h : (Fields.cons name s absence rest).readOrder full n [] = .ok b) :
    absence.value? = some b.1 ∧ rest.readOrder full (n + 1) [] = .ok b.2 := by
  cases absence with
  | default a =>
      obtain ⟨b', hb, heq⟩ := bind_eq_ok_iff.mp h
      cases heq
      exact ⟨rfl, hb⟩
  | _ => cases h

/-- Each value is read from some tree or stands for a field that is left out. -/
def Given : {β : Type} → Fields β → β → Prop
  | _, .nil, _ => True
  | _, .cons _ s absence rest, b =>
    (∃ t?, absence.Settles (fun t => s.read t) t? b.1) ∧ rest.Given b.2

theorem given_of_readNamed
    {β : Type}
    (fields : Fields β)
    {es : Entries Tree}
    {b : β}
    (h : fields.readNamed es = .ok b) :
    fields.Given b := by
  cases fields with
  | nil => trivial
  | cons name s absence rest =>
      obtain ⟨hhead, htail⟩ := readNamed_cons_eq_ok_iff.mp h
      exact ⟨⟨_, hhead⟩, given_of_readNamed rest htail⟩

theorem given_of_readOrder
    {β : Type}
    {full : String}
    {n : Nat}
    (fields : Fields β)
    {items : List Tree}
    {b : β}
    (h : fields.readOrder full n items = .ok b) :
    fields.Given b := by
  cases fields with
  | nil => trivial
  | cons name s absence rest =>
      cases items with
      | nil =>
          obtain ⟨hhead, htail⟩ := readOrder_nil_eq_ok h
          exact ⟨⟨none, hhead⟩, given_of_readOrder rest htail⟩
      | cons t items =>
          obtain ⟨hhead, htail⟩ := readOrder_cons_eq_ok_iff.mp h
          exact ⟨⟨some t, hhead⟩, given_of_readOrder rest htail⟩

end Fields

namespace Shape

/-- An object is read as a record iff no two of its keys stand for one field, a strict record knows
all of them, and the fields can be read from what stands for them. -/
theorem read_record_eq_ok_iff
    {α β : Type}
    {title : String}
    {strict : Bool}
    {fields : Fields β}
    {p : Packing β α}
    {es : List (String × Tree)}
    {a : α} :
    (Shape.record title strict fields p).read (.object es) = .ok a ↔
      (fieldsGiven fields.names es).Nodup ∧
        (strict = true → ∀ e ∈ es, (findName? fields.names e.1).isSome) ∧
        fields.readNamed (Entries.ofList (es.map (renamed fields.names))) = .ok (p.unpack a) := by
  have hpack : ∀ b, p.pack b = a ↔ b = p.unpack a := fun b =>
    ⟨fun h => h ▸ (p.unpack_pack b).symm, fun h => h ▸ p.pack_unpack a⟩
  simp only [Shape.read, map_eq_ok_iff, hpack, exists_eq_right, recordFrom]
  cases hfold : foldKeys fields.names es with
  | error f =>
      have hnot : ¬ (fieldsGiven fields.names es).Nodup := by
        intro hnodup
        rw [foldKeys_eq_ok_iff.mpr ⟨hnodup, rfl⟩] at hfold
        cases hfold
      simp [hnot, fail]
  | ok folded =>
      obtain ⟨hnodup, rfl⟩ := foldKeys_eq_ok_iff.mp hfold
      simp only [withUnknown_eq_ok_iff, hnodup, true_and]
      refine and_congr_left fun _ => ?_
      cases strict with
      | false => simp
      | true =>
          rw [if_pos rfl, unknownKeys_eq_nil_iff, keys_renamed_subset_iff]
          simp

/-- Whatever tree a record is read from, its fields are given by trees or left out. -/
theorem given_of_read_record
    {α β : Type}
    {title : String}
    {strict : Bool}
    {fields : Fields β}
    {p : Packing β α}
    {t : Tree}
    {a : α}
    (h : (Shape.record title strict fields p).read t = .ok a) :
    fields.Given (p.unpack a) := by
  cases t with
  | object es => exact fields.given_of_readNamed (read_record_eq_ok_iff.mp h).2.2
  | list items =>
      rw [Shape.read, map_eq_ok_iff] at h
      obtain ⟨b, hb, rfl⟩ := h
      rw [p.unpack_pack]
      exact fields.given_of_readOrder hb
  | _ => cases h

theorem read_option_of_ne_null
    {α : Type}
    {s : Shape α}
    {t : Tree}
    (h : t ≠ .null) :
    (Shape.option s).read t = (s.read t).map some := by
  cases t with
  | null => exact absurd rfl h
  | _ => rfl

theorem read_parsed_eq_ok_iff
    {α : Type}
    {title : String}
    {parse : String → Except String α}
    {form : α → String}
    {t : Tree}
    {a : α} :
    (Shape.parsed title parse form).read t = .ok a ↔
      ∃ text, readText title t = .ok text ∧ parse text = .ok a := by
  simp only [Shape.read, bind_eq_ok_iff]
  refine exists_congr fun text => and_congr_right fun _ => ?_
  cases parse text <;> simp [fail]

theorem read_set_eq_ok_iff
    {α : Type}
    {s : Shape α}
    {before : α → α → Bool}
    {t : Tree}
    {as : List α} :
    (Shape.set s before).read t = .ok as ↔
      ∃ items, (Shape.list s).read t = .ok items ∧ as = Sorted.ofList before items := by
  simp only [Shape.read, bind_eq_ok_iff, pure, Except.pure, Except.ok.injEq]
  constructor
  · rintro ⟨ts, hts, items, hitems, rfl⟩
    exact ⟨items, ⟨ts, hts, hitems⟩, rfl⟩
  · rintro ⟨items, ⟨ts, hts, hitems⟩, rfl⟩
    exact ⟨ts, hts, items, hitems, rfl⟩

end Shape

namespace Choices

variable {α : Type} {c : Choices α}

theorem read_text_eq_ok_iff
    {s : String}
    {a : α} :
    c.read (.text s) = .ok a ↔ c.value? s = some a := by
  simp only [Choices.read, Shape.labelled, Shape.matchLabel, value?, Except.bind, bind, pure,
    Except.pure]
  cases findName? (c.options.map (·.1)) s with
  | none => simp [Shape.fail]
  | some label =>
      dsimp only [Option.bind]
      cases c.options.find? fun o => o.1 == label <;> simp [Shape.fail]

theorem read_object_eq_ok_iff
    {key : String}
    {t : Tree}
    {a : α} :
    c.read (.object [(key, t)]) = .ok a ↔ t = .null ∧ c.value? key = some a := by
  simp only [Choices.read, Shape.labelled, Shape.matchLabel, value?, Except.bind, bind, pure,
    Except.pure]
  cases findName? (c.options.map (·.1)) key with
  | none => simp [Shape.fail]
  | some label =>
      dsimp only [Option.bind]
      cases t <;> cases c.options.find? (fun o => o.1 == label) <;>
        simp [Shape.fail, Shape.readBareContent, Shape.mismatch]

/-- The label of a value stands for it. -/
theorem value?_label
    (a : α) :
    c.value? (c.label a) = some a := by
  have hmem : c.label a ∈ c.options.map (·.1) :=
    List.mem_map_of_mem (List.mem_of_find?_eq_some (c.find_label a))
  simp [value?, Text.findName?_of_mem hmem, c.find_label a]

end Choices
end Provision
