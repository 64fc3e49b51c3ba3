import Provision.Proofs.Json.Numeral
import Provision.Proofs.Shape.Stripping
import Provision.Proofs.Shape.Reading
import Provision.Proofs.Sorted

/-!
# Values that can be read

What a reader gives is within the range of its shape: numbers fit, sets and maps are in order, and
an optional value is never one that would be written as null.  The values that fields take when they
are left out must be within range as well; this is part of what makes a shape regular.

**Results.**
* `Shape.nullValue?_of_write`: only the null value of a shape is written as null.
* `Shape.read_admits`: a value that is read from a sound tree is within range.
-/

namespace Provision

/-- Trees all of whose numbers can be held by a document. -/
inductive Tree.Sound : Tree → Prop
  | null : Tree.Sound .null
  | bool (b : Bool) : Tree.Sound (.bool b)
  | number {n : Number} :
      n.Sound →
      Tree.Sound (.number n)
  | text (s : String) : Tree.Sound (.text s)
  | list {items : List Tree} :
      (∀ t ∈ items, Tree.Sound t) →
      Tree.Sound (.list items)
  | object {entries : List (String × Tree)} :
      (∀ e ∈ entries, Tree.Sound e.2) →
      Tree.Sound (.object entries)

namespace Tree

@[simp] theorem sound_null :
    Tree.null.Sound := .null

@[simp] theorem sound_text
    {s : String} :
    (Tree.text s).Sound := .text s

@[simp] theorem sound_number
    {n : Number} :
    (Tree.number n).Sound ↔ n.Sound :=
  ⟨fun h => by cases h; assumption, .number⟩

@[simp] theorem sound_list
    {items : List Tree} :
    (Tree.list items).Sound ↔ ∀ t ∈ items, t.Sound :=
  ⟨fun h => by cases h; assumption, .list⟩

@[simp] theorem sound_object
    {entries : List (String × Tree)} :
    (Tree.object entries).Sound ↔ ∀ e ∈ entries, e.2.Sound :=
  ⟨fun h => by cases h; assumption, .object⟩

end Tree

/-- The value that null stands for. -/
def Shape.nullValue? {α : Type} : Shape α → Option α
  | .unit _ => some ()
  | .tree => some .null
  | .option _ => some none
  | .bool | .natural _ _ | .int _ | .real _ | .char | .text | .parsed _ _ _ | .list _ | .set _ _
  | .map _ _ _ | .tuple _ _ _ _ | .record _ _ _ _ | .choice _ | .variant _ _ => none

mutual

/-- Values within the range of a shape. -/
def Shape.Admits {α : Type} : Shape α → α → Prop
  | .natural _ bits, n => n < Number.twoTo bits
  | .int bits, i => -(Number.twoTo (bits - 1) : Int) ≤ i ∧ i < Number.twoTo (bits - 1)
  | .real _, x => x.isFinite = true
  | .parsed _ parse form, a => parse (form a) = .ok a
  | .option s, a? => ∀ a ∈ a?, s.Admits a ∧ s.write a ≠ .null
  | .list s, as => ∀ a ∈ as, s.Admits a
  | .set s before, as => (∀ a ∈ as, s.Admits a) ∧ as.Pairwise fun a b => before a b = true
  | .map key form s, es =>
    Entries.Ordered es ∧
      ∀ e ∈ es, (∃ k, key.read (.text e.1) = .ok k ∧ form k = e.1) ∧ s.Admits e.2
  | .tuple _ _ fields p, a => fields.Admits (p.unpack a)
  | .record _ _ fields p, a => fields.Admits (p.unpack a)
  | .bool, _ | .char, _ | .text, _ | .unit _, _ | .tree, _ | .choice _, _ | .variant _ _, _ => True

def Fields.Admits {β : Type} : Fields β → β → Prop
  | .nil, _ => True
  | .cons _ s _ rest, b => s.Admits b.1 ∧ rest.Admits b.2

end

mutual

/-- Shapes whose values can be read back: fields have distinct names, a field that can be null stands
for null when it is left out, and the text forms and orders that the shape is given obey their laws.
Tuples, labelled variants and numbers of single precision are left out. -/
def Shape.Regular {α : Type} : Shape α → Prop
  | .real single => single = false
  | .parsed _ parse form => ∀ s a, parse s = .ok a → parse (form a) = .ok a
  | .option s => s.Regular
  | .list s => s.Regular
  | .set s before =>
    s.Regular ∧ (∀ a, s.stripped a = a) ∧ (∀ a b, before a b = true → before b a = false) ∧
      ∀ a b c, before a b = true → before b c = true → before a c = true
  | .map key form s =>
    (∀ t k, key.read (.text t) = .ok k →
      ∃ k', key.read (.text (form k)) = .ok k' ∧ form k' = form k) ∧ s.Regular
  | .record _ _ fields _ => fields.names.Nodup ∧ fields.Regular
  | .tuple _ _ _ _ | .variant _ _ => False
  | .bool | .natural _ _ | .int _ | .char | .text | .unit _ | .tree | .choice _ => True

/-- Fields of regular shapes that take values within range when they are left out, and stand for
null then if null has a value. -/
def Fields.Regular {β : Type} : Fields β → Prop
  | .nil => True
  | .cons _ s absence rest =>
    s.Regular ∧ (∀ a, absence.value? = some a → s.Admits a) ∧
      (∀ a, s.nullValue? = some a → absence.value? = some a) ∧ rest.Regular

end

namespace Fields

variable {α β : Type} {name : String} {s : Shape α} {rest : Fields β}

@[simp] theorem names_nil :
    Fields.nil.names = [] := rfl

@[simp] theorem names_required :
    (Fields.required name s rest).names = name :: rest.names := rfl

@[simp] theorem names_optional :
    (Fields.optional name s rest).names = name :: rest.names := rfl

@[simp] theorem names_withDefault
    {value : α} :
    (Fields.withDefault name s value rest).names = name :: rest.names := rfl

@[simp] theorem regular_nil :
    Fields.nil.Regular := trivial

/-- A field that must be given cannot be null. -/
@[simp] theorem regular_required :
    (Fields.required name s rest).Regular ↔
      s.Regular ∧ s.nullValue? = none ∧ rest.Regular := by
  simp only [required, Regular, Absence.value?, Option.eq_none_iff_forall_ne_some]
  simp

@[simp] theorem regular_optional :
    (Fields.optional name s rest).Regular ↔ s.Regular ∧ rest.Regular := by
  simp [optional, Regular, Absence.value?, Shape.Regular, Shape.Admits, Shape.nullValue?]

/-- The value of a field that is left out is within range, and it is the null value if there is
one. -/
@[simp] theorem regular_withDefault
    {value : α} :
    (Fields.withDefault name s value rest).Regular ↔
      s.Regular ∧ s.Admits value ∧ (∀ a ∈ s.nullValue?, value = a) ∧ rest.Regular := by
  simp [withDefault, Regular, Absence.value?]

@[simp] theorem admits_optional_none
    {b : β} :
    (Fields.optional name s rest).Admits (none, b) ↔ rest.Admits b := by
  simp [optional, Admits, Shape.Admits]

@[simp] theorem admits_nil
    {b : Unit} :
    Fields.nil.Admits b := trivial

end Fields

namespace Shape

variable {α : Type} {s : Shape α}

@[simp] theorem read_text_text
    (t : String) :
    Shape.text.read (.text t) = .ok t := rfl

/-- The order of texts is a strict one. -/
theorem regular_textSet :
    textSet.Regular := by
  refine ⟨trivial, fun _ => rfl, fun a b hab => ?_, fun a b c hab hbc => ?_⟩
  · simpa using String.lt_asymm (by simpa using hab)
  · simpa using String.lt_trans (by simpa using hab) (by simpa using hbc)

/-- Only the null value is written as null. -/
theorem nullValue?_of_write
    (hregular : s.Regular)
    {a : α}
    (hadmits : s.Admits a)
    (h : s.write a = .null) :
    s.nullValue? = some a := by
  cases s with
  | real single =>
      have hfinite : a.isFinite = true := hadmits
      rw [write, Tree.ofDouble, if_pos hfinite] at h
      cases h
  | unit title => rfl
  | tree => exact congrArg some (show Tree.null = a from h.symm)
  | option s =>
      cases a with
      | none => rfl
      | some a => exact absurd h (hadmits a rfl).2
  | tuple title full fields p => exact hregular.elim
  | variant variants p => exact hregular.elim
  | _ => cases h

/-- Only null is read as the null value. -/
theorem eq_null_of_read_nullValue
    {a : α}
    (hnull : s.nullValue? = some a)
    {t : Tree}
    (h : s.read t = .ok a) :
    t = .null := by
  cases s with
  | unit title =>
      cases t with
      | null => rfl
      | _ => cases h
  | tree =>
      cases hnull
      cases h
      rfl
  | option s =>
      cases hnull
      by_cases ht : t = .null
      · exact ht
      · rw [read_option_of_ne_null ht, map_eq_ok_iff] at h
        obtain ⟨b, _, hb⟩ := h
        cases hb
  | _ => cases hnull

theorem stripped_nullValue
    {a : α}
    (h : s.nullValue? = some a) :
    s.stripped a = a := by
  cases s with
  | tree | option _ =>
      cases h
      rfl
  | unit title => rfl
  | _ => cases h

/-! ## Scalars -/

theorem asNumber_sound
    {t : Tree}
    (h : t.Sound) :
    (asNumber t).Sound := by
  unfold asNumber
  split
  · split
    · rename_i hread
      exact .number (Json.read_number_sound hread)
    · exact h
  · exact h

theorem readInteger_bounds
    {title : String}
    {low high i : Int}
    {t : Tree}
    (h : readInteger title low high t = .ok i) :
    low ≤ i ∧ i < high := by
  unfold readInteger at h
  split at h
  · split at h
    · cases h
      assumption
    · cases h
  · cases h

theorem readReal_isFinite
    {t : Tree}
    (ht : t.Sound)
    {x : Double}
    (h : readReal false t = .ok x) :
    x.isFinite = true := by
  have hsound := asNumber_sound ht
  unfold readReal at h
  split at h
  · rename_i i hi
    rw [hi] at hsound
    obtain ⟨hlow, hhigh⟩ := Tree.sound_number.mp hsound
    cases h
    have h63 : Number.twoTo 63 = 9223372036854775808 := rfl
    have h64 : Number.twoTo 64 = 18446744073709551616 := rfl
    have h65 : Number.twoTo 65 = 36893488147419103232 := rfl
    exact Double.ofInt_isFinite (by omega)
  · rename_i y hy
    rw [hy] at hsound
    cases h
    exact Tree.sound_number.mp hsound
  · cases h

/-! ## Collections -/

theorem elements_sound
    {title : String}
    {t : Tree}
    (ht : t.Sound)
    {items : List Tree}
    (h : elements title t = .ok items) :
    ∀ u ∈ items, u.Sound := by
  cases t with
  | null =>
      cases h
      exact nofun
  | list items =>
      cases h
      exact Tree.sound_list.mp ht
  | _ => cases h

theorem objectEntries_sound
    {title : String}
    {t : Tree}
    (ht : t.Sound)
    {es : List (String × Tree)}
    (h : objectEntries title t = .ok es) :
    ∀ e ∈ es, e.2.Sound := by
  cases t with
  | null =>
      cases h
      exact nofun
  | object entries =>
      cases h
      exact Tree.sound_object.mp ht
  | _ => cases h

/-- The elements that are read are within range if each of them is. -/
theorem read_list_admits
    (hs : ∀ t a, t.Sound → s.read t = .ok a → s.Admits a)
    {t : Tree}
    (ht : t.Sound)
    {as : List α}
    (h : (Shape.list s).read t = .ok as) :
    ∀ a ∈ as, s.Admits a := by
  obtain ⟨items, hitems, heach⟩ := bind_eq_ok_iff.mp h
  intro a ha
  obtain ⟨u, hu, hread⟩ := exists_partner (readEach_eq_ok_iff.mp heach).flip ha
  exact hs u a (elements_sound ht hitems u hu) hread

/-- The entries that are read are within range if their keys and values are. -/
theorem read_map_admits
    {κ : Type}
    {key : Shape κ}
    {form : κ → String}
    (hkey : ∀ t k, key.read (.text t) = .ok k →
      ∃ k', key.read (.text (form k)) = .ok k' ∧ form k' = form k)
    (hs : ∀ t a, t.Sound → s.read t = .ok a → s.Admits a)
    {t : Tree}
    (ht : t.Sound)
    {es : Entries α}
    (h : (Shape.map key form s).read t = .ok es) :
    (Shape.map key form s).Admits es := by
  obtain ⟨given, hgiven, hread⟩ := bind_eq_ok_iff.mp h
  obtain ⟨pairs, hpairs, rfl⟩ := readEntries_eq_ok_iff.mp hread
  refine ⟨Entries.ofList_ordered pairs, fun p hp => ?_⟩
  have hmem : p ∈ pairs := (Entries.mem_insertAll hp).resolve_left List.not_mem_nil
  obtain ⟨e, he, k, hk, hform, hvalue⟩ := exists_partner hpairs.flip hmem
  obtain ⟨k', hk', hsame⟩ := hkey e.1 k hk
  rw [hform] at hk' hsame
  exact ⟨⟨k', hk', hsame⟩, hs _ _ (objectEntries_sound ht hgiven e he) hvalue⟩

/-- An optional value that is read is not one that is written as null. -/
theorem read_option_admits
    (hregular : s.Regular)
    (hs : ∀ t a, t.Sound → s.read t = .ok a → s.Admits a)
    {t : Tree}
    (ht : t.Sound)
    {a? : Option α}
    (h : (Shape.option s).read t = .ok a?) :
    (Shape.option s).Admits a? := by
  by_cases hnull : t = .null
  · rw [hnull] at h
    cases h
    exact nofun
  · rw [read_option_of_ne_null hnull, map_eq_ok_iff] at h
    obtain ⟨a, ha, rfl⟩ := h
    rintro _ ⟨⟩
    have hadmits := hs t a ht ha
    refine ⟨hadmits, fun hwrite => hnull ?_⟩
    exact eq_null_of_read_nullValue (nullValue?_of_write hregular hadmits hwrite) ha

end Shape

mutual

/-- A value that is read from a sound tree is within range. -/
theorem Shape.read_admits
    {α : Type}
    (s : Shape α)
    (hregular : s.Regular)
    {t : Tree}
    (ht : t.Sound)
    {a : α}
    (h : s.read t = .ok a) :
    s.Admits a := by
  cases s with
  | natural title bits =>
      obtain ⟨i, hi, rfl⟩ := map_eq_ok_iff.mp h
      have hbounds := Shape.readInteger_bounds hi
      show i.toNat < Number.twoTo bits
      omega
  | int bits => exact Shape.readInteger_bounds h
  | real single =>
      have hsingle : single = false := hregular
      rw [hsingle] at h
      exact Shape.readReal_isFinite ht h
  | parsed title parse form =>
      obtain ⟨text, _, hparse⟩ := Shape.read_parsed_eq_ok_iff.mp h
      exact hregular text a hparse
  | option s =>
      have hs : ∀ t a, t.Sound → s.read t = .ok a → s.Admits a :=
        fun _ _ ht h => Shape.read_admits s hregular ht h
      exact Shape.read_option_admits (show s.Regular from hregular) hs ht h
  | list s =>
      have hs : ∀ t a, t.Sound → s.read t = .ok a → s.Admits a :=
        fun _ _ ht h => Shape.read_admits s hregular ht h
      exact Shape.read_list_admits hs ht h
  | set s before =>
      obtain ⟨hregular, _, _, htrans⟩ := hregular
      have hs : ∀ t a, t.Sound → s.read t = .ok a → s.Admits a :=
        fun _ _ ht h => Shape.read_admits s hregular ht h
      obtain ⟨items, hitems, rfl⟩ := Shape.read_set_eq_ok_iff.mp h
      refine ⟨fun a ha => ?_, Sorted.ofList_pairwise htrans items⟩
      exact Shape.read_list_admits hs ht hitems a (Sorted.mem_ofList ha)
  | map key form s =>
      have hs : ∀ t a, t.Sound → s.read t = .ok a → s.Admits a :=
        fun _ _ ht h => Shape.read_admits s hregular.2 ht h
      exact Shape.read_map_admits hregular.1 hs ht h
  | tuple title full fields p => exact hregular.elim
  | record title strict fields p =>
      obtain ⟨_, hfields⟩ := hregular
      cases ht with
      | object hentries =>
          obtain ⟨_, _, hread⟩ := Shape.read_record_eq_ok_iff.mp h
          refine Fields.readNamed_admits fields hfields (fun e he => ?_) hread
          have hmem := (Entries.mem_insertAll he).resolve_left List.not_mem_nil
          obtain ⟨e', he', rfl⟩ := List.mem_map.mp hmem
          exact hentries e' he'
      | list hitems =>
          obtain ⟨b, hb, rfl⟩ := map_eq_ok_iff.mp h
          show fields.Admits (p.unpack (p.pack b))
          rw [p.unpack_pack]
          exact Fields.readOrder_admits fields hfields hitems hb
      | _ => cases h
  | variant variants p => exact hregular.elim
  | _ => trivial

/-- Fields that are read from sound entries are within range. -/
theorem Fields.readNamed_admits
    {β : Type}
    (fields : Fields β)
    (hregular : fields.Regular)
    {es : Entries Tree}
    (hes : ∀ e ∈ es, e.2.Sound)
    {b : β}
    (h : fields.readNamed es = .ok b) :
    fields.Admits b := by
  cases fields with
  | nil => trivial
  | cons name s absence rest =>
      obtain ⟨hs, hdefault, _, hrest⟩ := hregular
      obtain ⟨hhead, htail⟩ := Fields.readNamed_cons_eq_ok_iff.mp h
      refine ⟨?_, Fields.readNamed_admits rest hrest hes htail⟩
      cases hfound : Entries.find? name es with
      | none =>
          rw [hfound] at hhead
          exact hdefault b.1 hhead
      | some t =>
          rw [hfound] at hhead
          exact Shape.read_admits s hs (hes _ (Entries.mem_of_find?_eq_some hfound)) hhead

/-- Fields that are read from sound elements are within range. -/
theorem Fields.readOrder_admits
    {β : Type}
    {full : String}
    {n : Nat}
    (fields : Fields β)
    (hregular : fields.Regular)
    {items : List Tree}
    (hitems : ∀ t ∈ items, t.Sound)
    {b : β}
    (h : fields.readOrder full n items = .ok b) :
    fields.Admits b := by
  cases fields with
  | nil => trivial
  | cons name s absence rest =>
      obtain ⟨hs, hdefault, _, hrest⟩ := hregular
      cases items with
      | nil =>
          obtain ⟨hhead, htail⟩ := Fields.readOrder_nil_eq_ok h
          exact ⟨hdefault b.1 hhead, Fields.readOrder_admits rest hrest hitems htail⟩
      | cons t items =>
          obtain ⟨ht, hitems⟩ := List.forall_mem_cons.mp hitems
          obtain ⟨hhead, htail⟩ := Fields.readOrder_cons_eq_ok_iff.mp h
          exact ⟨Shape.read_admits s hs ht hhead, Fields.readOrder_admits rest hrest hitems htail⟩

end

end Provision
