import Provision.Proofs.Shape.Places

/-!
# Fields that are null or left out

A tree is read through its parts only, so a part can be replaced by another one that is read alike.
This holds of every step, and so of every place.

At the place of a record the fields are looked up under their names, once the keys are renamed.  A
field with a collection or an optional value is read as empty from null, and it is empty when it is
left out.  Its key collides with no other one if it alone stands for the field.  So the record is read
alike with and without the key, and the error is the same if there is one.

**Results.**
* `Place.read_congr`: parts that are read alike can replace each other at any place.
* `Declared.read_object_null`: a field that is null can be left out.
-/

namespace Provision

open Text (findName?)

/-! ## Parts that are read alike -/

namespace Shape

theorem readEach_congr
    {α : Type}
    {read : Tree → Except ShapeError α}
    {u u' : Tree}
    (h : read u = read u')
    (n : Nat)
    (before after : List Tree) :
    readEach read n (before ++ u :: after) = readEach read n (before ++ u' :: after) := by
  induction before generalizing n with
  | nil => simp only [List.nil_append, readEach, h]
  | cons t before ih => simp only [List.cons_append, readEach, ih]

theorem readEntries_congr
    {κ α : Type}
    {readKey : Tree → Except ShapeError κ}
    {form : κ → String}
    {read : Tree → Except ShapeError α}
    {u u' : Tree}
    (h : read u = read u')
    (key : String)
    (acc : Entries α)
    (before after : List (String × Tree)) :
    readEntries readKey form read acc (before ++ (key, u) :: after) =
      readEntries readKey form read acc (before ++ (key, u') :: after) := by
  induction before generalizing acc with
  | nil => simp only [List.nil_append, readEntries, h]
  | cons e before ih => simp only [List.cons_append, readEntries, ih]

end Shape

namespace Fields

theorem readOrder_congr
    {β : Type}
    (fields : Fields β)
    {f : Field}
    {before : List Tree}
    (hf : fields.list[before.length]? = some f)
    {u u' : Tree}
    (h : f.shape.read u = f.shape.read u')
    (full : String)
    (n : Nat)
    (after : List Tree) :
    fields.readOrder full n (before ++ u :: after) =
      fields.readOrder full n (before ++ u' :: after) := by
  cases fields with
  | nil => cases before <;> rfl
  | cons name s absence rest =>
      cases before with
      | nil =>
          cases hf
          simp only [List.nil_append, readOrder, show s.read u = s.read u' from h]
      | cons t before =>
          have hrest : rest.list[before.length]? = some f := by simpa [list] using hf
          simp only [List.cons_append, readOrder, readOrder_congr rest hrest h]

/-- Fields are read alike from entries that give the same for each of them. -/
theorem readNamed_congr
    {β : Type}
    (fields : Fields β)
    {es es' : Entries Tree}
    (h : ∀ f ∈ fields.list,
      f.given (Entries.find? f.name es) = f.given (Entries.find? f.name es')) :
    fields.readNamed es = fields.readNamed es' := by
  cases fields with
  | nil => rfl
  | cons name s absence rest =>
      obtain ⟨hfirst, hrest⟩ := List.forall_mem_cons.mp h
      rw [readNamed_cons, readNamed_cons, readNamed_congr rest hrest]
      exact congrArg (FieldFaults.andThen name · _) hfirst

end Fields

/-- The value of a field depends only on the entries whose keys stand for it. -/
theorem find?_foldKeys_congr
    {names : List String}
    {es es' : List (String × Tree)}
    {folded folded' : Entries Tree}
    (hfold : foldKeys names es = .ok folded)
    (hfold' : foldKeys names es' = .ok folded')
    {name : String}
    (hname : name ∈ names)
    (h : ∀ e, findName? names e.1 = some name → (e ∈ es ↔ e ∈ es')) :
    Entries.find? name folded = Entries.find? name folded' := by
  refine Option.ext fun t => ?_
  rw [find?_foldKeys_iff hfold hname, find?_foldKeys_iff hfold' hname]
  refine exists_congr fun e => ?_
  constructor
  · rintro ⟨he, hstands, ht⟩
    exact ⟨(h e hstands).mp he, hstands, ht⟩
  · rintro ⟨he, hstands, ht⟩
    exact ⟨(h e hstands).mpr he, hstands, ht⟩

/-- Two objects in which keys collide alike, and which differ only in one field, are read alike if the
field is. -/
theorem Fields.readObject_congr
    {β : Type}
    {fields : Fields β}
    (hnames : (namesOf fields.list).Nodup)
    {f : Field}
    (hf : f ∈ fields.list)
    {es es' : List (String × Tree)}
    (houtcome : foldOutcome (namesOf fields.list) [] es = foldOutcome (namesOf fields.list) [] es')
    (hothers : ∀ e, findName? (namesOf fields.list) e.1 ≠ some f.name → (e ∈ es ↔ e ∈ es'))
    (hfield : ∀ folded folded', foldKeys (namesOf fields.list) es = .ok folded →
      foldKeys (namesOf fields.list) es' = .ok folded' →
        f.given (Entries.find? f.name folded) = f.given (Entries.find? f.name folded')) :
    fields.readObject es = fields.readObject es' := by
  rw [readObject, readObject]
  change (foldKeys (namesOf fields.list) es).map (fun _ => ()) =
    (foldKeys (namesOf fields.list) es').map (fun _ => ()) at houtcome
  cases hfold : foldKeys (namesOf fields.list) es with
  | error fault =>
      cases hfold' : foldKeys (namesOf fields.list) es' with
      | error fault' =>
          rw [hfold, hfold'] at houtcome
          cases houtcome
          rfl
      | ok folded' =>
          rw [hfold, hfold'] at houtcome
          cases houtcome
  | ok folded =>
      cases hfold' : foldKeys (namesOf fields.list) es' with
      | error fault' =>
          rw [hfold, hfold'] at houtcome
          cases houtcome
      | ok folded' =>
          refine congrArg (Except.mapError FieldFaults.report) (fields.readNamed_congr ?_)
          intro other hother
          by_cases heq : other.name = f.name
          · obtain rfl := List.inj_on_of_nodup_map hnames hother hf heq
            exact hfield folded folded' hfold hfold'
          · rw [find?_foldKeys_congr hfold hfold' (List.mem_map_of_mem hother)]
            intro e hstands
            refine hothers e fun hfield => heq ?_
            rw [hstands] at hfield
            exact Option.some.inj hfield

/-- The value of a field can be replaced by one that is read alike. -/
theorem Fields.readObject_replace
    {β : Type}
    {fields : Fields β}
    (hnames : (namesOf fields.list).Nodup)
    {f : Field}
    (hf : f ∈ fields.list)
    {key : String}
    (hstands : findName? (namesOf fields.list) key = some f.name)
    {u u' : Tree}
    (h : f.shape.read u = f.shape.read u')
    (before after : List (String × Tree)) :
    fields.readObject (before ++ (key, u) :: after) =
      fields.readObject (before ++ (key, u') :: after) := by
  have hname : f.name ∈ namesOf fields.list := List.mem_map_of_mem hf
  refine readObject_congr hnames hf ?_ ?_ ?_
  · exact foldOutcome_of_keys_eq (by simp)
  · intro e hother
    have hne : ∀ t, e ≠ (key, t) := by
      rintro t rfl
      exact hother hstands
    simp [hne]
  · intro folded folded' hfold hfold'
    rw [(find?_foldKeys_iff hfold hname).mpr ⟨(key, u), by simp, hstands, rfl⟩,
      (find?_foldKeys_iff hfold' hname).mpr ⟨(key, u'), by simp, hstands, rfl⟩, Field.given,
      Field.given, h]

theorem Choices.read_object_congr
    {α : Type}
    (c : Choices α)
    {u u' : Tree}
    (h : Shape.readBareContent (some u) = Shape.readBareContent (some u'))
    (key : String) :
    c.read (.object [(key, u)]) = c.read (.object [(key, u')]) := by
  simp only [Choices.read, Shape.labelled, bind, Except.bind, h]

/-- The content of a label is that of the only variant with this label. -/
theorem Variants.readAt_congr
    {β : Type}
    (variants : Variants β)
    (hlabels : variants.labels.Nodup)
    {e : String × Declared}
    (he : e ∈ variants.list)
    {u u' : Tree}
    (h : e.2.read u = e.2.read u') :
    variants.readAt e.1 (some u) = variants.readAt e.1 (some u') := by
  cases variants with
  | nil => cases he
  | cons label content rest =>
      obtain ⟨hnew, hrest⟩ := List.nodup_cons.mp hlabels
      rw [readAt, readAt]
      rcases List.mem_cons.mp he with rfl | hlater
      · rw [if_pos rfl, if_pos rfl]
        exact congrArg (Except.map Sum.inl) h
      · have hne : label ≠ e.1 := by
          rintro rfl
          rw [rest.labels_eq] at hnew
          exact hnew (List.mem_map_of_mem hlater)
        rw [if_neg hne, if_neg hne, readAt_congr rest hrest hlater h]

/-- A shape is read alike from trees that differ in a part that is read alike. -/
theorem Shape.read_congr
    {α : Type}
    (s : Shape α)
    (h : s.Conventional)
    {d : Declared}
    {seg : Segment}
    {put : Tree → Tree}
    (hstep : Step s.parts seg d put)
    {u u' : Tree}
    (hsame : d.read u = d.read u') :
    s.read (put u) = s.read (put u') := by
  cases s with
  | option s =>
      rw [read_option_of_ne_null (hstep.ne_null u), read_option_of_ne_null (hstep.ne_null u'),
        Shape.read_congr s h hstep hsame]
  | list s =>
      cases hstep with
      | item before after => exact readEach_congr hsame 0 before after
  | set s less =>
      cases hstep with
      | item before after =>
          exact congrArg (· >>= fun as => .ok (Sorted.ofList less as))
            (readEach_congr hsame 0 before after)
  | map key form s =>
      cases hstep with
      | entry k before after => exact readEntries_congr hsame k [] before after
  | tuple title full fields p =>
      cases hstep with
      | position before after declared =>
          exact congrArg (Except.map p.pack) (fields.readOrder_congr declared hsame full 0 after)
  | record title strict fields p =>
      obtain ⟨rfl, hnames, _⟩ := h
      refine congrArg (Except.map p.pack) ?_
      cases hstep with
      | position before after declared => exact fields.readOrder_congr declared hsame _ 0 after
      | field key before after declared stands =>
          rw [fields.names_eq_namesOf] at hnames
          rw [recordFrom_object, recordFrom_object]
          exact Fields.readObject_replace hnames declared stands hsame before after
  | choice c =>
      cases hstep with
      | content key declared =>
          obtain ⟨o, _, rfl⟩ := List.mem_map.mp declared
          exact c.read_object_congr hsame key
  | variant variants p =>
      cases hstep with
      | content key declared stands =>
          have hread : ∀ t, (Shape.variant variants p).read (.object [(key, t)]) =
              matchLabel variants.labels key >>= fun label =>
                within (.key key) (variants.readAt label (some t)) >>= fun b => .ok (p.pack b) :=
            fun _ => rfl
          rw [← variants.labels_eq] at stands
          rw [hread, hread, matchLabel, stands]
          exact congrArg (fun r => within (.key key) r >>= fun b => .ok (p.pack b))
            (variants.readAt_congr h.1 declared hsame)
  | _ => cases hstep

theorem Step.read_congr
    {d d' : Declared}
    (h : d.Conventional)
    {seg : Segment}
    {put : Tree → Tree}
    (hstep : Step d.parts seg d' put)
    {u u' : Tree}
    (hsame : d'.read u = d'.read u') :
    d.read (put u) = d.read (put u') := by
  cases d with
  | shape s => exact s.read_congr h hstep hsame
  | content c =>
      cases c with
      | bare => cases hstep
      | value s => exact Shape.read_congr s h hstep hsame
      | tuple title fields =>
          cases hstep with
          | position before after declared => exact fields.readOrder_congr declared hsame _ 0 after
      | record title fields =>
          obtain ⟨hnames, _⟩ := h
          cases hstep with
          | position before after declared => exact fields.readOrder_congr declared hsame _ 0 after
          | field key before after declared stands =>
              rw [fields.names_eq_namesOf] at hnames
              simp only [Declared.read, Content.read, recordFrom_object]
              exact Fields.readObject_replace hnames declared stands hsame before after

/-- At any place a part can be replaced by one that is read alike. -/
theorem Place.read_congr
    {d d' : Declared}
    (h : d.Conventional)
    {path : List Segment}
    {put : Tree → Tree}
    (hplace : Place d path d' put)
    {u u' : Tree}
    (hsame : d'.read u = d'.read u') :
    d.read (put u) = d.read (put u') := by
  induction hplace with
  | root => exact hsame
  | step first _ ih => exact first.read_congr h (ih (first.conventional h) hsame)

/-! ## Null and absence -/

/-- A collection or an optional value is read as empty from null. -/
theorem Shape.read_null_of_emptyValue
    {α : Type}
    {s : Shape α}
    {a : α}
    (h : s.emptyValue? = some a) :
    s.read .null = .ok a := by
  cases s with
  | option _ => cases h; rfl
  | list _ => cases h; rfl
  | set _ _ => cases h; rfl
  | map _ _ _ => cases h; rfl
  | _ => cases h

/-- A field that can be empty is read alike from null and from nothing. -/
theorem Field.given_null
    {f : Field}
    (h : f.Conventional)
    {a : f.α}
    (hempty : f.shape.emptyValue? = some a) :
    f.given (some .null) = f.given none := by
  rw [given, given, Shape.read_null_of_emptyValue hempty, h.empty a hempty]
  rfl

/-- A key with null that alone stands for a field which can be empty can be left out. -/
theorem Fields.readObject_null
    {β : Type}
    {fields : Fields β}
    (hnames : (namesOf fields.list).Nodup)
    {f : Field}
    (hf : f ∈ fields.list)
    (hconventional : f.Conventional)
    {a : f.α}
    (hempty : f.shape.emptyValue? = some a)
    {key : String}
    (hstands : findName? (namesOf fields.list) key = some f.name)
    {before after : List (String × Tree)}
    (hothers : ∀ e ∈ before ++ after, findName? (namesOf fields.list) e.1 ≠ some f.name) :
    fields.readObject (before ++ (key, .null) :: after) = fields.readObject (before ++ after) := by
  have hname : f.name ∈ namesOf fields.list := List.mem_map_of_mem hf
  have hnew : ∀ es ⊆ before ++ after, f.name ∉ fieldsGiven (namesOf fields.list) es := by
    intro es hes hgiven
    obtain ⟨e, he, hfield⟩ := List.mem_filterMap.mp hgiven
    exact hothers e (hes he) hfield
  refine readObject_congr hnames hf ?_ ?_ ?_
  · exact foldOutcome_drop hstands (hnew _ (List.subset_append_left _ _))
      (hnew _ (List.subset_append_right _ _)) rfl
  · intro e hother
    have hne : e ≠ (key, .null) := by
      rintro rfl
      exact hother hstands
    simp [hne]
  · intro folded folded' hfold hfold'
    have hnone : Entries.find? f.name folded' = none := by
      refine Option.eq_none_iff_forall_ne_some.mpr fun t ht => ?_
      obtain ⟨e, he, hfield, _⟩ := (find?_foldKeys_iff hfold' hname).mp ht
      exact hothers e he hfield
    rw [(find?_foldKeys_iff hfold hname).mpr ⟨(key, .null), by simp, hstands, rfl⟩, hnone,
      Field.given_null hconventional hempty]

/-- What has named fields is read from an object through these fields only. -/
theorem Shape.exists_readObject
    {α : Type}
    (s : Shape α)
    (h : s.Conventional)
    {fs : List Field}
    (hparts : s.parts = .fields true fs) :
    ∃ (β : Type) (fields : Fields β) (wrap : Except ShapeError β → Except ShapeError α),
      fields.list = fs ∧ ∀ es, s.read (.object es) = wrap (fields.readObject es) := by
  cases s with
  | option s =>
      obtain ⟨β, fields, wrap, hfields, hread⟩ := Shape.exists_readObject s h hparts
      refine ⟨β, fields, fun r => (wrap r).map some, hfields, fun es => ?_⟩
      have hpresent : Tree.object es ≠ .null := nofun
      rw [read_option_of_ne_null hpresent, hread]
  | record title strict fields p =>
      obtain ⟨rfl, _⟩ := h
      refine ⟨_, fields, Except.map p.pack, (Parts.fields.inj hparts).2, fun es => ?_⟩
      simp only [Shape.read, recordFrom_object]
  | _ => cases hparts

theorem Declared.exists_readObject
    (d : Declared)
    (h : d.Conventional)
    {fs : List Field}
    (hparts : d.parts = .fields true fs) :
    ∃ (β : Type) (fields : Fields β) (wrap : Except ShapeError β → Except ShapeError d.Value),
      fields.list = fs ∧ ∀ es, d.read (.object es) = wrap (fields.readObject es) := by
  cases d with
  | shape s => exact s.exists_readObject h hparts
  | content c =>
      cases c with
      | value s => exact Shape.exists_readObject s h hparts
      | record title fields =>
          refine ⟨_, fields, fun r => r, (Parts.fields.inj hparts).2, fun es => ?_⟩
          simp only [Declared.read, Content.read]
          exact recordFrom_object
      | _ => cases hparts

/-- A key with null that alone stands for a field which can be empty can be left out. -/
theorem Declared.read_object_null
    {d : Declared}
    (h : d.Conventional)
    {fs : List Field}
    (hparts : d.parts = .fields true fs)
    {f : Field}
    (hf : f ∈ fs)
    {a : f.α}
    (hempty : f.shape.emptyValue? = some a)
    {key : String}
    (hstands : findName? (namesOf fs) key = some f.name)
    {before after : List (String × Tree)}
    (hothers : ∀ e ∈ before ++ after, findName? (namesOf fs) e.1 ≠ some f.name) :
    d.read (.object (before ++ (key, .null) :: after)) = d.read (.object (before ++ after)) := by
  have hconventional := h.parts
  rw [hparts] at hconventional
  obtain ⟨hnames, hfields⟩ := hconventional
  obtain ⟨β, fields, wrap, rfl, hread⟩ := d.exists_readObject h hparts
  rw [hread, hread]
  exact congrArg wrap
    (Fields.readObject_null (hnames rfl) hf (hfields f hf) hempty hstands hothers)

end Provision
