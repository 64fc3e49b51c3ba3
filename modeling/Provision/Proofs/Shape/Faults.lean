import Provision.Proofs.Shape.Places

/-!
# Where faults arise

An error of reading a tree has a path.  Either the path is empty, and the fault is one of the tree
itself; or its first step leads to a part of the tree, and the rest of the error is that of reading
the part.  Each way of putting parts together is looked at once, and the path is then followed step
by step.

Of named fields the faulty ones and the missing ones are collected first, and the error to report is
chosen among these; so a missing field is reported only if it is indeed missing.

**Results.**
* `Declared.traced`: an error arises at the tree itself or in one of its parts.
* `Declared.exists_place_of_error`: the path of an error leads to a place in the tree, and reading
  the part there gives the same fault without a path.
-/

namespace Provision

open Text (findName?)

/-- Two keys of an object stand for one field. -/
def Collides (fields : List Field) (t : Tree) (first second name : String) : Prop :=
  ∃ before between after a b,
    t = .object (before ++ (first, a) :: (between ++ (second, b) :: after)) ∧
      findName? (namesOf fields) first = some name ∧ findName? (namesOf fields) second = some name

/-- No key of an object stands for a field that must be given. -/
def Lacks (fields : List Field) (t : Tree) (name : String) : Prop :=
  ∃ es, t = .object es ∧ (∃ f ∈ fields, f.name = name ∧ f.absence.value? = none) ∧
    ∀ e ∈ es, findName? (namesOf fields) e.1 ≠ some name

/-- What a fault says about the tree at its place: collisions and missing fields are faults of the
object that has them. -/
def Parts.Shows (parts : Parts) (t : Tree) : ShapeFault → Prop
  | .collision first second name =>
    ∃ fields, parts = .fields true fields ∧ Collides fields t first second name
  | .missingField name => ∃ fields, parts = .fields true fields ∧ Lacks fields t name
  | _ => True

/-- An error that arises at a tree itself, or in the part that the first step leads to. -/
inductive Traced (parts : Parts) (t : Tree) : ShapeError → Prop where
  | here
      {fault : ShapeFault}
      (shown : parts.Shows t fault) :
      Traced parts t (.here fault)
  | within
      {seg : Segment}
      {d : Declared}
      {put : Tree → Tree}
      {u : Tree}
      {e : ShapeError}
      (step : Step parts seg d put)
      (whole : t = put u)
      (failed : d.read u = .error e) :
      Traced parts t (e.within seg)

namespace Shape

variable {parts : Parts} {t : Tree}

theorem traced_fail
    {α : Type}
    {fault : ShapeFault}
    (h : parts.Shows t fault) :
    FailsWith (Traced parts t) (fail fault : Except ShapeError α) :=
  .error (.here h)

theorem traced_mismatch
    {α : Type}
    (found : Tree)
    (expected : String) :
    FailsWith (Traced parts t) (mismatch found expected : Except ShapeError α) :=
  traced_fail trivial

/-! ## Scalars -/

theorem traced_readBool
    (found : Tree) :
    FailsWith (Traced parts t) (readBool found) := by
  cases found with
  | bool b => exact .ok b
  | text s =>
      rw [readBool]
      split
      · exact .ok true
      · split
        · exact .ok false
        · exact traced_mismatch _ _
  | _ => exact traced_mismatch _ _

theorem traced_readInteger
    (title : String)
    (low high : Int)
    (found : Tree) :
    FailsWith (Traced parts t) (readInteger title low high found) := by
  rw [readInteger]
  split
  · split
    · exact .ok _
    · exact traced_fail trivial
  · exact traced_mismatch _ _

theorem traced_readReal
    (single : Bool)
    (found : Tree) :
    FailsWith (Traced parts t) (readReal single found) := by
  rw [readReal]
  split
  · exact .ok _
  · exact .ok _
  · exact traced_mismatch _ _

theorem traced_readChar
    (found : Tree) :
    FailsWith (Traced parts t) (readChar found) := by
  cases found with
  | text s =>
      rw [readChar]
      split
      · exact .ok _
      · exact traced_fail trivial
  | _ => exact traced_mismatch _ _

theorem traced_readText
    (title : String)
    (found : Tree) :
    FailsWith (Traced parts t) (readText title found) := by
  cases found with
  | text s => exact .ok s
  | number n => exact .ok n.text
  | bool b => exact .ok _
  | _ => exact traced_mismatch _ _

theorem traced_elements
    (title : String)
    (found : Tree) :
    FailsWith (Traced parts t) (elements title found) := by
  cases found with
  | null => exact .ok []
  | list items => exact .ok items
  | _ => exact traced_mismatch _ _

theorem traced_objectEntries
    (title : String)
    (found : Tree) :
    FailsWith (Traced parts t) (objectEntries title found) := by
  cases found with
  | null => exact .ok []
  | object es => exact .ok es
  | _ => exact traced_mismatch _ _

/-! ## Lists and maps -/

theorem within_eq_error_iff
    {α : Type}
    {seg : Segment}
    {r : Except ShapeError α}
    {e : ShapeError} :
    within seg r = .error e ↔ ∃ e', r = .error e' ∧ e'.within seg = e :=
  mapError_eq_error_iff

/-- Only a list has elements. -/
theorem eq_list_of_elements
    {title : String}
    {before after : List Tree}
    {u : Tree}
    (h : elements title t = .ok (before ++ u :: after)) :
    t = .list (before ++ u :: after) := by
  cases t with
  | null => cases before <;> cases h
  | list items => rw [Except.ok.inj h]
  | _ => cases h

/-- Only an object has entries. -/
theorem eq_object_of_objectEntries
    {title : String}
    {before after : List (String × Tree)}
    {e : String × Tree}
    (h : objectEntries title t = .ok (before ++ e :: after)) :
    t = .object (before ++ e :: after) := by
  cases t with
  | null => cases before <;> cases h
  | object es => rw [Except.ok.inj h]
  | _ => cases h

/-- The elements of a list are read up to the first faulty one. -/
theorem readEach_eq_error
    {α : Type}
    {read : Tree → Except ShapeError α}
    {n : Nat}
    {ts : List Tree}
    {e : ShapeError}
    (h : readEach read n ts = .error e) :
    ∃ before u after e', ts = before ++ u :: after ∧ read u = .error e' ∧
      e = e'.within (.index (n + before.length)) := by
  induction ts generalizing n with
  | nil => cases h
  | cons t rest ih =>
      rw [readEach] at h
      rcases bind_eq_error_iff.mp h with hfirst | ⟨a, _, hrest⟩
      · obtain ⟨e', hread, rfl⟩ := within_eq_error_iff.mp hfirst
        exact ⟨[], t, rest, e', rfl, hread, rfl⟩
      · rcases bind_eq_error_iff.mp hrest with hrest | ⟨as, _, hpure⟩
        · obtain ⟨before, u, after, e', rfl, hread, rfl⟩ := ih hrest
          refine ⟨t :: before, u, after, e', rfl, hread, ?_⟩
          rw [List.length_cons, Nat.add_assoc, Nat.add_comm 1]
        · cases hpure

/-- The entries of a map are read up to the first faulty one. -/
theorem readEntries_eq_error
    {κ α : Type}
    {readKey : Tree → Except ShapeError κ}
    {form : κ → String}
    {read : Tree → Except ShapeError α}
    (hkeys : ∀ text, ∃ k, readKey (.text text) = .ok k)
    {acc : Entries α}
    {es : List (String × Tree)}
    {e : ShapeError}
    (h : readEntries readKey form read acc es = .error e) :
    ∃ before key u after e', es = before ++ (key, u) :: after ∧ read u = .error e' ∧
      e = e'.within (.key key) := by
  induction es generalizing acc with
  | nil => cases h
  | cons entry rest ih =>
      obtain ⟨key, t⟩ := entry
      obtain ⟨k, hk⟩ := hkeys key
      rw [readEntries, hk] at h
      rcases bind_eq_error_iff.mp h with hfirst | ⟨a, _, hrest⟩
      · cases hfirst
      · rcases bind_eq_error_iff.mp hrest with hvalue | ⟨b, _, hrest⟩
        · obtain ⟨e', hread, rfl⟩ := within_eq_error_iff.mp hvalue
          exact ⟨[], key, t, rest, e', rfl, hread, rfl⟩
        · obtain ⟨before, key', u, after, e', rfl, hread, rfl⟩ := ih hrest
          exact ⟨(key, t) :: before, key', u, after, e', rfl, hread, rfl⟩

end Shape

namespace Fields

/-- The elements of a list are read as fields up to the first faulty one; a list may be too short. -/
theorem readOrder_eq_error
    {β : Type}
    {full : String}
    {n : Nat}
    (fields : Fields β)
    {items : List Tree}
    {e : ShapeError}
    (h : fields.readOrder full n items = .error e) :
    (∃ length, e = .here (.wrongLength length full)) ∨
      ∃ before u after f e', items = before ++ u :: after ∧ fields.list[before.length]? = some f ∧
        f.shape.read u = .error e' ∧ e = e'.within (.index (n + before.length)) := by
  cases fields with
  | nil => cases h
  | cons name s absence rest =>
      cases items with
      | nil =>
          cases absence with
          | default a =>
              rcases bind_eq_error_iff.mp h with hrest | ⟨b, _, hpure⟩
              · refine (readOrder_eq_error rest hrest).imp_right ?_
                rintro ⟨before, u, after, _, _, hnone, _⟩
                simp at hnone
              · cases hpure
          | forbidden => exact Or.inl ⟨n, (Except.error.inj h).symm⟩
          | byName a => exact Or.inl ⟨n, (Except.error.inj h).symm⟩
      | cons t items =>
          rcases bind_eq_error_iff.mp h with hfirst | ⟨a, _, hrest⟩
          · obtain ⟨e', hread, rfl⟩ := Shape.within_eq_error_iff.mp hfirst
            exact Or.inr ⟨[], t, items, ⟨name, s, absence⟩, e', rfl, rfl, hread, rfl⟩
          · rcases bind_eq_error_iff.mp hrest with hrest | ⟨b, _, hpure⟩
            · refine (readOrder_eq_error rest hrest).imp_right ?_
              rintro ⟨before, u, after, f, e', rfl, hf, hread, rfl⟩
              refine ⟨t :: before, u, after, f, e', rfl, by simpa [list] using hf, hread, ?_⟩
              rw [List.length_cons, Nat.add_assoc, Nat.add_comm 1]
            · cases hpure

end Fields

/-- A field that cannot be read has a faulty tree, or it has none and must be given. -/
theorem Field.given_eq_error
    {f : Field}
    {t? : Option Tree}
    {e? : Option ShapeError}
    (h : f.given t? = .error e?) :
    (∃ u e, t? = some u ∧ f.shape.read u = .error e ∧ e? = some (e.within (.key f.name))) ∨
      t? = none ∧ f.absence.value? = none ∧ e? = none := by
  cases t? with
  | some u =>
      obtain ⟨e', hwithin, rfl⟩ := mapError_eq_error_iff.mp h
      obtain ⟨e, hread, rfl⟩ := Shape.within_eq_error_iff.mp hwithin
      exact Or.inl ⟨u, e, rfl, hread, rfl⟩
  | none =>
      rw [given] at h
      cases hvalue : f.absence.value? with
      | some a => rw [hvalue] at h; cases h
      | none =>
          rw [hvalue] at h
          cases h
          exact Or.inr ⟨rfl, rfl, rfl⟩

namespace FieldFaults

/-- What is wrong with named fields: a faulty field has a tree that cannot be read, and a missing one
must be given and is not. -/
structure Cover
    (fields : List Field)
    (es : Entries Tree)
    (faults : FieldFaults) : Prop where
  faulty : ∀ p ∈ faults.faulty, ∃ f ∈ fields, ∃ u e, Entries.find? f.name es = some u ∧
    f.shape.read u = .error e ∧ p.2 = e.within (.key f.name)
  missing : ∀ name ∈ faults.missing, ∃ f ∈ fields, f.name = name ∧ f.absence.value? = none ∧
    Entries.find? name es = none

/-- One more field that cannot be read: a faulty one has an error, a missing one has none. -/
def add (name : String) (e? : Option ShapeError) (faults : FieldFaults) : FieldFaults :=
  match e? with
  | some e => { faults with faulty := Entries.insert name e faults.faulty }
  | none => { faults with missing := name :: faults.missing }

theorem andThen_error
    {α β : Type}
    {name : String}
    {e? : Option ShapeError}
    {rest : Except FieldFaults β} :
    andThen name (.error e? : Except (Option ShapeError) α) rest =
      .error (add name e? (match rest with
        | .ok _ => ⟨[], []⟩
        | .error faults => faults)) := by
  cases e? <;> rfl

variable {fields : List Field} {es : Entries Tree} {faults : FieldFaults}

theorem add_ne_nil
    (name : String)
    (e? : Option ShapeError)
    (faults : FieldFaults) :
    (add name e? faults).faulty ≠ [] ∨ (add name e? faults).missing ≠ [] := by
  cases e? with
  | some e =>
      have hmem := Entries.mem_of_find?_eq_some (Entries.find?_insert_self name e faults.faulty)
      exact Or.inl (List.ne_nil_of_mem hmem)
  | none => exact Or.inr (List.cons_ne_nil _ _)

theorem Cover.none :
    Cover fields es ⟨[], []⟩ :=
  ⟨nofun, nofun⟩

theorem Cover.cons
    (h : Cover fields es faults)
    (f : Field) :
    Cover (f :: fields) es faults where
  faulty := by
    intro p hp
    obtain ⟨f', hf', hfault⟩ := h.faulty p hp
    exact ⟨f', List.mem_cons_of_mem _ hf', hfault⟩
  missing := by
    intro name hname
    obtain ⟨f', hf', hfault⟩ := h.missing name hname
    exact ⟨f', List.mem_cons_of_mem _ hf', hfault⟩

/-- One more field that cannot be read. -/
theorem Cover.add
    (h : Cover fields es faults)
    {f : Field}
    {e? : Option ShapeError}
    (hgiven : f.given (Entries.find? f.name es) = .error e?) :
    Cover (f :: fields) es (add f.name e? faults) := by
  rcases Field.given_eq_error hgiven with ⟨u, e, hfind, hread, rfl⟩ | ⟨hfind, hforbidden, rfl⟩
  · refine ⟨fun p hp => ?_, (h.cons f).missing⟩
    rcases Entries.mem_keys_insert hp with rfl | hp
    · exact ⟨f, List.mem_cons_self, u, e, hfind, hread, rfl⟩
    · exact (h.cons f).faulty p hp
  · refine ⟨(h.cons f).faulty, fun name hname => ?_⟩
    rcases List.mem_cons.mp hname with rfl | hname
    · exact ⟨f, List.mem_cons_self, rfl, hforbidden, hfind⟩
    · exact (h.cons f).missing name hname

/-- The error to report is that of a faulty field, or it names a missing one. -/
theorem report_cases
    (h : faults.faulty ≠ [] ∨ faults.missing ≠ []) :
    (∃ p ∈ faults.faulty, faults.report = p.2) ∨
      ∃ name ∈ faults.missing, faults.report = .here (.missingField name) := by
  obtain ⟨faulty, missing⟩ := faults
  cases faulty with
  | cons p rest => exact Or.inl ⟨p, List.mem_cons_self, rfl⟩
  | nil =>
      cases missing with
      | cons name rest => exact Or.inr ⟨name, List.mem_cons_self, rfl⟩
      | nil => simp at h

end FieldFaults

namespace Fields

/-- If fields cannot be read, some of them are faulty or missing. -/
theorem readNamed_eq_error
    {β : Type}
    (fields : Fields β)
    {es : Entries Tree}
    {faults : FieldFaults}
    (h : fields.readNamed es = .error faults) :
    faults.Cover fields.list es ∧ (faults.faulty ≠ [] ∨ faults.missing ≠ []) := by
  cases fields with
  | nil => cases h
  | cons name s absence rest =>
      rw [readNamed_cons] at h
      cases hgiven : (⟨name, s, absence⟩ : Field).given (Entries.find? name es) with
      | ok a =>
          rw [hgiven] at h
          cases hrest : rest.readNamed es with
          | ok b => rw [hrest] at h; cases h
          | error f =>
              rw [hrest] at h
              cases h
              obtain ⟨hcover, hsome⟩ := readNamed_eq_error rest hrest
              exact ⟨hcover.cons _, hsome⟩
      | error e? =>
          rw [hgiven, FieldFaults.andThen_error] at h
          cases h
          refine ⟨FieldFaults.Cover.add (f := ⟨name, s, absence⟩) ?_ hgiven,
            FieldFaults.add_ne_nil _ _ _⟩
          cases hrest : rest.readNamed es with
          | ok b => exact .none
          | error f => exact (readNamed_eq_error rest hrest).1

end Fields

/-! ## Records -/

theorem Fields.traced_readOrder
    {β : Type}
    (fields : Fields β)
    (named : Bool)
    (full title : String)
    {t : Tree}
    {items : List Tree}
    (hitems : Shape.elements title t = .ok items) :
    FailsWith (Traced (.fields named fields.list) t) (fields.readOrder full 0 items) := by
  intro e h
  rcases readOrder_eq_error fields h with
    ⟨length, rfl⟩ | ⟨before, u, after, f, e', rfl, hf, hread, rfl⟩
  · exact .here trivial
  · rw [Nat.zero_add]
    exact .within (.position before after hf) (Shape.eq_list_of_elements hitems) hread

/-- Two keys that stand for one field are a fault of the object. -/
theorem traced_foldKeys
    (fields : List Field)
    (es : List (String × Tree)) :
    FailsWith (Traced (.fields true fields) (.object es))
      ((foldKeys (namesOf fields) es).mapError ShapeError.here) := by
  refine .mapError fun fault hfold => ?_
  obtain ⟨⟨first, a⟩, ⟨second, b⟩, name, before, between, after, rfl, rfl, hfirst, hsecond⟩ :=
    foldKeys_eq_error hfold
  exact .here ⟨fields, rfl, before, between, after, a, b, rfl, hfirst, hsecond⟩

/-- A faulty field is a fault of the tree under the key that stands for it, and a missing one is a
fault of the object. -/
theorem traced_report
    {fields : List Field}
    {es : List (String × Tree)}
    {folded : Entries Tree}
    (hfold : foldKeys (namesOf fields) es = .ok folded)
    {faults : FieldFaults}
    (hcover : faults.Cover fields folded)
    (hsome : faults.faulty ≠ [] ∨ faults.missing ≠ []) :
    Traced (.fields true fields) (.object es) faults.report := by
  have hname : ∀ f ∈ fields, f.name ∈ namesOf fields := fun f hf => List.mem_map_of_mem hf
  rcases FieldFaults.report_cases hsome with ⟨p, hp, hreport⟩ | ⟨name, hmissing, hreport⟩
  · obtain ⟨f, hf, u, e, hfind, hread, hpath⟩ := hcover.faulty p hp
    obtain ⟨⟨key, _⟩, hentry, hstands, rfl⟩ := (find?_foldKeys_iff hfold (hname f hf)).mp hfind
    obtain ⟨before, after, rfl⟩ := List.append_of_mem hentry
    rw [hreport, hpath]
    exact .within (.field key before after hf hstands) rfl hread
  · obtain ⟨f, hf, rfl, hforbidden, hnone⟩ := hcover.missing name hmissing
    rw [hreport]
    refine .here ⟨fields, rfl, es, rfl, ⟨f, hf, rfl, hforbidden⟩, ?_⟩
    intro entry hentry hstands
    rw [(find?_foldKeys_iff hfold (hname f hf)).mpr ⟨entry, hentry, hstands, rfl⟩] at hnone
    cases hnone

/-- A tree that is read as the fields of a record that ignores unknown keys. -/
theorem traced_recordFrom
    {β : Type}
    (fields : Fields β)
    (title full : String)
    (t : Tree) :
    FailsWith (Traced (.fields true fields.list) t)
      (recordFrom title false fields.names (fun es => fields.readNamed es)
        (fun items => fields.readOrder full 0 items) t) := by
  cases t with
  | list items => exact fields.traced_readOrder true full title rfl
  | object es =>
      rw [recordFrom_object]
      refine (traced_foldKeys fields.list es).bind fun folded hfold =>
        .mapError fun faults hnamed => ?_
      obtain ⟨hcover, hsome⟩ := fields.readNamed_eq_error hnamed
      exact traced_report (mapError_eq_ok_iff.mp hfold) hcover hsome
  | _ => exact Shape.traced_mismatch _ _

/-! ## Labels -/

namespace Shape

variable {parts : Parts} {t : Tree}

theorem traced_labelled :
    FailsWith (Traced parts t) (labelled t) := by
  unfold labelled
  split
  · exact .ok _
  · exact .ok _
  · exact traced_mismatch _ _

/-- A label is a text, or the only key of an object that gives its content. -/
theorem labelled_eq_ok
    {value : String}
    {content : Option Tree}
    (h : labelled t = .ok (value, content)) :
    t = .text value ∧ content = none ∨ ∃ u, t = .object [(value, u)] ∧ content = some u := by
  unfold labelled at h
  split at h
  · cases h
    exact Or.inl ⟨rfl, rfl⟩
  · cases h
    exact Or.inr ⟨_, rfl, rfl⟩
  · cases h

theorem traced_matchLabel
    (labels : List String)
    (value : String) :
    FailsWith (Traced parts t) (matchLabel labels value) := by
  rw [matchLabel]
  split
  · exact .ok _
  · exact traced_fail trivial

theorem matchLabel_eq_ok_iff
    {labels : List String}
    {value label : String} :
    matchLabel labels value = .ok label ↔ findName? labels value = some label := by
  rw [matchLabel]
  cases findName? labels value <;> simp [fail]

end Shape

/-- A label without content can only lack content. -/
theorem Content.traced_read_none
    {β : Type}
    {parts : Parts}
    {t : Tree}
    (c : Content β) :
    FailsWith (Traced parts t) (c.read none) := by
  cases c with
  | bare => exact .ok ()
  | value s => exact Shape.traced_fail trivial
  | tuple title fields => exact Shape.traced_fail trivial
  | record title fields => exact Shape.traced_fail trivial

/-- Among the variants the content of the one with the label is read. -/
theorem Variants.readAt_eq_error
    {β : Type}
    (variants : Variants β)
    {label : String}
    (hlabel : label ∈ variants.labels)
    {content : Option Tree}
    {e : ShapeError}
    (h : variants.readAt label content = .error e) :
    ∃ (α : Type) (c : Content α),
      (label, .content c) ∈ variants.list ∧ c.read content = .error e := by
  cases variants with
  | nil => cases hlabel
  | cons l c rest =>
      rw [readAt] at h
      split at h
      · rename_i heq
        subst heq
        exact ⟨_, c, List.mem_cons_self, map_eq_error_iff.mp h⟩
      · rename_i hne
        have hrest := (List.mem_cons.mp hlabel).resolve_left (Ne.symm hne)
        obtain ⟨α, c', hc', hread⟩ := readAt_eq_error rest hrest (map_eq_error_iff.mp h)
        exact ⟨α, c', List.mem_cons_of_mem _ hc', hread⟩

/-- The choice of a label that has no content. -/
theorem Choices.traced_read
    {α : Type}
    (c : Choices α)
    (t : Tree) :
    FailsWith (Traced (Shape.choice c).parts t) (c.read t) := by
  refine Shape.traced_labelled.bind fun given hlabelled => ?_
  obtain ⟨value, content⟩ := given
  refine (Shape.traced_matchLabel _ value).bind fun label hlabel => ?_
  rcases Shape.labelled_eq_ok hlabelled with ⟨rfl, rfl⟩ | ⟨u, rfl, rfl⟩
  · dsimp only
    split
    · exact .ok _
    · exact Shape.traced_fail trivial
  · refine FailsWith.bind ?content fun _ _ => ?value
    case content =>
      intro e h
      obtain ⟨e', hread, rfl⟩ := Shape.within_eq_error_iff.mp h
      have hstands := Shape.matchLabel_eq_ok_iff.mp hlabel
      obtain ⟨o, ho, rfl⟩ := List.mem_map.mp (Text.findName?_spells hstands).1
      have hdeclared : (o.1, Declared.content .bare) ∈
          c.options.map fun o => (o.1, Declared.content .bare) := List.mem_map.mpr ⟨o, ho, rfl⟩
      have hlabels : c.options.map (·.1) =
          (c.options.map fun o => (o.1, Declared.content .bare)).map (·.1) := by simp
      rw [hlabels] at hstands
      exact .within (.content value hdeclared hstands) rfl hread
    case value =>
      dsimp only
      split
      · exact .ok _
      · exact Shape.traced_fail trivial

/-- The choice of a label whose content depends on it. -/
theorem Variants.traced_read
    {α β : Type}
    (variants : Variants β)
    (p : Packing β α)
    (t : Tree) :
    FailsWith (Traced (.labels variants.list) t) ((Shape.variant variants p).read t) := by
  rw [Shape.read]
  refine Shape.traced_labelled.bind fun given hlabelled => ?_
  obtain ⟨value, content⟩ := given
  refine (Shape.traced_matchLabel _ value).bind fun label hlabel => ?_
  have hstands := Shape.matchLabel_eq_ok_iff.mp hlabel
  have hmem := (Text.findName?_spells hstands).1
  rcases Shape.labelled_eq_ok hlabelled with ⟨rfl, rfl⟩ | ⟨u, rfl, rfl⟩
  · refine FailsWith.bind ?_ fun _ _ => .ok _
    intro e h
    obtain ⟨_, c, _, hread⟩ := variants.readAt_eq_error hmem h
    exact c.traced_read_none e hread
  · refine FailsWith.bind ?_ fun _ _ => .ok _
    intro e h
    obtain ⟨e', hread, rfl⟩ := Shape.within_eq_error_iff.mp h
    obtain ⟨_, c, hdeclared, hread⟩ := variants.readAt_eq_error hmem hread
    rw [variants.labels_eq] at hstands
    exact .within (.content value hdeclared hstands) rfl hread

/-! ## Paths -/

theorem Shape.traced_readEach
    {α : Type}
    (s : Shape α)
    {t : Tree}
    {items : List Tree}
    (hitems : elements "a sequence" t = .ok items) :
    FailsWith (Traced (.items (.shape s)) t) (readEach (fun t => s.read t) 0 items) := by
  intro e h
  obtain ⟨before, u, after, e', rfl, hread, rfl⟩ := readEach_eq_error h
  rw [Nat.zero_add]
  exact .within (.item before after) (eq_list_of_elements hitems) hread

theorem Shape.traced_readEntries
    {κ α : Type}
    {key : Shape κ}
    (hkeys : ∀ text, ∃ k, key.read (.text text) = .ok k)
    (form : κ → String)
    (s : Shape α)
    {t : Tree}
    {es : List (String × Tree)}
    (hentries : objectEntries "a map" t = .ok es) :
    FailsWith (Traced (.entries (.shape s)) t)
      (readEntries (fun t => key.read t) form (fun t => s.read t) [] es) := by
  intro e h
  obtain ⟨before, k, u, after, e', rfl, hread, rfl⟩ := readEntries_eq_error hkeys h
  exact .within (.entry k before after) (eq_object_of_objectEntries hentries) hread

/-- An error of reading a shape arises at the tree itself or in one of its parts. -/
theorem Shape.traced
    {α : Type}
    (s : Shape α)
    (h : s.Conventional)
    (t : Tree) :
    FailsWith (Traced s.parts t) (s.read t) := by
  cases s with
  | bool => exact traced_readBool t
  | natural title bits => exact (traced_readInteger _ _ _ t).map
  | int bits => exact traced_readInteger _ _ _ t
  | real single => exact traced_readReal single t
  | char => exact traced_readChar t
  | text => exact traced_readText _ t
  | unit title =>
      cases t with
      | null => exact .ok ()
      | _ => exact traced_mismatch _ _
  | tree => exact .ok t
  | parsed title parse form =>
      refine (traced_readText title t).bind fun s _ => ?_
      split
      · exact .ok _
      · exact traced_fail trivial
  | option s =>
      by_cases hnull : t = .null
      · rw [hnull]
        exact .ok none
      · rw [read_option_of_ne_null hnull]
        exact (Shape.traced s h t).map
  | list s => exact (traced_elements _ t).bind fun _ hitems => traced_readEach s hitems
  | set s before =>
      refine (traced_elements _ t).bind fun _ hitems => ?_
      exact (traced_readEach s hitems).bind fun _ _ => .ok _
  | map key form s =>
      refine (traced_objectEntries _ t).bind fun _ hentries => ?_
      exact traced_readEntries h.1 form s hentries
  | tuple title full fields p =>
      cases t with
      | list items => exact (fields.traced_readOrder false full title rfl).map
      | _ => exact traced_mismatch _ _
  | record title strict fields p =>
      obtain ⟨rfl, _⟩ := h
      exact (traced_recordFrom fields title _ t).map
  | choice c => exact c.traced_read t
  | variant variants p => exact variants.traced_read p t

/-- An error of reading what is declared arises at the tree itself or in one of its parts. -/
theorem Declared.traced
    (d : Declared)
    (h : d.Conventional)
    (t : Tree) :
    FailsWith (Traced d.parts t) (d.read t) := by
  cases d with
  | shape s => exact s.traced h t
  | content c =>
      cases c with
      | bare =>
          cases t with
          | null => exact .ok ()
          | _ => exact Shape.traced_mismatch _ _
      | value s => exact Shape.traced s h t
      | tuple title fields =>
          refine (Shape.traced_elements title t).bind fun _ hitems => ?_
          exact fields.traced_readOrder false _ title hitems
      | record title fields => exact traced_recordFrom fields title _ t

/-- The path of an error leads to a place in the tree.  Reading the part there gives the same fault
without a path, and the fault is one of that part. -/
theorem Declared.exists_place_of_error
    {d : Declared}
    (h : d.Conventional)
    {t : Tree}
    {path : List Segment}
    {fault : ShapeFault}
    (hread : d.read t = .error ⟨path, fault⟩) :
    ∃ d' put u, Place d path d' put ∧ t = put u ∧ d'.read u = .error (.here fault) ∧
      d'.parts.Shows u fault := by
  induction path generalizing d t with
  | nil =>
      refine ⟨d, _, t, .root d, rfl, hread, ?_⟩
      generalize he : (⟨[], fault⟩ : ShapeError) = e at hread
      cases d.traced h t _ hread with
      | here shown =>
          cases he
          exact shown
      | within => cases he
  | cons seg path ih =>
      generalize he : (⟨seg :: path, fault⟩ : ShapeError) = e at hread
      cases d.traced h t _ hread with
      | here => cases he
      | within step whole failed =>
          cases he
          obtain ⟨d'', put, u, hplace, rfl, hread, hshows⟩ := ih (step.conventional h) failed
          exact ⟨d'', _, u, .step step hplace, whole, hread, hshows⟩

end Provision
