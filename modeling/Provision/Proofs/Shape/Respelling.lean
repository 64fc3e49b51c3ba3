import Provision.Proofs.Shape.Reading

/-!
# Trees spelt differently

Two trees are respellings of each other with respect to a shape if they differ only in how the keys
of records and the labels of choices are spelt.  Spelling is free nowhere else: keys of maps, texts
and free-form trees are equal in both trees.  Since the entries of an object are kept in key order,
other spellings may put them in another order.

A key stands for the same field in every spelling as long as no two fields of the record are the
same name; so does a label.

**Results.**
* `KeysRespelled.given_perm`: respelt keys stand for the same fields.
* `Shape.read_respelled`: respelt trees are read as the same values.
-/

namespace Provision

open Text (findName? sameName)

/-- Trees that are put together in the same way: the elements of lists are related by `lists` and the
entries of objects by `objects`; all other trees are equal. -/
def Tree.SameForm (lists : List Tree → List Tree → Prop)
    (objects : List (String × Tree) → List (String × Tree) → Prop) : Tree → Tree → Prop
  | .list ts, .list ts' => lists ts ts'
  | .object es, .object es' => objects es es'
  | t, t' => t = t'

/-- Trees that name a label, as a text or as the only key of an object, in two spellings. -/
def Tree.SameLabel : Tree → Tree → Prop
  | .text a, .text b => sameName a b = true
  | .object [(a, t)], .object [(b, t')] => sameName a b = true ∧ t = t'
  | t, t' => t = t'

/-- Entries of two objects that belong together one to one, with keys in two spellings; `related`
relates the values under a key. -/
def KeysRespelled (related : String → Tree → Tree → Prop) (es es' : List (String × Tree)) : Prop :=
  ∃ fs, fs.Perm es' ∧
    List.Forall₂ (fun e f => sameName e.1 f.1 = true ∧ related e.1 e.2 f.2) es fs

mutual

/-- Trees that differ only in the spelling of the keys of records and the labels of choices. -/
def Shape.Respelled {α : Type} : Shape α → Tree → Tree → Prop
  | .option s, t, t' => s.Respelled t t'
  | .list s, t, t' => Tree.SameForm (List.Forall₂ fun t t' => s.Respelled t t') Eq t t'
  | .set s _, t, t' => Tree.SameForm (List.Forall₂ fun t t' => s.Respelled t t') Eq t t'
  | .map _ _ s, t, t' =>
    Tree.SameForm Eq (List.Forall₂ fun e e' => e.1 = e'.1 ∧ s.Respelled e.2 e'.2) t t'
  | .tuple _ _ fields _, t, t' =>
    Tree.SameForm (fun ts ts' => fields.RespelledInOrder ts ts') Eq t t'
  | .record _ _ fields _, t, t' =>
    Tree.SameForm (fun ts ts' => fields.RespelledInOrder ts ts')
      (KeysRespelled fun key t t' => fields.RespelledAt key t t') t t'
  | .choice _, t, t' => Tree.SameLabel t t'
  | .bool, t, t' | .natural _ _, t, t' | .int _, t, t' | .real _, t, t' | .char, t, t'
  | .text, t, t' | .unit _, t, t' | .tree, t, t' | .parsed _ _ _, t, t' | .variant _ _, t, t' =>
    t = t'

/-- Trees under a key of a record: respelt with respect to the field that the key spells, and equal
if it spells none. -/
def Fields.RespelledAt {β : Type} : Fields β → String → Tree → Tree → Prop
  | .nil, _, t, t' => t = t'
  | .cons name s _ rest, key, t, t' =>
    if sameName name key then s.Respelled t t' else rest.RespelledAt key t t'

/-- Elements of two lists, each respelt with respect to the field at its position. -/
def Fields.RespelledInOrder {β : Type} : Fields β → List Tree → List Tree → Prop
  | .cons _ s _ rest, t :: ts, t' :: ts' => s.Respelled t t' ∧ rest.RespelledInOrder ts ts'
  | _, ts, ts' => ts = ts'

end

mutual

/-- No two fields of a record and no two labels of a choice within the shape are the same name. -/
def Shape.NamesApart {α : Type} : Shape α → Prop
  | .option s => s.NamesApart
  | .list s => s.NamesApart
  | .set s _ => s.NamesApart
  | .map _ _ s => s.NamesApart
  | .tuple _ _ fields _ => fields.NamesApart
  | .record _ _ fields _ => Text.SpeltApart fields.names ∧ fields.NamesApart
  | .choice c => Text.SpeltApart (c.options.map (·.1))
  | .bool | .natural _ _ | .int _ | .real _ | .char | .text | .unit _ | .tree | .parsed _ _ _
  | .variant _ _ => True

/-- The shapes of the fields have their names apart. -/
def Fields.NamesApart {β : Type} : Fields β → Prop
  | .nil => True
  | .cons _ s _ rest => s.NamesApart ∧ rest.NamesApart

end

mutual

def Shape.decideNamesApart {α : Type} : (s : Shape α) → Decidable s.NamesApart
  | .option s => s.decideNamesApart
  | .list s => s.decideNamesApart
  | .set s _ => s.decideNamesApart
  | .map _ _ s => s.decideNamesApart
  | .tuple _ _ fields _ => fields.decideNamesApart
  | .record _ _ fields _ =>
    @instDecidableAnd _ _ (Text.decideSpeltApart fields.names) fields.decideNamesApart
  | .choice c => inferInstanceAs (Decidable (Text.SpeltApart (c.options.map (·.1))))
  | .bool | .natural _ _ | .int _ | .real _ | .char | .text | .unit _ | .tree | .parsed _ _ _
  | .variant _ _ => .isTrue trivial

def Fields.decideNamesApart {β : Type} : (fields : Fields β) → Decidable fields.NamesApart
  | .nil => .isTrue trivial
  | .cons _ s _ rest => @instDecidableAnd _ _ s.decideNamesApart rest.decideNamesApart

end

instance {α : Type} (s : Shape α) : Decidable s.NamesApart := s.decideNamesApart

namespace KeysRespelled

variable {names : List String} {related : String → Tree → Tree → Prop}
  {es es' : List (String × Tree)}

theorem exists_right
    (h : KeysRespelled related es es')
    {e : String × Tree}
    (he : e ∈ es) :
    ∃ f ∈ es', sameName e.1 f.1 = true ∧ related e.1 e.2 f.2 := by
  obtain ⟨fs, hperm, hpaired⟩ := h
  obtain ⟨f, hf, hsame⟩ := exists_partner hpaired he
  exact ⟨f, hperm.mem_iff.mp hf, hsame⟩

theorem exists_left
    (h : KeysRespelled related es es')
    {f : String × Tree}
    (hf : f ∈ es') :
    ∃ e ∈ es, sameName e.1 f.1 = true ∧ related e.1 e.2 f.2 := by
  obtain ⟨fs, hperm, hpaired⟩ := h
  exact exists_partner hpaired.flip (hperm.mem_iff.mpr hf)

/-- Respelt keys stand for the same fields. -/
theorem given_perm
    (h : KeysRespelled related es es')
    (hapart : Text.SpeltApart names) :
    (fieldsGiven names es).Perm (fieldsGiven names es') := by
  obtain ⟨fs, hperm, hpaired⟩ := h
  have heq : fieldsGiven names es = fieldsGiven names fs := by
    clear hperm
    induction hpaired with
    | nil => rfl
    | cons hsame _ ih =>
        rw [fieldsGiven, fieldsGiven, List.filterMap_cons, List.filterMap_cons, ← fieldsGiven,
          ← fieldsGiven, ih, Text.findName?_congr hapart hsame.1]
  rw [heq]
  exact hperm.filterMap _

/-- Respelt keys are known fields together. -/
theorem known_iff
    (h : KeysRespelled related es es')
    (hapart : Text.SpeltApart names) :
    (∀ e ∈ es, (findName? names e.1).isSome) ↔ ∀ f ∈ es', (findName? names f.1).isSome := by
  constructor
  · intro hknown f hf
    obtain ⟨e, he, hsame, _⟩ := h.exists_left hf
    rw [← Text.findName?_congr hapart hsame]
    exact hknown e he
  · intro hknown e he
    obtain ⟨f, hf, hsame, _⟩ := h.exists_right he
    rw [Text.findName?_congr hapart hsame]
    exact hknown f hf

/-- The trees under a field: both objects have none, or they are related under a key that spells the
field. -/
theorem field_rel
    (h : KeysRespelled related es es')
    (hapart : Text.SpeltApart names)
    (hnodup : (fieldsGiven names es).Nodup)
    {name : String}
    (hname : name ∈ names) :
    Option.Rel (fun t t' => ∃ key, sameName name key = true ∧ related key t t')
      (Entries.find? name (Entries.ofList (es.map (renamed names))))
      (Entries.find? name (Entries.ofList (es'.map (renamed names)))) := by
  have hfold := foldKeys_eq_ok_iff.mpr ⟨hnodup, rfl⟩
  have hfold' := foldKeys_eq_ok_iff.mpr ⟨(h.given_perm hapart).nodup_iff.mp hnodup, rfl⟩
  cases hfound : Entries.find? name (Entries.ofList (es.map (renamed names))) with
  | some t =>
      obtain ⟨e, he, hfield, rfl⟩ := (find?_foldKeys_iff hfold hname).mp hfound
      obtain ⟨f, hf, hsame, hrel⟩ := h.exists_right he
      have hfield' : findName? names f.1 = some name := by
        rw [← Text.findName?_congr hapart hsame]
        exact hfield
      rw [(find?_foldKeys_iff hfold' hname).mpr ⟨f, hf, hfield', rfl⟩]
      exact .some ⟨e.1, (Text.findName?_spells hfield).2, hrel⟩
  | none =>
      cases hfound' : Entries.find? name (Entries.ofList (es'.map (renamed names))) with
      | none => exact .none
      | some t' =>
          obtain ⟨f, hf, hfield', rfl⟩ := (find?_foldKeys_iff hfold' hname).mp hfound'
          obtain ⟨e, he, hsame, _⟩ := h.exists_left hf
          have hfield : findName? names e.1 = some name := by
            rw [Text.findName?_congr hapart hsame]
            exact hfield'
          rw [(find?_foldKeys_iff hfold hname).mpr ⟨e, he, hfield, rfl⟩] at hfound
          cases hfound

end KeysRespelled

theorem Tree.SameForm.cases
    {lists : List Tree → List Tree → Prop}
    {objects : List (String × Tree) → List (String × Tree) → Prop}
    {t t' : Tree}
    (h : Tree.SameForm lists objects t t') :
    (∃ ts ts', t = .list ts ∧ t' = .list ts' ∧ lists ts ts') ∨
      (∃ es es', t = .object es ∧ t' = .object es' ∧ objects es es') ∨ t = t' := by
  unfold Tree.SameForm at h
  split at h
  · exact Or.inl ⟨_, _, rfl, rfl, h⟩
  · exact Or.inr (Or.inl ⟨_, _, rfl, rfl, h⟩)
  · exact Or.inr (Or.inr h)

theorem Tree.SameForm.null_iff
    {lists : List Tree → List Tree → Prop}
    {objects : List (String × Tree) → List (String × Tree) → Prop}
    {t t' : Tree}
    (h : Tree.SameForm lists objects t t') :
    t = .null ↔ t' = .null := by
  rcases h.cases with ⟨ts, ts', rfl, rfl, _⟩ | ⟨es, es', rfl, rfl, _⟩ | rfl
  · simp
  · simp
  · exact Iff.rfl

theorem Tree.SameLabel.null_iff
    {t t' : Tree}
    (h : Tree.SameLabel t t') :
    t = .null ↔ t' = .null := by
  unfold Tree.SameLabel at h
  split at h
  · simp
  · simp
  · rw [h]

/-- Only null is a respelling of null. -/
theorem Shape.Respelled.null_iff
    {α : Type}
    (s : Shape α)
    {t t' : Tree}
    (h : s.Respelled t t') :
    t = .null ↔ t' = .null := by
  cases s with
  | option s => exact Shape.Respelled.null_iff s h
  | list _ | set _ _ | map _ _ _ | tuple _ _ _ _ | record _ _ _ _ => exact Tree.SameForm.null_iff h
  | choice _ => exact Tree.SameLabel.null_iff h
  | _ => rw [show t = t' from h]

theorem Choices.value?_respelled
    {α : Type}
    {c : Choices α}
    (hapart : Text.SpeltApart (c.options.map (·.1)))
    {a b : String}
    (h : sameName a b = true) :
    c.value? a = c.value? b := by
  rw [Choices.value?, Choices.value?, Text.findName?_congr hapart h]

/-- Two spellings of a label give the same value. -/
theorem Choices.read_respelled
    {α : Type}
    {c : Choices α}
    (hapart : Text.SpeltApart (c.options.map (·.1)))
    {t t' : Tree}
    (h : Tree.SameLabel t t')
    {a : α} :
    c.read t = .ok a ↔ c.read t' = .ok a := by
  unfold Tree.SameLabel at h
  split at h
  · rw [read_text_eq_ok_iff, read_text_eq_ok_iff, value?_respelled hapart h]
  · obtain ⟨hsame, rfl⟩ := h
    rw [read_object_eq_ok_iff, read_object_eq_ok_iff, value?_respelled hapart hsame]
  · rw [h]

/-- Related elements are read as the same values, if each is. -/
theorem forall₂_read_congr
    {τ α : Type}
    {R : τ → τ → Prop}
    {reads : τ → α → Prop}
    (hread : ∀ t t', R t t' → ∀ a, reads t a ↔ reads t' a)
    {ts ts' : List τ}
    (h : List.Forall₂ R ts ts')
    {as : List α} :
    List.Forall₂ reads ts as ↔ List.Forall₂ reads ts' as := by
  induction h generalizing as with
  | nil => exact Iff.rfl
  | cons hhead _ ih =>
      rw [List.forall₂_cons_left_iff, List.forall₂_cons_left_iff]
      refine exists_congr fun a => exists_congr fun as' => ?_
      rw [hread _ _ hhead, ih]

theorem rel_imp
    {τ : Type}
    {R S : τ → τ → Prop}
    (h : ∀ t t', R t t' → S t t')
    {t? t?' : Option τ}
    (hrel : Option.Rel R t? t?') :
    Option.Rel S t? t?' := by
  cases hrel with
  | none => exact .none
  | some hR => exact .some (h _ _ hR)

/-- A field is settled alike by no trees and by trees that are read as the same values. -/
theorem Absence.settles_congr
    {α : Type}
    {absence : Absence α}
    {read : Tree → Except ShapeError α}
    {R : Tree → Tree → Prop}
    (hread : ∀ t t', R t t' → ∀ a, read t = .ok a ↔ read t' = .ok a)
    {t? t?' : Option Tree}
    (h : Option.Rel R t? t?')
    {a : α} :
    absence.Settles read t? a ↔ absence.Settles read t?' a := by
  cases h with
  | none => exact Iff.rfl
  | some hR => exact hread _ _ hR a

/-- Lists of respelt elements are read as the same lists. -/
theorem Shape.readEach_respelled
    {α : Type}
    {read : Tree → Except ShapeError α}
    {R : Tree → Tree → Prop}
    (hread : ∀ t t', R t t' → ∀ a, read t = .ok a ↔ read t' = .ok a)
    {t t' : Tree}
    (h : Tree.SameForm (List.Forall₂ R) Eq t t')
    {as : List α} :
    (elements "a sequence" t >>= readEach read 0) = .ok as ↔
      (elements "a sequence" t' >>= readEach read 0) = .ok as := by
  rcases h.cases with ⟨ts, ts', rfl, rfl, hts⟩ | ⟨es, es', rfl, rfl, rfl⟩ | rfl
  · change readEach read 0 ts = .ok as ↔ readEach read 0 ts' = .ok as
    rw [readEach_eq_ok_iff, readEach_eq_ok_iff, forall₂_read_congr hread hts]
  · exact Iff.rfl
  · exact Iff.rfl

/-- Maps with respelt values under equal keys are read as the same maps. -/
theorem Shape.readEntries_respelled
    {κ α : Type}
    {readKey : Tree → Except ShapeError κ}
    {form : κ → String}
    {read : Tree → Except ShapeError α}
    {R : Tree → Tree → Prop}
    (hread : ∀ t t', R t t' → ∀ a, read t = .ok a ↔ read t' = .ok a)
    {t t' : Tree}
    (h : Tree.SameForm Eq (List.Forall₂ fun e e' => e.1 = e'.1 ∧ R e.2 e'.2) t t')
    {es : Entries α} :
    (objectEntries "a map" t >>= readEntries readKey form read []) = .ok es ↔
      (objectEntries "a map" t' >>= readEntries readKey form read []) = .ok es := by
  rcases h.cases with ⟨ts, ts', rfl, rfl, rfl⟩ | ⟨fs, fs', rfl, rfl, hfs⟩ | rfl
  · exact Iff.rfl
  · change readEntries readKey form read [] fs = .ok es ↔
      readEntries readKey form read [] fs' = .ok es
    rw [readEntries_eq_ok_iff, readEntries_eq_ok_iff]
    refine exists_congr fun pairs => and_congr_left fun _ => forall₂_read_congr ?_ hfs
    rintro e e' ⟨hkey, hR⟩ p
    rw [ReadsEntry, ReadsEntry, hkey, hread _ _ hR]
  · exact Iff.rfl

mutual

/-- Respelt trees are read as the same values. -/
theorem Shape.read_respelled
    {α : Type}
    (s : Shape α)
    (hapart : s.NamesApart)
    {t t' : Tree}
    (h : s.Respelled t t')
    {a : α} :
    s.read t = .ok a ↔ s.read t' = .ok a := by
  cases s with
  | option s =>
      have hnull := Shape.Respelled.null_iff s h
      by_cases ht : t = .null
      · rw [ht, hnull.mp ht]
      · rw [Shape.read_option_of_ne_null ht,
          Shape.read_option_of_ne_null fun ht' => ht (hnull.mpr ht'), map_eq_ok_iff, map_eq_ok_iff]
        refine exists_congr fun b => ?_
        rw [Shape.read_respelled s hapart h]
  | list s =>
      have hread : ∀ t t', s.Respelled t t' → ∀ a, s.read t = .ok a ↔ s.read t' = .ok a :=
        fun _ _ h _ => Shape.read_respelled s hapart h
      exact Shape.readEach_respelled hread h
  | set s before =>
      have hread : ∀ t t', s.Respelled t t' → ∀ a, s.read t = .ok a ↔ s.read t' = .ok a :=
        fun _ _ h _ => Shape.read_respelled s hapart h
      rw [Shape.read_set_eq_ok_iff, Shape.read_set_eq_ok_iff]
      refine exists_congr fun as => and_congr_left fun _ => ?_
      exact Shape.readEach_respelled hread h
  | map key form s =>
      have hread : ∀ t t', s.Respelled t t' → ∀ a, s.read t = .ok a ↔ s.read t' = .ok a :=
        fun _ _ h _ => Shape.read_respelled s hapart h
      exact Shape.readEntries_respelled hread h
  | tuple title full fields p =>
      rcases Tree.SameForm.cases h with ⟨ts, ts', rfl, rfl, hts⟩ | ⟨es, es', rfl, rfl, rfl⟩ | rfl
      · rw [Shape.read, Shape.read, map_eq_ok_iff, map_eq_ok_iff]
        refine exists_congr fun b => and_congr_left fun _ => ?_
        exact Fields.readOrder_respelled fields hapart hts
      · exact Iff.rfl
      · exact Iff.rfl
  | record title strict fields p =>
      obtain ⟨hnames, hfields⟩ := hapart
      rcases Tree.SameForm.cases h with ⟨ts, ts', rfl, rfl, hts⟩ | ⟨es, es', rfl, rfl, hes⟩ | rfl
      · simp only [Shape.read, recordFrom, map_eq_ok_iff]
        refine exists_congr fun b => and_congr_left fun _ => ?_
        exact Fields.readOrder_respelled fields hfields hts
      · rw [Shape.read_record_eq_ok_iff, Shape.read_record_eq_ok_iff,
          (hes.given_perm hnames).nodup_iff, hes.known_iff hnames]
        refine and_congr_right fun hnodup' => and_congr_right fun _ => ?_
        have hnodup := (hes.given_perm hnames).nodup_iff.mpr hnodup'
        exact Fields.readNamed_respelled fields hfields hnames fun name hname =>
          hes.field_rel hnames hnodup hname
      · exact Iff.rfl
  | choice c => exact Choices.read_respelled hapart h
  | _ => rw [show t = t' from h]

/-- Respelt entries are read as the same fields. -/
theorem Fields.readNamed_respelled
    {β : Type}
    (fields : Fields β)
    (hapart : fields.NamesApart)
    (hnames : Text.SpeltApart fields.names)
    {es es' : Entries Tree}
    (h : ∀ name ∈ fields.names,
      Option.Rel (fun t t' => ∃ key, sameName name key = true ∧ fields.RespelledAt key t t')
        (Entries.find? name es) (Entries.find? name es'))
    {b : β} :
    fields.readNamed es = .ok b ↔ fields.readNamed es' = .ok b := by
  cases fields with
  | nil => exact Iff.rfl
  | cons name s absence rest =>
      obtain ⟨hs, hrest⟩ := hapart
      obtain ⟨hnew, hapartRest⟩ := List.pairwise_cons.mp hnames
      obtain ⟨hhead, htail⟩ := List.forall_mem_cons.mp h
      rw [Fields.readNamed_cons_eq_ok_iff, Fields.readNamed_cons_eq_ok_iff]
      refine and_congr (Absence.settles_congr ?_ hhead) ?_
      · rintro t t' ⟨key, hkey, hat⟩ a
        rw [Fields.RespelledAt, if_pos hkey] at hat
        exact Shape.read_respelled s hs hat
      · refine Fields.readNamed_respelled rest hrest hapartRest fun other hother => ?_
        -- A key that spells another field does not spell the first one.
        have hskip : ∀ key, sameName other key = true → sameName name key = false := by
          intro key hkey
          rw [← Text.sameName_congr hkey]
          exact hnew other hother
        refine rel_imp (fun t t' => ?_) (htail other hother)
        rintro ⟨key, hkey, hat⟩
        rw [Fields.RespelledAt, if_neg (by simp [hskip key hkey])] at hat
        exact ⟨key, hkey, hat⟩

/-- Respelt elements are read as the same fields. -/
theorem Fields.readOrder_respelled
    {β : Type}
    {full : String}
    {n : Nat}
    (fields : Fields β)
    (hapart : fields.NamesApart)
    {ts ts' : List Tree}
    (h : fields.RespelledInOrder ts ts')
    {b : β} :
    fields.readOrder full n ts = .ok b ↔ fields.readOrder full n ts' = .ok b := by
  cases fields with
  | nil => rw [show ts = ts' from h]
  | cons name s absence rest =>
      cases ts with
      | nil => rw [← show [] = ts' from h]
      | cons t ts =>
          cases ts' with
          | nil => cases (show t :: ts = [] from h)
          | cons t' ts' =>
              obtain ⟨hhead, htail⟩ := h
              rw [Fields.readOrder_cons_eq_ok_iff, Fields.readOrder_cons_eq_ok_iff,
                Shape.read_respelled s hapart.1 hhead,
                Fields.readOrder_respelled rest hapart.2 htail]

end

end Provision
