import Provision.Proofs.Shape.Admission

/-!
# Writing values and reading them back

A value within range is written without null entries.  Every entry that is left out stands for null
when the tree is read again: an absent optional value, or the null tree that a field takes by
default.  So the reader gives the stripped value.

**Results.**
* `Shape.read_toTree`: reading what was written gives the stripped value.
* `Shape.read_toTree_of_read`: a value that was read survives being written and read again.
-/

namespace Provision

namespace Fields

theorem keys_write
    {β : Type}
    (fields : Fields β)
    (b : β) :
    Entries.keys (fields.write b) = fields.names := by
  cases fields with
  | nil => rfl
  | cons name s absence rest =>
      rw [Fields.write, Entries.keys, List.map_cons, ← Entries.keys, keys_write rest b.2]
      rfl

end Fields

namespace Shape

variable {α : Type} {s : Shape α}

/-- Integers within bounds are read as themselves. -/
theorem readInteger_of_bounds
    {title : String}
    {low high i : Int}
    (h : low ≤ i ∧ i < high) :
    readInteger title low high (.int i) = .ok i := by
  simp [readInteger, asNumber, Tree.int, h]

/-- The written elements of a list are read as the stripped ones. -/
theorem read_list_toTree
    {as : List α}
    (hs : ∀ a ∈ as, s.read (s.toTree a) = .ok (s.stripped a)) :
    (Shape.list s).read ((Shape.list s).toTree as) = .ok ((Shape.list s).stripped as) := by
  rw [toTree_list, stripped]
  change readEach (fun t => s.read t) 0 (as.map s.toTree) = _
  rw [readEach_eq_ok_iff, List.forall₂_map_left_iff, List.forall₂_map_right_iff,
    List.forall₂_same]
  exact hs

/-- The written entries of a map are read as the stripped ones. -/
theorem readsEntries_stripped
    {κ : Type}
    {key : Shape κ}
    {form : κ → String}
    {es : Entries α}
    (hes : ∀ e ∈ es, (∃ k, key.read (.text e.1) = .ok k ∧ form k = e.1) ∧
      s.read (s.toTree e.2) = .ok (s.stripped e.2)) :
    List.Forall₂ (ReadsEntry (fun t => key.read t) form fun t => s.read t)
      (Tree.entriesWithoutNulls (es.map fun e => (e.1, s.write e.2)))
      ((Shape.map key form s).stripped es) := by
  rw [stripped]
  induction es with
  | nil => exact .nil
  | cons e rest ih =>
      obtain ⟨name, a⟩ := e
      obtain ⟨⟨⟨k, hk, hform⟩, hread⟩, hrest⟩ := List.forall_mem_cons.mp hes
      rw [List.filterMap_cons, List.map_cons]
      by_cases hnull : s.write a = .null
      · simp only [hnull, Tree.isNull, if_true, Tree.entriesWithoutNulls_cons_of_null]
        exact ih hrest
      · have hpresent : (s.write a).isNull = false := by simpa [← Tree.isNull_iff] using hnull
        simp only [hpresent, Bool.false_eq_true, if_false]
        rw [Tree.entriesWithoutNulls_cons_of_ne_null hnull]
        exact .cons ⟨k, hk, hform, hread⟩ (ih hrest)

theorem stripped_map_ordered
    {κ : Type}
    {key : Shape κ}
    {form : κ → String}
    {es : Entries α}
    (h : Entries.Ordered es) :
    Entries.Ordered ((Shape.map key form s).stripped es) := by
  refine List.Pairwise.filterMap _ (fun e e' hlt f hf f' hf' => ?_) h
  split at hf
  · cases hf
  · split at hf'
    · cases hf'
    · cases hf
      cases hf'
      exact hlt

/-- The written map is read as the stripped one. -/
theorem read_map_toTree
    {κ : Type}
    {key : Shape κ}
    {form : κ → String}
    {es : Entries α}
    (hordered : Entries.Ordered es)
    (hes : ∀ e ∈ es, (∃ k, key.read (.text e.1) = .ok k ∧ form k = e.1) ∧
      s.read (s.toTree e.2) = .ok (s.stripped e.2)) :
    (Shape.map key form s).read ((Shape.map key form s).toTree es) =
      .ok ((Shape.map key form s).stripped es) := by
  rw [toTree_map]
  refine readEntries_eq_ok_iff.mpr ⟨_, readsEntries_stripped hes, ?_⟩
  exact (Entries.ofList_of_ordered (stripped_map_ordered hordered)).symm

/-- The fields of a written record are found under their names, unless they are null. -/
theorem find?_written
    {β : Type}
    {fields : Fields β}
    (hnames : fields.names.Nodup)
    (b : β) :
    ∀ e ∈ fields.write b,
      Entries.find? e.1 (Tree.entriesWithoutNulls (Entries.ofList (fields.write b))) =
        if e.2.isNull then none else some e.2.withoutNulls := by
  intro e he
  have hkeys : (Entries.keys (fields.write b)).Nodup := by
    rw [fields.keys_write]
    exact hnames
  rw [Tree.find?_entriesWithoutNulls (Entries.ofList_ordered _).keys_nodup,
    Entries.find?_ofList_of_mem hkeys he]
  rfl

/-- A written record is read as a value if the fields are read from its entries. -/
theorem read_record_toTree
    {β : Type}
    {title : String}
    {strict : Bool}
    {fields : Fields β}
    {p : Packing β α}
    {a a' : α}
    (h : fields.readNamed (Tree.entriesWithoutNulls (Entries.ofList (fields.write (p.unpack a)))) =
      .ok (p.unpack a')) :
    (Shape.record title strict fields p).read ((Shape.record title strict fields p).toTree a) =
      .ok a' := by
  rw [toTree_record]
  generalize hes : Tree.entriesWithoutNulls (Entries.ofList (fields.write (p.unpack a))) = es at h
  have hordered : Entries.Ordered es := hes ▸ Tree.entriesWithoutNulls_ordered
    (Entries.ofList_ordered (fields.write (p.unpack a)))
  have hknown : ∀ e ∈ es, e.1 ∈ fields.names := by
    intro e he
    have hkey : e.1 ∈ Entries.keys (Entries.ofList (fields.write (p.unpack a))) :=
      (Tree.keys_entriesWithoutNulls_sublist _).subset (hes ▸ List.mem_map_of_mem he)
    rw [Entries.mem_keys_ofList_iff, ← Entries.keys, fields.keys_write] at hkey
    exact hkey
  rw [read_record_eq_ok_iff, fieldsGiven_of_subset hknown, map_renamed_of_subset hknown,
    Entries.ofList_of_ordered hordered]
  refine ⟨hordered.keys_nodup, fun _ e he => ?_, h⟩
  rw [Text.findName?_of_mem (hknown e he)]
  rfl

end Shape

mutual

/-- Reading what was written gives the stripped value. -/
theorem Shape.read_toTree
    {α : Type}
    (s : Shape α)
    (hregular : s.Regular)
    {a : α}
    (ha : s.Admits a) :
    s.read (s.toTree a) = .ok (s.stripped a) := by
  cases s with
  | natural title bits =>
      have hbits : a < Number.twoTo bits := ha
      have hread : Shape.readInteger title 0 (Number.twoTo bits) (.int a) = .ok (a : Int) :=
        Shape.readInteger_of_bounds (by omega)
      exact map_eq_ok_iff.mpr ⟨a, hread, Int.toNat_natCast a⟩
  | int bits => exact Shape.readInteger_of_bounds ha
  | real single =>
      have hsingle : single = false := hregular
      have hfinite : a.isFinite = true := ha
      rw [hsingle, Shape.toTree, Shape.write, Tree.ofDouble, if_pos hfinite]
      rfl
  | char =>
      show Shape.readChar (.text (String.singleton a)) = .ok a
      rw [Shape.readChar, String.toList_singleton]
  | parsed title parse form =>
      exact Shape.read_parsed_eq_ok_iff.mpr ⟨form a, rfl, ha⟩
  | option s =>
      cases a with
      | none => rfl
      | some a =>
          obtain ⟨hadmits, hpresent⟩ := ha a rfl
          have hne : (Shape.option s).toTree (some a) ≠ .null := Tree.withoutNulls_ne_null hpresent
          rw [Shape.read_option_of_ne_null hne, map_eq_ok_iff]
          exact ⟨s.stripped a, Shape.read_toTree s hregular hadmits, rfl⟩
  | list s =>
      exact Shape.read_list_toTree fun a h => Shape.read_toTree s hregular (ha a h)
  | set s before =>
      obtain ⟨hregular, hsame, hasymm, _⟩ := hregular
      obtain ⟨hadmits, hsorted⟩ := ha
      have hstripped : (Shape.set s before).stripped a = a := by
        rw [Shape.stripped, List.map_congr_left fun x _ => hsame x, List.map_id']
      have hread := Shape.read_list_toTree fun x h => Shape.read_toTree s hregular (hadmits x h)
      refine Shape.read_set_eq_ok_iff.mpr ⟨_, hread, ?_⟩
      rw [show (Shape.list s).stripped a = (Shape.set s before).stripped a from rfl, hstripped,
        Sorted.ofList_of_pairwise hasymm hsorted]
  | map key form s =>
      obtain ⟨hordered, hes⟩ := ha
      exact Shape.read_map_toTree hordered fun e he =>
        ⟨(hes e he).1, Shape.read_toTree s hregular.2 (hes e he).2⟩
  | tuple title full fields p => exact hregular.elim
  | record title strict fields p =>
      refine Shape.read_record_toTree ?_
      rw [Shape.stripped, p.unpack_pack]
      exact Fields.readNamed_written fields hregular.2 ha
        (Shape.find?_written hregular.1 (p.unpack a))
  | choice c => exact Choices.read_text_eq_ok_iff.mpr (c.value?_label a)
  | variant variants p => exact hregular.elim
  | _ => rfl

/-- Fields are read as the stripped ones from entries that hold them, except for null ones. -/
theorem Fields.readNamed_written
    {β : Type}
    (fields : Fields β)
    (hregular : fields.Regular)
    {b : β}
    (hb : fields.Admits b)
    {es : Entries Tree}
    (hes : ∀ e ∈ fields.write b,
      Entries.find? e.1 es = if e.2.isNull then none else some e.2.withoutNulls) :
    fields.readNamed es = .ok (fields.stripped b) := by
  cases fields with
  | nil => rfl
  | cons name s absence rest =>
      obtain ⟨a, b⟩ := b
      obtain ⟨hs, _, hnull, hrest⟩ := hregular
      obtain ⟨ha, hb⟩ := hb
      obtain ⟨hfound, htail⟩ := List.forall_mem_cons.mp hes
      refine Fields.readNamed_cons_eq_ok_iff.mpr
        ⟨?_, Fields.readNamed_written rest hrest hb htail⟩
      dsimp only at hfound
      rw [hfound]
      by_cases hwrite : s.write a = .null
      · -- The null field is left out, and what stands for it then is the null value.
        have hvalue := Shape.nullValue?_of_write hs ha hwrite
        rw [hwrite, Tree.isNull, if_pos rfl]
        show absence.value? = some (s.stripped a)
        rw [Shape.stripped_nullValue hvalue]
        exact hnull a hvalue
      · rw [if_neg (by simpa [Tree.isNull_iff] using hwrite)]
        exact Shape.read_toTree s hs ha

end

/-- A value that was read from a sound tree is written as a tree that can be read; this gives a value
that is written as the same tree, and the same value unless null entries were lost. -/
theorem Shape.read_toTree_of_read
    {α : Type}
    {s : Shape α}
    (hregular : s.Regular)
    {t : Tree}
    (ht : t.Sound)
    {a : α}
    (h : s.read t = .ok a) :
    ∃ a', s.read (s.toTree a) = .ok a' ∧ s.toTree a' = s.toTree a ∧ (s.FreeOfNulls a → a' = a) :=
  ⟨s.stripped a, Shape.read_toTree s hregular (Shape.read_admits s hregular ht h),
    Shape.toTree_stripped s a, fun hfree => Shape.stripped_of_freeOfNulls s hfree⟩

end Provision
