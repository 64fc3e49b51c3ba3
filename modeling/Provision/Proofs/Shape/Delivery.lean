import Provision.Proofs.Shape.Respelling
import Provision.Proofs.Sorted

/-!
# What is delivered as it stands

Only the keys of records and the labels of choices are matched up to spelling.  Everything else that
a tree says in characters comes out as it stands there: a text is delivered as this text, a map has
the keys of its object, and a free-form tree is delivered whole.  This holds wherever the shape has a
text, a map or a free-form tree, be it inside of optional values, lists, sets, maps, tuples or
records; what is delivered there belongs to the field whose name its key spells.

Texts that are read as numbers or as truth values are no texts any more, and neither are labels;
nothing is said of them here.  Variants with content are left out as well.

**Results.**
* `Shape.delivers_of_read`: what a value that was read owes to its tree.
* `Shape.Delivers.entries`: a map has the keys of its object.
-/

namespace Provision

open Text (sameName)

mutual

/-- The texts, the keys of maps and the free-form trees of a tree are in a value as they stand in the
tree. -/
def Shape.Delivers {α : Type} : Shape α → Tree → α → Prop
  | .char, t, c => ∀ x, t = .text x → x = String.singleton c
  | .text, t, s => ∀ x, t = .text x → s = x
  | .tree, t, u => u = t
  | .parsed _ parse _, t, a => ∀ x, t = .text x → parse x = .ok a
  | .option s, t, a? => t ≠ .null → ∃ a, a? = some a ∧ s.Delivers t a
  | .list s, t, as => ∀ ts, t = .list ts → List.Forall₂ (fun t a => s.Delivers t a) ts as
  | .set s before, t, as =>
    ∀ ts, t = .list ts →
      ∃ items, List.Forall₂ (fun t a => s.Delivers t a) ts items ∧ Sorted.SameValues before items as
  | .map key form s, t, as =>
    ∀ es, t = .object es →
      ∃ pairs, List.Forall₂ (fun e p =>
          (∃ k, key.Delivers (.text e.1) k ∧ p.1 = form k) ∧ s.Delivers e.2 p.2) es pairs ∧
        ∀ k a, (k, a) ∈ as ↔ Entries.last? k pairs = some a
  | .tuple _ _ fields p, t, a => ∀ ts, t = .list ts → fields.DeliversInOrder ts (p.unpack a)
  | .record _ _ fields p, t, a =>
    (∀ es, t = .object es → fields.DeliversNamed es (p.unpack a)) ∧
      ∀ ts, t = .list ts → fields.DeliversInOrder ts (p.unpack a)
  | .bool, _, _ | .natural _ _, _, _ | .int _, _, _ | .real _, _, _ | .unit _, _, _ | .choice _, _, _
  | .variant _ _, _, _ => True

/-- Each field has what stands under the keys that spell its name. -/
def Fields.DeliversNamed {β : Type} : Fields β → List (String × Tree) → β → Prop
  | .nil, _, _ => True
  | .cons name s _ rest, es, b =>
    (∀ e ∈ es, sameName name e.1 = true → s.Delivers e.2 b.1) ∧ rest.DeliversNamed es b.2

/-- Each field has what stands at its position. -/
def Fields.DeliversInOrder {β : Type} : Fields β → List Tree → β → Prop
  | .cons _ s _ rest, t :: ts, b => s.Delivers t b.1 ∧ rest.DeliversInOrder ts b.2
  | .nil, _, _ | .cons _ _ _ _, [], _ => True

end

namespace Shape

variable {α : Type} {s : Shape α}

/-- A map has under the keys of its object what stands there, and it has no other keys. -/
theorem Delivers.entries
    {es : List (String × Tree)}
    {as : Entries α}
    (h : (entries s).Delivers (.object es) as)
    (hkeys : (Entries.keys es).Nodup) :
    (∀ e ∈ es, ∃ p ∈ as, p.1 = e.1 ∧ s.Delivers e.2 p.2) ∧
      ∀ p ∈ as, ∃ e ∈ es, p.1 = e.1 ∧ s.Delivers e.2 p.2 := by
  obtain ⟨pairs, hpaired, hlast⟩ := h es rfl
  have hdelivered : List.Forall₂ (fun e p => p.1 = e.1 ∧ s.Delivers e.2 p.2) es pairs := by
    refine hpaired.imp fun e p => ?_
    rintro ⟨⟨k, hk, hp⟩, hvalue⟩
    exact ⟨hp.trans (hk e.1 rfl), hvalue⟩
  have hsame : Entries.keys pairs = Entries.keys es := by
    rw [← List.forall₂_eq_eq_eq, Entries.keys, Entries.keys, List.forall₂_map_left_iff,
      List.forall₂_map_right_iff]
    exact (hdelivered.imp fun _ _ h => h.1.symm).flip.imp fun _ _ h => h.symm
  have hmem : ∀ p, p ∈ as ↔ p ∈ pairs := fun p =>
    (hlast p.1 p.2).trans (Entries.last?_eq_some_iff (hsame ▸ hkeys))
  constructor
  · intro e he
    obtain ⟨p, hp, hentry⟩ := exists_partner hdelivered he
    exact ⟨p, (hmem p).mpr hp, hentry⟩
  · exact fun p hp => exists_partner hdelivered.flip ((hmem p).mp hp)

/-- A text is delivered as it stands. -/
theorem delivers_of_read_text
    {α : Type}
    (s : Shape α)
    {x : String}
    {a : α}
    (h : s.read (.text x) = .ok a) :
    s.Delivers (.text x) a := by
  cases s with
  | char =>
      rintro _ ⟨⟩
      change readChar (.text x) = .ok a at h
      rw [readChar] at h
      split at h
      · rename_i hchars
        cases h
        rw [← String.toList_inj, hchars, String.toList_singleton]
      · cases h
  | text =>
      rintro _ ⟨⟩
      cases h
      rfl
  | tree =>
      cases h
      rfl
  | parsed title parse form =>
      rintro _ ⟨⟩
      obtain ⟨_, htext, hparse⟩ := read_parsed_eq_ok_iff.mp h
      cases htext
      exact hparse
  | option s =>
      intro hpresent
      rw [read_option_of_ne_null hpresent, map_eq_ok_iff] at h
      obtain ⟨b, hb, hsome⟩ := h
      exact ⟨b, hsome.symm, delivers_of_read_text s hb⟩
  | list _ | set _ _ | map _ _ _ | tuple _ _ _ _ => exact nofun
  | record title strict fields p => exact ⟨nofun, nofun⟩
  | _ => trivial

/-- The elements of a list are delivered if each of them is. -/
theorem delivers_of_read_list
    (hs : ∀ t a, s.read t = .ok a → s.Delivers t a)
    {t : Tree}
    {as : List α}
    (h : (Shape.list s).read t = .ok as) :
    (Shape.list s).Delivers t as := by
  rintro ts rfl
  exact (readEach_eq_ok_iff.mp h).imp hs

/-- The entries of a map are delivered if their values are. -/
theorem delivers_of_read_map
    {κ : Type}
    {key : Shape κ}
    {form : κ → String}
    (hs : ∀ t a, s.read t = .ok a → s.Delivers t a)
    {t : Tree}
    {as : Entries α}
    (h : (Shape.map key form s).read t = .ok as) :
    (Shape.map key form s).Delivers t as := by
  rintro es rfl
  obtain ⟨pairs, hpairs, rfl⟩ := readEntries_eq_ok_iff.mp h
  refine ⟨pairs, hpairs.imp ?_, fun k a => Entries.mem_ofList_iff⟩
  rintro e p ⟨k, hk, hform, hvalue⟩
  exact ⟨⟨k, delivers_of_read_text key hk, hform.symm⟩, hs _ _ hvalue⟩

end Shape

mutual

/-- Whatever is read from a tree, its texts, the keys of its maps and its free-form trees are as they
stand there. -/
theorem Shape.delivers_of_read
    {α : Type}
    (s : Shape α)
    (hapart : s.NamesApart)
    {t : Tree}
    {a : α}
    (h : s.read t = .ok a) :
    s.Delivers t a := by
  cases s with
  | char | text | parsed _ _ _ =>
      rintro x rfl
      exact Shape.delivers_of_read_text _ h x rfl
  | tree =>
      cases h
      rfl
  | option s =>
      intro hpresent
      rw [Shape.read_option_of_ne_null hpresent, map_eq_ok_iff] at h
      obtain ⟨b, hb, hsome⟩ := h
      exact ⟨b, hsome.symm, Shape.delivers_of_read s hapart hb⟩
  | list s =>
      have hs : ∀ t a, s.read t = .ok a → s.Delivers t a :=
        fun _ _ h => Shape.delivers_of_read s hapart h
      exact Shape.delivers_of_read_list hs h
  | set s before =>
      have hs : ∀ t a, s.read t = .ok a → s.Delivers t a :=
        fun _ _ h => Shape.delivers_of_read s hapart h
      obtain ⟨items, hitems, rfl⟩ := Shape.read_set_eq_ok_iff.mp h
      intro ts ht
      exact ⟨items, Shape.delivers_of_read_list hs hitems ts ht, Sorted.ofList_sameValues items⟩
  | map key form s =>
      have hs : ∀ t a, s.read t = .ok a → s.Delivers t a :=
        fun _ _ h => Shape.delivers_of_read s hapart h
      exact Shape.delivers_of_read_map hs h
  | tuple title full fields p =>
      rintro ts rfl
      obtain ⟨b, hb, rfl⟩ := map_eq_ok_iff.mp h
      rw [p.unpack_pack]
      exact Fields.deliversInOrder_of_readOrder fields hapart hb
  | record title strict fields p =>
      obtain ⟨hnames, hfields⟩ := hapart
      constructor
      · rintro es rfl
        obtain ⟨hnodup, _, hread⟩ := Shape.read_record_eq_ok_iff.mp h
        refine Fields.deliversNamed_of_readNamed fields hfields ?_ hread
        intro name hname e he hspelt
        exact find?_renamed hnodup he ((Text.findName?_eq_some_iff hnames).mpr ⟨hname, hspelt⟩)
      · rintro ts rfl
        obtain ⟨b, hb, rfl⟩ := map_eq_ok_iff.mp h
        rw [p.unpack_pack]
        exact Fields.deliversInOrder_of_readOrder fields hfields hb
  | _ => trivial

/-- Fields that are read from entries have what stands under their keys, if it is found there under
their names. -/
theorem Fields.deliversNamed_of_readNamed
    {β : Type}
    (fields : Fields β)
    (hapart : fields.NamesApart)
    {es : List (String × Tree)}
    {folded : Entries Tree}
    (hfound : ∀ name ∈ fields.names, ∀ e ∈ es, sameName name e.1 = true →
      Entries.find? name folded = some e.2)
    {b : β}
    (h : fields.readNamed folded = .ok b) :
    fields.DeliversNamed es b := by
  cases fields with
  | nil => trivial
  | cons name s absence rest =>
      obtain ⟨hs, hrest⟩ := hapart
      obtain ⟨hfirst, hlater⟩ := List.forall_mem_cons.mp hfound
      obtain ⟨hhead, htail⟩ := Fields.readNamed_cons_eq_ok_iff.mp h
      refine ⟨fun e he hspelt => ?_, Fields.deliversNamed_of_readNamed rest hrest hlater htail⟩
      rw [hfirst e he hspelt] at hhead
      exact Shape.delivers_of_read s hs hhead

/-- Fields that are read from elements have what stands at their positions. -/
theorem Fields.deliversInOrder_of_readOrder
    {β : Type}
    {full : String}
    {n : Nat}
    (fields : Fields β)
    (hapart : fields.NamesApart)
    {ts : List Tree}
    {b : β}
    (h : fields.readOrder full n ts = .ok b) :
    fields.DeliversInOrder ts b := by
  cases fields with
  | nil => trivial
  | cons name s absence rest =>
      obtain ⟨hs, hrest⟩ := hapart
      cases ts with
      | nil => trivial
      | cons t ts =>
          obtain ⟨hhead, htail⟩ := Fields.readOrder_cons_eq_ok_iff.mp h
          exact ⟨Shape.delivers_of_read s hs hhead,
            Fields.deliversInOrder_of_readOrder rest hrest htail⟩

end

end Provision
