import Provision.Proofs.Entries
import Provision.Tree

/-!
# Trees without null entries

**Results.**
* `Tree.freeOfNulls_withoutNulls`, `Tree.withoutNulls_withoutNulls`: null entries are removed in one
  go.
* `Tree.withoutNulls_of_freeOfNulls`: a tree without null entries stays as it is.
* `Tree.find?_entriesWithoutNulls`: what is looked up after null entries were removed.
-/

namespace Provision
namespace Tree

/-- Trees of which no object, at any depth, has an entry whose value is null. -/
inductive FreeOfNulls : Tree → Prop
  | null : FreeOfNulls .null
  | bool (b : Bool) : FreeOfNulls (.bool b)
  | number (n : Number) : FreeOfNulls (.number n)
  | text (s : String) : FreeOfNulls (.text s)
  | list {items : List Tree} :
      (∀ t ∈ items, FreeOfNulls t) →
      FreeOfNulls (.list items)
  | object {entries : List (String × Tree)} :
      (∀ e ∈ entries, e.2 ≠ .null) →
      (∀ e ∈ entries, FreeOfNulls e.2) →
      FreeOfNulls (.object entries)

@[simp] theorem freeOfNulls_null :
    Tree.null.FreeOfNulls := .null

@[simp] theorem freeOfNulls_text
    {s : String} :
    (Tree.text s).FreeOfNulls := .text s

@[simp] theorem freeOfNulls_list
    {items : List Tree} :
    (Tree.list items).FreeOfNulls ↔ ∀ t ∈ items, t.FreeOfNulls :=
  ⟨fun h => by cases h; assumption, .list⟩

@[simp] theorem freeOfNulls_object
    {entries : List (String × Tree)} :
    (Tree.object entries).FreeOfNulls ↔
      (∀ e ∈ entries, e.2 ≠ .null) ∧ ∀ e ∈ entries, e.2.FreeOfNulls :=
  ⟨fun h => by cases h; exact ⟨by assumption, by assumption⟩, fun h => .object h.1 h.2⟩

theorem isNull_iff
    {t : Tree} :
    t.isNull = true ↔ t = .null := by
  cases t <;> simp [isNull]

@[simp] theorem isNull_withoutNulls
    (t : Tree) :
    t.withoutNulls.isNull = t.isNull := by
  cases t <;> rfl

theorem withoutNulls_ne_null
    {t : Tree}
    (h : t ≠ .null) :
    t.withoutNulls ≠ .null := by
  cases t with
  | null => exact absurd rfl h
  | _ => nofun

theorem entriesWithoutNulls_cons_of_null
    (key : String)
    (rest : List (String × Tree)) :
    entriesWithoutNulls ((key, .null) :: rest) = entriesWithoutNulls rest := rfl

theorem entriesWithoutNulls_cons_of_ne_null
    {key : String}
    {t : Tree}
    (h : t ≠ .null)
    (rest : List (String × Tree)) :
    entriesWithoutNulls ((key, t) :: rest) = (key, t.withoutNulls) :: entriesWithoutNulls rest := by
  cases t with
  | null => exact absurd rfl h
  | _ => rfl

/-- Entries whose values are the same without null entries are the same without null entries. -/
theorem entriesWithoutNulls_congr
    {es es' : List (String × Tree)}
    (h : es.map (fun e => (e.1, e.2.withoutNulls)) = es'.map (fun e => (e.1, e.2.withoutNulls))) :
    entriesWithoutNulls es = entriesWithoutNulls es' := by
  have hmap : ∀ es : List (String × Tree), entriesWithoutNulls es =
      (es.map fun e => (e.1, e.2.withoutNulls)).filter fun e => !e.2.isNull := by
    intro es
    induction es with
    | nil => rfl
    | cons e rest ih =>
        obtain ⟨key, t⟩ := e
        by_cases hnull : t = .null
        · rw [hnull, entriesWithoutNulls_cons_of_null, ih]
          rfl
        · rw [entriesWithoutNulls_cons_of_ne_null hnull, ih, List.map_cons,
            List.filter_cons_of_pos]
          simpa [← isNull_iff] using hnull
  rw [hmap, hmap, h]

/-- What a key holds after null entries were removed. -/
theorem find?_entriesWithoutNulls
    {es : List (String × Tree)}
    (hnodup : (Entries.keys es).Nodup)
    (key : String) :
    Entries.find? key (entriesWithoutNulls es) =
      (Entries.find? key es).bind fun t => if t.isNull then none else some t.withoutNulls := by
  induction es with
  | nil => rfl
  | cons e rest ih =>
      obtain ⟨k, t⟩ := e
      obtain ⟨hnew, hrest⟩ := List.nodup_cons.mp hnodup
      by_cases hnull : t = .null
      · rw [hnull, entriesWithoutNulls_cons_of_null, ih hrest, Entries.find?_cons]
        by_cases hkey : k = key
        · rw [if_pos hkey, Entries.find?_eq_none_iff.mpr (hkey ▸ hnew)]
          rfl
        · rw [if_neg hkey]
      · rw [entriesWithoutNulls_cons_of_ne_null hnull, Entries.find?_cons, Entries.find?_cons]
        by_cases hkey : k = key
        · rw [if_pos hkey, if_pos hkey]
          simp [isNull_iff, hnull]
        · rw [if_neg hkey, if_neg hkey, ih hrest]

/-- The keys that remain are those of the values that are not null. -/
theorem keys_entriesWithoutNulls
    (es : List (String × Tree)) :
    Entries.keys (entriesWithoutNulls es) = Entries.keys (es.filter fun e => !e.2.isNull) := by
  induction es with
  | nil => rfl
  | cons e rest ih =>
      obtain ⟨key, t⟩ := e
      by_cases hnull : t = .null
      · rw [hnull, entriesWithoutNulls_cons_of_null, ih]
        rfl
      · rw [entriesWithoutNulls_cons_of_ne_null hnull, List.filter_cons_of_pos]
        · exact congrArg (key :: ·) ih
        · simpa [← isNull_iff] using hnull

/-- The keys that remain keep their order. -/
theorem keys_entriesWithoutNulls_sublist
    (es : List (String × Tree)) :
    (Entries.keys (entriesWithoutNulls es)).Sublist (Entries.keys es) := by
  rw [keys_entriesWithoutNulls]
  exact List.filter_sublist.map _

/-- The entries that remain are those whose value is not null. -/
theorem mem_entriesWithoutNulls_iff
    {es : List (String × Tree)}
    {e : String × Tree} :
    e ∈ entriesWithoutNulls es ↔ ∃ t, (e.1, t) ∈ es ∧ t ≠ .null ∧ e.2 = t.withoutNulls := by
  rw [entriesWithoutNulls_eq_filterMap, List.mem_filterMap]
  constructor
  · rintro ⟨⟨key, t⟩, hmem, hkept⟩
    split at hkept
    · cases hkept
    · rename_i hpresent
      cases hkept
      exact ⟨t, hmem, fun hnull => hpresent (isNull_iff.mpr hnull), rfl⟩
  · rintro ⟨t, hmem, hpresent, heq⟩
    exact ⟨(e.1, t), hmem, by rw [if_neg (mt isNull_iff.mp hpresent), ← heq]⟩

theorem entriesWithoutNulls_ordered
    {es : Entries Tree}
    (h : Entries.Ordered es) :
    Entries.Ordered (entriesWithoutNulls es) :=
  List.pairwise_map.mp ((List.pairwise_map.mpr h).sublist (keys_entriesWithoutNulls_sublist es))

/-- A tree without null entries stays as it is. -/
theorem withoutNulls_of_freeOfNulls
    {t : Tree}
    (h : t.FreeOfNulls) :
    t.withoutNulls = t := by
  induction h with
  | list _ ih =>
      rw [withoutNulls, itemsWithoutNulls_eq_map, List.map_congr_left ih, List.map_id']
  | @object entries hpresent _ ih =>
      have hstays : ∀ es : List (String × Tree), (∀ e ∈ es, e ∈ entries) →
          entriesWithoutNulls es = es := by
        intro es hes
        induction es with
        | nil => rfl
        | cons e rest ihrest =>
            obtain ⟨he, hrest⟩ := List.forall_mem_cons.mp hes
            rw [entriesWithoutNulls_cons_of_ne_null (hpresent e he), ih e he, ihrest hrest]
      rw [withoutNulls, hstays entries fun _ he => he]
  | _ => rfl

mutual

/-- No null entry remains. -/
theorem freeOfNulls_withoutNulls
    (t : Tree) :
    t.withoutNulls.FreeOfNulls := by
  cases t with
  | null => exact .null
  | bool b => exact .bool b
  | number n => exact .number n
  | text s => exact .text s
  | list items => exact .list (freeOfNulls_itemsWithoutNulls items)
  | object entries =>
      refine .object (fun e he => ?_) (freeOfNulls_entriesWithoutNulls entries)
      obtain ⟨t, _, hpresent, heq⟩ := mem_entriesWithoutNulls_iff.mp he
      rw [heq]
      exact withoutNulls_ne_null hpresent

theorem freeOfNulls_itemsWithoutNulls
    (items : List Tree) :
    ∀ t ∈ itemsWithoutNulls items, t.FreeOfNulls := by
  cases items with
  | nil => exact fun t ht => absurd ht List.not_mem_nil
  | cons t rest =>
      exact List.forall_mem_cons.mpr
        ⟨freeOfNulls_withoutNulls t, freeOfNulls_itemsWithoutNulls rest⟩

theorem freeOfNulls_entriesWithoutNulls
    (entries : List (String × Tree)) :
    ∀ e ∈ entriesWithoutNulls entries, e.2.FreeOfNulls := by
  cases entries with
  | nil => exact fun e he => absurd he List.not_mem_nil
  | cons e rest =>
      obtain ⟨key, t⟩ := e
      by_cases hnull : t = .null
      · rw [hnull, entriesWithoutNulls_cons_of_null]
        exact freeOfNulls_entriesWithoutNulls rest
      · rw [entriesWithoutNulls_cons_of_ne_null hnull]
        exact List.forall_mem_cons.mpr
          ⟨freeOfNulls_withoutNulls t, freeOfNulls_entriesWithoutNulls rest⟩

end

/-- Removing null entries a second time changes nothing. -/
@[simp] theorem withoutNulls_withoutNulls
    (t : Tree) :
    t.withoutNulls.withoutNulls = t.withoutNulls :=
  withoutNulls_of_freeOfNulls (freeOfNulls_withoutNulls t)

end Tree
end Provision
