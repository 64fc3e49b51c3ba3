import Provision.Resource

/-!
# Values put into an increasing list

**Results.**
* `Sorted.ofList_pairwise`: values of a list in increasing order are increasing.
* `Sorted.ofList_of_pairwise`: increasing values stay as they are.
* `Sorted.ofList_sameValues`: values are put in order without loss.
* `Sorted.mem_texts_iff`, `Sorted.texts_pairwise`, `Sorted.texts_perm`: so are texts, and they
  increase.
-/

namespace Provision
namespace Sorted

variable {α : Type} {before : α → α → Bool}

theorem mem_insert
    {a b : α}
    {as : List α}
    (h : b ∈ insert before a as) :
    b = a ∨ b ∈ as := by
  induction as with
  | nil => exact Or.inl (List.mem_singleton.mp h)
  | cons c rest ih =>
      simp only [insert] at h
      split at h
      · exact List.mem_cons.mp h
      · split at h
        · rcases List.mem_cons.mp h with rfl | hrest
          · exact Or.inr List.mem_cons_self
          · exact (ih hrest).imp_right (List.mem_cons_of_mem c)
        · exact Or.inr h

theorem mem_ofList
    {as : List α}
    {a : α}
    (h : a ∈ ofList before as) :
    a ∈ as := by
  have hfold : ∀ base : List α,
      a ∈ as.foldl (fun acc x => insert before x acc) base → a ∈ base ∨ a ∈ as := by
    clear h
    induction as with
    | nil => exact fun base hbase => Or.inl hbase
    | cons b rest ih =>
        intro base hbase
        rcases ih (insert before b base) hbase with hinsert | hrest
        · rcases mem_insert hinsert with rfl | hold
          · exact Or.inr List.mem_cons_self
          · exact Or.inl hold
        · exact Or.inr (List.mem_cons_of_mem b hrest)
  exact (hfold [] h).resolve_left List.not_mem_nil

theorem insert_pairwise
    (htrans : ∀ a b c, before a b = true → before b c = true → before a c = true)
    (a : α)
    {as : List α}
    (h : as.Pairwise fun a b => before a b = true) :
    (insert before a as).Pairwise fun a b => before a b = true := by
  induction as with
  | nil => exact List.pairwise_singleton _ _
  | cons b rest ih =>
      obtain ⟨hb, hrest⟩ := List.pairwise_cons.mp h
      simp only [insert]
      split
      · rename_i hab
        refine List.pairwise_cons.mpr ⟨fun x hx => ?_, h⟩
        rcases List.mem_cons.mp hx with rfl | hxrest
        · exact hab
        · exact htrans a b x hab (hb x hxrest)
      · split
        · rename_i hba
          refine List.pairwise_cons.mpr ⟨fun x hx => ?_, ih hrest⟩
          rcases mem_insert hx with rfl | hxrest
          · exact hba
          · exact hb x hxrest
        · exact h

/-- Values put in order are increasing. -/
theorem ofList_pairwise
    (htrans : ∀ a b c, before a b = true → before b c = true → before a c = true)
    (as : List α) :
    (ofList before as).Pairwise fun a b => before a b = true := by
  have hfold : ∀ base : List α, (base.Pairwise fun a b => before a b = true) →
      (as.foldl (fun acc x => insert before x acc) base).Pairwise fun a b => before a b = true := by
    induction as with
    | nil => exact fun base hbase => hbase
    | cons a rest ih => exact fun base hbase => ih _ (insert_pairwise htrans a hbase)
  exact hfold [] List.Pairwise.nil

/-- A value after all others goes to the end. -/
theorem insert_of_last
    (hasymm : ∀ a b, before a b = true → before b a = false)
    {a : α}
    {as : List α}
    (h : ∀ b ∈ as, before b a = true) :
    insert before a as = as ++ [a] := by
  induction as with
  | nil => rfl
  | cons b rest ih =>
      obtain ⟨hb, hrest⟩ := List.forall_mem_cons.mp h
      rw [insert, hasymm b a hb, if_neg Bool.false_ne_true, if_pos hb, ih hrest, List.cons_append]

/-- Increasing values stay as they are. -/
theorem ofList_of_pairwise
    (hasymm : ∀ a b, before a b = true → before b a = false)
    {as : List α}
    (h : as.Pairwise fun a b => before a b = true) :
    ofList before as = as := by
  have hfold : ∀ base added : List α,
      ((base ++ added).Pairwise fun a b => before a b = true) →
        added.foldl (fun acc x => insert before x acc) base = base ++ added := by
    intro base added hsorted
    induction added generalizing base with
    | nil => exact (List.append_nil base).symm
    | cons a rest ih =>
        have hlast : ∀ b ∈ base, before b a = true := fun b hb =>
          (List.pairwise_append.mp hsorted).2.2 b hb a List.mem_cons_self
        rw [List.foldl_cons, insert_of_last hasymm hlast]
        have hnext : ((base ++ [a]) ++ rest).Pairwise fun a b => before a b = true := by
          simpa using hsorted
        simpa using ih (base ++ [a]) hnext
  exact hfold [] as h

theorem mem_insert_of_mem
    {a b : α}
    {as : List α}
    (h : b ∈ as) :
    b ∈ insert before a as := by
  induction as with
  | nil => exact absurd h List.not_mem_nil
  | cons c rest ih =>
      simp only [insert]
      split
      · exact List.mem_cons_of_mem a h
      · split
        · rcases List.mem_cons.mp h with rfl | hrest
          · exact List.mem_cons_self
          · exact List.mem_cons_of_mem c (ih hrest)
        · exact h

/-- A value is in the list after it was put there, or one that the order does not tell apart from
it. -/
theorem exists_mem_insert
    (a : α)
    (as : List α) :
    ∃ b ∈ insert before a as, b = a ∨ before a b = false ∧ before b a = false := by
  induction as with
  | nil => exact ⟨a, List.mem_singleton_self a, .inl rfl⟩
  | cons c rest ih =>
      simp only [insert]
      split
      · exact ⟨a, List.mem_cons_self, .inl rfl⟩
      · rename_i hac
        split
        · obtain ⟨b, hb, hsame⟩ := ih
          exact ⟨b, List.mem_cons_of_mem c hb, hsame⟩
        · rename_i hca
          exact ⟨c, List.mem_cons_self, .inr ⟨Bool.eq_false_iff.mpr hac, Bool.eq_false_iff.mpr hca⟩⟩

/-- Two lists have the same values, up to values that the order does not tell apart: the second one
has no others than the first one, and leaves none out. -/
def SameValues (before : α → α → Bool) (as bs : List α) : Prop :=
  (∀ b ∈ bs, b ∈ as) ∧ ∀ a ∈ as, ∃ b ∈ bs, b = a ∨ before a b = false ∧ before b a = false

/-- Values are put in order without loss. -/
theorem ofList_sameValues
    (as : List α) :
    SameValues before as (ofList before as) := by
  have hfold : ∀ (a : α) (base : List α),
      a ∈ as ∨ (∃ b ∈ base, b = a ∨ before a b = false ∧ before b a = false) →
        ∃ b ∈ as.foldl (fun acc x => insert before x acc) base,
          b = a ∨ before a b = false ∧ before b a = false := by
    intro a
    induction as with
    | nil => exact fun base h => h.resolve_left List.not_mem_nil
    | cons x rest ih =>
        rintro base (hmem | ⟨b, hb, hsame⟩)
        · rcases List.mem_cons.mp hmem with rfl | hrest
          · exact ih _ (.inr (exists_mem_insert a base))
          · exact ih _ (.inl hrest)
        · exact ih _ (.inr ⟨b, mem_insert_of_mem hb, hsame⟩)
  exact ⟨fun _ => mem_ofList, fun a ha => hfold a [] (.inl ha)⟩

/-- Lists of texts with the same values have the same texts. -/
theorem SameValues.mem_iff
    {xs ys : List String}
    (h : SameValues (fun a b => a < b) xs ys)
    {x : String} :
    x ∈ ys ↔ x ∈ xs := by
  refine ⟨h.1 x, fun hx => ?_⟩
  obtain ⟨y, hy, rfl | ⟨hxy, hyx⟩⟩ := h.2 x hx
  · exact hy
  · have heq : x = y := String.le_antisymm (String.not_lt.mp (of_decide_eq_false hyx))
      (String.not_lt.mp (of_decide_eq_false hxy))
    rwa [heq]

theorem mem_texts_iff
    {xs : List String}
    {x : String} :
    x ∈ texts xs ↔ x ∈ xs :=
  (ofList_sameValues xs).mem_iff

/-- Texts that are put in order increase. -/
theorem texts_pairwise
    (xs : List String) :
    (texts xs).Pairwise (· < ·) := by
  have htrans : ∀ a b c : String, decide (a < b) = true → decide (b < c) = true →
      decide (a < c) = true := by
    intro a b c hab hbc
    exact decide_eq_true (String.lt_trans (of_decide_eq_true hab) (of_decide_eq_true hbc))
  exact (ofList_pairwise htrans xs).imp of_decide_eq_true

/-- Distinct texts are put in order as often as they are given. -/
theorem texts_perm
    {xs : List String}
    (h : xs.Nodup) :
    (texts xs).Perm xs := by
  have hnodup : (texts xs).Nodup := by
    refine (texts_pairwise xs).imp ?_
    rintro a _ hlt rfl
    exact String.lt_irrefl a hlt
  exact (List.perm_ext_iff_of_nodup hnodup h).mpr fun _ => mem_texts_iff

end Sorted

/-- A unit without dependencies gets those that it is given. -/
theorem Resource.mem_dependsOn_withDependencies
    {r : Resource}
    (h : r.dependsOn = [])
    {ids : List String}
    {d : String} :
    d ∈ (r.withDependencies ids).dependsOn ↔ d ∈ ids := by
  rw [withDependencies, h, List.nil_append, Sorted.mem_texts_iff]

end Provision
