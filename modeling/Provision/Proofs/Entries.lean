import Provision.Entries
import Provision.Proofs.Lists

/-!
# Entries put in one after the other

**Results.**
* `Entries.find?_insertAll_of_last`, `Entries.find?_insertAll_of_not_mem`: what is looked up after
  entries were put in.
* `Entries.find?_ofList_of_mem`: entries with distinct keys are all found.
* `Entries.ofList_mapValues`: values can be changed before or after entries are put in order.
* `Entries.ofList_of_ordered`: entries in key order stay as they are.
* `Entries.ofList_perm`: entries with distinct keys are put in order without loss.
* `Entries.find?_insertAll`: the last value that was put in under a key counts.
* `Entries.insertAll_perm`: entries with distinct keys can be put in in any order.
* `Entries.mem_ofList_iff`: the entries that are left are the last ones under their keys.
-/

namespace Provision
namespace Entries

variable {α β : Type}

theorem insertAll_cons
    (base : Entries α)
    (e : String × α)
    (added : List (String × α)) :
    insertAll base (e :: added) = insertAll (insert e.1 e.2 base) added := rfl

theorem insertAll_append
    (base : Entries α)
    (first second : List (String × α)) :
    insertAll base (first ++ second) = insertAll (insertAll base first) second :=
  List.foldl_append

/-- Other keys that are put in leave a value as it is. -/
theorem find?_insertAll_of_not_mem
    {key : String}
    {added : List (String × α)}
    (h : ∀ e ∈ added, e.1 ≠ key)
    (base : Entries α) :
    find? key (insertAll base added) = find? key base := by
  induction added generalizing base with
  | nil => rfl
  | cons e rest ih =>
      obtain ⟨hne, hrest⟩ := List.forall_mem_cons.mp h
      rw [insertAll_cons, ih hrest, find?_insert_of_ne e.2 base hne.symm]

/-- A value that is put in last under its key is found. -/
theorem find?_insertAll_of_last
    {key : String}
    {before after : List (String × α)}
    (h : ∀ e ∈ after, e.1 ≠ key)
    (base : Entries α)
    (value : α) :
    find? key (insertAll base (before ++ (key, value) :: after)) = some value := by
  rw [insertAll_append, insertAll_cons, find?_insertAll_of_not_mem h, find?_insert_self]

/-- The keys after an insertion. -/
theorem mem_keys_insert_iff
    {key other : String}
    {value : α}
    {es : Entries α} :
    other ∈ keys (insert key value es) ↔ other = key ∨ other ∈ keys es := by
  induction es with
  | nil => simp [insert, keys]
  | cons e rest ih =>
      obtain ⟨k, v⟩ := e
      simp only [insert]
      split
      · simp [keys]
      · split
        · rename_i heq
          subst heq
          simp [keys]
        · simp only [keys, List.map_cons, List.mem_cons] at ih ⊢
          rw [ih]
          exact or_left_comm

theorem mem_keys_insertAll_iff
    {other : String}
    {base : Entries α}
    {added : List (String × α)} :
    other ∈ keys (insertAll base added) ↔ other ∈ keys base ∨ other ∈ added.map (·.1) := by
  induction added generalizing base with
  | nil => simp [insertAll]
  | cons e rest ih =>
      rw [insertAll_cons, ih, mem_keys_insert_iff, List.map_cons, List.mem_cons]
      tauto

theorem mem_keys_ofList_iff
    {key : String}
    {pairs : List (String × α)} :
    key ∈ keys (ofList pairs) ↔ key ∈ pairs.map (·.1) := by
  rw [ofList, mem_keys_insertAll_iff]
  simp [keys]

theorem find?_eq_none_iff
    {key : String}
    {es : Entries α} :
    find? key es = none ↔ key ∉ keys es := by
  induction es with
  | nil => simp [keys]
  | cons e rest ih =>
      obtain ⟨k, v⟩ := e
      rw [find?_cons]
      by_cases h : k = key
      · simp [h, keys]
      · rw [if_neg h, ih]
        simp [keys, Ne.symm h]

theorem mem_of_find?_eq_some
    {key : String}
    {value : α}
    {es : Entries α}
    (h : find? key es = some value) :
    (key, value) ∈ es := by
  induction es with
  | nil => cases h
  | cons e rest ih =>
      obtain ⟨k, v⟩ := e
      rw [find?_cons] at h
      split at h
      · rename_i heq
        cases h
        rw [heq]
        exact List.mem_cons_self
      · exact List.mem_cons_of_mem _ (ih h)

instance decideOrdered (es : Entries α) : Decidable es.Ordered :=
  inferInstanceAs (Decidable (List.Pairwise (fun a b => a.1 < b.1) es))

@[simp] theorem ordered_nil :
    Ordered ([] : Entries α) :=
  List.Pairwise.nil

/-- Keys in order are pairwise distinct. -/
theorem Ordered.keys_nodup
    {es : Entries α}
    (h : Ordered es) :
    (keys es).Nodup := by
  refine List.pairwise_map.mpr (h.imp fun hlt heq => ?_)
  rw [heq] at hlt
  exact String.lt_irrefl _ hlt

theorem Ordered.insertAll
    {base : Entries α}
    (h : Ordered base)
    (added : List (String × α)) :
    Ordered (Entries.insertAll base added) := by
  induction added generalizing base with
  | nil => exact h
  | cons e rest ih => exact ih (h.insert e.1 e.2)

theorem ofList_ordered
    (pairs : List (String × α)) :
    Ordered (ofList pairs) :=
  Ordered.insertAll List.Pairwise.nil pairs

/-- Values can be changed before or after entries are put in. -/
theorem insertAll_mapValues
    (f : α → β)
    (base : Entries α)
    (added : List (String × α)) :
    insertAll (mapValues f base) (added.map fun e => (e.1, f e.2)) =
      mapValues f (insertAll base added) := by
  have hinsert : ∀ (key : String) (value : α) (es : Entries α),
      insert key (f value) (mapValues f es) = mapValues f (insert key value es) := by
    intro key value es
    induction es with
    | nil => rfl
    | cons e rest ih =>
        obtain ⟨k, v⟩ := e
        simp only [mapValues, List.map_cons, insert] at ih ⊢
        split
        · rfl
        · split
          · rfl
          · rw [ih, List.map_cons]
  induction added generalizing base with
  | nil => rfl
  | cons e rest ih => rw [List.map_cons, insertAll_cons, insertAll_cons, hinsert, ih]

theorem ofList_mapValues
    (f : α → β)
    (pairs : List (String × α)) :
    ofList (pairs.map fun e => (e.1, f e.2)) = mapValues f (ofList pairs) :=
  insertAll_mapValues f [] pairs

/-- Entries with distinct keys are all found. -/
theorem find?_ofList_of_mem
    {key : String}
    {value : α}
    {pairs : List (String × α)}
    (hnodup : (keys pairs).Nodup)
    (h : (key, value) ∈ pairs) :
    find? key (ofList pairs) = some value := by
  obtain ⟨before, after, rfl⟩ := List.append_of_mem h
  refine find?_insertAll_of_last (fun e he heq => ?_) [] value
  simp only [keys, List.map_append, List.map_cons] at hnodup
  have hnew := (List.nodup_cons.mp (List.nodup_append.mp hnodup).2.1).1
  exact hnew (heq ▸ List.mem_map_of_mem he)

theorem mem_insertAll
    {base added : List (String × α)}
    {e : String × α}
    (h : e ∈ insertAll base added) :
    e ∈ base ∨ e ∈ added := by
  induction added generalizing base with
  | nil => exact Or.inl h
  | cons first rest ih =>
      rcases ih h with hbase | hrest
      · rcases mem_keys_insert hbase with rfl | hold
        · exact Or.inr List.mem_cons_self
        · exact Or.inl hold
      · exact Or.inr (List.mem_cons_of_mem _ hrest)

/-- An entry with a greater key than all others goes to the end. -/
theorem insert_of_last
    {key : String}
    {es : Entries α}
    (h : ∀ e ∈ es, e.1 < key)
    (value : α) :
    insert key value es = es ++ [(key, value)] := by
  induction es with
  | nil => rfl
  | cons e rest ih =>
      obtain ⟨k, v⟩ := e
      obtain ⟨hlt, hrest⟩ := List.forall_mem_cons.mp h
      have hnot : ¬ key < k := String.lt_asymm hlt
      have hne : ¬ key = k := fun heq => String.lt_irrefl k (heq ▸ hlt)
      rw [insert, if_neg hnot, if_neg hne, ih hrest, List.cons_append]

/-- Entries in key order stay as they are. -/
theorem ofList_of_ordered
    {es : Entries α}
    (h : Ordered es) :
    ofList es = es := by
  have key : ∀ base added : Entries α, Ordered (base ++ added) →
      insertAll base added = base ++ added := by
    intro base added hordered
    induction added generalizing base with
    | nil => simp [insertAll]
    | cons e rest ih =>
        have hlast : ∀ x ∈ base, x.1 < e.1 := fun x hx =>
          (List.pairwise_append.mp hordered).2.2 x hx e List.mem_cons_self
        rw [insertAll_cons, insert_of_last hlast]
        have hnext : Ordered (base ++ [e] ++ rest) := by simpa using hordered
        simpa using ih (base ++ [e]) hnext
  simpa [ofList] using key [] es h

theorem insert_perm
    {key : String}
    {es : Entries α}
    (h : key ∉ keys es)
    (value : α) :
    (insert key value es).Perm ((key, value) :: es) := by
  induction es with
  | nil => exact List.Perm.refl _
  | cons e rest ih =>
      obtain ⟨k, v⟩ := e
      obtain ⟨hne, hrest⟩ := not_or.mp (mt List.mem_cons.mpr h)
      have hne : ¬ key = k := hne
      rw [insert, if_neg hne]
      split
      · exact List.Perm.refl _
      · exact ((ih hrest).cons (k, v)).trans (List.Perm.swap (key, value) (k, v) rest)

/-- Entries with distinct keys are put in without loss. -/
theorem insertAll_perm_append
    {base added : List (String × α)}
    (h : (keys (base ++ added)).Nodup) :
    (insertAll base added).Perm (base ++ added) := by
  induction added generalizing base with
  | nil => rw [List.append_nil]; exact List.Perm.refl _
  | cons e rest ih =>
      have hmiddle : (base ++ e :: rest).Perm (e :: base ++ rest) := List.perm_middle
      have hnodup : (keys (e :: base ++ rest)).Nodup := (hmiddle.map _).nodup_iff.mp h
      have hnew : e.1 ∉ keys base := by
        intro hmem
        refine (List.nodup_cons.mp hnodup).1 ?_
        rw [List.append_eq, List.map_append]
        exact List.mem_append_left _ hmem
      have hinsert := insert_perm hnew e.2
      have hnext : (keys (insert e.1 e.2 base ++ rest)).Nodup :=
        ((hinsert.append_right rest).map _).nodup_iff.mpr hnodup
      exact (ih hnext).trans ((hinsert.append_right rest).trans hmiddle.symm)

theorem ofList_perm
    {pairs : List (String × α)}
    (h : (keys pairs).Nodup) :
    (ofList pairs).Perm pairs :=
  insertAll_perm_append h

/-- Of entries with distinct keys those are found that there are. -/
theorem find?_eq_some_iff
    {key : String}
    {value : α}
    {es : Entries α}
    (h : (keys es).Nodup) :
    find? key es = some value ↔ (key, value) ∈ es := by
  refine ⟨mem_of_find?_eq_some, fun hmem => ?_⟩
  induction es with
  | nil => exact absurd hmem List.not_mem_nil
  | cons e rest ih =>
      obtain ⟨k, v⟩ := e
      obtain ⟨hnew, hrest⟩ := List.nodup_cons.mp h
      rw [find?_cons]
      rcases List.mem_cons.mp hmem with heq | hlater
      · cases heq
        exact if_pos rfl
      · have hne : k ≠ key := fun heq => hnew (List.mem_map.mpr ⟨_, hlater, heq.symm⟩)
        rw [if_neg hne]
        exact ih hrest hlater

/-- Entries in key order are all found. -/
theorem Ordered.find?_of_mem
    {es : Entries α}
    (h : Ordered es)
    {key : String}
    {value : α}
    (hmem : (key, value) ∈ es) :
    find? key es = some value := by
  have hfound := find?_ofList_of_mem h.keys_nodup hmem
  rwa [ofList_of_ordered h] at hfound

theorem insert_comm_of_lt
    {key key' : String}
    (hlt : key < key')
    (value value' : α)
    (es : Entries α) :
    insert key value (insert key' value' es) = insert key' value' (insert key value es) := by
  have hnot : ¬ key' < key := String.lt_asymm hlt
  have hne : ¬ key' = key := fun heq => String.lt_irrefl key (heq ▸ hlt)
  induction es with
  | nil => simp [insert, hlt, hnot, hne]
  | cons e rest ih =>
      obtain ⟨k, v⟩ := e
      by_cases hbefore : key' < k
      · simp [insert, hbefore, String.lt_trans hlt hbefore, hlt, hnot, hne]
      · by_cases hhere : key' = k
        · subst hhere
          simp [insert, hlt, hnot, hne]
        · by_cases hbefore' : key < k
          · simp [insert, hbefore, hhere, hbefore', hnot, hne]
          · by_cases hhere' : key = k
            · subst hhere'
              simp [insert, hnot, hne]
            · simp [insert, hbefore, hhere, hbefore', hhere', ih]

/-- Entries with different keys can be put in in either order. -/
theorem insert_comm
    {key key' : String}
    (hne : key ≠ key')
    (value value' : α)
    (es : Entries α) :
    insert key value (insert key' value' es) = insert key' value' (insert key value es) := by
  rcases lt_or_gt_of_ne hne with hlt | hlt
  · exact insert_comm_of_lt hlt value value' es
  · exact (insert_comm_of_lt hlt value' value es).symm

/-- Entries with distinct keys can be put in in any order. -/
theorem insertAll_perm
    {added added' : List (String × α)}
    (hperm : added.Perm added')
    (hnodup : (keys added).Nodup)
    (base : Entries α) :
    insertAll base added = insertAll base added' := by
  refine hperm.foldl_eq' (fun e he e' he' es => ?_) base
  by_cases heq : e = e'
  · rw [heq]
  · refine insert_comm (fun hkey => heq ?_) e'.2 e.2 es
    exact (List.inj_on_of_nodup_map hnodup he' he hkey).symm

/-! ## The last value counts -/

/-- The last of the values under a key. -/
def last? (key : String) (pairs : List (String × α)) : Option α :=
  lastSome? (fun e => if e.1 = key then some e.2 else none) pairs

theorem last?_append
    (key : String)
    (first second : List (String × α)) :
    last? key (first ++ second) = (last? key second).or (last? key first) :=
  lastSome?_append _ first second

theorem last?_cons
    (key : String)
    (e : String × α)
    (rest : List (String × α)) :
    last? key (e :: rest) = (last? key rest).or (if e.1 = key then some e.2 else none) :=
  lastSome?_cons _ e rest

/-- What is looked up after entries were put in is the last value that was put in under the key, or
else the one from before. -/
theorem find?_insertAll
    (key : String)
    (base : Entries α)
    (added : List (String × α)) :
    find? key (insertAll base added) = (last? key added).or (find? key base) := by
  induction added generalizing base with
  | nil => rfl
  | cons e rest ih =>
      rw [insertAll_cons, ih, last?_cons, Option.or_assoc]
      by_cases h : e.1 = key
      · rw [← h, find?_insert_self, if_pos rfl, Option.some_or]
      · rw [find?_insert_of_ne e.2 base (Ne.symm h), if_neg h, Option.none_or]

theorem find?_ofList
    (key : String)
    (pairs : List (String × α)) :
    find? key (ofList pairs) = last? key pairs := by
  rw [ofList, find?_insertAll, find?_nil, Option.or_none]

/-- The entries that were put in last under their keys are left. -/
theorem mem_ofList_iff
    {key : String}
    {value : α}
    {pairs : List (String × α)} :
    (key, value) ∈ ofList pairs ↔ last? key pairs = some value := by
  rw [← find?_ofList, find?_eq_some_iff (ofList_ordered pairs).keys_nodup]

/-- Of entries with distinct keys each one is the last under its key. -/
theorem last?_eq_some_iff
    {key : String}
    {value : α}
    {pairs : List (String × α)}
    (h : (keys pairs).Nodup) :
    last? key pairs = some value ↔ (key, value) ∈ pairs := by
  rw [← mem_ofList_iff]
  exact (ofList_perm h).mem_iff

/-- In key order no key comes again. -/
theorem Ordered.last?_eq
    {es : Entries α}
    (h : Ordered es)
    (key : String) :
    last? key es = find? key es := by
  rw [← find?_ofList, ofList_of_ordered h]

end Entries
end Provision
