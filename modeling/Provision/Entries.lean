/-!
# Entries in key order

Input:
* pairs of a key and a value.

Algorithm:
* a list of entries is kept in strictly increasing order of its keys, by code points;
* `insert` puts an entry at its place and replaces the value of an equal key.

Results:
* what is looked up after an insertion (`find?_insert_self`, `find?_insert_of_ne`), and that
  insertion keeps the order (`Ordered.insert`).
-/

namespace Provision

abbrev Entries (α : Type) := List (String × α)

namespace Entries

variable {α β : Type}

def find? (key : String) : Entries α → Option α
  | [] => none
  | (k, v) :: rest => if k = key then some v else find? key rest

/-- Puts an entry at its place in the key order; the value of an equal key is replaced. -/
def insert (key : String) (value : α) : Entries α → Entries α
  | [] => [(key, value)]
  | (k, v) :: rest =>
    if key < k then (key, value) :: (k, v) :: rest
    else if key = k then (key, value) :: rest
    else (k, v) :: insert key value rest

/-- The entries inserted one after the other, so that the last of equal keys counts. -/
def insertAll (base : Entries α) (added : List (String × α)) : Entries α :=
  added.foldl (fun acc e => insert e.1 e.2 acc) base

/-- Entries in key order from pairs in any order. -/
def ofList (pairs : List (String × α)) : Entries α :=
  insertAll [] pairs

def keys (es : Entries α) : List String :=
  es.map (·.1)

def values (es : Entries α) : List α :=
  es.map (·.2)

def hasKey (key : String) (es : Entries α) : Bool :=
  (find? key es).isSome

/-- The entries with a function applied to each value. -/
def mapValues (f : α → β) (es : Entries α) : Entries β :=
  es.map fun e => (e.1, f e.2)

def Ordered (es : Entries α) : Prop :=
  es.Pairwise fun a b => a.1 < b.1

@[simp] theorem find?_nil
    (key : String) :
    find? key ([] : Entries α) = none := rfl

theorem find?_cons
    (key k : String)
    (v : α)
    (rest : Entries α) :
    find? key ((k, v) :: rest) = if k = key then some v else find? key rest := rfl

/-- An inserted value is found under its key. -/
@[simp] theorem find?_insert_self
    (key : String)
    (value : α)
    (es : Entries α) :
    find? key (insert key value es) = some value := by
  induction es with
  | nil => simp [insert, find?_cons]
  | cons e rest ih =>
      obtain ⟨k, v⟩ := e
      simp only [insert]
      split
      · simp [find?_cons]
      · split
        · simp [find?_cons]
        · rename_i hne
          simp [find?_cons, ih, Ne.symm hne]

/-- Insertion leaves the other keys as they are. -/
theorem find?_insert_of_ne
    {key other : String}
    (value : α)
    (es : Entries α)
    (h : other ≠ key) :
    find? other (insert key value es) = find? other es := by
  induction es with
  | nil => simp [insert, find?_cons, Ne.symm h]
  | cons e rest ih =>
      obtain ⟨k, v⟩ := e
      simp only [insert]
      split
      · simp [find?_cons, Ne.symm h]
      · split
        · rename_i heq
          subst heq
          simp [find?_cons, Ne.symm h]
        · simp [find?_cons, ih]

/-- Every key after an insertion is the inserted one or was there before. -/
theorem mem_keys_insert
    {key : String}
    {value : α}
    {es : Entries α}
    {e : String × α}
    (h : e ∈ insert key value es) :
    e = (key, value) ∨ e ∈ es := by
  induction es with
  | nil => simpa [insert] using h
  | cons e' rest ih =>
      obtain ⟨k, v⟩ := e'
      simp only [insert] at h
      split at h
      · simpa using h
      · split at h
        · rcases List.mem_cons.mp h with h | h
          · exact Or.inl h
          · exact Or.inr (List.mem_cons_of_mem _ h)
        · rcases List.mem_cons.mp h with h | h
          · exact Or.inr (h ▸ List.mem_cons_self)
          · rcases ih h with h | h
            · exact Or.inl h
            · exact Or.inr (List.mem_cons_of_mem _ h)

/-- Insertion keeps the order of the keys. -/
theorem Ordered.insert
    {es : Entries α}
    (hes : Ordered es)
    (key : String)
    (value : α) :
    Ordered (Entries.insert key value es) := by
  induction es with
  | nil => exact List.pairwise_singleton _ _
  | cons e rest ih =>
      obtain ⟨k, v⟩ := e
      have hrest : Ordered rest := (List.pairwise_cons.mp hes).2
      have hk := (List.pairwise_cons.mp hes).1
      simp only [Entries.insert]
      split
      · rename_i hlt
        refine List.pairwise_cons.mpr ⟨?_, hes⟩
        intro x hx
        rcases List.mem_cons.mp hx with hx | hx
        · subst hx
          exact hlt
        · exact String.lt_trans hlt (hk x hx)
      · split
        · rename_i heq
          subst heq
          exact List.pairwise_cons.mpr ⟨hk, hrest⟩
        · rename_i hnlt hne
          refine List.pairwise_cons.mpr ⟨?_, ih hrest⟩
          intro x hx
          rcases mem_keys_insert hx with hx | hx
          · subst hx
            by_cases hlt : k < key
            · exact hlt
            · exact absurd
                (String.le_antisymm (String.not_lt.mp hlt) (String.not_lt.mp hnlt)) hne
          · exact hk x hx

end Entries
end Provision
