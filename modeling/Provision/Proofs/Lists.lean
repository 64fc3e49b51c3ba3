import Mathlib.Data.List.Forall2
import Mathlib.Data.List.Induction
import Mathlib.Data.List.Nodup
import Mathlib.Data.List.Perm.Basic
import Mathlib.Data.String.Basic

/-!
# Facts about lists

What is needed of lists in several places: values that are found by a name, the last value that there
is, and elements that are moved, paired or repeated.

**Results.**
* `find?_key_eq_some_iff`: what a name finds among values with different names.
* `perm_filterMap_find?`, `map_filterMap_find?_sublist`: values that are found name by name.
* `lastSome?_eq_some_iff`: the last value is that of the highest rank that has one.
* `exists_first_repeated`: the first name that repeats an earlier one.
-/

namespace Provision

/-! ## What is found by a name -/

section Found

variable {α : Type} {key : α → String} {order : List String} {as : List α}

/-- Among values with different names, a name finds the value that has it. -/
theorem find?_key_eq_some_iff
    (hkeys : (as.map key).Nodup)
    {name : String}
    {a : α} :
    (as.find? fun b => key b == name) = some a ↔ a ∈ as ∧ key a = name := by
  constructor
  · intro hfound
    exact ⟨List.mem_of_find?_eq_some hfound, by simpa using List.find?_some hfound⟩
  · rintro ⟨ha, rfl⟩
    cases hfound : as.find? fun b => key b == key a with
    | none =>
        have hnot := List.find?_eq_none.mp hfound a ha
        simp at hnot
    | some b =>
        have hkey : key b = key a := by simpa using List.find?_some hfound
        rw [List.inj_on_of_nodup_map hkeys (List.mem_of_find?_eq_some hfound) ha hkey]

/-- The values that are found name by name are all values whose names are among those. -/
theorem perm_filterMap_find?
    (hnodup : order.Nodup)
    (hkeys : (as.map key).Nodup)
    (hmem : ∀ a ∈ as, key a ∈ order) :
    as.Perm (order.filterMap fun id => as.find? fun a => key a == id) := by
  refine (List.perm_ext_iff_of_nodup (List.Nodup.of_map key hkeys) ?_).mpr fun a => ?_
  · refine List.Nodup.filterMap ?_ hnodup
    intro id id' a ha ha'
    have hid := ((find?_key_eq_some_iff hkeys).mp ha).2
    exact hid.symm.trans ((find?_key_eq_some_iff hkeys).mp ha').2
  · rw [List.mem_filterMap]
    constructor
    · intro ha
      exact ⟨key a, hmem a ha, (find?_key_eq_some_iff hkeys).mpr ⟨ha, rfl⟩⟩
    · rintro ⟨_, _, ha⟩
      exact List.mem_of_find?_eq_some ha

/-- The names of values that are found name by name are in the order of the names. -/
theorem map_filterMap_find?_sublist
    (order : List String) :
    ((order.filterMap fun id => as.find? fun a => key a == id).map key).Sublist order := by
  induction order with
  | nil => exact List.Sublist.refl _
  | cons id rest ih =>
      cases hfind : as.find? fun a => key a == id with
      | none =>
          simp only [List.filterMap_cons, hfind]
          exact ih.cons id
      | some a =>
          have hkey : key a = id := by simpa using List.find?_some hfind
          simp only [List.filterMap_cons, hfind, List.map_cons, hkey]
          exact ih.cons_cons id

end Found

/-- In an increasing list the first element with a property is the least one. -/
theorem le_of_find?_increasing
    {names : List String}
    {p : String → Bool}
    {d other : String}
    (hordered : names.Pairwise (· < ·))
    (hfind : names.find? p = some d)
    (hother : other ∈ names)
    (hp : p other = true) :
    d ≤ other := by
  obtain ⟨_, earlier, later, rfl, hearlier⟩ := List.find?_eq_some_iff_append.mp hfind
  rcases List.mem_append.mp hother with hmem | hmem
  · have := hearlier other hmem
    rw [hp] at this
    cases this
  · rcases List.mem_cons.mp hmem with rfl | hmem
    · exact String.le_refl other
    · have htail := (List.pairwise_append.mp hordered).2.1
      exact String.not_lt.mp (String.lt_asymm ((List.pairwise_cons.mp htail).1 other hmem))

/-! ## The last value counts -/

section LastSome

variable {γ δ : Type}

/-- The value of the last element that has one. -/
def lastSome? (value? : γ → Option δ) (elements : List γ) : Option δ :=
  elements.reverse.findSome? value?

@[simp] theorem lastSome?_nil
    (value? : γ → Option δ) :
    lastSome? value? [] = none := rfl

theorem lastSome?_append
    (value? : γ → Option δ)
    (first second : List γ) :
    lastSome? value? (first ++ second) = (lastSome? value? second).or (lastSome? value? first) := by
  rw [lastSome?, List.reverse_append, List.findSome?_append, lastSome?, lastSome?]

@[simp] theorem lastSome?_singleton
    (value? : γ → Option δ)
    (x : γ) :
    lastSome? value? [x] = value? x := by
  simp [lastSome?]

/-- The first element counts only if no later one has a value. -/
theorem lastSome?_cons
    (value? : γ → Option δ)
    (x : γ)
    (rest : List γ) :
    lastSome? value? (x :: rest) = (lastSome? value? rest).or (value? x) := by
  rw [← List.singleton_append, lastSome?_append, lastSome?_singleton]

theorem lastSome?_map
    {ε : Type}
    (value? : γ → Option δ)
    (f : ε → γ)
    (l : List ε) :
    lastSome? value? (l.map f) = lastSome? (fun x => value? (f x)) l := by
  rw [lastSome?, ← List.map_reverse, List.findSome?_map]
  rfl

theorem map_lastSome?
    {ε : Type}
    (f : δ → ε)
    (value? : γ → Option δ)
    (l : List γ) :
    (lastSome? value? l).map f = lastSome? (fun x => (value? x).map f) l :=
  List.map_findSome?

theorem lastSome?_filterMap
    {ε : Type}
    (value? : γ → Option δ)
    (f : ε → Option γ)
    (l : List ε) :
    lastSome? value? (l.filterMap f) = lastSome? (fun x => (f x).bind value?) l := by
  induction l with
  | nil => rfl
  | cons x rest ih =>
      rw [List.filterMap_cons, lastSome?_cons, ← ih]
      cases f x with
      | none => simp
      | some y => simp [lastSome?_cons]

theorem lastSome?_eq_none_iff
    {value? : γ → Option δ}
    {l : List γ} :
    lastSome? value? l = none ↔ ∀ x ∈ l, value? x = none := by
  rw [lastSome?, List.findSome?_eq_none_iff]
  simp only [List.mem_reverse]

/-- Among elements of increasing rank, the value is that of the one with the highest rank that has
one. -/
theorem lastSome?_eq_some_iff
    {value? : γ → Option δ}
    {rank : γ → Nat}
    {l : List γ}
    {y : δ}
    (h : l.Pairwise fun x z => rank x < rank z) :
    lastSome? value? l = some y ↔
      ∃ x ∈ l, value? x = some y ∧ ∀ z ∈ l, rank x < rank z → value? z = none := by
  induction l with
  | nil => simp
  | cons x rest ih =>
      obtain ⟨hfirst, hrest⟩ := List.pairwise_cons.mp h
      rw [lastSome?_cons, Option.or_eq_some_iff, ih hrest, lastSome?_eq_none_iff]
      constructor
      · rintro (⟨z, hz, hvalue, hlater⟩ | ⟨hlater, hvalue⟩)
        · refine ⟨z, List.mem_cons_of_mem x hz, hvalue, List.forall_mem_cons.mpr ⟨?_, hlater⟩⟩
          exact fun hrank => absurd hrank (Nat.lt_asymm (hfirst z hz))
        · refine ⟨x, List.mem_cons_self, hvalue, List.forall_mem_cons.mpr ⟨?_, ?_⟩⟩
          · exact fun hrank => absurd hrank (Nat.lt_irrefl _)
          · exact fun z hz _ => hlater z hz
      · rintro ⟨z, hz, hvalue, hall⟩
        have hlater : ∀ w ∈ rest, rank z < rank w → value? w = none :=
          (List.forall_mem_cons.mp hall).2
        rcases List.mem_cons.mp hz with rfl | hz
        · exact Or.inr ⟨fun w hw => hlater w hw (hfirst w hw), hvalue⟩
        · exact Or.inl ⟨z, hz, hvalue, hlater⟩

end LastSome

/-! ## Elements that are moved, paired or repeated -/

theorem filterMap_concat
    {α γ : Type}
    (f : α → Option γ)
    (as : List α)
    (a : α) :
    (as ++ [a]).filterMap f = as.filterMap f ++ (f a).toList := by
  rw [List.filterMap_append, List.filterMap_cons, List.filterMap_nil]
  cases f a <;> rfl

/-- What is moved to the end of the second list is still there. -/
theorem perm_moved_middle
    {a : String}
    {as rest bs cs : List String}
    (h : (a :: rest).Perm as) :
    (rest ++ (bs ++ [a]) ++ cs).Perm (as ++ bs ++ cs) := by
  refine List.perm_iff_count.mpr fun x => ?_
  have hcount := h.count_eq x
  simp only [List.count_append, List.count_cons, List.count_nil] at hcount ⊢
  omega

/-- What is moved to the end of the third list is still there. -/
theorem perm_moved_last
    {a : String}
    {as rest bs cs : List String}
    (h : (a :: rest).Perm as) :
    (rest ++ bs ++ (cs ++ [a])).Perm (as ++ bs ++ cs) := by
  refine List.perm_iff_count.mpr fun x => ?_
  have hcount := h.count_eq x
  simp only [List.count_append, List.count_cons, List.count_nil] at hcount ⊢
  omega

/-- Every element of paired lists has a partner. -/
theorem exists_partner
    {α β : Type}
    {R : α → β → Prop}
    {as : List α}
    {bs : List β}
    (h : List.Forall₂ R as bs)
    {a : α}
    (ha : a ∈ as) :
    ∃ b ∈ bs, R a b := by
  induction h with
  | nil => cases ha
  | cons hab _ ih =>
      rcases List.mem_cons.mp ha with rfl | harest
      · exact ⟨_, List.mem_cons_self, hab⟩
      · obtain ⟨b, hb, hR⟩ := ih harest
        exact ⟨b, List.mem_cons_of_mem _ hb, hR⟩

/-- Of names that are not distinct one is the first that repeats an earlier one. -/
theorem exists_first_repeated
    {α : Type}
    {names : List α}
    (f : α → String)
    (h : ¬ (names.map f).Nodup) :
    ∃ before a after, names = before ++ a :: after ∧ (before.map f).Nodup ∧
      f a ∈ before.map f := by
  induction names using List.reverseRecOn with
  | nil => exact absurd List.nodup_nil h
  | append_singleton earlier a ih =>
      by_cases hearlier : (earlier.map f).Nodup
      · refine ⟨earlier, a, [], rfl, hearlier, ?_⟩
        by_contra hfresh
        refine h ?_
        rw [List.map_append, List.map_singleton]
        exact hearlier.append (List.nodup_singleton _) (List.disjoint_singleton.mpr hfresh)
      · obtain ⟨before, b, after, rfl, hbefore, hrepeated⟩ := ih hearlier
        exact ⟨before, b, after ++ [a], by simp, hbefore, hrepeated⟩

end Provision
