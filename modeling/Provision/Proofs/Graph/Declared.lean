import Provision.Proofs.Graph.Order
import Provision.Proofs.Graph.Refusal

/-!
# Units declared after their dependencies

Units that are written down in an order in which they can be built stay in that order.  Two facts
carry this:

* a dependency leads to an earlier place, so no chain of dependencies comes back to where it began;
* once the units before a place are placed, the unit at that place is the first declared one that
  can be placed next.

**Results.**
* `DeclaredAfter.buildable`: well declared units that come after their dependencies are accepted.
* `Graph.order_of_declaredAfter`: they are built in the order in which they are declared.
-/

namespace Provision

open Relation

/-- Every dependency of a unit is known before, or it is the name of a unit declared earlier. -/
def DeclaredAfter (known : List String) (units : List Resource) : Prop :=
  ∀ before u after, units = before ++ u :: after →
    ∀ d ∈ u.dependsOn, d ∈ known ++ before.map (·.id)

theorem declaredAfter_cons_iff
    {known : List String}
    {u : Resource}
    {units : List Resource} :
    DeclaredAfter known (u :: units) ↔
      (∀ d ∈ u.dependsOn, d ∈ known) ∧ DeclaredAfter (known ++ [u.id]) units := by
  constructor
  · intro h
    refine ⟨?_, ?_⟩
    · intro d hd
      simpa using h [] u units rfl d hd
    · rintro before v after rfl d hd
      simpa using h (u :: before) v after rfl d hd
  · rintro ⟨hfirst, hrest⟩ before v after hsplit d hd
    cases before with
    | nil =>
        cases hsplit
        simpa using hfirst d hd
    | cons first before =>
        cases hsplit
        simpa using hrest before v after rfl d hd

/-- A name that is not repeated is not declared earlier. -/
theorem not_mem_of_nodup_split
    {before after : List Resource}
    {u : Resource}
    (h : ((before ++ u :: after).map (·.id)).Nodup) :
    u.id ∉ before.map (·.id) := by
  rw [List.map_append, List.map_cons] at h
  exact fun hmem => (List.nodup_append.mp h).2.2 _ hmem _ List.mem_cons_self rfl

namespace DeclaredAfter

variable {known : List String} {units : List Resource}

/-- Units that depend on known names only. -/
theorem of_known
    (h : ∀ u ∈ units, ∀ d ∈ u.dependsOn, d ∈ known) :
    DeclaredAfter known units := by
  rintro before u after rfl d hd
  exact List.mem_append_left _ (h u (by simp) d hd)

theorem append
    {others : List Resource}
    (h : DeclaredAfter known units)
    (hothers : DeclaredAfter (known ++ units.map (·.id)) others) :
    DeclaredAfter known (units ++ others) := by
  induction units generalizing known with
  | nil => simpa using hothers
  | cons u rest ih =>
      obtain ⟨hfirst, hrest⟩ := declaredAfter_cons_iff.mp h
      refine declaredAfter_cons_iff.mpr ⟨hfirst, ih hrest ?_⟩
      simpa using hothers

/-- Dependencies are declared at earlier places. -/
theorem idxOf_lt
    (h : DeclaredAfter [] units)
    (hnodup : (units.map (·.id)).Nodup)
    {id d : String}
    (hdepends : DependsOn units id d) :
    (units.map (·.id)).idxOf d < (units.map (·.id)).idxOf id := by
  obtain ⟨u, hu, rfl, hd⟩ := hdepends
  obtain ⟨before, after, rfl⟩ := List.append_of_mem hu
  have hearlier : d ∈ before.map (·.id) := by simpa using h before u after rfl d hd
  rw [List.map_append, List.idxOf_append_of_mem hearlier,
    List.idxOf_append_of_notMem (not_mem_of_nodup_split hnodup)]
  exact Nat.lt_of_lt_of_le (List.idxOf_lt_length_of_mem hearlier) (Nat.le_add_right _ _)

/-- No unit depends on itself through a chain, because chains lead to earlier places. -/
theorem acyclic
    (h : DeclaredAfter [] units)
    (hnodup : (units.map (·.id)).Nodup)
    (id : String) :
    ¬ DependsVia units id id := by
  intro hvia
  exact Nat.lt_irrefl _ (rank_lt_of_dependsVia (fun _ _ => h.idxOf_lt hnodup) hvia)

/-- Well declared units that come after their dependencies are accepted. -/
theorem buildable
    (h : DeclaredAfter [] units)
    (hdeclared : WellDeclared units) :
    Buildable units where
  wellDeclared := hdeclared
  closed := by
    intro u hu d hd
    obtain ⟨before, after, rfl⟩ := List.append_of_mem hu
    have hearlier : d ∈ before.map (·.id) := by simpa using h before u after rfl d hd
    simp only [List.map_append, List.mem_append]
    exact Or.inl hearlier
  acyclic := fun u _ => h.acyclic hdeclared.1 u.id

/-- Once the units before a place are placed, the unit at that place is next. -/
theorem earliestFirst
    (before : List Resource)
    (h : DeclaredAfter [] (before ++ units))
    (hnodup : ((before ++ units).map (·.id)).Nodup) :
    EarliestFirst (before ++ units) (before.map (·.id)) units := by
  induction units generalizing before with
  | nil =>
      refine List.find?_eq_none.mpr fun v hv hcan => ?_
      rw [List.append_nil] at hv
      exact (canPlace_iff.mp hcan).1 (List.mem_map_of_mem hv)
  | cons u rest ih =>
      have hnext : nextUnit? (before ++ u :: rest) (before.map (·.id)) = some u := by
        refine List.find?_eq_some_iff_append.mpr
          ⟨canPlace_iff.mpr ⟨not_mem_of_nodup_split hnodup, ?_⟩, before, rest, rfl, ?_⟩
        · intro d hd
          simpa using h before u rest rfl d hd
        · intro v hv
          have hplaced : v.id ∈ before.map (·.id) := List.mem_map_of_mem hv
          simp [canPlace, hplaced]
      have hsplit : before ++ u :: rest = (before ++ [u]) ++ rest := by simp
      refine ⟨hnext, ?_⟩
      rw [hsplit] at h hnodup ⊢
      simpa using ih (before ++ [u]) h hnodup

end DeclaredAfter

/-- There is only one order that always takes the first declared unit that can be placed. -/
theorem EarliestFirst.unique
    {units : List Resource}
    {placed : List String}
    {order other : List Resource}
    (h : EarliestFirst units placed order)
    (hother : EarliestFirst units placed other) :
    order = other := by
  induction order generalizing placed other with
  | nil =>
      cases other with
      | nil => rfl
      | cons v others => exact absurd (h.symm.trans hother.1) (by simp)
  | cons u rest ih =>
      cases other with
      | nil => exact absurd (h.1.symm.trans hother) (by simp)
      | cons v others =>
          obtain rfl : u = v := Option.some.inj (h.1.symm.trans hother.1)
          rw [ih h.2 hother.2]

/-- Units that come after their dependencies are built in the order in which they are declared. -/
theorem Graph.order_of_declaredAfter
    {g : Graph}
    (h : DeclaredAfter [] g.units) :
    g.order = g.units :=
  g.order_earliestFirst.unique (DeclaredAfter.earliestFirst [] h g.ids_nodup)

end Provision
