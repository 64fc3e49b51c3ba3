import Provision.Proofs.Chain
import Provision.Proofs.Graph.Reachability
import Provision.Proofs.Lists

/-!
# Accepted units

Units are accepted iff their names are pairwise distinct, their weights positive and their
dependencies known, and no unit depends on itself.  Each check is characterised on its own; an
accepted graph then has all four properties.

**Results.**
* `checkUnits_eq_ok_iff`: when units are accepted.
* `Graph.ids_nodup`, `Graph.known`, `Graph.acyclic`: what a graph is known to satisfy.
* `Graph.unit?_eq_some_iff`: what a graph answers for a name.
-/

namespace Provision

theorem checkNames_eq_ok_iff
    {units : List Resource}
    {seen : List String} :
    checkNames seen units = .ok () ↔
      (units.map (·.id)).Nodup ∧ (∀ u ∈ units, u.id ∉ seen) ∧ ∀ u ∈ units, u.weight ≠ 0 := by
  induction units generalizing seen with
  | nil => simp [checkNames]
  | cons u rest ih =>
      simp only [checkNames, List.contains_iff_mem, List.map_cons, List.nodup_cons,
        List.forall_mem_cons]
      by_cases hseen : u.id ∈ seen
      · simp [hseen]
      · by_cases hweight : u.weight = 0
        · simp [hseen, hweight]
        · rw [if_neg hseen, if_neg hweight, ih]
          constructor
          · rintro ⟨hnodup, hfresh, hpos⟩
            refine ⟨⟨?_, hnodup⟩, ⟨hseen, ?_⟩, hweight, hpos⟩
            · intro hmem
              obtain ⟨v, hv, hid⟩ := List.mem_map.mp hmem
              exact hfresh v hv (hid ▸ List.mem_cons_self)
            · intro v hv hmem
              exact hfresh v hv (List.mem_cons_of_mem u.id hmem)
          · rintro ⟨⟨hnew, hnodup⟩, ⟨_, hfresh⟩, _, hpos⟩
            refine ⟨hnodup, ?_, hpos⟩
            intro v hv hmem
            rcases List.mem_cons.mp hmem with heq | hmem
            · exact hnew (List.mem_map.mpr ⟨v, hv, heq⟩)
            · exact hfresh v hv hmem

theorem checkDependencies_eq_ok_iff
    {known : List String}
    {units : List Resource} :
    checkDependencies known units = .ok () ↔ ∀ u ∈ units, ∀ d ∈ u.dependsOn, d ∈ known := by
  induction units with
  | nil => simp [checkDependencies]
  | cons u rest ih =>
      rw [checkDependencies, List.forall_mem_cons]
      cases hfind : u.dependsOn.find? fun d => !known.contains d with
      | none =>
          have hall : ∀ d ∈ u.dependsOn, d ∈ known := by
            simpa using List.find?_eq_none.mp hfind
          simp only [ih]
          exact ⟨fun h => ⟨hall, h⟩, fun h => h.2⟩
      | some d =>
          have hmem := List.mem_of_find?_eq_some hfind
          have hnot : d ∉ known := by simpa using List.find?_some hfind
          constructor
          · intro h
            cases h
          · rintro ⟨hall, _⟩
            exact absurd (hall d hmem) hnot

theorem checkAcyclic_eq_ok_iff
    {units : List Resource} :
    checkAcyclic units = .ok () ↔ ∀ u ∈ units, ¬ DependsVia units u.id u.id := by
  rw [checkAcyclic]
  cases hfind : units.find? (onCycle units) with
  | none =>
      refine ⟨fun _ u hu hvia => ?_, fun _ => rfl⟩
      exact List.find?_eq_none.mp hfind u hu (onCycle_iff.mpr hvia)
  | some u =>
      constructor
      · intro h
        cases h
      · intro h
        have hmem := List.mem_of_find?_eq_some hfind
        exact absurd (onCycle_iff.mp (List.find?_some hfind)) (h u hmem)

/-- Units are accepted iff every check passes. -/
theorem checkUnits_eq_ok_iff
    {units : List Resource} :
    checkUnits units = .ok () ↔
      ((units.map (·.id)).Nodup ∧ ∀ u ∈ units, u.weight ≠ 0) ∧
        (∀ u ∈ units, ∀ d ∈ u.dependsOn, d ∈ units.map (·.id)) ∧
          ∀ u ∈ units, ¬ DependsVia units u.id u.id := by
  rw [checkUnits, check_bind_eq_ok_iff, check_bind_eq_ok_iff, checkNames_eq_ok_iff,
    checkDependencies_eq_ok_iff, checkAcyclic_eq_ok_iff]
  simp

namespace Graph

theorem ofUnits_eq_ok_iff
    {units : List Resource}
    {g : Graph} :
    ofUnits units = .ok g ↔ g.units = units := by
  rw [ofUnits]
  split
  · rename_i h
    constructor
    · intro hg
      cases hg
      rfl
    · rintro rfl
      rfl
  · rename_i e h
    constructor
    · intro hg
      cases hg
    · rintro rfl
      rw [g.checked] at h
      cases h

/-- No two units have the same name. -/
theorem ids_nodup
    (g : Graph) :
    (g.units.map (·.id)).Nodup :=
  (checkUnits_eq_ok_iff.mp g.checked).1.1

/-- Every dependency is a unit of the graph. -/
theorem known
    (g : Graph)
    {u : Resource}
    (hu : u ∈ g.units)
    {d : String}
    (hd : d ∈ u.dependsOn) :
    d ∈ g.units.map (·.id) :=
  (checkUnits_eq_ok_iff.mp g.checked).2.1 u hu d hd

/-- No name depends on itself through a chain. -/
theorem acyclic
    (g : Graph)
    (id : String) :
    ¬ DependsVia g.units id id := by
  intro h
  obtain ⟨_, ⟨u, hu, rfl, _⟩, _⟩ := Relation.TransGen.head'_iff.mp h
  exact (checkUnits_eq_ok_iff.mp g.checked).2.2 u hu h

/-- Units are told apart by their names. -/
theorem eq_of_id_eq
    (g : Graph)
    {u v : Resource}
    (hu : u ∈ g.units)
    (hv : v ∈ g.units)
    (h : u.id = v.id) :
    u = v :=
  List.inj_on_of_nodup_map g.ids_nodup hu hv h

theorem unit?_eq_some_iff
    (g : Graph)
    {id : String}
    {u : Resource} :
    g.unit? id = some u ↔ u ∈ g.units ∧ u.id = id :=
  find?_key_eq_some_iff g.ids_nodup

theorem unit?_eq_none_iff
    (g : Graph)
    {id : String} :
    g.unit? id = none ↔ id ∉ g.units.map (·.id) := by
  simp [unit?]

theorem require_eq_ok_iff
    (g : Graph)
    {id : String}
    {u : Resource} :
    g.require id = .ok u ↔ u ∈ g.units ∧ u.id = id := by
  rw [require, ← g.unit?_eq_some_iff]
  cases g.unit? id <;> simp

/-- A unit of the graph is found under its name. -/
theorem require_of_mem
    (g : Graph)
    {u : Resource}
    (hu : u ∈ g.units) :
    g.require u.id = .ok u :=
  g.require_eq_ok_iff.mpr ⟨hu, rfl⟩

theorem require_of_not_mem
    (g : Graph)
    {id : String}
    (h : id ∉ g.units.map (·.id)) :
    g.require id = .error (.unitNotFound id) := by
  rw [require, g.unit?_eq_none_iff.mpr h]

end Graph
end Provision
