import Mathlib.Logic.Relation
import Provision.Build.Graph

/-!
# Units downstream of a unit

A unit is downstream of another one if it depends on it directly or through a chain.  The search
that finds the names downstream of a unit keeps a stack of names that were found but not looked at
yet.  Two facts carry it:

* every name that is found is downstream of the name the search began with;
* the direct dependents of every name that was looked at are found.

**Results.**
* `mem_downstream_iff`: the search finds exactly the names downstream of a unit.
* `onCycle_iff`: a unit lies on a cycle iff it depends on itself through a chain.
-/

namespace Provision

open Relation

/-- A unit with the first name depends directly on the second name. -/
def DependsOn (units : List Resource) (id dependency : String) : Prop :=
  ∃ u ∈ units, u.id = id ∧ dependency ∈ u.dependsOn

/-- A unit with the first name depends on the second name, directly or through a chain. -/
abbrev DependsVia (units : List Resource) : String → String → Prop :=
  TransGen (DependsOn units)

/-- A rank that is lower for the dependencies of a unit is lower at the end of a chain of them. -/
theorem rank_lt_of_dependsVia
    {units : List Resource}
    {rank : String → Nat}
    (hlower : ∀ id d, DependsOn units id d → rank d < rank id)
    {id d : String}
    (h : DependsVia units id d) :
    rank d < rank id := by
  induction h with
  | single hstep => exact hlower _ _ hstep
  | tail _ hstep ih => exact Nat.lt_trans (hlower _ _ hstep) ih

theorem mem_unseen_iff
    {units : List Resource}
    {seen : List String}
    {id : String} :
    id ∈ unseen units seen ↔ (∃ u ∈ units, u.id = id) ∧ id ∉ seen := by
  simp [unseen]

theorem mem_unseen_dependentsOf_iff
    {units : List Resource}
    {seen : List String}
    {id found : String} :
    found ∈ unseen (dependentsOf units id) seen ↔ DependsOn units found id ∧ found ∉ seen := by
  rw [mem_unseen_iff]
  simp only [dependentsOf, DependsOn, List.mem_filter, List.contains_iff_mem]
  constructor
  · rintro ⟨⟨u, ⟨hu, hd⟩, hid⟩, hseen⟩
    exact ⟨⟨u, hu, hid, hd⟩, hseen⟩
  · rintro ⟨⟨u, hu, hid, hd⟩, hseen⟩
    exact ⟨⟨u, ⟨hu, hd⟩, hid⟩, hseen⟩

/-- What is found from downstream names is downstream. -/
theorem search_sound
    {units : List Resource}
    {root : String}
    (stack seen : List String)
    (hstack : ∀ x ∈ stack, x = root ∨ DependsVia units x root)
    (hseen : ∀ x ∈ seen, DependsVia units x root) :
    ∀ x ∈ search units stack seen, DependsVia units x root := by
  fun_induction search units stack seen with
  | case1 seen => exact hseen
  | case2 seen id stack fresh ih =>
      have hfresh : ∀ x ∈ fresh, DependsVia units x root := by
        intro x hx
        have hstep := (mem_unseen_dependentsOf_iff.mp hx).1
        rcases hstack id List.mem_cons_self with rfl | hid
        · exact TransGen.single hstep
        · exact TransGen.head hstep hid
      apply ih
      · intro x hx
        rcases List.mem_append.mp hx with hx | hx
        · exact Or.inr (hfresh x hx)
        · exact hstack x (List.mem_cons_of_mem id hx)
      · intro x hx
        rcases List.mem_append.mp hx with hx | hx
        · exact hseen x hx
        · exact hfresh x hx

/-- Once the direct dependents of every name are found or the name is still on the stack, the
names that are found in the end are closed under direct dependents. -/
theorem search_closed
    {units : List Resource}
    {root : String}
    (stack seen : List String)
    (h : ∀ x, x = root ∨ x ∈ seen → x ∈ stack ∨ ∀ y, DependsOn units y x → y ∈ seen) :
    ∀ x, x = root ∨ x ∈ search units stack seen →
      ∀ y, DependsOn units y x → y ∈ search units stack seen := by
  fun_induction search units stack seen with
  | case1 seen =>
      intro x hx
      exact (h x hx).resolve_left List.not_mem_nil
  | case2 seen id stack fresh ih =>
      apply ih
      intro x hx
      by_cases hid : x = id
      · -- the name on top of the stack is looked at now
        right
        intro y hy
        subst hid
        by_cases hseen : y ∈ seen
        · exact List.mem_append_left fresh hseen
        · exact List.mem_append_right seen (mem_unseen_dependentsOf_iff.mpr ⟨hy, hseen⟩)
      · have hold : x = root ∨ x ∈ seen → x ∈ fresh ++ stack ∨
            ∀ y, DependsOn units y x → y ∈ seen ++ fresh := by
          intro hx
          rcases h x hx with hmem | hall
          · rcases List.mem_cons.mp hmem with heq | hmem
            · exact absurd heq hid
            · exact Or.inl (List.mem_append_right fresh hmem)
          · exact Or.inr fun y hy => List.mem_append_left fresh (hall y hy)
        rcases hx with hroot | hx
        · exact hold (Or.inl hroot)
        · rcases List.mem_append.mp hx with hx | hx
          · exact hold (Or.inr hx)
          · exact Or.inl (List.mem_append_left stack hx)

/-- The search finds exactly the names that are downstream. -/
theorem mem_downstream_iff
    {units : List Resource}
    {id found : String} :
    found ∈ downstream units id ↔ DependsVia units found id := by
  constructor
  · refine search_sound [id] [] ?_ ?_ found
    · intro x hx
      exact Or.inl (List.mem_singleton.mp hx)
    · intro x hx
      exact absurd hx List.not_mem_nil
  · intro h
    have hclosed : ∀ x, x = id ∨ x ∈ downstream units id →
        ∀ y, DependsOn units y x → y ∈ downstream units id := by
      refine search_closed [id] [] ?_
      rintro x (rfl | hx)
      · exact Or.inl List.mem_cons_self
      · exact absurd hx List.not_mem_nil
    induction h using TransGen.head_induction_on with
    | single hstep => exact hclosed id (Or.inl rfl) _ hstep
    | head hstep _ ih => exact hclosed _ (Or.inr ih) _ hstep

theorem onCycle_iff
    {units : List Resource}
    {u : Resource} :
    onCycle units u = true ↔ DependsVia units u.id u.id := by
  rw [onCycle, List.contains_iff_mem, mem_downstream_iff]

end Provision
