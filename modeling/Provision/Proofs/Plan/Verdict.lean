import Provision.Proofs.Plan.Cut

/-!
# When a plan is accepted

A plan comes from the loop that cuts the build order, or from anywhere else: its partitions may
repeat a name, leave out a unit, hold names that the graph does not know, or be in another order.

**Result.**
* `Plan.check_verdict`: a plan is accepted iff it arranges the units of the graph, which both kinds of
  plans that are made from a graph do.
-/

namespace Provision
namespace Plan

/-- A name stands in the partition at a position. -/
def Lists (p : Plan) (i : Nat) (id : String) : Prop :=
  ∃ part, p.partitions[i]? = some part ∧ id ∈ part.units

/-- A plan holds the units of a graph and nothing else, each of them once, and none in an earlier
partition than one of its dependencies. -/
structure Arranges (p : Plan) (g : Graph) : Prop where
  known : ∀ part ∈ p.partitions, ∀ id ∈ part.units, id ∈ g.units.map (·.id)
  once : ∀ u ∈ g.units, (p.partitions.flatMap (·.units)).count u.id = 1
  early : ∀ u ∈ g.units, ∀ d ∈ u.dependsOn, ∀ i j, p.Lists i u.id → p.Lists j d → j ≤ i

variable {p : Plan} {g : Graph}

namespace Arranges

/-- The partitions hold the units of the graph, in some order. -/
theorem ids_perm
    (h : p.Arranges g) :
    (p.partitions.flatMap (·.units)).Perm (g.units.map (·.id)) := by
  refine List.perm_iff_count.mpr fun id => ?_
  by_cases hid : id ∈ g.units.map (·.id)
  · obtain ⟨u, hu, rfl⟩ := List.mem_map.mp hid
    rw [h.once u hu, List.count_eq_one_of_mem g.ids_nodup hid]
  · have habsent : id ∉ p.partitions.flatMap (·.units) := by
      intro hmem
      obtain ⟨part, hpart, hlisted⟩ := List.mem_flatMap.mp hmem
      exact hid (h.known part hpart id hlisted)
    rw [List.count_eq_zero_of_not_mem hid, List.count_eq_zero_of_not_mem habsent]

theorem of_check
    (h : p.check g = .ok ()) :
    p.Arranges g where
  known := by
    intro part hpart id hid
    exact (Plan.ids_perm h).mem_iff.mp (List.mem_flatMap.mpr ⟨part, hpart, hid⟩)
  once := by
    intro u hu
    rw [(Plan.ids_perm h).count_eq]
    exact List.count_eq_one_of_mem g.ids_nodup (List.mem_map_of_mem hu)
  early := by
    intro u hu d hd i j hi hj
    obtain ⟨_, hplacement⟩ := check_eq_ok_iff.mp h
    obtain ⟨own, hown, hearly⟩ := checkPlacement_eq_ok_iff.mp hplacement u hu
    obtain ⟨n, hn, hplace⟩ := hearly d hd
    -- each of the two names stands in a single partition
    rw [place_unique h (mem_places_iff.mpr hi) (mem_places_of_placeOf? hown),
      place_unique h (mem_places_iff.mpr hj) (mem_places_of_placeOf? hplace)]
    exact hn

end Arranges

/-- A plan is accepted iff it arranges the units of the graph. -/
theorem check_eq_ok_iff_arranges :
    p.check g = .ok () ↔ p.Arranges g := by
  constructor
  · exact Arranges.of_check
  · intro h
    refine check_of_places h.ids_perm fun u hu d hd i j hi hj => ?_
    exact h.early u hu d hd i j (mem_places_iff.mp hi) (mem_places_iff.mp hj)

/-- Which plans are accepted; the plan under any positive ceiling and the plan with one partition are
among them. -/
theorem check_verdict
    (g : Graph) :
    (∀ p : Plan, p.check g = .ok () ↔ p.Arranges g) ∧
      (∀ ceiling, 1 ≤ ceiling → ∃ p, cut g ceiling = .ok p ∧ p.check g = .ok ()) ∧
        (single g).check g = .ok () := by
  refine ⟨fun _ => check_eq_ok_iff_arranges, fun ceiling hpositive => ?_, single_accepted g⟩
  obtain ⟨p, hcut, _⟩ := cut_isCut hpositive g
  exact ⟨p, hcut, cut_accepted hcut⟩

/-- The uneven units in partitions that do not follow the build order, the last two of which are in
the wrong order. -/
def shuffled : Plan where
  ceiling := 9
  partitions :=
    [⟨0, "base", ["dns", "cluster", "network"], 10, true⟩, ⟨1, "queue", ["queue"], 1, false⟩,
      ⟨2, "nodes", ["nodes"], 7, false⟩]
  overflows := []

theorem uneven_check_verdict :
    1 ≤ 4 ∧ (∃ p, cut .uneven 4 = .ok p ∧ p.check .uneven = .ok () ∧ p.Arranges .uneven) ∧
      ¬ shuffled.Arranges .uneven ∧
      { shuffled with partitions := shuffled.partitions.take 1 ++
        (shuffled.partitions.drop 1).reverse }.Arranges .uneven := by
  have hpositive : 1 ≤ 4 := by decide
  obtain ⟨hverdict, hcut, _⟩ := check_verdict .uneven
  obtain ⟨p, hp, hchecked⟩ := hcut 4 hpositive
  refine ⟨hpositive, ⟨p, hp, hchecked, (hverdict p).mp hchecked⟩, ?_, ?_⟩
  · rw [← hverdict]
    decide +kernel
  · rw [← hverdict]
    decide +kernel

end Plan
end Provision
