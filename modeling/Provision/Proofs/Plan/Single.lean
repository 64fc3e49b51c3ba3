import Provision.Proofs.Graph.Order
import Provision.Proofs.Plan.Acceptance

/-!
# Plans along the build order

A plan may hold the units of a graph in another order than the build order, as long as none is in an
earlier partition than one of its dependencies.  If its partitions, one after the other, are the
build order, this is so wherever the order is cut.

**Results.**
* `Plan.check_of_places`: a plan that holds the units of a graph, none of them before one of its
  dependencies, is accepted.
* `Plan.check_of_order`: a plan that holds the units in build order is accepted.
* `Plan.single_accepted`: the plan with one partition is accepted.
-/

namespace Provision

theorem Partition.units_foldl_push
    (part : Partition)
    (us : List Resource) :
    (us.foldl Partition.push part).units = part.units ++ us.map (·.id) := by
  induction us generalizing part with
  | nil => simp
  | cons u rest ih => simp [ih, push]

namespace Plan

variable {p : Plan} {g : Graph}

/-- Every name in a plan has a place. -/
theorem exists_placeOf?
    {id : String}
    (h : id ∈ p.partitions.flatMap (·.units)) :
    ∃ n, placeOf? p.places id = some n := by
  rw [← map_fst_places] at h
  obtain ⟨e, he, hid⟩ := List.mem_map.mp h
  have hfound : (p.places.find? fun e => e.1 == id).isSome = true :=
    List.find?_isSome.mpr ⟨e, he, by simpa using hid⟩
  obtain ⟨found, hfound⟩ := Option.isSome_iff_exists.mp hfound
  exact ⟨found.2, by rw [placeOf?, hfound, Option.map_some]⟩

/-- A plan that holds every unit once, and none before one of its dependencies, is accepted. -/
theorem check_of_places
    (hperm : (p.partitions.flatMap (·.units)).Perm (g.units.map (·.id)))
    (hearly : ∀ u ∈ g.units, ∀ d ∈ u.dependsOn, ∀ m n,
      (u.id, m) ∈ p.places → (d, n) ∈ p.places → n ≤ m) :
    p.check g = .ok () := by
  have hplaced : ∀ id ∈ g.units.map (·.id), ∃ n, placeOf? p.places id = some n :=
    fun id hid => exists_placeOf? (hperm.mem_iff.mpr hid)
  refine check_eq_ok_iff.mpr ⟨checkPlaces_eq_ok_iff.mpr ⟨?_, ?_, ?_⟩,
    checkPlacement_eq_ok_iff.mpr ?_⟩
  · rw [map_fst_places]
    exact hperm.nodup_iff.mpr g.ids_nodup
  · exact fun _ _ => List.not_mem_nil
  · intro e he
    rw [← hperm.mem_iff, ← map_fst_places]
    exact List.mem_map_of_mem he
  · intro u hu
    obtain ⟨own, hown⟩ := hplaced u.id (List.mem_map_of_mem hu)
    refine ⟨own, hown, fun d hd => ?_⟩
    obtain ⟨n, hn⟩ := hplaced d (g.known hu hd)
    exact ⟨n, hearly u hu d hd own n (mem_places_of_placeOf? hown) (mem_places_of_placeOf? hn), hn⟩

/-- A plan whose partitions are the build order one after the other is accepted. -/
theorem check_of_order
    (h : p.partitions.flatMap (·.units) = g.orderIds) :
    p.check g = .ok () := by
  refine check_of_places (h ▸ g.orderIds_perm) ?_
  intro u hu d hd m n hm hn
  by_contra hlate
  -- the partitions before the one of the dependency hold the unit, but not the dependency
  have hsplit : p.entered n ++ (p.partitions.drop n).flatMap (·.units) = g.orderIds := by
    rw [entered, ← List.flatMap_append, List.take_append_drop, h]
  have hunit : u.id ∈ p.entered n :=
    mem_entered_iff.mpr ⟨m, Nat.lt_of_not_le hlate, mem_places_iff.mp hm⟩
  have htopological : TopologicalAfter g.units []
      (p.entered n ++ (p.partitions.drop n).flatMap (·.units)) :=
    hsplit ▸ g.orderIds_topological
  have hearly : d ∈ p.entered n := htopological.closed hunit ⟨u, hu, rfl, hd⟩
  obtain ⟨part, hpart, hmem⟩ := mem_places_iff.mp hn
  have hdrop : part ∈ p.partitions.drop n := by
    refine List.mem_of_getElem? (i := 0) ?_
    rwa [List.getElem?_drop, Nat.add_zero]
  have hnodup : (p.entered n ++ (p.partitions.drop n).flatMap (·.units)).Nodup :=
    hsplit ▸ g.orderIds_nodup
  exact (List.nodup_append.mp hnodup).2.2 d hearly d (List.mem_flatMap.mpr ⟨part, hdrop, hmem⟩) rfl

/-- The one partition holds the units in build order. -/
theorem single_units
    (g : Graph) :
    (single g).partitions.flatMap (·.units) = g.orderIds := by
  have hall : (g.order.foldl Partition.push (.opened 0)).units = g.orderIds := by
    rw [Partition.units_foldl_push]
    rfl
  rw [single]
  dsimp only
  split
  · rename_i hempty
    rw [hall, List.isEmpty_iff] at hempty
    simp [hempty]
  · simp [hall]

/-- The plan with one partition is accepted. -/
theorem single_accepted
    (g : Graph) :
    (single g).check g = .ok () :=
  check_of_order (single_units g)

end Plan
end Provision
