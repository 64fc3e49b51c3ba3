import Provision.Build.Plan
import Provision.Proofs.Graph.Acceptance

/-!
# Accepted plans

A plan is accepted for a graph iff it places every unit of the graph once, and nothing else, and
places no unit before one of its dependencies.  The check reads the plan as a list of names, each
with the position of its partition.

**Results.**
* `Plan.ids_perm`: the partitions of an accepted plan hold exactly the units of the graph.
* `Plan.entered_closed`: the first partitions of an accepted plan hold, with a unit, all its
  dependencies.
-/

namespace Provision
namespace Plan

/-- The names of the units in the first partitions of a plan. -/
def entered (p : Plan) (k : Nat) : List String :=
  (p.partitions.take k).flatMap (·.units)

theorem entered_all
    (p : Plan) :
    p.entered p.partitions.length = p.partitions.flatMap (·.units) := by
  rw [entered, List.take_length]

theorem entered_succ
    {p : Plan}
    {k : Nat}
    {part : Partition}
    (h : p.partitions[k]? = some part) :
    p.entered (k + 1) = p.entered k ++ part.units := by
  rw [entered, entered, List.take_add_one, h]
  simp

theorem entered_sublist
    (p : Plan)
    (k : Nat) :
    (p.entered k).Sublist (p.partitions.flatMap (·.units)) := by
  have hsplit : p.partitions.flatMap (·.units) =
      p.entered k ++ (p.partitions.drop k).flatMap (·.units) := by
    rw [entered, ← List.flatMap_append, List.take_append_drop]
  rw [hsplit]
  exact List.sublist_append_left _ _

theorem mem_entered_iff
    {p : Plan}
    {k : Nat}
    {id : String} :
    id ∈ p.entered k ↔ ∃ n < k, ∃ part, p.partitions[n]? = some part ∧ id ∈ part.units := by
  rw [entered, List.mem_flatMap]
  constructor
  · rintro ⟨part, hpart, hid⟩
    obtain ⟨n, hn⟩ := List.mem_iff_getElem?.mp hpart
    rw [List.getElem?_take] at hn
    split at hn
    · rename_i hlt
      exact ⟨n, hlt, part, hn, hid⟩
    · cases hn
  · rintro ⟨n, hlt, part, hn, hid⟩
    refine ⟨part, List.mem_iff_getElem?.mpr ⟨n, ?_⟩, hid⟩
    rw [List.getElem?_take, if_pos hlt]
    exact hn

theorem mem_places_iff
    {p : Plan}
    {id : String}
    {n : Nat} :
    (id, n) ∈ p.places ↔ ∃ part, p.partitions[n]? = some part ∧ id ∈ part.units := by
  simp only [places, List.mem_flatMap, List.mem_map]
  constructor
  · rintro ⟨⟨part, m⟩, hpart, id', hid, heq⟩
    cases heq
    exact ⟨part, List.mk_mem_zipIdx_iff_getElem?.mp hpart, hid⟩
  · rintro ⟨part, hpart, hid⟩
    exact ⟨(part, n), List.mk_mem_zipIdx_iff_getElem?.mpr hpart, id, hid, rfl⟩

theorem map_fst_places
    (p : Plan) :
    p.places.map (·.1) = p.partitions.flatMap (·.units) := by
  rw [places, List.map_flatMap]
  simp only [List.map_map, Function.comp_def, List.map_id']
  rw [← List.flatMap_map, List.zipIdx_map_fst]

theorem checkPlaces_eq_ok_iff
    {g : Graph}
    {seen : List String}
    {places : List (String × Nat)} :
    checkPlaces g seen places = .ok () ↔
      (places.map (·.1)).Nodup ∧ (∀ e ∈ places, e.1 ∉ seen) ∧
        ∀ e ∈ places, e.1 ∈ g.units.map (·.id) := by
  induction places generalizing seen with
  | nil => simp [checkPlaces]
  | cons e rest ih =>
      obtain ⟨id, n⟩ := e
      rw [checkPlaces, List.map_cons, List.nodup_cons, List.forall_mem_cons,
        List.forall_mem_cons]
      cases hunit : g.unit? id with
      | none =>
          have hnot := g.unit?_eq_none_iff.mp hunit
          constructor
          · intro h
            cases h
          · rintro ⟨_, _, hmem, _⟩
            exact absurd hmem hnot
      | some u =>
          obtain ⟨hu, rfl⟩ := g.unit?_eq_some_iff.mp hunit
          have hknown : u.id ∈ g.units.map (·.id) := List.mem_map_of_mem hu
          simp only [List.contains_iff_mem]
          by_cases hseen : u.id ∈ seen
          · simp [hseen]
          · rw [if_neg hseen, ih]
            constructor
            · rintro ⟨hnodup, hfresh, hall⟩
              refine ⟨⟨?_, hnodup⟩, ⟨hseen, ?_⟩, hknown, hall⟩
              · intro hmem
                obtain ⟨e, he, hid⟩ := List.mem_map.mp hmem
                exact hfresh e he (hid ▸ List.mem_cons_self)
              · intro e he hmem
                exact hfresh e he (List.mem_cons_of_mem _ hmem)
            · rintro ⟨⟨hnew, hnodup⟩, ⟨_, hfresh⟩, _, hall⟩
              refine ⟨hnodup, ?_, hall⟩
              intro e he hmem
              rcases List.mem_cons.mp hmem with heq | hmem
              · exact hnew (List.mem_map.mpr ⟨e, he, heq⟩)
              · exact hfresh e he hmem

theorem isLate_eq_false_iff
    {places : List (String × Nat)}
    {own : Nat}
    {d : String} :
    isLate places own d = false ↔ ∃ n ≤ own, placeOf? places d = some n := by
  rw [isLate]
  cases placeOf? places d with
  | none => simp
  | some n => simp

theorem checkPlacement_eq_ok_iff
    {places : List (String × Nat)}
    {units : List Resource} :
    checkPlacement places units = .ok () ↔
      ∀ u ∈ units, ∃ own, placeOf? places u.id = some own ∧
        ∀ d ∈ u.dependsOn, ∃ n ≤ own, placeOf? places d = some n := by
  induction units with
  | nil => simp [checkPlacement]
  | cons u rest ih =>
      rw [checkPlacement, List.forall_mem_cons]
      cases hplace : placeOf? places u.id with
      | none =>
          constructor
          · intro h
            cases h
          · rintro ⟨⟨own, hown, _⟩, _⟩
            cases hown
      | some own =>
          dsimp only
          cases hfind : u.dependsOn.find? (isLate places own) with
          | none =>
              have hearly : ∀ d ∈ u.dependsOn, ∃ n ≤ own, placeOf? places d = some n := by
                intro d hd
                have := List.find?_eq_none.mp hfind d hd
                exact isLate_eq_false_iff.mp (Bool.eq_false_iff.mpr this)
              rw [ih]
              exact ⟨fun h => ⟨⟨own, rfl, hearly⟩, h⟩, fun h => h.2⟩
          | some d =>
              constructor
              · intro h
                cases h
              · rintro ⟨⟨own', hown, hearly⟩, _⟩
                cases hown
                have hlate := List.find?_some hfind
                rw [isLate_eq_false_iff.mpr (hearly d (List.mem_of_find?_eq_some hfind))] at hlate
                cases hlate

variable {p : Plan} {g : Graph}

theorem check_eq_ok_iff :
    p.check g = .ok () ↔
      checkPlaces g [] p.places = .ok () ∧ checkPlacement p.places g.units = .ok () := by
  rw [check, check_bind_eq_ok_iff]

/-- A name that is placed stands in the partition at that position. -/
theorem mem_places_of_placeOf?
    {id : String}
    {n : Nat}
    (h : placeOf? p.places id = some n) :
    (id, n) ∈ p.places := by
  rw [placeOf?] at h
  obtain ⟨e, he, rfl⟩ := Option.map_eq_some_iff.mp h
  have hid : e.1 = id := by simpa using List.find?_some he
  rw [← hid]
  exact List.mem_of_find?_eq_some he

/-- The partitions of an accepted plan hold every unit of the graph once. -/
theorem ids_perm
    (h : p.check g = .ok ()) :
    (p.partitions.flatMap (·.units)).Perm (g.units.map (·.id)) := by
  obtain ⟨hplaces, hplacement⟩ := check_eq_ok_iff.mp h
  obtain ⟨hnodup, _, hknown⟩ := checkPlaces_eq_ok_iff.mp hplaces
  rw [map_fst_places] at hnodup
  refine (List.perm_ext_iff_of_nodup hnodup g.ids_nodup).mpr fun id => ?_
  rw [← map_fst_places]
  constructor
  · intro hid
    obtain ⟨e, he, rfl⟩ := List.mem_map.mp hid
    exact hknown e he
  · intro hid
    obtain ⟨u, hu, rfl⟩ := List.mem_map.mp hid
    obtain ⟨own, hown, _⟩ := checkPlacement_eq_ok_iff.mp hplacement u hu
    exact List.mem_map.mpr ⟨_, mem_places_of_placeOf? hown, rfl⟩

/-- In an accepted plan no name stands twice. -/
theorem ids_nodup
    (h : p.check g = .ok ()) :
    (p.partitions.flatMap (·.units)).Nodup :=
  (ids_perm h).nodup_iff.mpr g.ids_nodup

theorem entered_nodup
    (h : p.check g = .ok ())
    (k : Nat) :
    (p.entered k).Nodup :=
  (ids_nodup h).sublist (p.entered_sublist k)

theorem mem_units_of_mem_entered
    (h : p.check g = .ok ())
    {k : Nat}
    {id : String}
    (hid : id ∈ p.entered k) :
    id ∈ g.units.map (·.id) :=
  (ids_perm h).mem_iff.mp ((p.entered_sublist k).subset hid)

/-- A unit stands in a single partition. -/
theorem place_unique
    (h : p.check g = .ok ())
    {id : String}
    {m n : Nat}
    (hm : (id, m) ∈ p.places)
    (hn : (id, n) ∈ p.places) :
    m = n := by
  obtain ⟨hplaces, _⟩ := check_eq_ok_iff.mp h
  obtain ⟨hnodup, _, _⟩ := checkPlaces_eq_ok_iff.mp hplaces
  exact congrArg Prod.snd (List.inj_on_of_nodup_map hnodup hm hn rfl)

/-- The first partitions of an accepted plan hold the dependencies of their units. -/
theorem entered_closed
    (h : p.check g = .ok ())
    {k : Nat}
    {u : Resource}
    (hu : u ∈ g.units)
    (hid : u.id ∈ p.entered k)
    {d : String}
    (hd : d ∈ u.dependsOn) :
    d ∈ p.entered k := by
  obtain ⟨_, hplacement⟩ := check_eq_ok_iff.mp h
  obtain ⟨m, hm, hplace⟩ := mem_entered_iff.mp hid
  obtain ⟨own, hown, hearly⟩ := checkPlacement_eq_ok_iff.mp hplacement u hu
  obtain ⟨n, hn, hdep⟩ := hearly d hd
  obtain rfl := place_unique h (mem_places_iff.mpr hplace) (mem_places_of_placeOf? hown)
  refine mem_entered_iff.mpr ⟨n, Nat.lt_of_le_of_lt hn hm, ?_⟩
  exact mem_places_iff.mp (mem_places_of_placeOf? hdep)

end Plan
end Provision
