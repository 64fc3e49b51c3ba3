import Mathlib.Order.WellFoundedSet
import Provision.Proofs.Graph.Placement

/-!
# The build order of an accepted graph

**Completeness.**  The units of an accepted graph can be taken up by induction on their
dependencies, because no unit depends on itself.  A unit whose dependencies are all placed can be
placed, so the build order ends only when every unit is placed.

**Minimality.**  An order of the units is compared with another one by the places at which the units
are declared.  At the first place where another order differs it holds a unit that can be placed as
well, and which is therefore declared later.

**Results.**
* `Graph.dependency_induction`: induction on the dependencies of units.
* `Graph.orderIds_perm`, `Graph.orderIds_topological`: the build order holds every unit once, after
  its dependencies.
* `Graph.orderIds_isLeast`: it is the least such order.
-/

namespace Provision

open Relation

/-- Every name comes after all names it depends on; the placed names count as earlier. -/
def TopologicalAfter (units : List Resource) (placed ids : List String) : Prop :=
  ∀ i (h : i < ids.length), ∀ d, DependsOn units ids[i] d → d ∈ placed ++ ids.take i

/-- The names of the units in an order in which each comes after its dependencies. -/
structure IsBuildOrder (units : List Resource) (ids : List String) : Prop where
  perm : ids.Perm (units.map (·.id))
  topological : TopologicalAfter units [] ids

/-- The places at which the units with the names are declared. -/
def declaredPlaces (units : List Resource) (ids : List String) : List Nat :=
  ids.map fun id => (units.map (·.id)).idxOf id

/-- The least of all build orders, by the places at which the units are declared. -/
structure IsLeastBuildOrder (units : List Resource) (ids : List String) : Prop
    extends IsBuildOrder units ids where
  once : ∀ u ∈ units, ids.count u.id = 1
  /-- Any other build order is greater. -/
  least : ∀ other, IsBuildOrder units other →
    other = ids ∨ List.Lex (· < ·) (declaredPlaces units ids) (declaredPlaces units other)
  /-- At every place stands the first declared unit whose dependencies are all placed. -/
  earliest : ∀ i (h : i < ids.length), ∃ u, u.id = ids[i] ∧
    (units.find? fun v => v.id ∉ ids.take i ∧ ∀ d ∈ v.dependsOn, d ∈ ids.take i) = some u

theorem topologicalAfter_cons_iff
    {units : List Resource}
    {placed ids : List String}
    {id : String} :
    TopologicalAfter units placed (id :: ids) ↔
      (∀ d, DependsOn units id d → d ∈ placed) ∧ TopologicalAfter units (placed ++ [id]) ids := by
  constructor
  · intro h
    refine ⟨?_, ?_⟩
    · intro d hd
      simpa using h 0 (Nat.zero_lt_succ _) d hd
    · intro i hi d hd
      simpa using h (i + 1) (Nat.succ_lt_succ hi) d hd
  · rintro ⟨hhead, htail⟩ i hi d hd
    cases i with
    | zero => simpa using hhead d hd
    | succ i => simpa using htail i (Nat.lt_of_succ_lt_succ hi) d hd

/-- The first ones of names in order hold the dependencies of each of them. -/
theorem TopologicalAfter.closed
    {units : List Resource}
    {front back : List String}
    (h : TopologicalAfter units [] (front ++ back))
    {id d : String}
    (hid : id ∈ front)
    (hd : DependsOn units id d) :
    d ∈ front := by
  obtain ⟨i, hi, rfl⟩ := List.mem_iff_getElem.mp hid
  have hlength : i < (front ++ back).length := by
    rw [List.length_append]
    omega
  have hmem := h i hlength d (by rwa [List.getElem_append_left hi])
  rw [List.nil_append, List.take_append_of_le_length hi.le] at hmem
  exact List.mem_of_mem_take hmem

theorem nextUnit?_eq_some
    {units : List Resource}
    {placed : List String}
    {u : Resource}
    (h : nextUnit? units placed = some u) :
    u ∈ units ∧ u.id ∉ placed ∧ ∀ d ∈ u.dependsOn, d ∈ placed :=
  ⟨List.mem_of_find?_eq_some h, canPlace_iff.mp (List.find?_some h)⟩

/-- The next unit is declared no later than any other unit that can be placed. -/
theorem idxOf_nextUnit?_le
    {units : List Resource}
    (hnodup : (units.map (·.id)).Nodup)
    {placed : List String}
    {u v : Resource}
    (hu : nextUnit? units placed = some u)
    (hv : v ∈ units)
    (hcan : canPlace placed v = true) :
    (units.map (·.id)).idxOf u.id ≤ (units.map (·.id)).idxOf v.id := by
  obtain ⟨_, i, hi, rfl, hearlier⟩ := List.find?_eq_some_iff_getElem.mp hu
  obtain ⟨j, hj, rfl⟩ := List.mem_iff_getElem.mp hv
  have hplace : ∀ k (hk : k < units.length), (units.map (·.id)).idxOf units[k].id = k := by
    intro k hk
    have hidx := hnodup.idxOf_getElem k (by simpa using hk)
    rwa [List.getElem_map] at hidx
  rw [hplace i hi, hplace j hj]
  by_contra hlt
  have := hearlier j (Nat.lt_of_not_le hlt)
  rw [hcan] at this
  cases this

namespace EarliestFirst

variable {units : List Resource} {placed : List String} {order : List Resource}

/-- Every place of the order holds the unit that is next there. -/
theorem get
    (h : EarliestFirst units placed order)
    (i : Nat)
    (hi : i < order.length) :
    nextUnit? units (placed ++ (order.take i).map (·.id)) = some order[i] := by
  induction order generalizing placed i with
  | nil => exact absurd hi (Nat.not_lt_zero i)
  | cons u rest ih =>
      cases i with
      | zero => simpa using h.1
      | succ i => simpa using ih h.2 i (Nat.lt_of_succ_lt_succ hi)

/-- Nothing can be placed in the end. -/
theorem stuck
    (h : EarliestFirst units placed order) :
    nextUnit? units (placed ++ order.map (·.id)) = none := by
  induction order generalizing placed with
  | nil =>
      rw [List.map_nil, List.append_nil]
      exact h
  | cons u rest ih => simpa using ih h.2

theorem mem_units
    (h : EarliestFirst units placed order)
    {u : Resource}
    (hu : u ∈ order) :
    u ∈ units := by
  obtain ⟨i, hi, rfl⟩ := List.mem_iff_getElem.mp hu
  exact (nextUnit?_eq_some (h.get i hi)).1

theorem ids_nodup
    (h : EarliestFirst units placed order) :
    (order.map (·.id)).Nodup := by
  rw [List.Nodup, List.pairwise_iff_getElem]
  intro i j hi hj hij heq
  rw [List.length_map] at hi hj
  refine (nextUnit?_eq_some (h.get j hj)).2.1 (List.mem_append_right placed ?_)
  refine List.mem_map.mpr ⟨order[i], ?_, by simpa using heq⟩
  exact List.mem_take_iff_getElem.mpr ⟨i, by omega, rfl⟩

theorem topologicalAfter
    (hnodup : (units.map (·.id)).Nodup)
    (h : EarliestFirst units placed order) :
    TopologicalAfter units placed (order.map (·.id)) := by
  rintro i hi d ⟨u, hu, hid, hd⟩
  rw [List.length_map] at hi
  obtain ⟨hmem, _, hdeps⟩ := nextUnit?_eq_some (h.get i hi)
  rw [List.getElem_map] at hid
  rw [List.inj_on_of_nodup_map hnodup hu hmem hid] at hd
  rw [← List.map_take]
  exact hdeps d hd

/-- Any other order of the same units is greater. -/
theorem eq_or_lex
    (hnodup : (units.map (·.id)).Nodup)
    (h : EarliestFirst units placed order)
    {ids : List String}
    (hperm : (order.map (·.id)).Perm ids)
    (hids : TopologicalAfter units placed ids) :
    ids = order.map (·.id) ∨
      List.Lex (· < ·) (declaredPlaces units (order.map (·.id))) (declaredPlaces units ids) := by
  induction order generalizing placed ids with
  | nil => exact Or.inl (List.nil_perm.mp hperm)
  | cons u rest ih =>
      cases ids with
      | nil => exact absurd (List.perm_nil.mp hperm) (List.cons_ne_nil _ _)
      | cons id ids =>
          obtain ⟨hdeps, hrest⟩ := topologicalAfter_cons_iff.mp hids
          by_cases heq : u.id = id
          · subst heq
            rcases ih h.2 (List.Perm.cons_inv hperm) hrest with rfl | hlex
            · exact Or.inl rfl
            · exact Or.inr (List.Lex.cons hlex)
          · -- the other order takes a unit that could be placed here too
            obtain ⟨v, hv, hvid⟩ := List.mem_map.mp (hperm.mem_iff.mpr List.mem_cons_self)
            have hvrest : v ∈ rest := by
              rcases List.mem_cons.mp hv with rfl | hv
              · exact absurd hvid heq
              · exact hv
            have hvunits : v ∈ units := h.2.mem_units hvrest
            have hfresh : v.id ∉ placed := by
              obtain ⟨i, hi, rfl⟩ := List.mem_iff_getElem.mp hvrest
              intro hmem
              refine (nextUnit?_eq_some (h.2.get i hi)).2.1 ?_
              exact List.mem_append_left _ (List.mem_append_left _ hmem)
            have hcan : canPlace placed v = true :=
              canPlace_iff.mpr ⟨hfresh, fun d hd => hdeps d ⟨v, hvunits, hvid, hd⟩⟩
            have hle := idxOf_nextUnit?_le hnodup h.1 hvunits hcan
            rw [hvid] at hle
            have humem : u.id ∈ units.map (·.id) :=
              List.mem_map_of_mem (nextUnit?_eq_some h.1).1
            have hne := fun hidx => heq ((List.idxOf_inj humem).mp hidx)
            exact Or.inr (List.Lex.rel (Nat.lt_of_le_of_ne hle hne))

end EarliestFirst

namespace Graph

/-- What holds of a unit whenever it holds of its dependencies holds of every unit. -/
theorem dependency_induction
    (g : Graph)
    {P : String → Prop}
    (h : ∀ u ∈ g.units, (∀ d ∈ u.dependsOn, P d) → P u.id) :
    ∀ u ∈ g.units, P u.id := by
  have hstrict : IsStrictOrder String fun d id => DependsVia g.units id d :=
    { irrefl := g.acyclic
      trans := fun _ _ _ hab hbc => hbc.trans hab }
  have hfinite : {id | id ∈ g.units.map (·.id)}.Finite := List.finite_toSet _
  have hwf : {id | id ∈ g.units.map (·.id)}.WellFoundedOn fun d id => DependsVia g.units id d :=
    hfinite.wellFoundedOn
  intro u hu
  refine hwf.induction (List.mem_map_of_mem hu) ?_
  intro id hid ih
  obtain ⟨v, hv, rfl⟩ := List.mem_map.mp hid
  refine h v hv fun d hd => ih d (g.known hv hd) (TransGen.single ⟨v, hv, rfl, hd⟩)

theorem order_earliestFirst
    (g : Graph) :
    EarliestFirst g.units [] g.order :=
  buildOrder_earliestFirst g.ids_nodup

/-- Every unit is placed. -/
theorem mem_orderIds
    (g : Graph) :
    ∀ u ∈ g.units, u.id ∈ g.orderIds := by
  refine g.dependency_induction ?_
  intro v hv hdeps
  by_contra hmem
  have hnone := List.find?_eq_none.mp g.order_earliestFirst.stuck v hv
  exact hnone (canPlace_iff.mpr ⟨hmem, hdeps⟩)

theorem orderIds_nodup
    (g : Graph) :
    g.orderIds.Nodup :=
  g.order_earliestFirst.ids_nodup

theorem mem_orderIds_iff
    (g : Graph)
    {id : String} :
    id ∈ g.orderIds ↔ id ∈ g.units.map (·.id) := by
  constructor
  · intro h
    obtain ⟨u, hu, rfl⟩ := List.mem_map.mp h
    exact List.mem_map_of_mem (g.order_earliestFirst.mem_units hu)
  · intro h
    obtain ⟨u, hu, rfl⟩ := List.mem_map.mp h
    exact g.mem_orderIds u hu

/-- The build order holds every unit once. -/
theorem orderIds_perm
    (g : Graph) :
    g.orderIds.Perm (g.units.map (·.id)) :=
  (List.perm_ext_iff_of_nodup g.orderIds_nodup g.ids_nodup).mpr fun _ => g.mem_orderIds_iff

/-- The transitive dependents of a unit are the units downstream of it. -/
theorem mem_transitiveDependents_iff
    (g : Graph)
    {u : Resource}
    (hu : u ∈ g.units) :
    ∃ ids, g.transitiveDependents u.id = .ok ids ∧
      ∀ id, id ∈ ids ↔ DependsVia g.units id u.id := by
  refine ⟨_, by rw [transitiveDependents, g.require_of_mem hu]; rfl, ?_⟩
  intro id
  simp only [List.mem_map, List.mem_filter, List.contains_iff_mem, mem_downstream_iff]
  constructor
  · rintro ⟨v, ⟨_, hvia⟩, rfl⟩
    exact hvia
  · intro hvia
    obtain ⟨d, ⟨v, hv, rfl, _⟩, _⟩ := TransGen.head'_iff.mp hvia
    obtain ⟨v', hv', hid⟩ := List.mem_map.mp (g.mem_orderIds v hv)
    exact ⟨v', ⟨hv', hid ▸ hvia⟩, hid⟩

/-- In the build order every unit comes after its dependencies. -/
theorem orderIds_topological
    (g : Graph) :
    TopologicalAfter g.units [] g.orderIds :=
  g.order_earliestFirst.topologicalAfter g.ids_nodup

/-- The build order of accepted units is the least one. -/
theorem orderIds_isLeast
    {units : List Resource}
    {g : Graph}
    (h : ofUnits units = .ok g) :
    IsLeastBuildOrder units g.orderIds := by
  obtain rfl := ofUnits_eq_ok_iff.mp h
  refine ⟨⟨g.orderIds_perm, g.orderIds_topological⟩, ?_, ?_, ?_⟩
  · intro u hu
    exact List.count_eq_one_of_mem g.orderIds_nodup (g.mem_orderIds u hu)
  · intro other hother
    exact g.order_earliestFirst.eq_or_lex g.ids_nodup
      (g.orderIds_perm.trans hother.perm.symm) hother.topological
  · intro i hi
    have hlt : i < g.order.length := by simpa [orderIds] using hi
    refine ⟨g.order[i], by simp [orderIds], ?_⟩
    rw [← g.order_earliestFirst.get i hlt, nextUnit?]
    congr 1
    funext v
    rw [Bool.eq_iff_iff, canPlace_iff, decide_eq_true_eq]
    simp [orderIds]

/-- Units in layers, and one that stands apart. -/
def layered : Graph where
  units :=
    [⟨"addons", .addon, .null, ["cluster", "nodes"], 1⟩,
      ⟨"cluster", .kubernetes, .null, ["network"], 1⟩,
      ⟨"dns", .network, .null, [], 1⟩,
      ⟨"nodes", .compute, .null, ["cluster"], 1⟩,
      ⟨"network", .network, .null, [], 1⟩]
  checked := by cbv

theorem layered_orderIds_isLeast :
    ofUnits layered.units = .ok layered ∧
      IsLeastBuildOrder layered.units ["dns", "network", "cluster", "nodes", "addons"] := by
  have haccepted : ofUnits layered.units = .ok layered := ofUnits_eq_ok_iff.mpr rfl
  have horder : layered.orderIds = ["dns", "network", "cluster", "nodes", "addons"] := by cbv
  refine ⟨haccepted, ?_⟩
  rw [← horder]
  exact orderIds_isLeast haccepted

end Graph
end Provision
