import Provision.Proofs.Graph.Order

/-!
# The units around a unit

A graph is asked for the dependencies of a unit, for the units that depend on it, and for those that
depend on it through a chain.

**Direction.**  A unit is listed as a dependent of another one iff that one is listed as a dependency
of it, so a chain of dependents is a chain of dependencies read backwards.

**Positions.**  In the build order a dependency has a lower position than the unit that needs it, and
so has every unit at the end of a chain of dependencies.  Hence no unit is listed among the units
beyond it, and these have higher positions.

**Results.**
* `Graph.idxOf_lt_of_dependsVia`: chains of dependencies lead to lower positions.
* `Graph.transGen_leadsTo_iff`: chains of listed dependents are chains of dependencies.
* `Graph.neighbours`: what is listed around the units of a graph, and that nothing is listed around
  other names.
-/

namespace Provision
namespace Graph

open Relation

/-- Names of units, each listed once, in the order in which the units are declared. -/
structure IsDeclaredOnce (g : Graph) (ids : List String) : Prop where
  nodup : ids.Nodup
  order : ids.Sublist (g.units.map (·.id))

/-- The second name is listed among the dependents of the first one. -/
def LeadsTo (g : Graph) (id dependent : String) : Prop :=
  ∃ ids, g.dependents id = .ok ids ∧ dependent ∈ ids

/-- The names that are reached from a unit in one or more steps from a name to one of its
dependents, each listed once and in build order. -/
structure IsBeyond (g : Graph) (u : Resource) (ids : List String) : Prop where
  mem_iff : ∀ id, id ∈ ids ↔ TransGen g.LeadsTo u.id id
  nodup : ids.Nodup
  order : ids.Sublist g.orderIds
  /-- No name depends on one that is listed after it. -/
  topological : ids.Pairwise fun id later => ¬ DependsVia g.units id later
  not_self : u.id ∉ ids
  later : ∀ id ∈ ids, ∃ i j, g.position? u.id = some i ∧ g.position? id = some j ∧ i < j

variable (g : Graph)

/-! ## Positions -/

theorem position?_eq_some
    {id : String}
    (h : id ∈ g.units.map (·.id)) :
    g.position? id = some (g.orderIds.idxOf id) := by
  have hlt : g.orderIds.findIdx (· == id) < g.orderIds.length :=
    List.idxOf_lt_length_of_mem (g.mem_orderIds_iff.mpr h)
  rw [position?, List.findIdx?_eq_guard_findIdx_lt]
  exact Option.guard_eq_some_iff.mpr ⟨rfl, decide_eq_true hlt⟩

/-- A dependency has a lower position than the unit that needs it. -/
theorem idxOf_lt_of_dependsOn
    {id d : String}
    (h : DependsOn g.units id d) :
    g.orderIds.idxOf d < g.orderIds.idxOf id := by
  have hstep := h
  obtain ⟨u, hu, rfl, _⟩ := hstep
  have hlt := List.idxOf_lt_length_of_mem (g.mem_orderIds u hu)
  have hearlier := g.orderIds_topological _ hlt d (by rwa [List.getElem_idxOf])
  obtain ⟨j, hj, rfl⟩ := List.mem_take_iff_getElem.mp hearlier
  rw [g.orderIds_nodup.idxOf_getElem]
  omega

/-- Chains of dependencies lead to lower positions. -/
theorem idxOf_lt_of_dependsVia
    {id d : String}
    (h : DependsVia g.units id d) :
    g.orderIds.idxOf d < g.orderIds.idxOf id :=
  rank_lt_of_dependsVia (fun _ _ => g.idxOf_lt_of_dependsOn) h

/-- In the build order no name depends on a later one. -/
theorem orderIds_pairwise :
    g.orderIds.Pairwise fun id later => ¬ DependsVia g.units id later := by
  rw [List.pairwise_iff_getElem]
  intro i j hi hj hij hvia
  have hlower := g.idxOf_lt_of_dependsVia hvia
  rw [g.orderIds_nodup.idxOf_getElem, g.orderIds_nodup.idxOf_getElem] at hlower
  omega

/-! ## Direct neighbours -/

variable {u v : Resource} {id other : String}

theorem dependencies_of_mem
    (hu : u ∈ g.units) :
    g.dependencies u.id =
      .ok ((g.units.filter fun d => u.dependsOn.contains d.id).map (·.id)) := by
  rw [dependencies, g.require_of_mem hu]
  rfl

theorem dependents_of_mem
    (hu : u ∈ g.units) :
    g.dependents u.id = .ok ((dependentsOf g.units u.id).map (·.id)) := by
  rw [dependents, g.require_of_mem hu]
  rfl

/-- Some of the units, in the order in which they are declared. -/
theorem isDeclaredOnce_filter
    (p : Resource → Bool) :
    g.IsDeclaredOnce ((g.units.filter p).map (·.id)) where
  nodup := g.ids_nodup.sublist (List.filter_sublist.map _)
  order := List.filter_sublist.map _

/-- A unit is among some of the units iff its name is among their names. -/
theorem id_mem_map_filter_iff
    (p : Resource → Bool)
    (hu : u ∈ g.units) :
    u.id ∈ (g.units.filter p).map (·.id) ↔ p u = true := by
  constructor
  · intro h
    obtain ⟨v, hv, hid⟩ := List.mem_map.mp h
    obtain ⟨hv, hp⟩ := List.mem_filter.mp hv
    exact g.eq_of_id_eq hv hu hid ▸ hp
  · exact fun hp => List.mem_map_of_mem (List.mem_filter.mpr ⟨hu, hp⟩)

theorem mem_dependents_iff :
    other ∈ (dependentsOf g.units id).map (·.id) ↔ DependsOn g.units other id := by
  simp only [dependentsOf, DependsOn, List.mem_map, List.mem_filter, List.contains_iff_mem]
  constructor
  · rintro ⟨v, ⟨hv, hd⟩, hid⟩
    exact ⟨v, hv, hid, hd⟩
  · rintro ⟨v, hv, hid, hd⟩
    exact ⟨v, ⟨hv, hd⟩, hid⟩

/-! ## Chains -/

/-- Listed dependents are the units that depend on a name. -/
theorem leadsTo_iff :
    g.LeadsTo id other ↔ DependsOn g.units other id := by
  constructor
  · rintro ⟨ids, hids, hmem⟩
    obtain ⟨u, hrequire, hfound⟩ := bind_eq_ok_iff.mp hids
    obtain ⟨_, rfl⟩ := g.require_eq_ok_iff.mp hrequire
    cases hfound
    exact g.mem_dependents_iff.mp hmem
  · rintro ⟨v, hv, rfl, hd⟩
    obtain ⟨u, hu, rfl⟩ := List.mem_map.mp (g.known hv hd)
    exact ⟨_, g.dependents_of_mem hu, g.mem_dependents_iff.mpr ⟨v, hv, rfl, hd⟩⟩

/-- Chains of listed dependents are chains of dependencies, read backwards. -/
theorem transGen_leadsTo_iff :
    TransGen g.LeadsTo id other ↔ DependsVia g.units other id := by
  have hswap : g.LeadsTo = Function.swap (DependsOn g.units) := by
    funext a b
    exact propext g.leadsTo_iff
  rw [hswap, transGen_swap]

/-- What is listed beyond a unit. -/
theorem transitiveDependents_isBeyond
    (hu : u ∈ g.units) :
    ∃ ids, g.transitiveDependents u.id = .ok ids ∧ g.IsBeyond u ids := by
  obtain ⟨ids, hids, hmem⟩ := g.mem_transitiveDependents_iff hu
  have hsub : ids.Sublist g.orderIds := by
    rw [transitiveDependents, g.require_of_mem hu] at hids
    cases hids
    exact List.filter_sublist.map _
  refine ⟨ids, hids, ?_, ?_, hsub, ?_, ?_, ?_⟩
  · intro id
    rw [hmem, g.transGen_leadsTo_iff]
  · exact g.orderIds_nodup.sublist hsub
  · exact g.orderIds_pairwise.sublist hsub
  · exact fun hself => g.acyclic u.id ((hmem u.id).mp hself)
  · intro id hid
    have hknown : id ∈ g.units.map (·.id) := g.mem_orderIds_iff.mp (hsub.subset hid)
    exact ⟨_, _, g.position?_eq_some (List.mem_map_of_mem hu), g.position?_eq_some hknown,
      g.idxOf_lt_of_dependsVia ((hmem id).mp hid)⟩

/-- What is listed around the units of a graph, and that nothing is listed around other names. -/
theorem neighbours :
    (∀ a ∈ g.units, ∀ b ∈ g.units, ∃ below above,
      g.dependencies b.id = .ok below ∧ g.dependents a.id = .ok above ∧
        (a.id ∈ below ↔ b.id ∈ above) ∧ (b.id ∈ above ↔ a.id ∈ b.dependsOn) ∧
        g.IsDeclaredOnce below ∧ g.IsDeclaredOnce above) ∧
    (∀ a ∈ g.units, ∃ beyond, g.transitiveDependents a.id = .ok beyond ∧ g.IsBeyond a beyond) ∧
    ∀ id, id ∉ g.units.map (·.id) →
      g.dependencies id = .error (.unitNotFound id) ∧
        g.dependents id = .error (.unitNotFound id) ∧
        g.transitiveDependents id = .error (.unitNotFound id) := by
  refine ⟨?_, fun a ha => g.transitiveDependents_isBeyond ha, ?_⟩
  · intro a ha b hb
    have hbelow : a.id ∈ (g.units.filter fun d => b.dependsOn.contains d.id).map (·.id) ↔
        a.id ∈ b.dependsOn := by
      rw [g.id_mem_map_filter_iff _ ha, List.contains_iff_mem]
    have habove : b.id ∈ (dependentsOf g.units a.id).map (·.id) ↔ a.id ∈ b.dependsOn := by
      rw [dependentsOf, g.id_mem_map_filter_iff _ hb, List.contains_iff_mem]
    exact ⟨_, _, g.dependencies_of_mem hb, g.dependents_of_mem ha, hbelow.trans habove.symm, habove,
      g.isDeclaredOnce_filter _, g.isDeclaredOnce_filter _⟩
  · intro id hid
    refine ⟨?_, ?_, ?_⟩
    · rw [dependencies, g.require_of_not_mem hid]
      rfl
    · rw [dependents, g.require_of_not_mem hid]
      rfl
    · rw [transitiveDependents, g.require_of_not_mem hid]
      rfl

theorem layered_neighbours :
    (⟨"cluster", .kubernetes, .null, ["network"], 1⟩ ∈ layered.units ∧
      ⟨"addons", .addon, .null, ["cluster", "nodes"], 1⟩ ∈ layered.units ∧
      ∃ below above, layered.dependencies "addons" = .ok below ∧
        layered.dependents "cluster" = .ok above ∧ "cluster" ∈ below ∧ "addons" ∈ above ∧
        layered.IsDeclaredOnce below ∧ layered.IsDeclaredOnce above) ∧
    (∃ beyond, layered.transitiveDependents "network" = .ok beyond ∧
      layered.IsBeyond ⟨"network", .network, .null, [], 1⟩ beyond ∧
      beyond = ["cluster", "nodes", "addons"]) ∧
    "vault" ∉ layered.units.map (·.id) ∧
      layered.transitiveDependents "vault" = .error (.unitNotFound "vault") := by
  have hcluster : ⟨"cluster", .kubernetes, .null, ["network"], 1⟩ ∈ layered.units := by
    simp [layered]
  have haddons : ⟨"addons", .addon, .null, ["cluster", "nodes"], 1⟩ ∈ layered.units := by
    simp [layered]
  have hnetwork : ⟨"network", .network, .null, [], 1⟩ ∈ layered.units := by
    simp [layered]
  have hvault : "vault" ∉ layered.units.map (·.id) := by
    simp [layered]
  obtain ⟨hdirect, hbeyond, hunknown⟩ := layered.neighbours
  obtain ⟨below, above, hbelow, habove, hagree, hneeds, honce, honce'⟩ :=
    hdirect _ hcluster _ haddons
  have hlisted : "addons" ∈ above := hneeds.mpr (by simp)
  obtain ⟨beyond, hlist, hisBeyond⟩ := hbeyond _ hnetwork
  have hvalue : layered.transitiveDependents "network" = .ok ["cluster", "nodes", "addons"] := by
    cbv
  refine ⟨⟨hcluster, haddons, below, above, hbelow, habove, hagree.mpr hlisted, hlisted, honce,
    honce'⟩, ⟨beyond, hlist, hisBeyond, ?_⟩, hvault, (hunknown "vault" hvault).2.2⟩
  exact Except.ok.inj (hlist.symm.trans hvalue)

end Graph
end Provision
