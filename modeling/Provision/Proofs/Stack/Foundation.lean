import Provision.Proofs.Stack.Wiring

/-!
# What is built on the network and the cluster

The units of a platform stand on its network and, if there is one, on its cluster.  The queue, the
managed addons and the node groups name the cluster themselves.  Charts and observability name the
managed addons and the node groups, and reach the cluster through any of these.

Where there are neither addons nor node groups, nothing is left that the observability could name.
It then depends on nothing at all, and it is built without regard to the network and the cluster.

**Results.**
* `ClusterSetup.base_eq_nil_iff`: when there is nothing that the upper units could name.
* `Platform.dependsVia_network_iff`, `Platform.dependsVia_cluster_iff`: which units stand on the
  network and on the cluster.
* `Platform.transitiveDependents_foundation`: the lists of these units.
* `Platform.lookout_transitiveDependents`: an observability that does not stand on the network.
-/

namespace Provision

open Relation

/-- If units are built as they are declared, the names downstream of a unit are in this order. -/
theorem Graph.transitiveDependents_eq
    {g : Graph}
    (horder : g.order = g.units)
    {u : Resource}
    (hu : u ∈ g.units)
    {p : Resource → Bool}
    (h : ∀ v ∈ g.units, DependsVia g.units v.id u.id ↔ p v = true) :
    g.transitiveDependents u.id = .ok ((g.units.filter p).map (·.id)) := by
  have hfilter : g.units.filter (fun v => (downstream g.units u.id).contains v.id) =
      g.units.filter p := by
    refine List.filter_congr fun v hv => ?_
    rw [Bool.eq_iff_iff, List.contains_iff_mem, mem_downstream_iff]
    exact h v hv
  rw [transitiveDependents, g.require_of_mem hu, horder, ← hfilter]
  rfl

/-- A unit without dependencies stands on nothing. -/
theorem Graph.not_dependsVia_of_no_dependency
    {g : Graph}
    {u : Resource}
    (hu : u ∈ g.units)
    (h : ∀ d, d ∉ u.dependsOn)
    (id : String) :
    ¬ DependsVia g.units u.id id := by
  intro hvia
  obtain ⟨d, ⟨v, hv, hid, hd⟩, _⟩ := TransGen.head'_iff.mp hvia
  rw [g.eq_of_id_eq hv hu hid] at hd
  exact h d hd

namespace Stack

namespace ClusterSetup

variable {k : ClusterSetup} {u : Resource}

/-- Whether there are neither addons nor node groups. -/
def isBare (k : ClusterSetup) : Bool := k.addons.isNone && k.nodeGroups.isEmpty

/-- Charts and observability have nothing to name if there are neither addons nor node groups. -/
theorem base_eq_nil_iff :
    k.base = [] ↔ k.isBare = true := by
  simp [base, isBare, managedUnits, nodeGroupUnits]

/-- Charts are among the addons. -/
theorem isBare_of_mem_chartUnits
    (hu : u ∈ k.chartUnits) :
    k.isBare = false := by
  cases haddons : k.addons with
  | some a => simp [isBare, haddons]
  | none =>
      rw [chartUnits, haddons] at hu
      exact absurd hu List.not_mem_nil

end ClusterSetup

namespace Platform

variable {p : Platform} {k : ClusterSetup} {u : Resource}

/-- Whether a unit is the observability of a cluster with neither addons nor node groups. -/
def isAdrift (p : Platform) (u : Resource) : Bool :=
  u.id == "observability" && p.setup.any ClusterSetup.isBare

theorem isAdrift_iff :
    p.isAdrift u = true ↔
      u.id = "observability" ∧ ∃ k, p.setup = some k ∧ k.isBare = true := by
  rw [isAdrift, Bool.and_eq_true, beq_iff_eq, Option.any_eq_true]

/-- Only the observability is adrift; it has nothing to name then, and no dependencies. -/
theorem dependsOn_of_isAdrift
    (hu : u ∈ p.units)
    (hadrift : p.isAdrift u = true) :
    ∀ d, d ∉ u.dependsOn := by
  obtain ⟨hid, k, hsetup, hbare⟩ := isAdrift_iff.mp hadrift
  have hbase := ClusterSetup.base_eq_nil_iff.mpr hbare
  rw [ClusterSetup.base, List.map_eq_nil_iff, List.append_eq_nil_iff] at hbase
  have hcharts : ∀ v, v ∉ k.chartUnits := fun v hv => by
    simp [ClusterSetup.isBare_of_mem_chartUnits hv] at hbare
  rcases mem_units_iff.mp hu with rfl | ⟨k', hsetup', hpart⟩
  · exact absurd hid (by decide : "network" ≠ "observability")
  obtain rfl : k' = k := Option.some.inj (hsetup'.symm.trans hsetup)
  rcases hpart with rfl | hu | hu | hu | hu | hu
  · exact absurd hid (by decide : "cluster" ≠ "observability")
  · obtain ⟨queue, _, rfl⟩ := List.mem_map.mp hu
    exact absurd hid (by decide : "interrupt-queue" ≠ "observability")
  · rw [hbase.1] at hu
    exact absurd hu List.not_mem_nil
  · rw [hbase.2] at hu
    exact absurd hu List.not_mem_nil
  · exact absurd hu (hcharts u)
  · intro d hd
    rw [ClusterSetup.mem_dependsOn_observability hu, ClusterSetup.base, hbase.1, hbase.2] at hd
    rcases hd with hd | hd
    · exact absurd hd List.not_mem_nil
    · obtain ⟨v, hv, _⟩ := List.mem_map.mp hd
      exact hcharts v hv

/-- Every part that is named by upper units stands on the cluster. -/
theorem dependsVia_cluster_of_mem_base
    (hsetup : p.setup = some k)
    {d : String}
    (hd : d ∈ k.base) :
    DependsVia p.units d "cluster" := by
  obtain ⟨v, hv, rfl⟩ := List.mem_map.mp hd
  rcases List.mem_append.mp hv with hv | hv
  · have hmem : v ∈ p.units := mem_units_iff.mpr (Or.inr ⟨k, hsetup, by simp [hv]⟩)
    exact .single ⟨v, hmem, rfl, (ClusterSetup.mem_dependsOn_managed hv).mpr rfl⟩
  · have hmem : v ∈ p.units := mem_units_iff.mpr (Or.inr ⟨k, hsetup, by simp [hv]⟩)
    exact .single ⟨v, hmem, rfl, (ClusterSetup.mem_dependsOn_nodeGroup hv).mpr (Or.inl rfl)⟩

/-- A unit that names the base stands on the cluster, unless the base is empty. -/
theorem dependsVia_cluster_of_base
    (hsetup : p.setup = some k)
    (hbare : k.isBare = false)
    (hu : u ∈ p.units)
    (hdepends : ∀ d ∈ k.base, d ∈ u.dependsOn) :
    DependsVia p.units u.id "cluster" := by
  have hbase : k.base ≠ [] := by simp [ClusterSetup.base_eq_nil_iff, hbare]
  obtain ⟨d, hd⟩ := List.exists_mem_of_ne_nil _ hbase
  exact .head ⟨u, hu, rfl, hdepends d hd⟩ (dependsVia_cluster_of_mem_base hsetup hd)

/-- Every unit stands on the cluster, except for the network, the cluster itself and an
observability that is adrift. -/
theorem dependsVia_cluster
    (hsetup : p.setup = some k)
    (hu : u ∈ p.units)
    (hnetwork : u.id ≠ "network")
    (hcluster : u.id ≠ "cluster")
    (hadrift : p.isAdrift u = false) :
    DependsVia p.units u.id "cluster" := by
  rcases mem_units_iff.mp hu with rfl | ⟨k', hsetup', hpart⟩
  · exact absurd rfl hnetwork
  obtain rfl : k' = k := Option.some.inj (hsetup'.symm.trans hsetup)
  rcases hpart with rfl | hpart | hpart | hpart | hpart | hpart
  · exact absurd rfl hcluster
  · exact .single ⟨u, hu, rfl, (ClusterSetup.mem_dependsOn_queue hpart).mpr rfl⟩
  · exact .single ⟨u, hu, rfl, (ClusterSetup.mem_dependsOn_managed hpart).mpr rfl⟩
  · exact .single ⟨u, hu, rfl, (ClusterSetup.mem_dependsOn_nodeGroup hpart).mpr (Or.inl rfl)⟩
  · refine dependsVia_cluster_of_base hsetup (ClusterSetup.isBare_of_mem_chartUnits hpart) hu ?_
    obtain ⟨name, chart, later, rfl⟩ := ClusterSetup.exists_of_mem_chartUnitsAfter hpart
    intro d hd
    exact (Resource.mem_dependsOn_withDependencies rfl).mpr (List.mem_append_left _ hd)
  · have hbare : k'.isBare = false := by
      by_contra hbare
      have hid : u.id = "observability" := by
        obtain ⟨o, _, rfl⟩ := List.mem_map.mp hpart
        rfl
      have htrue := isAdrift_iff.mpr ⟨hid, k', hsetup, Bool.eq_true_of_not_eq_false hbare⟩
      exact Bool.false_ne_true (hadrift.symm.trans htrue)
    refine dependsVia_cluster_of_base hsetup hbare hu fun d hd => ?_
    exact (ClusterSetup.mem_dependsOn_observability hpart).mpr (Or.inl hd)

section Foundation

variable {g : Graph} (hg : g.units = p.units)
include hg

/-- The network stands on nothing, and neither does an observability that is adrift. -/
theorem not_dependsVia_of_network_or_adrift
    (hu : u ∈ p.units)
    (h : u.id = "network" ∨ p.isAdrift u = true)
    (id : String) :
    ¬ DependsVia p.units u.id id := by
  have hnone : ∀ d, d ∉ u.dependsOn := by
    rcases h with hname | hadrift
    · have hnetwork : p.networkUnit ∈ g.units := hg ▸ List.mem_cons_self
      rw [g.eq_of_id_eq (hg ▸ hu) hnetwork hname]
      exact fun _ => List.not_mem_nil
    · exact dependsOn_of_isAdrift hu hadrift
  rw [← hg]
  exact g.not_dependsVia_of_no_dependency (hg ▸ hu) hnone id

theorem dependsVia_cluster_iff
    (hsetup : p.setup = some k)
    (hu : u ∈ p.units) :
    DependsVia p.units u.id "cluster" ↔
      u.id ≠ "network" ∧ u.id ≠ "cluster" ∧ p.isAdrift u = false := by
  constructor
  · intro hvia
    refine ⟨fun hname => ?_, fun hname => ?_, Bool.eq_false_of_not_eq_true fun hadrift => ?_⟩
    · exact not_dependsVia_of_network_or_adrift hg hu (Or.inl hname) _ hvia
    · rw [hname, ← hg] at hvia
      exact g.acyclic _ hvia
    · exact not_dependsVia_of_network_or_adrift hg hu (Or.inr hadrift) _ hvia
  · rintro ⟨hnetwork, hcluster, hadrift⟩
    exact dependsVia_cluster hsetup hu hnetwork hcluster hadrift

theorem dependsVia_network_iff
    (hu : u ∈ p.units) :
    DependsVia p.units u.id "network" ↔ u.id ≠ "network" ∧ p.isAdrift u = false := by
  constructor
  · intro hvia
    refine ⟨fun hname => ?_, Bool.eq_false_of_not_eq_true fun hadrift => ?_⟩
    · exact not_dependsVia_of_network_or_adrift hg hu (Or.inl hname) _ hvia
    · exact not_dependsVia_of_network_or_adrift hg hu (Or.inr hadrift) _ hvia
  · rintro ⟨hnetwork, hadrift⟩
    rcases mem_units_iff.mp hu with rfl | ⟨k, hsetup, _⟩
    · exact absurd rfl hnetwork
    · have hmem : k.clusterUnit p.spec.tags ∈ p.units :=
        mem_units_iff.mpr (Or.inr ⟨k, hsetup, Or.inl rfl⟩)
      have hstep : DependsOn p.units "cluster" "network" :=
        ⟨_, hmem, rfl, ClusterSetup.mem_dependsOn_clusterUnit.mpr rfl⟩
      by_cases hcluster : u.id = "cluster"
      · rw [hcluster]
        exact .single hstep
      · exact .tail (dependsVia_cluster hsetup hu hnetwork hcluster hadrift) hstep

end Foundation

/-- All units but the network are downstream of it, and all units but the network and the cluster
are downstream of the cluster; the only exception is the observability of a cluster with neither
addons nor node groups, which is downstream of neither. -/
theorem transitiveDependents_foundation
    {g : Graph}
    (h : Graph.ofUnits p.units = .ok g) :
    g.transitiveDependents "network" =
        .ok ((p.units.filter fun u => u.id != "network" && !p.isAdrift u).map (·.id)) ∧
      ∀ k, p.setup = some k → g.transitiveDependents "cluster" =
        .ok ((p.units.filter fun u =>
          u.id != "network" && u.id != "cluster" && !p.isAdrift u).map (·.id)) := by
  have hg := Graph.ofUnits_eq_ok_iff.mp h
  have horder := Graph.order_of_declaredAfter (hg ▸ p.units_declaredAfter)
  rw [← hg]
  refine ⟨?_, fun k hsetup => ?_⟩
  · have hnetwork : p.networkUnit ∈ g.units := hg ▸ List.mem_cons_self
    refine Graph.transitiveDependents_eq horder hnetwork fun v hv => ?_
    rw [hg] at hv ⊢
    show DependsVia p.units v.id "network" ↔ _
    simpa using dependsVia_network_iff hg hv
  · have hcluster : k.clusterUnit p.spec.tags ∈ g.units :=
      hg ▸ mem_units_iff.mpr (Or.inr ⟨k, hsetup, Or.inl rfl⟩)
    refine Graph.transitiveDependents_eq horder hcluster fun v hv => ?_
    rw [hg] at hv ⊢
    show DependsVia p.units v.id "cluster" ↔ _
    simpa [and_assoc] using dependsVia_cluster_iff hg hsetup hv

/-! ## An observability on its own -/

/-- A cluster with an observability and nothing else. -/
def lookout : Platform where
  spec := ⟨"network.yaml", some "cluster.yaml", none, []⟩
  network := plainNetwork
  setup := some ⟨plainCluster, none, [], none, some ⟨[], [], [], []⟩⟩

/-- With a queue, groups and charts everything stands on the network; without addons and groups the
observability does not. -/
theorem lookout_transitiveDependents :
    (∃ g, Graph.ofUnits (harbour ["core"]).units = .ok g ∧
      g.transitiveDependents "network" = .ok ["cluster", "interrupt-queue", "managed-addons",
        "node-group-core", "addon-grafana", "addon-karpenter", "observability"]) ∧
    lookout.units.map (·.id) = ["network", "cluster", "observability"] ∧
    ∃ g, Graph.ofUnits lookout.units = .ok g ∧
      g.transitiveDependents "network" = .ok ["cluster"] ∧
      g.transitiveDependents "cluster" = .ok [] := by
  have haccepted : ∀ p : Platform, p.groupNames.Nodup → ∃ g, Graph.ofUnits p.units = .ok g := by
    intro p hnames
    have hbuildable := p.units_declaredAfter.buildable (units_wellDeclared hnames)
    obtain ⟨g, hg, _⟩ := Graph.exists_ofUnits_iff.mpr hbuildable
    exact ⟨g, hg⟩
  obtain ⟨g, hg⟩ := haccepted (harbour ["core"]) (by decide)
  obtain ⟨g', hg'⟩ := haccepted lookout (by decide)
  obtain ⟨hnetwork, _⟩ := transitiveDependents_foundation hg
  obtain ⟨hnetwork', hcluster'⟩ := transitiveDependents_foundation hg'
  exact ⟨⟨g, hg, hnetwork⟩, rfl, g', hg', hnetwork', hcluster' _ rfl⟩

end Platform
end Stack
end Provision
