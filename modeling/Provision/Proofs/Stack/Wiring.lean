import Provision.Proofs.Graph.Declared
import Provision.Proofs.Lists
import Provision.Proofs.Sorted
import Provision.Stack.Platform

/-!
# How the units of a platform are wired

The units of a platform are written down part by part: the network, the cluster, and then the queue,
the managed addons, the node groups, the charts and the observability, as far as there are any.

**Names.**  The names of two parts differ in their first two letters, and the names in one part
differ from each other, except that two node groups have the same name if theirs are the same once
dots are written as dashes.

**Dependencies.**  A part names only units of the parts before it, and a chart also the charts
before it.

**Results.**
* `Platform.units_declaredAfter`: every unit depends on earlier units only.
* `Platform.units_wellDeclared`: names are distinct if those of the node groups are.
* `Platform.units_verdict`: when the units of a platform are accepted, in which order they are built,
  and which error refuses them otherwise.
-/

namespace Provision

/-- A single name becomes the name of a resource by writing its dots as dashes. -/
theorem Naming.nameOf_singleton
    (name : String) :
    nameOf [name] = replaceChar '.' '-' name := by
  have hdots : ∀ c : Char, (if (if c = '-' then '.' else c) = '.' then '-'
      else if c = '-' then '.' else c) = if c = '.' then '-' else c := by
    intro c
    by_cases hdash : c = '-'
    · simp [hdash]
    · simp [hdash]
  have hjoin : ".".intercalate [name] = name := rfl
  simp only [nameOf, idOf, hjoin, replaceChar, String.toList_ofList, List.map_map]
  exact congrArg String.ofList (List.map_congr_left fun c _ => hdots c)

namespace Stack

theorem nodeGroupId_eq_iff
    {name other : String} :
    nodeGroupId name = nodeGroupId other ↔
      Naming.replaceChar '.' '-' name = Naming.replaceChar '.' '-' other := by
  rw [nodeGroupId, nodeGroupId, Naming.nameOf_singleton, Naming.nameOf_singleton,
    String.append_right_inj]

/-- No two charts have the same name. -/
theorem Addons.charts_names_nodup
    (a : Addons) :
    (a.charts.map (·.1)).Nodup := by
  have hsublist : ∀ slots : List (String × Option Chart),
      ((slots.filterMap fun e => e.2.map fun c => (e.1, c)).map (·.1)).Sublist
        (slots.map (·.1)) := by
    intro slots
    induction slots with
    | nil => exact .slnil
    | cons e rest ih =>
        obtain ⟨name, chart⟩ := e
        cases chart with
        | none => exact ih.cons name
        | some c => exact ih.cons_cons name
  have hslots : ["grafana", "cert-manager", "csi-secrets-store", "aws-secrets-store", "karpenter",
      "aws-load-balancer"].Nodup := by decide
  exact (hsublist _).nodup hslots

namespace ClusterSetup

variable {k : ClusterSetup} {tags : Entries String} {u : Resource} {d : String}

/-! ## Dependencies -/

theorem mem_dependsOn_clusterUnit :
    d ∈ (k.clusterUnit tags).dependsOn ↔ d = "network" :=
  (Resource.mem_dependsOn_withDependencies rfl).trans List.mem_singleton

theorem mem_dependsOn_queue
    (hu : u ∈ k.queueUnits) :
    d ∈ u.dependsOn ↔ d = "cluster" := by
  obtain ⟨queue, _, rfl⟩ := List.mem_map.mp hu
  exact (Resource.mem_dependsOn_withDependencies rfl).trans List.mem_singleton

theorem mem_dependsOn_managed
    (hu : u ∈ k.managedUnits) :
    d ∈ u.dependsOn ↔ d = "cluster" := by
  obtain ⟨addons, _, rfl⟩ := List.mem_map.mp hu
  exact (Resource.mem_dependsOn_withDependencies rfl).trans List.mem_singleton

theorem mem_dependsOn_nodeGroup
    (hu : u ∈ k.nodeGroupUnits) :
    d ∈ u.dependsOn ↔ d = "cluster" ∨ d ∈ k.queueUnits.map (·.id) := by
  obtain ⟨group, _, rfl⟩ := List.mem_map.mp hu
  exact (Resource.mem_dependsOn_withDependencies rfl).trans List.mem_cons

theorem mem_dependsOn_observability
    (hu : u ∈ k.observabilityUnits) :
    d ∈ u.dependsOn ↔ d ∈ k.base ∨ d ∈ k.chartUnits.map (·.id) := by
  obtain ⟨o, _, rfl⟩ := List.mem_map.mp hu
  exact (Resource.mem_dependsOn_withDependencies rfl).trans List.mem_append

/-- A unit of a chart has the name of the chart, and the base and further names as dependencies. -/
theorem exists_of_mem_chartUnitsAfter
    {base before : List String}
    {charts : List (String × Chart)}
    (hu : u ∈ chartUnitsAfter base before charts) :
    ∃ name chart later,
      u = (unitOf (addonId name) .addon Chart.shape chart).withDependencies (base ++ later) := by
  induction charts generalizing before with
  | nil => exact absurd hu List.not_mem_nil
  | cons e rest ih =>
      obtain ⟨name, chart⟩ := e
      rcases List.mem_cons.mp hu with rfl | hu
      · exact ⟨name, chart, before, rfl⟩
      · exact ih hu

/-- Every chart depends on the base, and else only on charts before it. -/
theorem chartUnitsAfter_declaredAfter
    {known base before : List String}
    (hbase : ∀ d ∈ base, d ∈ known)
    (hbefore : ∀ d ∈ before, d ∈ known)
    (charts : List (String × Chart)) :
    DeclaredAfter known (chartUnitsAfter base before charts) := by
  induction charts generalizing known before with
  | nil => exact .of_known fun _ hu => absurd hu List.not_mem_nil
  | cons e rest ih =>
      obtain ⟨name, chart⟩ := e
      refine declaredAfter_cons_iff.mpr ⟨?_, ih ?_ ?_⟩
      · intro d hd
        rcases List.mem_append.mp ((Resource.mem_dependsOn_withDependencies rfl).mp hd) with hd | hd
        · exact hbase d hd
        · exact hbefore d hd
      · exact fun d hd => List.mem_append_left _ (hbase d hd)
      · intro d hd
        rcases List.mem_append.mp hd with hd | hd
        · exact List.mem_append_left _ (hbefore d hd)
        · exact List.mem_append_right _ hd

/-- Every unit of a cluster depends on the network or on earlier units. -/
theorem units_declaredAfter
    (k : ClusterSetup)
    (tags : Entries String) :
    DeclaredAfter ["network"] (k.units tags) := by
  refine declaredAfter_cons_iff.mpr ⟨fun d hd => ?_, ?_⟩
  · rw [mem_dependsOn_clusterUnit.mp hd]
    exact List.mem_singleton_self _
  refine DeclaredAfter.append (.append (.append (.append ?queue ?managed) ?groups) ?charts) ?last
  case queue =>
    refine .of_known fun u hu d hd => ?_
    rw [(mem_dependsOn_queue hu).mp hd]
    exact List.mem_cons_of_mem _ List.mem_cons_self
  case managed =>
    refine .of_known fun u hu d hd => ?_
    rw [(mem_dependsOn_managed hu).mp hd]
    exact List.mem_cons_of_mem _ List.mem_cons_self
  case groups =>
    refine .of_known fun u hu d hd => ?_
    rcases (mem_dependsOn_nodeGroup hu).mp hd with rfl | hqueue
    · exact List.mem_cons_of_mem _ List.mem_cons_self
    · simp only [List.map_append, List.mem_append]
      exact Or.inr (Or.inl hqueue)
  case charts =>
    refine chartUnitsAfter_declaredAfter (fun d hd => ?_) (fun d hd => absurd hd List.not_mem_nil) _
    rw [base, List.map_append, List.mem_append] at hd
    simp only [List.map_append, List.mem_append]
    rcases hd with hd | hd
    · exact Or.inr (Or.inl (Or.inr hd))
    · exact Or.inr (Or.inr hd)
  case last =>
    refine .of_known fun u hu d hd => ?_
    rw [mem_dependsOn_observability hu, base, List.map_append, List.mem_append] at hd
    simp only [List.map_append, List.mem_append]
    rcases hd with (hd | hd) | hd
    · exact Or.inr (Or.inl (Or.inl (Or.inr hd)))
    · exact Or.inr (Or.inl (Or.inr hd))
    · exact Or.inr (Or.inr hd)

/-! ## Names -/

theorem ids_chartUnitsAfter
    (base before : List String)
    (charts : List (String × Chart)) :
    (chartUnitsAfter base before charts).map (·.id) = charts.map fun e => addonId e.1 := by
  induction charts generalizing before with
  | nil => rfl
  | cons e rest ih => exact congrArg _ (ih _)

theorem ids_nodeGroupUnits
    (k : ClusterSetup) :
    k.nodeGroupUnits.map (·.id) = k.nodeGroups.map fun group => nodeGroupId group.name := by
  simp only [nodeGroupUnits, List.map_map]
  rfl

/-- The cluster with other node groups. -/
def withGroups (k : ClusterSetup) (groups : List NodeGroup) : ClusterSetup :=
  { k with nodeGroups := groups }

/-- The units of the first groups do not depend on which groups come after them. -/
theorem nodeGroupUnits_split
    {before after : List NodeGroup}
    {group : NodeGroup}
    (h : k.nodeGroups = before ++ group :: after) :
    ∃ u later, k.nodeGroupUnits = (k.withGroups before).nodeGroupUnits ++ u :: later ∧
      u.id = nodeGroupId group.name := by
  refine ⟨?unit, ?later, ?split, ?name⟩
  case split =>
    rw [nodeGroupUnits, h, List.map_append, List.map_cons]
    rfl
  case name => rfl

end ClusterSetup

namespace Platform

/-- The names of the node groups with their dots written as dashes. -/
def groupNames (p : Platform) : List String :=
  p.setup.toList.flatMap fun k => k.nodeGroups.map fun group =>
    Naming.replaceChar '.' '-' group.name

theorem units_declaredAfter
    (p : Platform) :
    DeclaredAfter [] p.units := by
  refine declaredAfter_cons_iff.mpr ⟨fun d hd => absurd hd List.not_mem_nil, ?_⟩
  cases p.setup with
  | none => exact .of_known fun _ hu => absurd hu List.not_mem_nil
  | some k =>
      have hname : p.networkUnit.id = "network" := rfl
      simpa [hname] using k.units_declaredAfter p.spec.tags

/-- The parts of a platform, each with the two letters that the names of its units start with. -/
def parts (p : Platform) : List (List Char × List Resource) :=
  (['n', 'e'], [p.networkUnit]) :: p.setup.toList.flatMap fun k =>
    [(['c', 'l'], [k.clusterUnit p.spec.tags]), (['i', 'n'], k.queueUnits),
      (['m', 'a'], k.managedUnits), (['n', 'o'], k.nodeGroupUnits), (['a', 'd'], k.chartUnits),
      (['o', 'b'], k.observabilityUnits)]

theorem units_eq_parts
    (p : Platform) :
    p.units = p.parts.flatMap (·.2) := by
  rw [units, parts]
  cases p.setup with
  | none => rfl
  | some k => simp [ClusterSetup.units]

/-- Units of different parts have different names, because these start differently. -/
theorem nodup_of_parts
    {parts : List (List Char × List Resource)}
    (hapart : (parts.map (·.1)).Nodup)
    (hstart : ∀ e ∈ parts, ∀ u ∈ e.2, u.id.toList.take 2 = e.1)
    (hnodup : ∀ e ∈ parts, (e.2.map (·.id)).Nodup) :
    ((parts.flatMap (·.2)).map (·.id)).Nodup := by
  induction parts with
  | nil => exact List.nodup_nil
  | cons e rest ih =>
      obtain ⟨hfirst, hrest⟩ := List.nodup_cons.mp hapart
      rw [List.flatMap_cons, List.map_append, List.nodup_append]
      refine ⟨hnodup e List.mem_cons_self, ?_, ?_⟩
      · exact ih hrest (fun e he => hstart e (List.mem_cons_of_mem _ he))
          fun e he => hnodup e (List.mem_cons_of_mem _ he)
      · intro id hid id' hid' heq
        obtain ⟨u, hu, rfl⟩ := List.mem_map.mp hid
        obtain ⟨v, hv, rfl⟩ := List.mem_map.mp hid'
        obtain ⟨other, hother, hv⟩ := List.mem_flatMap.mp hv
        have hsame : other.1 = e.1 := by
          rw [← hstart e List.mem_cons_self u hu, heq]
          exact (hstart other (List.mem_cons_of_mem _ hother) v hv).symm
        exact hfirst (List.mem_map.mpr ⟨other, hother, hsame⟩)

/-- A part that comes of an optional document has one unit at most. -/
theorem nodup_ids_of_option
    {α : Type}
    (a : Option α)
    (f : α → Resource) :
    ((a.toList.map f).map (·.id)).Nodup := by
  cases a with
  | none => exact List.nodup_nil
  | some a => exact List.nodup_singleton _

/-- Every unit has a name that starts as those of its part do. -/
theorem take_id_of_mem_parts
    {p : Platform}
    {e : List Char × List Resource}
    (he : e ∈ p.parts)
    {u : Resource}
    (hu : u ∈ e.2) :
    u.id.toList.take 2 = e.1 := by
  rw [parts, List.mem_cons, List.mem_flatMap] at he
  rcases he with rfl | ⟨k, _, he⟩
  · rw [List.mem_singleton.mp hu]
    exact (by decide : "network".toList.take 2 = ['n', 'e'])
  simp only [List.mem_cons, List.not_mem_nil, or_false] at he
  rcases he with rfl | rfl | rfl | rfl | rfl | rfl
  · rw [List.mem_singleton.mp hu]
    exact (by decide : "cluster".toList.take 2 = ['c', 'l'])
  · obtain ⟨queue, _, rfl⟩ := List.mem_map.mp hu
    exact (by decide : "interrupt-queue".toList.take 2 = ['i', 'n'])
  · obtain ⟨addons, _, rfl⟩ := List.mem_map.mp hu
    exact (by decide : "managed-addons".toList.take 2 = ['m', 'a'])
  · obtain ⟨group, _, rfl⟩ := List.mem_map.mp hu
    have hgroup : (nodeGroupId group.name).toList.take 2 = ['n', 'o'] := by simp [nodeGroupId]
    exact hgroup
  · obtain ⟨name, chart, later, rfl⟩ := ClusterSetup.exists_of_mem_chartUnitsAfter hu
    have hchart : (addonId name).toList.take 2 = ['a', 'd'] := by simp [addonId]
    exact hchart
  · obtain ⟨o, _, rfl⟩ := List.mem_map.mp hu
    exact (by decide : "observability".toList.take 2 = ['o', 'b'])

/-- In a part no name is repeated, unless node groups share one. -/
theorem nodup_ids_of_mem_parts
    {p : Platform}
    (h : p.groupNames.Nodup)
    {e : List Char × List Resource}
    (he : e ∈ p.parts) :
    (e.2.map (·.id)).Nodup := by
  rw [parts, List.mem_cons, List.mem_flatMap] at he
  rcases he with rfl | ⟨k, hk, he⟩
  · exact List.nodup_singleton _
  simp only [List.mem_cons, List.not_mem_nil, or_false] at he
  rcases he with rfl | rfl | rfl | rfl | rfl | rfl
  · exact List.nodup_singleton _
  · exact nodup_ids_of_option k.queue _
  · exact nodup_ids_of_option k.addons _
  · rw [groupNames, Option.mem_toList.mp hk, Option.toList_some, List.flatMap_singleton,
      List.Nodup, List.pairwise_map] at h
    rw [ClusterSetup.ids_nodeGroupUnits, List.Nodup, List.pairwise_map]
    exact h.imp fun hne heq => hne (nodeGroupId_eq_iff.mp heq)
  · have hcharts : ((k.addons.toList.flatMap Addons.charts).map (·.1)).Nodup := by
      cases k.addons with
      | none => exact List.nodup_nil
      | some addons => simpa using addons.charts_names_nodup
    rw [List.Nodup, List.pairwise_map] at hcharts
    rw [ClusterSetup.chartUnits, ClusterSetup.ids_chartUnitsAfter, List.Nodup, List.pairwise_map]
    exact hcharts.imp fun hne heq => hne ((String.append_right_inj _).mp heq)
  · exact nodup_ids_of_option k.observability _

theorem units_ids_nodup
    {p : Platform}
    (h : p.groupNames.Nodup) :
    (p.units.map (·.id)).Nodup := by
  rw [units_eq_parts]
  refine nodup_of_parts ?_ (fun e he u hu => take_id_of_mem_parts he hu)
    fun e he => nodup_ids_of_mem_parts h he
  rw [parts]
  cases p.setup with
  | none => exact List.nodup_singleton _
  | some k => simp

/-- A unit of a platform is the network, or belongs to one of the parts of the cluster. -/
theorem mem_units_iff
    {p : Platform}
    {u : Resource} :
    u ∈ p.units ↔ u = p.networkUnit ∨ ∃ k, p.setup = some k ∧
      (u = k.clusterUnit p.spec.tags ∨ u ∈ k.queueUnits ∨ u ∈ k.managedUnits ∨
        u ∈ k.nodeGroupUnits ∨ u ∈ k.chartUnits ∨ u ∈ k.observabilityUnits) := by
  rw [units, List.mem_cons, List.mem_flatMap]
  simp only [Option.mem_toList, ClusterSetup.units, List.mem_cons, List.mem_append, or_assoc]

theorem weight_ne_zero
    {p : Platform}
    {u : Resource}
    (hu : u ∈ p.units) :
    u.weight ≠ 0 := by
  rcases mem_units_iff.mp hu with rfl | ⟨k, _, rfl | hu | hu | hu | hu | hu⟩
  · simp [networkUnit, Resource.withWeight]
  · exact Nat.one_ne_zero
  · obtain ⟨queue, _, rfl⟩ := List.mem_map.mp hu
    exact Nat.one_ne_zero
  · obtain ⟨addons, _, rfl⟩ := List.mem_map.mp hu
    simp [Resource.withDependencies, Resource.withWeight]
  · obtain ⟨group, _, rfl⟩ := List.mem_map.mp hu
    exact Nat.one_ne_zero
  · obtain ⟨name, chart, later, rfl⟩ := ClusterSetup.exists_of_mem_chartUnitsAfter hu
    exact Nat.one_ne_zero
  · obtain ⟨o, _, rfl⟩ := List.mem_map.mp hu
    simp [Resource.withDependencies, Resource.withWeight]

theorem units_wellDeclared
    {p : Platform}
    (h : p.groupNames.Nodup) :
    WellDeclared p.units :=
  ⟨units_ids_nodup h, fun _ hu => weight_ne_zero hu⟩

/-- The units that are written down before the charts. -/
def lowerUnits (p : Platform) (k : ClusterSetup) : List Resource :=
  p.networkUnit :: k.clusterUnit p.spec.tags ::
    (k.queueUnits ++ k.managedUnits ++ k.nodeGroupUnits)

theorem units_eq_lowerUnits
    {p : Platform}
    {k : ClusterSetup}
    (h : p.setup = some k) :
    p.units = p.lowerUnits k ++ (k.chartUnits ++ k.observabilityUnits) := by
  rw [units, h]
  simp [lowerUnits, ClusterSetup.units]

theorem lowerUnits_wellDeclared
    (p : Platform)
    {k : ClusterSetup}
    (h : (k.nodeGroups.map fun group => Naming.replaceChar '.' '-' group.name).Nodup) :
    WellDeclared (p.lowerUnits k) := by
  have hnames : (groupNames { p with setup := some k }).Nodup := by
    rw [groupNames, Option.toList_some, List.flatMap_singleton]
    exact h
  have hall := units_wellDeclared hnames
  rw [units_eq_lowerUnits rfl] at hall
  exact hall.of_append

/-- A node group whose name repeats that of an earlier one refuses the units. -/
theorem ofUnits_of_repeated_group
    {p : Platform}
    {k : ClusterSetup}
    (hsetup : p.setup = some k)
    {before after : List NodeGroup}
    {group : NodeGroup}
    (hsplit : k.nodeGroups = before ++ group :: after)
    (hnodup : (before.map fun group => Naming.replaceChar '.' '-' group.name).Nodup)
    (hrepeated : Naming.replaceChar '.' '-' group.name ∈
      before.map fun group => Naming.replaceChar '.' '-' group.name) :
    Graph.ofUnits p.units = .error (.duplicateUnit (nodeGroupId group.name)) := by
  obtain ⟨u, later, hgroups, hid⟩ := ClusterSetup.nodeGroupUnits_split hsplit
  -- the units before the group are those of the platform with the groups before it
  have hunits : p.units = p.lowerUnits (k.withGroups before) ++
      u :: (later ++ k.chartUnits ++ k.observabilityUnits) := by
    rw [units_eq_lowerUnits hsetup, lowerUnits, hgroups, lowerUnits]
    simp [ClusterSetup.withGroups, ClusterSetup.queueUnits, ClusterSetup.managedUnits,
      ClusterSetup.clusterUnit]
  have hmem : nodeGroupId group.name ∈ (k.withGroups before).nodeGroupUnits.map (·.id) := by
    obtain ⟨other, hother, hname⟩ := List.mem_map.mp hrepeated
    rw [ClusterSetup.ids_nodeGroupUnits]
    exact List.mem_map.mpr ⟨other, hother, nodeGroupId_eq_iff.mpr hname⟩
  rw [hunits, ← hid]
  refine Graph.ofUnits_of_repeated (lowerUnits_wellDeclared p hnodup) ?_
  simp only [hid, lowerUnits, List.map_cons, List.map_append, List.mem_cons, List.mem_append]
  exact Or.inr (Or.inr (Or.inr hmem))

/-- The units of a platform come after their dependencies.  If the names of the node groups differ
they are accepted, and built in the order in which they are written down; otherwise the first group
that repeats a name refuses them. -/
theorem units_verdict
    (p : Platform) :
    DeclaredAfter [] p.units ∧
      (p.groupNames.Nodup →
        ∃ g, Graph.ofUnits p.units = .ok g ∧ g.orderIds = p.units.map (·.id)) ∧
      (¬ p.groupNames.Nodup →
        ∃ k before group after, p.setup = some k ∧ k.nodeGroups = before ++ group :: after ∧
          (before.map fun group => Naming.replaceChar '.' '-' group.name).Nodup ∧
          (Naming.replaceChar '.' '-' group.name ∈
            before.map fun group => Naming.replaceChar '.' '-' group.name) ∧
          Graph.ofUnits p.units = .error (.duplicateUnit (nodeGroupId group.name))) := by
  refine ⟨p.units_declaredAfter, fun hnames => ?_, fun hnames => ?_⟩
  · have hbuildable := p.units_declaredAfter.buildable (units_wellDeclared hnames)
    obtain ⟨g, hg, hunits⟩ := Graph.exists_ofUnits_iff.mpr hbuildable
    refine ⟨g, hg, ?_⟩
    rw [Graph.orderIds, Graph.order_of_declaredAfter (hunits ▸ p.units_declaredAfter), hunits]
  · cases hsetup : p.setup with
    | none => simp [groupNames, hsetup] at hnames
    | some k =>
        rw [groupNames, hsetup, Option.toList_some, List.flatMap_singleton] at hnames
        obtain ⟨before, group, after, hsplit, hnodup, hrepeated⟩ := exists_first_repeated _ hnames
        exact ⟨k, before, group, after, rfl, hsplit, hnodup, hrepeated,
          ofUnits_of_repeated_group hsetup hsplit hnodup hrepeated⟩

/-! ## Two platforms with the same parts -/

/-- A network with nothing but a name. -/
def plainNetwork : Network :=
  ⟨"core", "10.0.0.0/16", none, 0, [], [], [], none, true, true, true, []⟩

/-- A cluster that names no documents. -/
def plainCluster : Cluster :=
  ⟨"eks", "1.30", .publicAndPrivate, false, none, none, [], [], none, none, none, none, [], [], []⟩

def plainGroup (name : String) : NodeGroup :=
  ⟨name, none, false, .onDemand, "m5a", "large", 1, 3, 2, none, [], []⟩

def plainChart (name : String) : Chart := ⟨name, "tools", name, "https://charts", none, "1"⟩

/-- A platform with all parts, and node groups with the names. -/
def harbour (groups : List String) : Platform where
  spec := ⟨"network.yaml", some "cluster.yaml", none, []⟩
  network := plainNetwork
  setup := some
    { cluster := plainCluster
      queue := some ⟨"interrupts", none, [], [], []⟩
      nodeGroups := groups.map plainGroup
      addons := some
        ⟨.none, some (plainChart "grafana"), none, none, none, some (plainChart "karpenter"), none⟩
      observability := some ⟨[], [], [], []⟩ }

/-- Names with a dot and a dash in the same place name one unit. -/
theorem harbour_units_verdict :
    (harbour ["core", "batch.jobs"]).groupNames.Nodup ∧
      (∃ g, Graph.ofUnits (harbour ["core", "batch.jobs"]).units = .ok g ∧
        g.orderIds = ["network", "cluster", "interrupt-queue", "managed-addons",
          "node-group-core", "node-group-batch-jobs", "addon-grafana", "addon-karpenter",
          "observability"]) ∧
      ¬ (harbour ["a.b", "core", "a-b"]).groupNames.Nodup ∧
      Graph.ofUnits (harbour ["a.b", "core", "a-b"]).units =
        .error (.duplicateUnit "node-group-a-b") := by
  have hdistinct : (harbour ["core", "batch.jobs"]).groupNames.Nodup := by decide
  have hshared : ¬ (harbour ["a.b", "core", "a-b"]).groupNames.Nodup := by decide
  refine ⟨hdistinct, (units_verdict (harbour ["core", "batch.jobs"])).2.1 hdistinct, hshared, ?_⟩
  obtain ⟨k, before, group, after, hsetup, hsplit, _, hrepeated, herror⟩ :=
    (units_verdict (harbour ["a.b", "core", "a-b"])).2.2 hshared
  cases hsetup
  rw [herror]
  rcases before with _ | ⟨first, _ | ⟨second, _ | ⟨third, before⟩⟩⟩
  · cases hrepeated
  · cases hsplit
    exact absurd hrepeated (by decide)
  · cases hsplit
    rfl
  · simp [plainGroup] at hsplit

end Platform
end Stack
end Provision
