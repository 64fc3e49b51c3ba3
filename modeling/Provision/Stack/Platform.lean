import Provision.Resource
import Provision.Stack.Addons
import Provision.Stack.Cluster
import Provision.Stack.Naming
import Provision.Stack.Network
import Provision.Stack.Observability
import Provision.Stack.Queue

/-!
# Platforms

Input:
* a document that names a network and, if there is one, a cluster; the cluster names the documents
  of its queue, node groups, addons and observability.

Algorithm:
* the documents are read in a fixed order: the platform, the network, the cluster, and then the queue,
  the node groups, the addons and the observability of the cluster;
* the network comes first, the cluster depends on it, and everything else on the cluster; charts and
  observability wait for the managed addons and all node groups, and each chart for the charts before
  it.

Results:
* `Platform.load` reads a platform with all its documents, `Platform.units` gives its units in order.
-/

namespace Provision
namespace Stack

structure PlatformSpec where
  /-- Path of the network. -/
  network : String
  /-- Path of the cluster; there is none if it is left out. -/
  cluster : Option String
  /-- The ceiling of the partitions. -/
  ceiling : Option Nat
  tags : Entries String

def PlatformSpec.shape : Shape PlatformSpec :=
  .record "struct PlatformConf" false
    (.required "network" .text <|
      .optional "kubernetes" .text <|
      .optional "ceiling" .size <|
      .withDefault "tags" (.entries .text) [] <|
      .nil)
    { pack := fun (network, cluster, ceiling, tags, ()) => ⟨network, cluster, ceiling, tags⟩
      unpack := fun x => (x.network, x.cluster, x.ceiling, x.tags, ()) }

/-- A cluster with the documents it names. -/
structure ClusterSetup where
  cluster : Cluster
  queue : Option Queue
  nodeGroups : List NodeGroup
  addons : Option Addons
  observability : Option Observability

/-- A platform with the documents it names. -/
structure Platform where
  spec : PlatformSpec
  network : Network
  setup : Option ClusterSetup

/-- The name of the unit of a node group. -/
def nodeGroupId (name : String) : String := "node-group-" ++ Naming.nameOf [name]

/-- The name of the unit of a chart. -/
def addonId (name : String) : String := "addon-" ++ name

/-- A unit with a configuration of a shape. -/
def unitOf {α : Type} (id : String) (kind : Kind) (s : Shape α) (a : α) : Resource :=
  (Resource.ofKind id kind).withConfig (s.toTree a)

namespace ClusterSetup

/-- Reads the documents that a cluster names. -/
def load (s : Source) (path : String) : Except StackError ClusterSetup := do
  let cluster ← s.load Cluster.shape path
  let queue ← s.load? Queue.shape cluster.queue
  let nodeGroups ← s.load? (.list NodeGroup.shape) cluster.nodeGroups
  let addons ← s.load? Addons.shape cluster.addons
  let observability ← s.load? Observability.shape cluster.observability
  return ⟨cluster, queue, nodeGroups.getD [], addons, observability⟩

def clusterUnit (k : ClusterSetup) (tags : Entries String) : Resource :=
  let cluster :=
    { k.cluster with
      tags := Entries.insertAll tags k.cluster.tags
      loggingTypes := k.cluster.logging }
  (unitOf "cluster" .kubernetes Cluster.shape cluster).withDependencies ["network"]

/-- The unit of the queue, if there is one. -/
def queueUnits (k : ClusterSetup) : List Resource :=
  k.queue.toList.map fun queue =>
    (unitOf "interrupt-queue" .messaging Queue.shape queue).withDependencies ["cluster"]

/-- The unit of the managed addons, if there are addons. -/
def managedUnits (k : ClusterSetup) : List Resource :=
  k.addons.toList.map fun addons =>
    ((unitOf "managed-addons" .addon ManagedAddons.shape addons.managed).withWeight
      (max 1 addons.managed.enabled.length)).withDependencies ["cluster"]

def nodeGroupUnits (k : ClusterSetup) : List Resource :=
  k.nodeGroups.map fun group =>
    (unitOf (nodeGroupId group.name) .compute NodeGroup.shape group).withDependencies
      ("cluster" :: k.queueUnits.map (·.id))

/-- The names of the units that charts and observability wait for. -/
def base (k : ClusterSetup) : List String :=
  (k.managedUnits ++ k.nodeGroupUnits).map (·.id)

/-- The units of charts, each after those with the names before it. -/
def chartUnitsAfter (base : List String) : List String → List (String × Chart) → List Resource
  | _, [] => []
  | before, (name, chart) :: rest =>
    (unitOf (addonId name) .addon Chart.shape chart).withDependencies (base ++ before) ::
      chartUnitsAfter base (before ++ [addonId name]) rest

def chartUnits (k : ClusterSetup) : List Resource :=
  chartUnitsAfter k.base [] (k.addons.toList.flatMap Addons.charts)

/-- The unit of the observability, if there is one. -/
def observabilityUnits (k : ClusterSetup) : List Resource :=
  k.observability.toList.map fun o =>
    ((unitOf "observability" .observability Observability.shape o).withWeight
      (1 + o.metrics.length + o.alarms.length + o.dashboards.length)).withDependencies
      (k.base ++ k.chartUnits.map (·.id))

/-- The units of a cluster, in order. -/
def units (k : ClusterSetup) (tags : Entries String) : List Resource :=
  k.clusterUnit tags :: (k.queueUnits ++ k.managedUnits ++ k.nodeGroupUnits ++ k.chartUnits ++
    k.observabilityUnits)

end ClusterSetup

namespace Platform

/-- Reads a platform and the documents it names. -/
def load (s : Source) (path : String) : Except StackError Platform := do
  let spec ← s.load PlatformSpec.shape path
  let network ← s.load Network.shape spec.network
  match spec.cluster with
  | none => return ⟨spec, network, none⟩
  | some path =>
    let setup ← ClusterSetup.load s path
    return ⟨spec, network, some setup⟩

def networkUnit (p : Platform) : Resource :=
  let network := { p.network with tags := Entries.insertAll p.spec.tags p.network.tags }
  (unitOf "network" .network Network.shape network).withWeight
    (1 + network.subnets.length + network.securityGroups.length)

/-- The units of a platform, in order. -/
def units (p : Platform) : List Resource :=
  p.networkUnit :: (p.setup.toList.flatMap fun k => k.units p.spec.tags)

end Platform
end Stack
end Provision
