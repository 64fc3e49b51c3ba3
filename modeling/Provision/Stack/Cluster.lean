import Provision.Stack.Network

/-!
# Clusters and node groups

Input:
* the document of a cluster or of its node groups.

Algorithm:
* the fields are those of the document; a collection that is left out is empty, and an optional
  field that is left out is absent.

Results:
* the shape of each type reads and writes it.
-/

namespace Provision
namespace Stack

/-- Who reaches the control plane of a cluster. -/
inductive EndpointAccess where
  | publicAndPrivate
  | privateOnly
  | publicOnly
  deriving DecidableEq, Inhabited

def EndpointAccess.choices : Choices EndpointAccess where
  options := [("PUBLIC_AND_PRIVATE", .publicAndPrivate), ("PRIVATE", .privateOnly),
    ("PUBLIC", .publicOnly)]
  label
    | .publicAndPrivate => "PUBLIC_AND_PRIVATE"
    | .privateOnly => "PRIVATE"
    | .publicOnly => "PUBLIC"

def EndpointAccess.shape : Shape EndpointAccess := .choice EndpointAccess.choices

/-- How the machines of a node group are paid for. -/
inductive CapacityType where
  | onDemand
  | spot
  deriving DecidableEq, Inhabited

def CapacityType.choices : Choices CapacityType where
  options := [("ON_DEMAND", .onDemand), ("SPOT", .spot)]
  label
    | .onDemand => "ON_DEMAND"
    | .spot => "SPOT"

def CapacityType.shape : Shape CapacityType := .choice CapacityType.choices

/-- A cluster. Several fields name further documents of the same environment and version. -/
structure Cluster where
  name : String
  version : String
  endpointAccess : EndpointAccess
  prune : Bool
  /-- Path of a document. -/
  rbac : Option String
  /-- Path of a document. -/
  tenancy : Option String
  loggingTypes : List String
  subnetKinds : List SubnetKind
  /-- Path of a list of node groups. -/
  nodeGroups : Option String
  /-- Path of the addons. -/
  addons : Option String
  /-- Path of the interrupt queue. -/
  queue : Option String
  /-- Path of the observability settings. -/
  observability : Option String
  annotations : Entries String
  labels : Entries String
  tags : Entries String

def Cluster.shape : Shape Cluster :=
  .record "struct KubernetesConf" false
    (.required "name" .text <|
      .required "version" .text <|
      .withDefault "endpointAccess" EndpointAccess.shape .publicAndPrivate <|
      .withDefault "prune" .bool false <|
      .optional "rbac" .text <|
      .optional "tenancy" .text <|
      .withDefault "loggingTypes" (.list .text) [] <|
      .withDefault "vpcSubnetTypes" (.list SubnetKind.shape) [] <|
      .optional "nodeGroups" .text <|
      .optional "addons" .text <|
      .optional "sqs" .text <|
      .optional "observability" .text <|
      .withDefault "annotations" (.entries .text) [] <|
      .withDefault "labels" (.entries .text) [] <|
      .withDefault "tags" (.entries .text) [] <|
      .nil)
    { pack := fun (name, version, endpointAccess, prune, rbac, tenancy, loggingTypes,
        subnetKinds, nodeGroups, addons, queue, observability, annotations, labels, tags, ()) =>
        ⟨name, version, endpointAccess, prune, rbac, tenancy, loggingTypes, subnetKinds,
          nodeGroups, addons, queue, observability, annotations, labels, tags⟩
      unpack := fun x => (x.name, x.version, x.endpointAccess, x.prune, x.rbac, x.tenancy,
        x.loggingTypes, x.subnetKinds, x.nodeGroups, x.addons, x.queue, x.observability,
        x.annotations, x.labels, x.tags, ()) }

/-- The kinds of control plane logs, in upper case. -/
def Cluster.logging (c : Cluster) : List String :=
  c.loggingTypes.map fun s => String.ofList (s.toList.map Char.toUpper)

/-- A group of machines of a cluster. -/
structure NodeGroup where
  name : String
  amiType : Option String
  forceUpdate : Bool
  capacityType : CapacityType
  instanceClass : String
  instanceSize : String
  minSize : Nat
  maxSize : Nat
  desiredSize : Nat
  role : Option String
  labels : Entries String
  tags : Entries String

def NodeGroup.shape : Shape NodeGroup :=
  .record "struct NodeGroup" false
    (.required "name" .text <|
      .optional "amiType" .text <|
      .withDefault "forceUpdate" .bool false <|
      .withDefault "capacityType" CapacityType.shape .onDemand <|
      .required "instanceClass" .text <|
      .required "instanceSize" .text <|
      .required "minSize" (.nat 32) <|
      .required "maxSize" (.nat 32) <|
      .required "desiredSize" (.nat 32) <|
      .optional "role" .text <|
      .withDefault "labels" (.entries .text) [] <|
      .withDefault "tags" (.entries .text) [] <|
      .nil)
    { pack := fun (name, amiType, forceUpdate, capacityType, instanceClass, instanceSize,
        minSize, maxSize, desiredSize, role, labels, tags, ()) =>
        ⟨name, amiType, forceUpdate, capacityType, instanceClass, instanceSize, minSize,
          maxSize, desiredSize, role, labels, tags⟩
      unpack := fun x => (x.name, x.amiType, x.forceUpdate, x.capacityType, x.instanceClass,
        x.instanceSize, x.minSize, x.maxSize, x.desiredSize, x.role, x.labels, x.tags, ()) }

/-- Class and size of the machines, such as `m5a.large`. -/
def NodeGroup.instanceType (g : NodeGroup) : String :=
  g.instanceClass ++ "." ++ g.instanceSize

end Stack
end Provision
