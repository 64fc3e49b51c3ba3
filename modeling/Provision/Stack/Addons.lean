import Provision.Shape.Read
import Provision.Shape.Write

/-!
# Addons

Input:
* the document of the addons of a cluster.

Algorithm:
* the fields are those of the document; a collection that is left out is empty, and an optional
  field that is left out is absent.

Results:
* the shape of each type reads and writes it.
-/

namespace Provision
namespace Stack

structure ManagedAddon where
  name : String
  version : Option String
  configurationValues : Option String
  preserveOnDelete : Bool
  resolveConflicts : Option String
  serviceAccount : Option String
  tags : Entries String

def ManagedAddon.shape : Shape ManagedAddon :=
  .record "struct ManagedAddon" false
    (.required "name" .text <|
      .optional "version" .text <|
      .optional "configurationValues" .text <|
      .withDefault "preserveOnDelete" .bool false <|
      .optional "resolveConflicts" .text <|
      .optional "serviceAccount" .text <|
      .withDefault "tags" (.entries .text) [] <|
      .nil)
    { pack := fun (name, version, configurationValues, preserveOnDelete, resolveConflicts,
        serviceAccount, tags, ()) =>
        ⟨name, version, configurationValues, preserveOnDelete, resolveConflicts, serviceAccount,
          tags⟩
      unpack := fun x => (x.name, x.version, x.configurationValues, x.preserveOnDelete,
        x.resolveConflicts, x.serviceAccount, x.tags, ()) }

structure ManagedAddons where
  blockStorage : Option ManagedAddon
  networkInterface : Option ManagedAddon
  nameService : Option ManagedAddon
  proxy : Option ManagedAddon
  insights : Option ManagedAddon
  identityAgent : Option ManagedAddon

def ManagedAddons.shape : Shape ManagedAddons :=
  .record "struct ManagedAddons" false
    (.optional "awsEbsCsi" ManagedAddon.shape <|
      .optional "awsVpcCni" ManagedAddon.shape <|
      .optional "coreDns" ManagedAddon.shape <|
      .optional "kubeProxy" ManagedAddon.shape <|
      .optional "containerInsights" ManagedAddon.shape <|
      .optional "podIdentityAgent" ManagedAddon.shape <|
      .nil)
    { pack := fun (blockStorage, networkInterface, nameService, proxy, insights,
        identityAgent, ()) =>
        ⟨blockStorage, networkInterface, nameService, proxy, insights, identityAgent⟩
      unpack := fun x => (x.blockStorage, x.networkInterface, x.nameService, x.proxy,
        x.insights, x.identityAgent, ()) }

def ManagedAddons.none : ManagedAddons := ⟨.none, .none, .none, .none, .none, .none⟩

/-- The addons that are set, in the order in which they are installed. -/
def ManagedAddons.enabled (m : ManagedAddons) : List ManagedAddon :=
  [m.networkInterface, m.proxy, m.nameService, m.identityAgent, m.blockStorage,
    m.insights].filterMap id

/-- A chart that is installed into a cluster. -/
structure Chart where
  name : String
  namespaceName : String
  release : String
  repository : String
  /-- Path of the values. -/
  values : Option String
  version : String

def Chart.shape : Shape Chart :=
  .record "struct HelmChart" false
    (.required "name" .text <|
      .required "namespace" .text <|
      .required "release" .text <|
      .required "repository" .text <|
      .optional "values" .text <|
      .required "version" .text <|
      .nil)
    { pack := fun (name, namespaceName, release, repository, values, version, ()) =>
        ⟨name, namespaceName, release, repository, values, version⟩
      unpack := fun x => (x.name, x.namespaceName, x.release, x.repository, x.values,
        x.version, ()) }

structure Addons where
  managed : ManagedAddons
  grafana : Option Chart
  certManager : Option Chart
  csiSecretsStore : Option Chart
  awsSecretsStore : Option Chart
  karpenter : Option Chart
  awsLoadBalancer : Option Chart

def Addons.shape : Shape Addons :=
  .record "struct AddonsConf" false
    (.withDefault "managed" ManagedAddons.shape .none <|
      .optional "grafana" Chart.shape <|
      .optional "certManager" Chart.shape <|
      .optional "csiSecretsStore" Chart.shape <|
      .optional "awsSecretsStore" Chart.shape <|
      .optional "karpenter" Chart.shape <|
      .optional "awsLoadBalancer" Chart.shape <|
      .nil)
    { pack := fun (managed, grafana, certManager, csiSecretsStore, awsSecretsStore,
        karpenter, awsLoadBalancer, ()) =>
        ⟨managed, grafana, certManager, csiSecretsStore, awsSecretsStore, karpenter,
          awsLoadBalancer⟩
      unpack := fun x => (x.managed, x.grafana, x.certManager, x.csiSecretsStore,
        x.awsSecretsStore, x.karpenter, x.awsLoadBalancer, ()) }

/-- The charts that are set, under the names of their units and in the order in which they are
installed. -/
def Addons.charts (a : Addons) : List (String × Chart) :=
  [("grafana", a.grafana), ("cert-manager", a.certManager),
    ("csi-secrets-store", a.csiSecretsStore), ("aws-secrets-store", a.awsSecretsStore),
    ("karpenter", a.karpenter), ("aws-load-balancer", a.awsLoadBalancer)].filterMap
    fun e => e.2.map fun c => (e.1, c)

end Stack
end Provision
