import Provision.Shape.Read
import Provision.Shape.Write

/-!
# Networks

Input:
* the document of a network.

Algorithm:
* the fields are those of the document; a collection that is left out is empty, and an optional
  field that is left out is absent.

Results:
* the shape of each type reads and writes it.
-/

namespace Provision
namespace Stack

inductive SubnetKind where
  | privateIsolated
  | privateWithEgress
  | isPublic
  deriving DecidableEq, Inhabited

def SubnetKind.choices : Choices SubnetKind where
  options := [("PRIVATE_ISOLATED", .privateIsolated), ("PRIVATE_WITH_EGRESS", .privateWithEgress),
    ("PUBLIC", .isPublic)]
  label
    | .privateIsolated => "PRIVATE_ISOLATED"
    | .privateWithEgress => "PRIVATE_WITH_EGRESS"
    | .isPublic => "PUBLIC"

def SubnetKind.shape : Shape SubnetKind := .choice SubnetKind.choices

inductive AddressFamily where
  | ipv4Only
  | dualStack
  deriving DecidableEq, Inhabited

def AddressFamily.choices : Choices AddressFamily where
  options := [("IPV4_ONLY", .ipv4Only), ("DUAL_STACK", .dualStack)]
  label
    | .ipv4Only => "IPV4_ONLY"
    | .dualStack => "DUAL_STACK"

def AddressFamily.shape : Shape AddressFamily := .choice AddressFamily.choices

inductive Tenancy where
  | shared
  | dedicated
  deriving DecidableEq, Inhabited

def Tenancy.choices : Choices Tenancy where
  options := [("DEFAULT", .shared), ("DEDICATED", .dedicated)]
  label
    | .shared => "DEFAULT"
    | .dedicated => "DEDICATED"

def Tenancy.shape : Shape Tenancy := .choice Tenancy.choices

structure Subnet where
  name : String
  kind : SubnetKind
  cidrMask : Nat
  reserved : Bool
  mapPublicIpOnLaunch : Bool
  tags : Entries String

def Subnet.shape : Shape Subnet :=
  .record "struct Subnet" false
    (.required "name" .text <|
      .required "subnetType" SubnetKind.shape <|
      .required "cidrMask" (.nat 8) <|
      .withDefault "reserved" .bool false <|
      .withDefault "mapPublicIpOnLaunch" .bool false <|
      .withDefault "tags" (.entries .text) [] <|
      .nil)
    { pack := fun (name, kind, cidrMask, reserved, mapPublicIpOnLaunch, tags, ()) =>
        ⟨name, kind, cidrMask, reserved, mapPublicIpOnLaunch, tags⟩
      unpack := fun x => (x.name, x.kind, x.cidrMask, x.reserved, x.mapPublicIpOnLaunch,
        x.tags, ()) }

structure SecurityGroup where
  name : String
  description : Option String
  disableInlineRules : Bool
  allowAllOutbound : Bool
  ingressRules : List Tree
  egressRules : List Tree
  tags : Entries String

def SecurityGroup.shape : Shape SecurityGroup :=
  .record "struct SecurityGroup" false
    (.required "name" .text <|
      .optional "description" .text <|
      .withDefault "disableInlineRules" .bool false <|
      .withDefault "allowAllOutbound" .bool false <|
      .withDefault "ingressRules" (.list .tree) [] <|
      .withDefault "egressRules" (.list .tree) [] <|
      .withDefault "tags" (.entries .text) [] <|
      .nil)
    { pack := fun (name, description, disableInlineRules, allowAllOutbound, ingressRules,
        egressRules, tags, ()) =>
        ⟨name, description, disableInlineRules, allowAllOutbound, ingressRules, egressRules, tags⟩
      unpack := fun x => (x.name, x.description, x.disableInlineRules, x.allowAllOutbound,
        x.ingressRules, x.egressRules, x.tags, ()) }

/-- The network that everything else stands on. -/
structure Network where
  name : String
  cidr : String
  addressFamily : Option AddressFamily
  natGateways : Nat
  securityGroups : List SecurityGroup
  subnets : List Subnet
  availabilityZones : List String
  defaultTenancy : Option Tenancy
  createInternetGateway : Bool
  enableDnsHostnames : Bool
  enableDnsSupport : Bool
  tags : Entries String

def Network.shape : Shape Network :=
  .record "struct NetworkConf" false
    (.required "name" .text <|
      .required "cidr" .text <|
      .optional "ipProtocol" AddressFamily.shape <|
      .withDefault "natGateways" (.nat 32) 0 <|
      .withDefault "securityGroups" (.list SecurityGroup.shape) [] <|
      .withDefault "subnets" (.list Subnet.shape) [] <|
      .withDefault "availabilityZones" (.list .text) [] <|
      .optional "defaultInstanceTenancy" Tenancy.shape <|
      .withDefault "createInternetGateway" .bool false <|
      .withDefault "enableDnsHostnames" .bool false <|
      .withDefault "enableDnsSupport" .bool false <|
      .withDefault "tags" (.entries .text) [] <|
      .nil)
    { pack := fun (name, cidr, addressFamily, natGateways, securityGroups, subnets,
        availabilityZones, defaultTenancy, createInternetGateway, enableDnsHostnames,
        enableDnsSupport, tags, ()) =>
        ⟨name, cidr, addressFamily, natGateways, securityGroups, subnets, availabilityZones,
          defaultTenancy, createInternetGateway, enableDnsHostnames, enableDnsSupport, tags⟩
      unpack := fun x => (x.name, x.cidr, x.addressFamily, x.natGateways, x.securityGroups,
        x.subnets, x.availabilityZones, x.defaultTenancy, x.createInternetGateway,
        x.enableDnsHostnames, x.enableDnsSupport, x.tags, ()) }

end Stack
end Provision
