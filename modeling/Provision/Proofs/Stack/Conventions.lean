import Provision.Proofs.Shape.Faults
import Provision.Proofs.Shape.Omission
import Provision.Proofs.Stack.Configuration

/-!
# Conventions of configuration

Every type of configuration follows the conventions for shapes, so its errors can be located, and
its collections and optional values are never null.

**Results.**
* `configurationTypes_conventional`: the listed types follow the conventions.
* `Shape.materialize_error_located`: the path of an error names the part of a tree that has the fault.
* `Shape.materialize_null_omitted`: a collection or an optional value can be null or left out.
-/

namespace Provision

open Text (findName?)

namespace Fields

variable {α β : Type} {name : String} {s : Shape α} {rest : Fields β}

@[simp] theorem conventional_nil :
    Fields.nil.Conventional := trivial

/-- A field that must be given cannot be empty. -/
@[simp] theorem conventional_required :
    (Fields.required name s rest).Conventional ↔
      s.emptyValue? = none ∧ s.Conventional ∧ rest.Conventional := by
  simp only [required, Conventional, Absence.value?, Option.eq_none_iff_forall_ne_some]
  simp

@[simp] theorem conventional_optional :
    (Fields.optional name s rest).Conventional ↔ s.Conventional ∧ rest.Conventional := by
  simp [optional, Conventional, Absence.value?, Shape.Conventional, Shape.emptyValue?]

/-- A field that can be empty is empty when it is left out. -/
@[simp] theorem conventional_withDefault
    {value : α} :
    (Fields.withDefault name s value rest).Conventional ↔
      (∀ a ∈ s.emptyValue?, value = a) ∧ s.Conventional ∧ rest.Conventional := by
  simp [withDefault, Conventional, Absence.value?]

end Fields

open Stack in
theorem configurationTypes_conventional :
    ∀ d ∈ configurationTypes, d.shape.Conventional := by
  simp [configurationTypes, SubnetKind.shape, AddressFamily.shape, Tenancy.shape, Subnet.shape,
    SecurityGroup.shape, Network.shape, EndpointAccess.shape, CapacityType.shape, Cluster.shape,
    NodeGroup.shape, QueueRule.shape, Queue.shape, ManagedAddon.shape, ManagedAddons.shape,
    ManagedAddons.none, Chart.shape, Addons.shape, MetricFilter.shape, Alarm.shape, Dashboard.shape,
    Observability.shape, PlatformSpec.shape, ManifestEntry.shape, Manifest.shape,
    Environment.shape, Version.shape, Scope.shape, Scope.empty, Context.shape, Kind.shape,
    Resource.shape, Shape.Conventional, Shape.emptyValue?, Shape.nat, Shape.size, Shape.textSet,
    Shape.entries]

/-! ## Errors -/

/-- If a tree cannot be read as a type of configuration, the path of the error leads to a place in
the tree.  The part of the tree at this place cannot be read as what is declared there, because of
the same fault, and the fault is one of that part. -/
theorem Shape.materialize_error_located :
    ∀ d ∈ configurationTypes, ∀ (document : String) (t : Tree) (error : ConfigError),
      d.shape.materialize document t = .error error →
        ∃ path fault d' put u, error = .misshapen document ⟨path, fault⟩ ∧
          Place (.shape d.shape) path d' put ∧ t = put u ∧
            d'.materialize document u = .error (.misshapen document ⟨[], fault⟩) ∧
              d'.parts.Shows u fault := by
  intro d hd document t error h
  obtain ⟨⟨path, fault⟩, hread, rfl⟩ := mapError_eq_error_iff.mp h
  obtain ⟨d', put, u, hplace, ht, hhere, hshows⟩ :=
    Declared.exists_place_of_error (d := .shape d.shape) (configurationTypes_conventional d hd) hread
  exact ⟨path, fault, d', put, u, rfl, hplace, ht, mapError_eq_error_iff.mpr ⟨_, hhere, rfl⟩, hshows⟩

/-- A subnet with its fields as they are declared. -/
def plainSubnet : Tree :=
  .object [("cidrMask", .nat 24), ("name", .text "app"), ("subnetType", .text "PRIVATE_ISOLATED"),
    ("tags", .object [("costCenter", .text "a"), ("cost_center", .text "b")])]

/-- A network with two subnets, the second of which has two keys for one field. -/
def ambiguousNetwork : Tree :=
  .object [("NAME", .text "main"), ("SUBNETS", .list [plainSubnet, .object
    [("cidrMask", .nat 24), ("cidr_mask", .nat 26), ("name", .text "data")]]),
    ("cidr", .text "10.0.0.0/16")]

/-- The collision is reported at the second subnet, and the declared name of its list is in the
path. -/
theorem ambiguousNetwork_located :
    ∃ d' put u, Place (.shape Stack.Network.shape) [.key "subnets", .index 1] d' put ∧
      ambiguousNetwork = put u ∧
        d'.materialize "network" u =
          .error (.misshapen "network" ⟨[], .collision "cidrMask" "cidr_mask" "cidrMask"⟩) ∧
        d'.parts.Shows u (.collision "cidrMask" "cidr_mask" "cidrMask") := by
  have hmem : ⟨Stack.Network.shape⟩ ∈ configurationTypes := List.mem_of_getElem? (i := 5) rfl
  have herror : Stack.Network.shape.materialize "network" ambiguousNetwork =
      .error (.misshapen "network" ⟨[.key "subnets", .index 1],
        .collision "cidrMask" "cidr_mask" "cidrMask"⟩) := by
    rfl
  obtain ⟨path, fault, d', put, u, heq, hplace, hwhole, hhere, hshows⟩ :=
    Shape.materialize_error_located _ hmem "network" ambiguousNetwork _ herror
  cases heq
  exact ⟨d', put, u, hplace, hwhole, hhere, hshows⟩

/-! ## Null and absence -/

/-- Wherever a type of configuration declares a record, a field with a collection or an optional value
can be null or left out, if no other key stands for it.  The whole tree is read alike, whatever else
is in it; where the record is read, the field is empty. -/
theorem Shape.materialize_null_omitted :
    ∀ d ∈ configurationTypes, ∀ path d' put, Place (.shape d.shape) path d' put →
      ∀ fields, d'.parts = .fields true fields →
        ∀ f ∈ fields, ∀ a, f.shape.emptyValue? = some a →
          ∀ (key : String) (before after : List (String × Tree)),
            findName? (namesOf fields) key = some f.name →
            (∀ e ∈ before ++ after, findName? (namesOf fields) e.1 ≠ some f.name) →
              (∀ document,
                d.shape.materialize document (put (.object (before ++ (key, .null) :: after))) =
                  d.shape.materialize document (put (.object (before ++ after)))) ∧
              f.shape.read .null = .ok a ∧ f.absence.value? = some a := by
  intro d hd path d' put hplace fields hparts f hf a hempty key before after hstands hothers
  have hconventional : (Declared.shape d.shape).Conventional := configurationTypes_conventional d hd
  have hthere := hplace.conventional hconventional
  have hfields := hthere.parts
  rw [hparts] at hfields
  refine ⟨fun document => ?_, Shape.read_null_of_emptyValue hempty, (hfields.2 f hf).empty a hempty⟩
  exact congrArg (Except.mapError (ConfigError.misshapen document))
    (hplace.read_congr hconventional
      (Declared.read_object_null hthere hparts hf hempty hstands hothers))

/-- A network with one subnet. -/
def networkAround (subnet : Tree) : Tree :=
  .object [("cidr", .text "10.0.0.0/16"), ("name", .text "main"), ("Subnets", .list [subnet])]

theorem place_networkAround :
    Place (.shape Stack.Network.shape) [.key "subnets", .index 0] (.shape Stack.Subnet.shape)
      networkAround := by
  have hsubnets : Step (Declared.shape Stack.Network.shape).parts (.key "subnets")
      (.shape (.list Stack.Subnet.shape))
      fun u => .object [("cidr", .text "10.0.0.0/16"), ("name", .text "main"), ("Subnets", u)] :=
    .field (f := ⟨"subnets", .list Stack.Subnet.shape, .default []⟩) "Subnets"
      [("cidr", .text "10.0.0.0/16"), ("name", .text "main")] [] (List.mem_of_getElem? (i := 5) rfl)
      (by decide +kernel)
  have hsubnet : Step (Declared.shape (.list Stack.Subnet.shape)).parts (.index 0)
      (.shape Stack.Subnet.shape) fun u => .list [u] :=
    .item [] []
  -- The composed function is compared with `networkAround` only once it is known.
  have hplace := Place.step hsubnets (.step hsubnet (.root _))
  exact hplace

/-- The tags of the subnet can be null or left out. -/
theorem networkAround_null_omitted :
    Stack.Network.shape.materialize "network" (networkAround (.object [("TAGS", .null),
        ("cidrMask", .nat 24), ("name", .text "app"), ("subnetType", .text "PUBLIC")])) =
      Stack.Network.shape.materialize "network" (networkAround (.object [("cidrMask", .nat 24),
        ("name", .text "app"), ("subnetType", .text "PUBLIC")])) := by
  have hmem : ⟨Stack.Network.shape⟩ ∈ configurationTypes := List.mem_of_getElem? (i := 5) rfl
  have hall := Shape.materialize_null_omitted _ hmem _ _ _ place_networkAround _ rfl
    ⟨"tags", .entries .text, .default []⟩ (List.mem_of_getElem? (i := 5) rfl) [] rfl "TAGS" []
    [("cidrMask", .nat 24), ("name", .text "app"), ("subnetType", .text "PUBLIC")]
    (by decide +kernel) (by decide +kernel)
  exact hall.1 "network"

end Provision
