import Provision.Build.Error

/-!
# Resources and their handles

Input:
* the units of a deployment: a name, a kind, a configuration, the units that must be provisioned
  before, and a weight.

Algorithm:
* a kind is known by its name up to spelling; any other text is a kind of its own;
* provisioning a unit gives a handle: an identifier and named outputs, which the units that depend on
  it receive.

Results:
* `Kind.ofText` and `Kind.text` read and write kinds; the text of a kind that was read gives the
  same kind again (`Kind.ofText_text_ofText`).
-/

namespace Provision

inductive Kind where
  | network
  | compute
  | identity
  | messaging
  | storage
  | kubernetes
  | addon
  | observability
  | custom (name : String)
  deriving DecidableEq, Inhabited

namespace Kind

/-- The kinds with a name of their own, in order. -/
def known : List Kind :=
  [.network, .compute, .identity, .messaging, .storage, .kubernetes, .addon, .observability]

def text : Kind → String
  | .network => "network"
  | .compute => "compute"
  | .identity => "identity"
  | .messaging => "messaging"
  | .storage => "storage"
  | .kubernetes => "kubernetes"
  | .addon => "addon"
  | .observability => "observability"
  | .custom name => name

def ofText (s : String) : Kind :=
  match known.find? fun k => Text.sameName k.text s with
  | some k => k
  | none => .custom s

/-- Whether the kind has no name of its own. -/
def isCustom : Kind → Bool
  | .custom _ => true
  | _ => false

/-- The place of a kind among the known ones; the others come after them. -/
def rank (k : Kind) : Nat := known.findIdx (· == k)

/-- The order of kinds: the known ones first, then the others by name. -/
def before (a b : Kind) : Bool :=
  match a, b with
  | .custom m, .custom n => m < n
  | _, _ => a.rank < b.rank

def shape : Shape Kind := .parsed "a string" (fun s => .ok (ofText s)) text

/-- The text of a known kind gives that kind. -/
theorem ofText_text_of_mem :
    ∀ k ∈ known, ofText k.text = k := by
  decide +kernel

/-- The text of a kind that was read gives the same kind again. -/
theorem ofText_text_ofText
    (s : String) :
    ofText (ofText s).text = ofText s := by
  cases h : known.find? fun k => Text.sameName k.text s with
  | some k =>
      have hk : ofText s = k := by simp only [ofText, h]
      rw [hk]
      exact ofText_text_of_mem k (List.mem_of_find?_eq_some h)
  | none =>
      have hs : ofText s = .custom s := by simp only [ofText, h]
      rw [hs]
      exact hs

end Kind

/-- A named piece of infrastructure that is provisioned as a whole. -/
structure Resource where
  id : String
  kind : Kind
  config : Tree
  /-- The units that must be provisioned before, in increasing order. -/
  dependsOn : List String
  /-- The share of a partition's ceiling that the unit takes. -/
  weight : Nat
  deriving Inhabited

namespace Resource

def shape : Shape Resource :=
  .record "struct ResourceUnit" false
    (.required "id" .text <|
      .required "kind" Kind.shape <|
      .withDefault "config" .tree .null <|
      .withDefault "dependsOn" .textSet [] <|
      .withDefault "weight" .size 1 <|
      .nil)
    { pack := fun (id, kind, config, dependsOn, weight, ()) => ⟨id, kind, config, dependsOn, weight⟩
      unpack := fun x => (x.id, x.kind, x.config, x.dependsOn, x.weight, ()) }

/-- A unit of weight one without configuration and dependencies. -/
def ofKind (id : String) (kind : Kind) : Resource := ⟨id, kind, .null, [], 1⟩

def withConfig (r : Resource) (config : Tree) : Resource := { r with config := config }

def withDependencies (r : Resource) (ids : List String) : Resource :=
  { r with dependsOn := Sorted.texts (r.dependsOn ++ ids) }

def withWeight (r : Resource) (weight : Nat) : Resource := { r with weight := weight }

/-- The configuration of the unit as a value of a shape; messages call it by the unit's name. -/
def configAs {α : Type} (r : Resource) (s : Shape α) : Except BuildError α :=
  (s.materialize r.id r.config).mapError (.invalidConfig r.id)

end Resource

structure Handle where
  unitId : String
  kind : Kind
  identifier : String
  outputs : Entries Tree
  deriving Inhabited

namespace Handle

def shape : Shape Handle :=
  .record "struct ProvisionedHandle" false
    (.required "unitId" .text <|
      .required "kind" Kind.shape <|
      .required "identifier" .text <|
      .withDefault "outputs" (.entries .tree) [] <|
      .nil)
    { pack := fun (unitId, kind, identifier, outputs, ()) => ⟨unitId, kind, identifier, outputs⟩
      unpack := fun x => (x.unitId, x.kind, x.identifier, x.outputs, ()) }

/-- A handle of a unit without outputs. -/
def ofResource (r : Resource) (identifier : String) : Handle := ⟨r.id, r.kind, identifier, []⟩

def withOutput (h : Handle) (name : String) (value : Tree) : Handle :=
  { h with outputs := Entries.insert name value h.outputs }

def output? (h : Handle) (name : String) : Option Tree := Entries.find? name h.outputs

end Handle

/-- Handles by the names of their units. -/
abbrev Handles := Entries Handle

namespace Handles

/-- Adds a handle under the name of its unit. -/
def add (hs : Handles) (h : Handle) : Handles := Entries.insert h.unitId h hs

/-- The handles of a kind, in the order of their units. -/
def ofKind (hs : Handles) (kind : Kind) : List Handle :=
  (Entries.values hs).filter fun h => h.kind == kind

end Handles
end Provision
