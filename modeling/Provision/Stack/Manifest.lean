import Provision.Stack.Source
import Provision.Resource

/-!
# Manifests

Input:
* a document that lists the units of a stack.

Algorithm:
* the entries are checked in order when the manifest is loaded, then the ceiling;
* the configuration of a unit is the tree of the document that its entry names, or stands in the
  entry itself.

Results:
* `Manifest.load` reads and checks a manifest, `Manifest.units` gives its units in order.
-/

namespace Provision
namespace Stack

structure ManifestEntry where
  id : String
  kind : Kind
  /-- The path of the document that holds the configuration. -/
  document : Option String
  config : Option Tree
  dependsOn : List String
  weight : Option Nat
  deriving Inhabited

def ManifestEntry.shape : Shape ManifestEntry :=
  .record "struct ManifestUnit" false
    (.required "id" .text <|
      .required "kind" Kind.shape <|
      .optional "document" .text <|
      .optional "config" .tree <|
      .withDefault "dependsOn" (.list .text) [] <|
      .optional "weight" .size <|
      .nil)
    { pack := fun (id, kind, document, config, dependsOn, weight, ()) =>
        ⟨id, kind, document, config, dependsOn, weight⟩
      unpack := fun x => (x.id, x.kind, x.document, x.config, x.dependsOn, x.weight, ()) }

/-- The units of a stack, as they are listed. -/
structure Manifest where
  name : Option String
  ceiling : Option Nat
  units : List ManifestEntry
  deriving Inhabited

namespace Manifest

def shape : Shape Manifest :=
  .record "struct StackManifest" false
    (.optional "name" .text <|
      .optional "ceiling" .size <|
      .withDefault "units" (.list ManifestEntry.shape) [] <|
      .nil)
    { pack := fun (name, ceiling, units, ()) => ⟨name, ceiling, units⟩
      unpack := fun x => (x.name, x.ceiling, x.units, ()) }

/-- What is wrong with an entry after entries with the names met before. -/
def entryFault? (seen : List String) (entry : ManifestEntry) : Option String :=
  if (Text.trim entry.id).isEmpty then some "unit id must not be empty"
  else if entry.document.isSome && entry.config.isSome then
    some ("unit '" ++ entry.id ++ "' sets both document and config")
  else if entry.weight = some 0 then
    some ("unit '" ++ entry.id ++ "' has weight 0; weights must be at least 1")
  else if seen.contains entry.id then some ("unit '" ++ entry.id ++ "' is declared twice")
  else none

/-- What is wrong with the first faulty entry. -/
def entriesFault? : List String → List ManifestEntry → Option String
  | _, [] => none
  | seen, entry :: rest =>
    match entryFault? seen entry with
    | some reason => some reason
    | none => entriesFault? (entry.id :: seen) rest

def fault? (m : Manifest) : Option String :=
  match entriesFault? [] m.units with
  | some reason => some reason
  | none => if m.ceiling = some 0 then some "ceiling must be positive" else none

/-- Reads and checks the manifest at a path. -/
def load (s : Source) (path : String) : Except StackError Manifest := do
  let m ← s.load shape path
  match m.fault? with
  | some reason => .error (.invalidManifest path reason)
  | none => .ok m

def configOf (s : Source) (entry : ManifestEntry) : Except StackError Tree :=
  match entry.document, entry.config with
  | some path, _ => s.tree path
  | none, some config => .ok config
  | none, none => .ok .null

def unitOf (s : Source) (entry : ManifestEntry) : Except StackError Resource := do
  let config ← configOf s entry
  return (((Resource.ofKind entry.id entry.kind).withConfig config).withDependencies
    entry.dependsOn).withWeight (entry.weight.getD 1)

def unitsOf (s : Source) : List ManifestEntry → Except StackError (List Resource)
  | [] => .ok []
  | entry :: rest => do
    let u ← unitOf s entry
    let us ← unitsOf s rest
    return u :: us

/-- The units of a manifest, in order. -/
def resources (m : Manifest) (s : Source) : Except StackError (List Resource) := unitsOf s m.units

end Manifest
end Stack
end Provision
