import Provision.Stack.Naming
import Provision.Build.Clock

/-!
# Dry runs

Input:
* the context of a deployment and a unit.

Algorithm:
* nothing is provisioned; the identifier of a unit is made up from its kind, the region and account
  of the hosted side, and its name, which is the text under `name` in its configuration or else the
  name of the unit.

Results:
* `identifier` is what a unit would be called, `handle` the handle it would get, and `behaviour`
  what its builder does.
-/

namespace Provision
namespace DryRun

/-- The name that a unit goes by. -/
def baseName (u : Resource) : String :=
  match u.config with
  | .object entries =>
    match Entries.find? "name" entries with
    | some (.text s) => s
    | _ => u.id
  | _ => u.id

/-- The identifier of a resource name of a kind. -/
def identifierOf (kind : Kind) (region account name : String) : String :=
  match kind with
  | .network => "arn:aws:ec2:" ++ region ++ ":" ++ account ++ ":vpc/" ++ name
  | .compute => "arn:aws:eks:" ++ region ++ ":" ++ account ++ ":nodegroup/" ++ name
  | .identity => "arn:aws:iam::" ++ account ++ ":role/" ++ name
  | .messaging => "arn:aws:sqs:" ++ region ++ ":" ++ account ++ ":" ++ name
  | .storage => "arn:aws:s3:::" ++ name
  | .kubernetes => "arn:aws:eks:" ++ region ++ ":" ++ account ++ ":cluster/" ++ name
  | .addon => "arn:aws:eks:" ++ region ++ ":" ++ account ++ ":addon/" ++ name
  | .observability => "arn:aws:cloudwatch::" ++ account ++ ":dashboard/" ++ name
  | .custom text => "arn:aws:" ++ text ++ ":" ++ region ++ ":" ++ account ++ ":" ++ name

/-- The identifier that a unit would get. -/
def identifier (c : Context) (u : Resource) : Except BuildError String :=
  match Naming.named c (Naming.nameOf [baseName u]) with
  | .ok name =>
    .ok (identifierOf u.kind (c.hosted.region.getD "") (c.hosted.account.getD "") name)
  | .error e => .error (.buildFailure u.id e.message)

/-- The handle that a unit would get. -/
def handle (c : Context) (u : Resource) (dependencies : Handles) : Except BuildError Handle := do
  let identifier ← identifier c u
  let description := Naming.describe c [u.kind.text, u.id]
  return ((Handle.ofResource u identifier).withOutput "description" (.text description)).withOutput
    "dependsOn" (.texts ((Entries.values dependencies).map (·.identifier)))

/-- What the builder of a call does: it ends at once. -/
def behaviour {β : Type} (c : Context) (call : Call β) : Behaviour :=
  match handle c call.unit call.dependencies with
  | .ok h => ⟨0, .built h⟩
  | .error e => ⟨0, .failed e⟩

end DryRun
end Provision
