import Provision.Build.Plan
import Provision.Command.Arguments
import Provision.Command.Error
import Provision.Stack.Manifest
import Provision.Stack.Platform

/-!
# Workspaces

Input:
* what can be read from disk, the arguments of a command, and the variables of the process
  environment.

Algorithm:
* the context is loaded, the variables of the process environment are laid over it, then the
  environment and the version are settled, and last the overrides are read;
* an environment or a version that is not given is the one that the host of the context is set to;
* a stack is read from its manifest or its platform; a ceiling that is given goes before the one in
  the document.

Results:
* `Workspace.source` gives the source of the documents, `Workspace.planned` the graph of a stack and
  its plan, or the first error.
-/

namespace Provision

structure Disk where
  /-- The text of the file at a path. -/
  text : String → Except FileFault String
  /-- The documents below a folder. -/
  store : String → Store

/-- What can be read from a file tree. -/
def FileTree.disk (tree : FileTree) : Disk := ⟨tree.textAt, Store.ofFiles tree⟩

namespace Workspace

/-- The context of a command before the process environment is laid over it. -/
def savedContext (disk : Disk) : Option String → Except CommandError Context
  | none => .ok .empty
  | some path => (Context.shape.loadFrom path (disk.text path)).mapError (.context path)

def ofTemplate {α : Type} (r : Except TemplateError α) : Except CommandError α :=
  r.mapError fun e => .stack (.template e)

def ofBuild {α : Type} (r : Except BuildError α) : Except CommandError α :=
  r.mapError fun e => .stack (.build e)

def context (disk : Disk) (a : SourceArguments) (vars : List (String × String)) :
    Except CommandError Context := do
  let saved ← savedContext disk a.context
  ofTemplate (saved.overlay vars)

/-- A setting that is given, or else the one of the host. -/
def settle {α : Type} (name : String) (read : String → Except TemplateError α)
    (given : Option String) (ofHost : Option α) : Except CommandError α :=
  match given, ofHost with
  | some s, _ => ofTemplate (read s)
  | none, some a => .ok a
  | none, none =>
    .error (.invalidInput ("no " ++ name ++ " given and the context has no host " ++ name))

/-- Reads a name and a value, divided at the first equals sign. -/
def readOverride (written : String) : Except CommandError (String × Tree) :=
  match Text.cuts '=' written.toList with
  | (name, value) :: _ =>
    .ok (Text.trim (String.ofList name), .text (String.ofList value))
  | [] => .error (.invalidInput ("override '" ++ written ++ "' is not NAME=VALUE"))

/-- Reads overrides; of equal names the last one counts. -/
def readOverrides (written : List String) : Except CommandError Variables := do
  let pairs ← written.mapM readOverride
  return Entries.ofList pairs

/-- The source of the documents of a command. -/
def source (disk : Disk) (a : SourceArguments) (vars : List (String × String)) :
    Except CommandError Source := do
  let c ← context disk a vars
  let e ← settle "environment" Environment.ofText a.environment c.host.environment
  let v ← settle "version" Version.ofText a.version c.host.version
  let overrides ← readOverrides a.overrides
  return ⟨disk.store a.resources, c, e, v, overrides⟩

/-- The units of a stack and the ceiling that its document sets. -/
def units (s : Source) (a : StackArguments) :
    Except StackError (List Resource × Option Nat) := do
  if a.blueprint then
    let platform ← Stack.Platform.load s a.document
    return (platform.units, platform.spec.ceiling)
  else
    let manifest ← Stack.Manifest.load s a.document
    let us ← manifest.resources s
    return (us, manifest.ceiling)

/-- The plan of a graph under a ceiling, if there is one. -/
def planUnder (g : Graph) : Option Nat → Except BuildError Plan
  | some ceiling => Plan.cut g ceiling
  | none => .ok (.single g)

/-- The graph of a stack and its plan. -/
def planned (s : Source) (a : StackArguments) : Except CommandError (Graph × Plan) := do
  let (us, ceiling) ← (units s a).mapError .stack
  let g ← ofBuild (Graph.ofUnits us)
  let p ← ofBuild (planUnder g (a.ceiling.or ceiling))
  return (g, p)

end Workspace
end Provision
