import Provision.Build.Saved
import Provision.Command.Listing
import Provision.Command.Workspace
import Provision.Stack.DryRun

/-!
# Carrying out a command

Input:
* a command, what can be read from disk, the variables of the process environment, and the stamp of a
  build.

Algorithm:
* a document is rendered, a stack is planned, or a stack is planned and then built as a dry run;
* the report of a build is written before the outcome is listed, and nothing is listed if that fails.

Results:
* `Command.course` is how a command ends, or what it writes first; `Course.onTree` follows a course on
  a file tree.
-/

namespace Provision

/-- How a command ends: what it put out, and the error if there is one. -/
structure Ending where
  output : String
  error : Option CommandError
  deriving DecidableEq, Inhabited

namespace Ending

/-- The end of a command that put out all it had to. -/
def success (output : String) : Ending := ⟨output, none⟩

/-- The end of a command that put out nothing. -/
def failure (e : CommandError) : Ending := ⟨"", some e⟩

/-- The end of a command with a result. -/
def ofResult : Except CommandError String → Ending
  | .ok output => success output
  | .error e => failure e

def exit (x : Ending) : Exit := (x.error.map CommandError.exit).getD .success

/-- The path of the document that was missing, if that is why the command ended. -/
def missing? (x : Ending) : Option String :=
  match x.error with
  | some (.stack (.template (.notFound path))) => some path
  | _ => none

end Ending

inductive Course where
  | finish (ending : Ending)
  /-- Writes a text to a path, and ends in one way or another. -/
  | write (path text : String) (ending : Ending)

namespace Course

/-- How a course ends if the file cannot be written. -/
def writeFailure (fault : FileFault) : Ending := .failure (.stack (.build (.files fault.message)))

/-- Follows a course on a file tree. -/
def onTree (tree : FileTree) : Course → Ending × FileTree
  | .finish ending => (ending, tree)
  | .write path text ending =>
    match tree.write path text with
    | .ok tree => (ending, tree)
    | .error fault => (writeFailure fault, tree)

end Course

namespace Command

/-- The text with a line end, unless it has one. -/
def ended (text : String) : String :=
  if text.toList.getLast? = some '\n' then text else text ++ "\n"

def rendered (s : Source) (document : String) (json : Bool) : Except CommandError String := do
  let d ← (s.resolve document).mapError .stack
  if json then
    let t ← Workspace.ofTemplate ((Provision.parse d.path d.text).mapError .config)
    return Shape.tree.toJson t ++ "\n"
  else return ended d.text

/-- The build order and the partitions of a stack. -/
def listed (s : Source) (stack : StackArguments) (json : Bool) : Except CommandError String := do
  let (g, p) ← Workspace.planned s stack
  return if json then Json.pretty (p.orderedTree g) ++ "\n" else p.listing g

/-- Refuses the limit that would let nothing be built. -/
def checkLimit (limit : Option Nat) : Except CommandError Unit :=
  if limit = some 0 then .error (.invalidInput "max concurrency must be positive") else .ok ()

def built (s : Source) (stack : StackArguments) (limit : Option Nat) (stamp : Stamp) :
    Except CommandError Report := do
  let (g, p) ← Workspace.planned s stack
  checkLimit limit
  let registry := Registry.empty.withFallback ()
  let (report, _) ← Workspace.ofBuild
    (build (.ofLimit registry (Clock.runner (DryRun.behaviour s.context)) limit) stamp g p .zero)
  return report

/-- How a command ends that built a stack. -/
def reported (r : Report) : Ending :=
  ⟨r.listing,
    if r.isSuccess then none else some (.incomplete r.failed.length r.order.length)⟩

/-- How a command ends, or what it does before that. -/
def course (disk : Disk) (vars : List (String × String)) (stamp : Stamp) : Command → Course
  | .render document json a =>
    .finish (.ofResult do
      let s ← Workspace.source disk a vars
      rendered s document json)
  | .plan stack json =>
    .finish (.ofResult do
      let s ← Workspace.source disk stack.source vars
      listed s stack json)
  | .apply _ false _ _ =>
    .finish (.failure (.invalidInput "no provisioner is configured; run with --dry-run"))
  | .apply stack true limit path =>
    let result := do
      let s ← Workspace.source disk stack.source vars
      built s stack limit stamp
    match result, path with
    | .error e, _ => .finish (.failure e)
    | .ok r, none => .finish (reported r)
    | .ok r, some path => .write path r.save (reported r)

end Command
end Provision
