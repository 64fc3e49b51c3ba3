import Provision.Command.Course
import Std.Time.DateTime.Timestamp

/-!
# The program

Input:
* the arguments of the process, its environment, and the files it may read.

Algorithm:
* the context is read before the command is carried out, documents when the command ends for want of
  one; it is then carried out again with the document at hand;
* what a command puts out goes to standard output, an error to standard error.

Results:
* `main` ends with the exit code of the command.
-/

namespace Provision
namespace Program

/-- The fault that a system error stands for. -/
def faultOf (e : IO.Error) : FileFault :=
  match e with
  | .noFileOrDirectory _ _ _ => .absent
  | .alreadyExists _ _ _ => .occupied
  | .inappropriateType _ code _ => if code = 20 then .notFolder else .isFolder
  | e => .refused e.toString

def readText (path : String) : IO (Except FileFault String) := do
  try
    let content ← IO.FS.readBinFile path
    return (FileTree.file content).text
  catch e => return .error (faultOf e)

def readDocument (root path : String) : IO (Except TemplateError String) := do
  match ← readText (under root path) with
  | .ok text => return .ok text
  | .error .notText => return .error (.unreadable path FileFault.notText.message)
  | .error (.refused reason) => return .error (.unreadable path reason)
  | .error _ => return .error (.notFound path)

/-- Writes a file with the folders on its way. -/
def writeText (path text : String) : IO (Except FileFault Unit) := do
  let folder := "/".intercalate (Text.splitText '/' path).dropLast
  try
    if !folder.isEmpty then IO.FS.createDirAll folder
    IO.FS.writeFile path text
    return .ok ()
  catch e => return .error (faultOf e)

/-- Reads the variables of the process environment. -/
def readVariables : IO (List (String × String)) := do
  match ← readText "/proc/self/environ" with
  | .ok text =>
    return (Text.splitText '\x00' text).filterMap fun entry =>
      match Text.cuts '=' entry.toList with
      | (key, value) :: _ => some (String.ofList key, String.ofList value)
      | [] => none
  | .error _ => return []

/-- Makes a random name for a build. -/
def newBuildId : IO String := do
  let bytes := (← IO.getRandomBytes 16).toList.zipIdx.map fun (b, i) =>
    if i = 6 then b.toNat % 16 + 0x40 else if i = 8 then b.toNat % 64 + 0x80 else b.toNat
  let digits := bytes.flatMap fun b => [Nat.digitChar (b / 16), Nat.digitChar (b % 16)]
  return "-".intercalate ([(0, 8), (8, 4), (12, 4), (16, 4), (20, 12)].map fun (start, n) =>
    String.ofList ((digits.drop start).take n))

def now : IO Instant := do
  let d := (← Std.Time.Timestamp.now).val
  let seconds := d.second.val
  return ⟨seconds / 86400, (seconds % 86400).toNat, d.nano.val.toNat⟩

/-- Carries out a command with the documents known so far, and reads those it is in want of. -/
partial def follow (command : Command) (vars : List (String × String)) (stamp : Stamp)
    (contextText : Except FileFault String)
    (known : Entries (Except TemplateError String)) : IO Course := do
  let store : Store := fun path => (Entries.find? path known).getD (.error (.notFound path))
  let course := command.course ⟨fun _ => contextText, fun _ => store⟩ vars stamp
  match course with
  | .write _ _ _ => return course
  | .finish ending =>
    match ending.missing? with
    | none => return course
    | some path =>
      if Entries.hasKey path known then return course
      else
        let document ← readDocument command.sourceArguments.resources path
        follow command vars stamp contextText (Entries.insert path document known)

def run (command : Command) (vars : List (String × String)) : IO Ending := do
  let contextText ← match command.sourceArguments.context with
    | some path => readText path
    | none => pure (.error .absent)
  let time ← now
  match ← follow command vars ⟨← newBuildId, some time, some time⟩ contextText [] with
  | .finish ending => return ending
  | .write path text ending =>
    match ← writeText path text with
    | .ok () => return ending
    | .error fault => return Course.writeFailure fault

end Program
end Provision

/-- Carries out the command that the arguments ask for. -/
def main (arguments : List String) : IO UInt32 := do
  let vars ← Provision.Program.readVariables
  match Provision.Command.parse arguments vars with
  | .error fault =>
    IO.eprintln ("error: " ++ fault.message)
    return Provision.Exit.invalidInput.code.toUInt32
  | .ok command =>
    let ending ← Provision.Program.run command vars
    IO.print ending.output
    if let some e := ending.error then IO.eprintln ("Error: " ++ e.report)
    return ending.exit.code.toUInt32
