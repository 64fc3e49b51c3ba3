import Provision.Stack.Source

/-!
# Errors of commands

Input:
* why a command cannot be carried out.

Algorithm:
* the report of an error is its wording, followed by the wording of every cause behind it;
* an error that only passes on another one has the causes and the exit of that one.

Results:
* `CommandError.report` is what the user reads, `CommandError.exit` what the process tells its
  caller.
-/

namespace Provision

/-- What a process tells its caller when it ends. -/
inductive Exit where
  | success
  | generalError
  | invalidInput
  | buildFailure
  deriving DecidableEq, Inhabited

def Exit.code : Exit → Nat
  | .success => 0
  | .generalError => 1
  | .invalidInput => 2
  | .buildFailure => 3

namespace ConfigError

/-- The causes behind an error, the nearest first. -/
def causes : ConfigError → List String
  | .unreadable _ cause => [cause]
  | _ => []

def exit : ConfigError → Exit
  | .unreadable _ _ => .generalError
  | _ => .invalidInput

end ConfigError

namespace TemplateError

/-- The causes behind an error, the nearest first. -/
def causes : TemplateError → List String
  | .unreadable _ cause => [cause]
  | .config e => e.causes
  | _ => []

def exit : TemplateError → Exit
  | .unreadable _ _ => .generalError
  | .config e => e.exit
  | _ => .invalidInput

end TemplateError

namespace BuildError

/-- The causes behind an error, the nearest first. -/
def causes : BuildError → List String
  | .files cause => [cause]
  | .invalidConfig _ e => e.message :: e.causes
  | _ => []

def exit (e : BuildError) : Exit :=
  if e.isValidation then .invalidInput
  else
    match e with
    | .buildFailure _ _ => .buildFailure
    | .dependencyFailed _ _ => .buildFailure
    | _ => .generalError

end BuildError

namespace StackError

/-- The causes behind an error, the nearest first. -/
def causes : StackError → List String
  | .template e => e.causes
  | .build e => e.causes
  | _ => []

def exit : StackError → Exit
  | .missingContext _ => .invalidInput
  | .invalidManifest _ _ => .invalidInput
  | .template e => e.exit
  | .build e => e.exit

end StackError

/-- Why a command cannot be carried out. -/
inductive CommandError where
  | invalidInput (reason : String)
  /-- So many units of a stack have no handle. -/
  | incomplete (failed total : Nat)
  /-- The context at a path cannot be loaded. -/
  | context (path : String) (error : ConfigError)
  | stack (error : StackError)
  deriving DecidableEq, Inhabited

namespace CommandError

def message : CommandError → String
  | .invalidInput reason => "Invalid input: " ++ reason
  | .incomplete failed total =>
    "Build failed: " ++ toString failed ++ " of " ++ toString total ++ " units have no handle"
  | .context path _ => "Failed to load context " ++ path
  | .stack e => e.message

/-- The causes behind an error, the nearest first. -/
def causes : CommandError → List String
  | .context _ e => e.message :: e.causes
  | .stack e => e.causes
  | _ => []

/-- The wording of an error and of every cause behind it. -/
def report (e : CommandError) : String := ": ".intercalate (e.message :: e.causes)

def exit : CommandError → Exit
  | .invalidInput _ => .invalidInput
  | .incomplete _ _ => .buildFailure
  | .context _ e => e.exit
  | .stack e => e.exit

end CommandError
end Provision
