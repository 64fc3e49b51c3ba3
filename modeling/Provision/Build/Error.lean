import Provision.Document

/-!
# Errors of builds

Input:
* what is wrong with a list of units, a plan, a registry or the outcome of a builder.

Results:
* `BuildError.message` is the wording of an error; `BuildError.isValidation` tells the errors that
  are found before any builder is called.
-/

namespace Provision

inductive BuildError where
  | duplicateUnit (unit : String)
  | unknownDependency (unit dependency : String)
  | cyclicDependency (units : List String)
  | builderNotFound (unit kind : String)
  | unitNotFound (unit : String)
  | buildFailure (unit reason : String)
  | dependencyFailed (unit dependency : String)
  | invalidWeight (unit : String)
  | invalidCeiling
  | invalidPlan (reason : String)
  | invalidConfig (unit : String) (error : ConfigError)
  | files (cause : String)
  | serialization (cause : String)
  deriving DecidableEq, Inhabited

namespace BuildError

def message : BuildError → String
  | .duplicateUnit unit => "Duplicate resource unit: " ++ unit
  | .unknownDependency unit dependency =>
    "Unit '" ++ unit ++ "' depends on unknown unit '" ++ dependency ++ "'"
  | .cyclicDependency units => "Circular dependency detected: " ++ " → ".intercalate units
  | .builderNotFound unit kind =>
    "No builder registered for kind '" ++ kind ++ "' (unit '" ++ unit ++ "')"
  | .unitNotFound unit => "Unit not found: " ++ unit
  | .buildFailure unit reason => "Build failed for unit '" ++ unit ++ "': " ++ reason
  | .dependencyFailed unit dependency =>
    "Unit '" ++ unit ++ "' was not built because dependency '" ++ dependency ++ "' failed"
  | .invalidWeight unit => "Unit '" ++ unit ++ "' has weight 0; weights must be at least 1"
  | .invalidCeiling => "Partition ceiling must be at least 1"
  | .invalidPlan reason => "Invalid partition plan: " ++ reason
  | .invalidConfig unit e => "Invalid unit config for '" ++ unit ++ "': " ++ e.message
  | .files cause => "IO error: " ++ cause
  | .serialization cause => "Serialization error: " ++ cause

/-- Whether the error is found before any builder is called. -/
def isValidation : BuildError → Bool
  | .duplicateUnit _ => true
  | .unknownDependency _ _ => true
  | .cyclicDependency _ => true
  | .builderNotFound _ _ => true
  | .invalidWeight _ => true
  | .invalidCeiling => true
  | .invalidPlan _ => true
  | _ => false

end BuildError
end Provision
