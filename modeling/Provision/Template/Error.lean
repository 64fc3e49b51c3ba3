import Provision.Document

/-!
# Errors of templates

Input:
* what went wrong on the way from a request to a document.

Results:
* `TemplateError.message` is the wording of an error.
-/

namespace Provision

inductive TemplateError where
  | notFound (path : String)
  | invalidRequest (reason : String)
  /-- A text that names none of the expected values of a kind. -/
  | unknownName (kind value : String) (expected : List String)
  | unreadable (path cause : String)
  | config (error : ConfigError)
  deriving DecidableEq, Inhabited

def TemplateError.message : TemplateError → String
  | .notFound path => "can not find " ++ path
  | .invalidRequest reason => "Invalid template request: " ++ reason
  | .unknownName kind value expected =>
    "Unknown " ++ kind ++ " '" ++ value ++ "'; expected one of: " ++ ", ".intercalate expected
  | .unreadable path cause => "IO error reading " ++ path ++ ": " ++ cause
  | .config e => e.message

end Provision
