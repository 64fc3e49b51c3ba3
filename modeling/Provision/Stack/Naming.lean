import Provision.Stack.Source

/-!
# Names of resources

Input:
* parts of a name, and the context of a deployment.

Algorithm:
* the parts of an id are separated by dots, those of a resource name by dashes; dots and dashes
  within the parts count as separators too;
* names that are used in one deployment only start with the name of the synthesizer and the id of
  the hosted account.

Results:
* `idOf`, `nameOf`, `describe`, `exported` and `named` are the forms of names.
-/

namespace Provision
namespace Naming

/-- A text with one character in place of another. -/
def replaceChar (old new : Char) (s : String) : String :=
  String.ofList (s.toList.map fun c => if c = old then new else c)

def idOf (parts : List String) : String :=
  replaceChar '-' '.' (".".intercalate parts)

def nameOf (parts : List String) : String :=
  replaceChar '.' '-' (idOf parts)

/-- Organization and environment of a deployment in front of the parts, without empty ones. -/
def describe (c : Context) (parts : List String) : String :=
  let organization := c.hosted.organization.or c.host.organization
  let environment := (c.hosted.environment.or c.host.environment).map Environment.label
  " ".intercalate
    ((organization.toList ++ environment.toList ++ parts).filter fun s => !s.isEmpty)

/-- The name of the synthesizer and the id of the hosted account. -/
def deployment (c : Context) : Except StackError (String × String) :=
  match c.synthesizerName?, c.hosted.id with
  | none, _ => .error (.missingContext "host:id")
  | some _, none => .error (.missingContext "hosted:id")
  | some synthesizer, some hosted => .ok (synthesizer, hosted)

def exported (c : Context) (suffix : String) : Except StackError String :=
  (deployment c).map fun d => d.1 ++ d.2 ++ suffix

/-- The name of a resource of one deployment. -/
def named (c : Context) (suffix : String) : Except StackError String :=
  (deployment c).map fun d => d.1 ++ "-" ++ d.2 ++ "-" ++ suffix

end Naming
end Provision
