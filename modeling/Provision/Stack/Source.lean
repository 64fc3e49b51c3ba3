import Provision.Template.Request
import Provision.Build.Error

/-!
# Document sources

Input:
* a store, a context, an environment and a version, and overrides.

Algorithm:
* every document that a stack refers to is requested for the same environment and version and with
  the same overrides.

Results:
* `Source.load` gives the value that a document holds and `Source.tree` its tree.
-/

namespace Provision

/-- Why a stack cannot be read or named. -/
inductive StackError where
  | missingContext (name : String)
  | invalidManifest (document reason : String)
  | template (error : TemplateError)
  | build (error : BuildError)
  deriving DecidableEq, Inhabited

def StackError.message : StackError → String
  | .missingContext name => "Missing context value: " ++ name
  | .invalidManifest document reason => "Invalid manifest " ++ document ++ ": " ++ reason
  | .template e => e.message
  | .build e => e.message

/-- Where the documents of a stack come from. -/
structure Source where
  store : Store
  context : Context
  environment : Environment
  version : Version
  overrides : Variables

namespace Source

/-- The source for the environment and version that the host of a context is set to. -/
def ofContext (store : Store) (c : Context) (overrides : Variables) :
    Except StackError Source :=
  match c.host.environment, c.host.version with
  | some e, some v => .ok ⟨store, c, e, v, overrides⟩
  | _, _ =>
    .error (.template (.invalidRequest "context has no host environment and version"))

def request (s : Source) (path : String) : Request := ⟨s.environment, s.version, path, s.overrides⟩

def resolve (s : Source) (path : String) : Except StackError Resolved :=
  (s.store.resolve (s.request path) s.context).mapError .template

def load {α : Type} (s : Source) (shape : Shape α) (path : String) : Except StackError α := do
  let d ← s.resolve path
  (d.load shape).mapError .template

/-- The value that a document holds, if there is a path. -/
def load? {α : Type} (s : Source) (shape : Shape α) :
    Option String → Except StackError (Option α)
  | none => .ok none
  | some path => (s.load shape path).map some

def tree (s : Source) (path : String) : Except StackError Tree := do
  let d ← s.resolve path
  (parse d.path d.text).mapError fun e => .template (.config e)

end Source
end Provision
