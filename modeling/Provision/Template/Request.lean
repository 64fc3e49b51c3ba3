import Provision.Template.Context
import Provision.Template.Placeholder
import Provision.Template.Store
import Provision.Text.Path

/-!
# Requests

Input:
* an environment, a version, the path of a document beneath them, and variables that override those
  of the context.

Algorithm:
* a path that is blank, absolute, or steps out of its folder is refused before the store is asked;
* the text of the document is rendered against the variables of the context with the overrides laid
  over them.

Results:
* `resolve` gives the rendered document with its place, `Resolved.load` the value it holds.
-/

namespace Provision

/-- Which document is asked for, and with what overrides. -/
structure Request where
  environment : Environment
  version : Version
  path : String
  overrides : Variables
  deriving Inhabited

namespace Request

/-- A request for the environment and version that the host of a context is set to. -/
def ofContext (c : Context) (path : String) (overrides : Variables) :
    Except TemplateError Request :=
  match c.host.environment, c.host.version with
  | none, _ => .error (.invalidRequest "context has no host environment")
  | some _, none => .error (.invalidRequest "context has no host version")
  | some e, some v => .ok ⟨e, v, path, overrides⟩

def location (r : Request) : String :=
  r.environment.label ++ "/" ++ r.version.label ++ "/" ++ r.path

/-- Whether a path may lead out of the folder it starts in. -/
def escapes (path : String) : Bool :=
  ((Text.pathParts path).any fun part => part = .above || part = .root) ||
    path.toList.head? = some '/' || path.toList.head? = some '\\'

/-- The parts of a path and its first character tell no more than its segments do. -/
theorem escapes_iff
    {path : String} :
    escapes path = true ↔
      ".." ∈ Text.splitText '/' path ∨ path.toList.head? = some '/' ∨
        path.toList.head? = some '\\' := by
  have hparts : ((Text.pathParts path).any fun part => part = .above || part = .root) = true ↔
      ".." ∈ Text.splitText '/' path ∨ path.toList.head? = some '/' := by
    rw [← Text.above_mem_pathParts_iff, ← Text.root_mem_pathParts_iff, List.any_eq_true]
    constructor
    · rintro ⟨part, hpart, h⟩
      simp only [Bool.or_eq_true, decide_eq_true_eq] at h
      rcases h with rfl | rfl
      · exact Or.inl hpart
      · exact Or.inr hpart
    · rintro (h | h)
      · exact ⟨_, h, rfl⟩
      · exact ⟨_, h, rfl⟩
  rw [escapes, Bool.or_eq_true, Bool.or_eq_true, hparts, decide_eq_true_eq, decide_eq_true_eq,
    or_assoc, or_assoc, or_self_left]

/-- Refuses paths that are blank or may lead out of their folder. -/
def check (r : Request) : Except TemplateError Unit :=
  if (Text.trim r.path).isEmpty then .error (.invalidRequest "document path must not be empty")
  else if escapes r.path then
    .error (.invalidRequest ("document path must be relative without '..': " ++ r.path))
  else .ok ()

end Request

structure Resolved where
  path : String
  text : String
  deriving DecidableEq, Inhabited

/-- The value that a rendered document holds. -/
def Resolved.load {α : Type} (d : Resolved) (s : Shape α) : Except TemplateError α :=
  (s.load d.path d.text).mapError .config

/-- The document that a request asks for, rendered. -/
def Store.resolve (store : Store) (r : Request) (c : Context) : Except TemplateError Resolved := do
  r.check
  let text ← store r.location
  return ⟨r.location, Template.render text (c.defaults.merge r.overrides)⟩

end Provision
