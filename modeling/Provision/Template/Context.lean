import Provision.Template.Scope
import Provision.Template.Variables

/-!
# Contexts

Input:
* the two sides of a deployment, a home, a synthesizer and further variables, and the variables of
  the process environment.

Algorithm:
* the name of an environment variable tells the setting that it replaces; variables with other names
  have no effect, and the first value that cannot be read ends the overlay;
* the variables of a context are the home, the name of the synthesizer, the fields of both sides, and
  over them the further variables.

Results:
* `Context.overlay` lays environment variables over a context, `Context.defaults` gives the variables
  that templates are rendered against.
-/

namespace Provision

structure Context where
  /-- The account that runs the deployment. -/
  host : Scope
  /-- The account that is provisioned. -/
  hosted : Scope
  home : Option String
  synthesizer : Option String
  /-- Further variables, which go before those that the other fields give. -/
  extras : Variables
  deriving Inhabited

inductive Setting where
  | host (field : String)
  | hosted (field : String)
  | variable (name : String)
  | home
  | synthesizer
  deriving DecidableEq, Inhabited

/-- The setting that a name without the common start stands for. -/
def Setting.ofName? (name : String) : Option Setting :=
  match Text.dropStart? "HOSTED_" name with
  | some field => some (.hosted (Text.lowerAscii field))
  | none =>
    match Text.dropStart? "HOST_" name with
    | some field => some (.host (Text.lowerAscii field))
    | none =>
      match Text.dropStart? "VAR_" name with
      | some other => some (.variable (Text.lowerAscii other))
      | none =>
        if name = "HOME" then some .home
        else if name = "SYNTHESIZER" then some .synthesizer
        else none

/-- The setting that an environment variable stands for. -/
def Setting.ofKey? (key : String) : Option Setting :=
  (Text.dropStart? "STRATA_" key).bind ofName?

namespace Context

/-- The context in which nothing is set. -/
def empty : Context := ⟨.empty, .empty, none, none, []⟩

def shape : Shape Context :=
  .record "struct VariableContext" false
    (.withDefault "host" Scope.shape .empty <|
      .withDefault "hosted" Scope.shape .empty <|
      .optional "home" .text <|
      .optional "synthesizer" .text <|
      .withDefault "variables" (.entries .tree) [] <|
      .nil)
    { pack := fun (host, hosted, home, synthesizer, extras, ()) =>
        ⟨host, hosted, home, synthesizer, extras⟩
      unpack := fun x => (x.host, x.hosted, x.home, x.synthesizer, x.extras, ()) }

def withHome (c : Context) (home : String) : Context := { c with home := some home }

def withSynthesizer (c : Context) (name : String) : Context := { c with synthesizer := some name }

def withVariable (c : Context) (name : String) (value : Tree) : Context :=
  { c with extras := Entries.insert name value c.extras }

def apply (c : Context) (setting : Setting) (value : String) : Except TemplateError Context :=
  match setting with
  | .host field => (c.host.set field value).map fun s => { c with host := s }
  | .hosted field => (c.hosted.set field value).map fun s => { c with hosted := s }
  | .variable name => .ok (c.withVariable name (.text value))
  | .home => .ok (c.withHome value)
  | .synthesizer => .ok (c.withSynthesizer value)

/-- The context with one environment variable laid over it. -/
def overlayOne (c : Context) (entry : String × String) : Except TemplateError Context :=
  match Setting.ofKey? entry.1 with
  | some setting => c.apply setting entry.2
  | none => .ok c

/-- The context with environment variables laid over it, one after the other. -/
def overlay (c : Context) : List (String × String) → Except TemplateError Context
  | [] => .ok c
  | entry :: rest =>
    match c.overlayOne entry with
    | .ok c => c.overlay rest
    | .error e => .error e

/-- The name of the synthesizer, which is the id of the host unless it is set. -/
def synthesizerName? (c : Context) : Option String :=
  c.synthesizer.or c.host.id

/-- The fields of a scope as variables. -/
def scopeVariables (side : String) (s : Scope) : List (String × Tree) :=
  s.values.map fun e => (side ++ ":" ++ e.1, .text e.2)

/-- The variables of the context that are not further ones. -/
def ownVariables (c : Context) : Variables :=
  Entries.ofList
    ([("home", .text (c.home.getD "/"))] ++
      (c.synthesizerName?.toList.map fun name => ("synthesizer:name", .text name)) ++
      scopeVariables "host" c.host ++ scopeVariables "hosted" c.hosted)

/-- The variables that templates are rendered against. -/
def defaults (c : Context) : Variables :=
  c.ownVariables.merge c.extras

end Context
end Provision
