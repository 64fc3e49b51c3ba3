import Provision.Template.Error

/-!
# Scopes

Input:
* what is known of an account: its names, and the environment and version it works with.

Algorithm:
* an environment or a version is told by its label, in capital or small ASCII letters, with blanks
  around it;
* every field of a scope is optional and is set by its name.

Results:
* `Environment.ofText` and `Version.ofText` read labels, `Scope.set` sets a field from a text, and
  `Scope.values` lists the fields that are set with their texts.
-/

namespace Provision

/-- The environment that a document belongs to. -/
inductive Environment where
  | bootstrap
  | prototype
  | production
  deriving DecidableEq, Inhabited

/-- The version of the layout that a document belongs to. -/
inductive Version where
  | v1
  | v2
  | v3
  deriving DecidableEq, Inhabited

/-- The value whose label a text is, up to the case of ASCII letters and blanks around it. -/
def Choices.ofText {α : Type} (c : Choices α) (kind text : String) : Except TemplateError α :=
  match c.options.find? fun o => Shape.equalsIgnoringCase o.1 (Text.trim text) with
  | some o => .ok o.2
  | none => .error (.unknownName kind text (c.options.map (·.1)))

namespace Environment

def label : Environment → String
  | .bootstrap => "bootstrap"
  | .prototype => "prototype"
  | .production => "production"

def choices : Choices Environment where
  options := [("bootstrap", .bootstrap), ("prototype", .prototype), ("production", .production)]
  label := label

def shape : Shape Environment := .choice choices

def ofText (text : String) : Except TemplateError Environment :=
  choices.ofText "environment" text

end Environment

namespace Version

def label : Version → String
  | .v1 => "v1"
  | .v2 => "v2"
  | .v3 => "v3"

def choices : Choices Version where
  options := [("v1", .v1), ("v2", .v2), ("v3", .v3)]
  label := label

def shape : Shape Version := .choice choices

def ofText (text : String) : Except TemplateError Version :=
  choices.ofText "version" text

end Version

/-- What is known of one side of a deployment. -/
structure Scope where
  id : Option String
  organization : Option String
  account : Option String
  region : Option String
  name : Option String
  shortName : Option String
  environment : Option Environment
  version : Option Version
  domain : Option String
  deriving DecidableEq, Inhabited

namespace Scope

def empty : Scope := ⟨none, none, none, none, none, none, none, none, none⟩

def shape : Shape Scope :=
  .record "struct Scope" false
    (.optional "id" .text <|
      .optional "organization" .text <|
      .optional "account" .text <|
      .optional "region" .text <|
      .optional "name" .text <|
      .optional "alias" .text <|
      .optional "environment" Environment.shape <|
      .optional "version" Version.shape <|
      .optional "domain" .text <|
      .nil)
    { pack := fun (id, organization, account, region, name, shortName, environment, version,
        domain, ()) =>
        ⟨id, organization, account, region, name, shortName, environment, version, domain⟩
      unpack := fun x => (x.id, x.organization, x.account, x.region, x.name, x.shortName,
        x.environment, x.version, x.domain, ()) }

/-- The fields that are set, with their texts. -/
def values (s : Scope) : List (String × String) :=
  [("id", s.id), ("organization", s.organization), ("account", s.account), ("region", s.region),
    ("name", s.name), ("alias", s.shortName), ("environment", s.environment.map Environment.label),
    ("version", s.version.map Version.label), ("domain", s.domain)].filterMap
    fun e => e.2.map fun value => (e.1, value)

def set (s : Scope) (field value : String) : Except TemplateError Scope :=
  match field with
  | "id" => .ok { s with id := some value }
  | "organization" => .ok { s with organization := some value }
  | "account" => .ok { s with account := some value }
  | "region" => .ok { s with region := some value }
  | "name" => .ok { s with name := some value }
  | "alias" => .ok { s with shortName := some value }
  | "environment" => (Environment.ofText value).map fun e => { s with environment := some e }
  | "version" => (Version.ofText value).map fun v => { s with version := some v }
  | "domain" => .ok { s with domain := some value }
  | other => .error (.invalidRequest ("unknown scope field '" ++ other ++ "'"))

end Scope
end Provision
