import Provision.Command.Options
import Provision.Number.Power

/-!
# Arguments

Input:
* the arguments of the program and the variables of the process environment.

Algorithm:
* the options for the amount of messages may stand before or after the name of the command;
* the folder of the documents and the context file may also be given by environment variables, which
  count only if the option is left out.

Results:
* `Command.parse` gives the command to run, or what is wrong with the arguments.
-/

namespace Provision

/-- Where the documents of a command come from. -/
structure SourceArguments where
  /-- The folder that holds the documents. -/
  resources : String
  /-- The path of the context. -/
  context : Option String
  environment : Option String
  version : Option String
  /-- Overrides as they are written, each with a name and a value. -/
  overrides : List String
  deriving DecidableEq, Inhabited

structure StackArguments where
  document : String
  /-- The document is a platform. -/
  blueprint : Bool
  ceiling : Option Nat
  source : SourceArguments
  deriving DecidableEq, Inhabited

/-- What the program is asked to do. -/
inductive Command where
  /-- Writes a rendered document. -/
  | render (document : String) (json : Bool) (source : SourceArguments)
  /-- Writes the build order and the partitions of a stack. -/
  | plan (stack : StackArguments) (json : Bool)
  /-- Builds a stack. -/
  | apply (stack : StackArguments) (dryRun : Bool) (limit : Option Nat) (report : Option String)
  deriving DecidableEq, Inhabited

namespace Command

/-- Where the documents of a command come from. -/
def sourceArguments : Command → SourceArguments
  | .render _ _ source => source
  | .plan stack _ => stack.source
  | .apply stack _ _ _ => stack.source

/-- The options for the amount of messages. -/
def generalSwitches : List Switch :=
  [⟨"verbose", some 'v', .flag⟩, ⟨"quiet", some 'q', .flag⟩]

def sourceSwitches : List Switch :=
  [⟨"resources", some 'r', .one⟩, ⟨"context", some 'c', .one⟩, ⟨"environment", some 'e', .one⟩,
    ⟨"version", none, .one⟩, ⟨"set", none, .many⟩]

def ownSwitches (name : String) : Option (List Switch) :=
  match name with
  | "render" => some [⟨"json", none, .flag⟩]
  | "plan" => some [⟨"blueprint", none, .flag⟩, ⟨"ceiling", none, .one⟩, ⟨"json", none, .flag⟩]
  | "apply" =>
    some [⟨"blueprint", none, .flag⟩, ⟨"dry-run", none, .flag⟩, ⟨"ceiling", none, .one⟩,
      ⟨"max-concurrency", none, .one⟩, ⟨"report", none, .one⟩]
  | _ => none

/-- The number that a text stands for. -/
def size? (s : String) : Option Nat :=
  let digits := match s.toList with
    | '+' :: cs => cs
    | cs => cs
  let n := digits.foldl (fun n c => n * 10 + (c.toNat - '0'.toNat)) 0
  if !digits.isEmpty && digits.all Char.isDigit && n < Number.twoTo 64 then some n else none

def sizeOption (g : Given) (name : String) : Except UsageFault (Option Nat) :=
  match g.value? name with
  | none => .ok none
  | some s =>
    match size? s with
    | some n => .ok (some n)
    | none => .error (.invalidValue name s)

/-- The path given by an option, or else the path it falls back to; it must not be empty. -/
def pathOption (g : Given) (name : String) (fallback : Option String) :
    Except UsageFault (Option String) :=
  match (g.value? name).or fallback with
  | some "" => .error (.invalidValue name "")
  | path => .ok path

/-- Where the documents come from, by the options that are given. -/
def readSource (g : Given) (vars : List (String × String)) :
    Except UsageFault SourceArguments := do
  let ofVariable := fun key => (vars.find? fun e => e.1 == key).map (·.2)
  let resources ← pathOption g "resources" (ofVariable "STRATA_RESOURCES")
  let context ← pathOption g "context" (ofVariable "STRATA_CONTEXT")
  return ⟨resources.getD "resources", context, g.value? "environment", g.value? "version",
    g.values "set"⟩

/-- Refuses options that exclude each other or are given twice. -/
def checkGiven (switches : List Switch) (g : Given) : Except UsageFault Unit := do
  checkRepeats switches g.options
  if g.has "verbose" && g.has "quiet" then .error (.conflict "quiet" "verbose") else .ok ()

def document (g : Given) : Except UsageFault String :=
  match g.plain with
  | [] => .error .missingDocument
  | [d] => .ok d
  | _ :: extra :: _ => .error (.unexpectedArgument extra)

def named (name : String) (arguments : List String) (vars : List (String × String)) :
    Except UsageFault Command := do
  match ownSwitches name with
  | none => .error (.unknownCommand name)
  | some own =>
    let switches := generalSwitches ++ own ++ sourceSwitches
    let g ← scan switches arguments
    checkGiven switches g
    let document ← document g
    let source ← readSource g vars
    let ceiling ← sizeOption g "ceiling"
    let limit ← sizeOption g "max-concurrency"
    let report ← pathOption g "report" none
    let stack : StackArguments := ⟨document, g.has "blueprint", ceiling, source⟩
    match name with
    | "render" => return .render document (g.has "json") source
    | "plan" => return .plan stack (g.has "json")
    | _ => return .apply stack (g.has "dry-run") limit report

/-- The general options in front of the name of a command, that name, and what follows it. -/
def splitCommand : List String → Except UsageFault (List (String × String) × String × List String)
  | [] => .error .missingCommand
  | argument :: rest =>
    if argument = "--" then
      match rest with
      | [] => .error .missingCommand
      | extra :: _ => .error (.unexpectedArgument extra)
    else if isOption argument then do
      let portion ← readOption generalSwitches argument
      let (options, name, rest) ← splitCommand rest
      return (portion.options ++ options, name, rest)
    else .ok ([], argument, rest)

def parse (arguments : List String) (vars : List (String × String)) :
    Except UsageFault Command := do
  let (options, name, rest) ← splitCommand arguments
  let command ← named name rest vars
  checkGiven generalSwitches ⟨options, []⟩
  return command

end Command
end Provision
