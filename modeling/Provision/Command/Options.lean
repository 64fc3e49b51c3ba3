import Provision.Text.Split

/-!
# Options of a command line

Input:
* the arguments of a command and the options that it knows.

Algorithm:
* an argument that starts with two dashes names an option by its long name, and may hold a value after
  an equals sign; one that starts with one dash holds one or more options by their letters;
* an option with a value takes what is left of its argument, or else the next argument unless that
  looks like an option;
* the other arguments are plain, and so is everything after two dashes alone.

Results:
* `scan` gives the options that were given with their values and the plain arguments, or the first
  fault; `checkRepeats` refuses options that may be given only once.
-/

namespace Provision
namespace Command

inductive Arity where
  | flag
  | one
  | many
  deriving DecidableEq, Inhabited

structure Switch where
  long : String
  short : Option Char
  arity : Arity
  deriving DecidableEq, Inhabited

/-- What is wrong with the arguments of a command. -/
inductive UsageFault where
  | unknownOption (argument : String)
  | missingValue (option : String)
  | unexpectedValue (option : String)
  | invalidValue (option value : String)
  | repeated (option : String)
  | conflict (first second : String)
  | missingCommand
  | unknownCommand (name : String)
  | missingDocument
  | unexpectedArgument (argument : String)
  deriving DecidableEq, Inhabited

def UsageFault.message : UsageFault → String
  | .unknownOption argument => "unknown option '" ++ argument ++ "'"
  | .missingValue option => "option '--" ++ option ++ "' needs a value"
  | .unexpectedValue option => "option '--" ++ option ++ "' takes no value"
  | .invalidValue option value => "invalid value '" ++ value ++ "' for option '--" ++ option ++ "'"
  | .repeated option => "option '--" ++ option ++ "' is given twice"
  | .conflict first second =>
    "options '--" ++ first ++ "' and '--" ++ second ++ "' exclude each other"
  | .missingCommand => "a command is needed"
  | .unknownCommand name => "unknown command '" ++ name ++ "'"
  | .missingDocument => "a document is needed"
  | .unexpectedArgument argument => "unexpected argument '" ++ argument ++ "'"

/-- What the arguments of a command give. -/
structure Given where
  /-- Options by their long names, with their values. -/
  options : List (String × String)
  plain : List String
  deriving DecidableEq, Inhabited

/-- What one argument gives: options with their values, and an option that waits for its value. -/
structure Portion where
  options : List (String × String)
  waiting : Option String
  deriving DecidableEq, Inhabited

/-- Whether an argument looks like an option. -/
def isOption (argument : String) : Bool :=
  match argument.toList with
  | '-' :: _ :: _ => true
  | _ => false

/-- What a long option gives; `value` stands after an equals sign. -/
def readLong (switches : List Switch) (name : String) (value : Option String) :
    Except UsageFault Portion :=
  match switches.find? fun s => s.long == name with
  | none => .error (.unknownOption ("--" ++ name))
  | some s =>
    match s.arity, value with
    | .flag, none => .ok ⟨[(s.long, "")], none⟩
    | .flag, some _ => .error (.unexpectedValue s.long)
    | _, some v => .ok ⟨[(s.long, v)], none⟩
    | _, none => .ok ⟨[], some s.long⟩

/-- The value attached to a letter; an equals sign in front does not count. -/
def attached : List Char → String
  | '=' :: cs => String.ofList cs
  | cs => String.ofList cs

def readShort (switches : List Switch) : List Char → Except UsageFault Portion
  | [] => .ok ⟨[], none⟩
  | c :: cs =>
    match switches.find? fun s => s.short == some c with
    | none => .error (.unknownOption (String.ofList ['-', c]))
    | some s =>
      if s.arity = .flag then
        match readShort switches cs with
        | .ok p => .ok { p with options := (s.long, "") :: p.options }
        | .error f => .error f
      else if cs.isEmpty then .ok ⟨[], some s.long⟩
      else .ok ⟨[(s.long, attached cs)], none⟩

/-- What an argument that looks like an option gives. -/
def readOption (switches : List Switch) (argument : String) : Except UsageFault Portion :=
  match argument.toList with
  | '-' :: '-' :: cs =>
    match Text.cuts '=' cs with
    | [] => readLong switches (String.ofList cs) none
    | (name, value) :: _ => readLong switches (String.ofList name) (some (String.ofList value))
  | _ :: cs => readShort switches cs
  | [] => .ok ⟨[], none⟩

/-- Puts options in front of what the later arguments give. -/
def Given.after (options : List (String × String)) (plain : List String) (g : Given) : Given :=
  ⟨options ++ g.options, plain ++ g.plain⟩

def scan (switches : List Switch) : List String → Except UsageFault Given
  | [] => .ok ⟨[], []⟩
  | argument :: rest =>
    if argument = "--" then .ok ⟨[], rest⟩
    else if isOption argument then
      match readOption switches argument with
      | .error f => .error f
      | .ok ⟨options, none⟩ => (scan switches rest).map (.after options [])
      | .ok ⟨options, some waiting⟩ =>
        match rest with
        | [] => .error (.missingValue waiting)
        | value :: rest =>
          if isOption value then .error (.missingValue waiting)
          else (scan switches rest).map (.after (options ++ [(waiting, value)]) [])
    else (scan switches rest).map (.after [] [argument])

/-- Refuses options that are given twice, unless they may be. -/
def checkRepeats (switches : List Switch) : List (String × String) → Except UsageFault Unit
  | [] => .ok ()
  | (name, _) :: rest =>
    if (switches.any fun s => s.long == name && s.arity != .many) &&
        rest.any fun e => e.1 == name then
      .error (.repeated name)
    else checkRepeats switches rest

namespace Given

def has (g : Given) (name : String) : Bool := g.options.any fun e => e.1 == name

def value? (g : Given) (name : String) : Option String :=
  (g.options.find? fun e => e.1 == name).map (·.2)

/-- All values of an option, in order. -/
def values (g : Given) (name : String) : List String :=
  (g.options.filter fun e => e.1 == name).map (·.2)

end Given
end Command
end Provision
