import CheckHarness.Failure

namespace CheckHarness.Cli

/-- Why arguments do not make a command. -/
inductive Usage where
  /-- Help is asked for. -/
  | help
  | invalid
  deriving DecidableEq, Repr

/-- Whether a program can be called with the argument. -/
def isArgument (argument : String) : Bool :=
  argument.toList.all (· != '\x00')

/-- What comes of reading arguments. -/
abbrev Read (α : Type) := Except (Failure Usage) α

def misused : Read α :=
  .error (.fault .invalid)

/-- An option: its name, and whether a text is a value for it. It is given as `--name value` or
`--name=value`, at most once and in any order. A value of its own does not begin with a hyphen
unless it is nothing else, and two hyphens end the options. -/
structure OptionSpec where
  name : String
  check : String → Read Unit

/-- The options that were given, with their values. -/
abbrev Given := List (String × String)

/-- Whether an argument begins an option. -/
def isOption (argument : String) : Bool :=
  argument.startsWith "-" && argument != "-"

/-- Whether an argument asks for help. -/
def isHelp (argument : String) : Bool :=
  argument = "--help" || (argument.startsWith "-h")

/-- Takes an option with its value, unless it is unknown, repeated or has a bad value. -/
def take (specs : List OptionSpec) (given : Given) (name value : String) : Read Given :=
  match specs.find? fun spec => spec.name = name with
  | none => misused
  | some spec =>
    if (given.map Prod.fst).contains name then misused
    else (spec.check value).map fun _ => given ++ [(name, value)]

/-- The name and, after an equals sign, the value of an option. -/
def splitOption (argument : String) : String × Option String :=
  let text := argument.toList.drop 2
  match text.dropWhile (· != '=') with
  | _ :: value => (String.ofList (text.takeWhile (· != '=')), some (String.ofList value))
  | [] => (String.ofList text, none)

/-- Reads options from left to right. The first trouble decides, be it bad usage or a value whose
reading crashes. -/
def readOptions (specs : List OptionSpec) (given : Given) : List String → Read Given
  | [] => .ok given
  | ["--"] => .ok given
  | argument :: arguments =>
    if isHelp argument then .error (.fault .help)
    else if argument = "--" || !argument.startsWith "--" then misused
    else
      match splitOption argument, arguments with
      | (name, some value), arguments =>
        match take specs given name value with
        | .ok given => readOptions specs given arguments
        | .error failure => .error failure
      | (name, none), value :: arguments =>
        if isOption value then misused
        else
          match take specs given name value with
          | .ok given => readOptions specs given arguments
          | .error failure => .error failure
      | (_, none), [] => misused

/-- The value of an option that has to be given. -/
def required (given : Given) (name : String) : Read String :=
  match given.lookup name with
  | some value => .ok value
  | none => misused

end CheckHarness.Cli
