/-
The command line: one of three commands with its options. A flag to be quiet may stand before or after the command.
-/
import PixelAudit.Audit.LiveRun
import PixelAudit.CommandLine.Options

namespace PixelAudit.CommandLine

/-- where definitions are -/
structure DefinitionOptions where
  root : String
  /-- another list of parameters to ignore -/
  globalIgnore : Option String

structure ValidateOptions where
  trie : String
  csv : String
  out : String
  cap : SampleCap
  /-- the parameter that carries the version, instead of that of the product -/
  versionKey : Option String
  columns : LiveColumns

inductive Command where
  | tokenize (definitions : DefinitionOptions) (out : String)
  | validate (definitions : DefinitionOptions) (options : ValidateOptions)
  | check (definitions : DefinitionOptions)

structure Invocation where
  command : Command
  quiet : Bool

/-- a path is not empty -/
def isPath (value : String) : Bool := value != ""

/-- a whole number of 64 bits; a plus in front is allowed -/
def count? (value : String) : Option Nat :=
  let digits := match value.toList with
    | '+' :: rest => rest
    | cs => cs
  (Decimal.digits? digits).filter (· < UInt64.size)

def quietFlag : OptionSpec := { name := "quiet", letter := some 'q', takesValue := false }

def defsOption : OptionSpec := { name := "defs", letter := some 'd', admits := isPath }

def outOption : OptionSpec := { name := "out", letter := some 'o', admits := isPath }

/-- the options before the command -/
def commonOptions : List OptionSpec := [quietFlag, helpFlag]

def definitionOptions : List OptionSpec := [defsOption, { name := "global-ignore", admits := isPath }]

def tokenizeOptions : List OptionSpec := commonOptions ++ definitionOptions ++ [outOption]

def validateOptions : List OptionSpec :=
  commonOptions ++ definitionOptions ++ [
    { name := "trie", letter := some 't', admits := isPath },
    { name := "csv", letter := some 'c', admits := isPath },
    outOption,
    { name := "example-cap", admits := fun value => (count? value).isSome },
    { name := "keep-all-examples", takesValue := false },
    { name := "version-key" },
    { name := "pixel-column" },
    { name := "params-column" },
    { name := "version-column" }]

def checkOptions : List OptionSpec := commonOptions ++ definitionOptions

/-- where definitions are: as given, else as the environment says, else in the usual place -/
def definitionsOf (environment : Option String) (given : Given) : Except Stop DefinitionOptions :=
  let globalIgnore := given.value? "global-ignore"
  match given.value? "defs", environment with
  | some root, _ => .ok { root, globalIgnore }
  | none, some root => if isPath root then .ok { root, globalIgnore } else .error .usage
  | none, none => .ok { root := "pixel_definitions", globalIgnore }

/-- how many examples are kept; the two options for it exclude each other -/
def capOf (given : Given) : Except Stop SampleCap :=
  match given.has "keep-all-examples", given.value? "example-cap" with
  | true, some _ => .error .usage
  | true, none => .ok .keepAll
  | false, some value => .ok (((count? value).map SampleCap.limit).getD default)
  | false, none => .ok default

def required (given : Given) (name : String) : Except Stop String :=
  match given.value? name with
  | some value => .ok value
  | none => .error .usage

def columnsOf (given : Given) : LiveColumns :=
  let usual : LiveColumns := {}
  { pixel := (given.value? "pixel-column").getD usual.pixel
    params := (given.value? "params-column").getD usual.params
    version := (given.value? "version-column").getD usual.version }

def tokenizeCommand (environment : Option String) (given : Given) : Except Stop Command := do
  return .tokenize (← definitionsOf environment given) ((given.value? "out").getD "build/pixel_trie.json")

def validateCommand (environment : Option String) (given : Given) : Except Stop Command := do
  let definitions ← definitionsOf environment given
  let trie ← required given "trie"
  let csv ← required given "csv"
  let cap ← capOf given
  return .validate definitions {
    trie
    csv
    out := (given.value? "out").getD "results"
    cap
    versionKey := given.value? "version-key"
    columns := columnsOf given }

def checkCommand (environment : Option String) (given : Given) : Except Stop Command := do
  return .check (← definitionsOf environment given)

/-- a command, with the options it takes and what it makes of them -/
structure CommandSpec where
  name : String
  options : List OptionSpec
  build : Option String → Given → Except Stop Command

def commands : List CommandSpec := [
  ⟨"tokenize", tokenizeOptions, tokenizeCommand⟩,
  ⟨"validate", validateOptions, validateCommand⟩,
  ⟨"check", checkOptions, checkCommand⟩]

/-- read the arguments of a command -/
def readCommand (environment : Option String) (spec : CommandSpec) (quiet : Bool) (arguments : List String) :
    Except Stop Invocation := do
  let given ← readOptions spec.options [] arguments
  let command ← spec.build environment given
  return { command, quiet := quiet || given.has quietFlag.name }

/-- help on a command, or on all of them -/
def readHelp : List String → Stop
  | [] => .help
  | [name] => if name = "help" || commands.any (fun spec => spec.name == name) then .help else .usage
  | _ => .usage

/-- read the arguments; `given` holds what stands before the command -/
def readFrom (environment : Option String) (given : Given) : List String → Except Stop Invocation
  | [] => .error .usage
  | "--" :: _ => .error .usage
  | argument :: rest =>
    match commands.find? (fun spec => spec.name == argument) with
    | some spec => readCommand environment spec (given.has quietFlag.name) rest
    | none =>
      if argument = "help" then .error (readHelp rest)
      else
        match group? (versionFlag :: commonOptions) argument with
        | none => .error .usage
        | some group => do
          let given ← addFlags given group.flags
          match group.ending with
          | .complete => readFrom environment given rest
          | _ => .error .usage

/-- read a command line; `environment` says where definitions are if no option does -/
def read (environment : Option String) (arguments : List String) : Except Stop Invocation :=
  readFrom environment [] arguments

end PixelAudit.CommandLine
