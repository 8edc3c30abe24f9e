/-
Options on a command line.

An option is written `--name`, or `-n` with its letter; letters of flags may stand together. The value of an option
follows it, as the next argument or in the same one, there with or without an equals sign. The next argument is no value
if it looks like an option, and an option is given once at most. There are no other arguments.

The arguments are read from left to right up to the first that is wrong or asks for help.
-/
import PixelAudit.Text.Pieces

namespace PixelAudit.CommandLine

structure OptionSpec where
  name : String
  letter : Option Char := none
  takesValue : Bool := true
  /-- the values that are taken -/
  admits : String → Bool := fun _ => true

/-- the arguments are not read to their end -/
inductive Stop where
  | help
  | version
  /-- an argument is wrong -/
  | usage
  deriving DecidableEq, Repr

def helpFlag : OptionSpec := { name := "help", letter := some 'h', takesValue := false }

def versionFlag : OptionSpec := { name := "version", letter := some 'V', takesValue := false }

/-- the options that have been given, with their values; that of a flag is empty -/
abbrev Given := List (String × String)

namespace Given

def value? (given : Given) (name : String) : Option String := (given.find? fun g => g.1 == name).map Prod.snd

def has (given : Given) (name : String) : Bool := (given.value? name).isSome

/-- give an option -/
def add (given : Given) (spec : OptionSpec) (value : String) : Except Stop Given :=
  if spec.name = helpFlag.name then .error .help
  else if spec.name = versionFlag.name then .error .version
  else if given.has spec.name || !spec.admits value then .error .usage
  else .ok (given ++ [(spec.name, value)])

end Given

/-- how an argument goes on after the flags in it -/
inductive Ending where
  | complete
  /-- an option with its value -/
  | valued (spec : OptionSpec) (value : String)
  /-- an option whose value is still to come -/
  | awaiting (spec : OptionSpec)
  | unknown

/-- what an argument that looks like an option comes to -/
structure OptionGroup where
  flags : List OptionSpec
  ending : Ending

/-- an argument that starts with two hyphens, which are left off -/
def longGroup (accepted : List OptionSpec) (body : String) : OptionGroup :=
  let (name, value) := match Text.cut? '=' body with
    | some (name, value) => (name, some value)
    | none => (body, none)
  match accepted.find? (fun o => o.name == name), value with
  | none, _ => ⟨[], .unknown⟩
  | some o, some value => ⟨[], if o.takesValue then .valued o value else .unknown⟩
  | some o, none => if o.takesValue then ⟨[], .awaiting o⟩ else ⟨[o], .complete⟩

/-- what follows the letter of an option in the same argument -/
def attached (o : OptionSpec) : List Char → Ending
  | [] => .awaiting o
  | '=' :: value => .valued o (String.ofList value)
  | value => .valued o (String.ofList value)

/-- the letters of an argument that starts with one hyphen -/
def letterGroup (accepted : List OptionSpec) (flags : List OptionSpec) : List Char → OptionGroup
  | [] => ⟨flags, .complete⟩
  | c :: rest =>
    match accepted.find? (fun o => o.letter == some c) with
    | none => ⟨flags, .unknown⟩
    | some o => if o.takesValue then ⟨flags, attached o rest⟩ else letterGroup accepted (flags ++ [o]) rest

/-- an argument that looks like an option -/
def group? (accepted : List OptionSpec) (argument : String) : Option OptionGroup :=
  match argument.toList with
  | '-' :: '-' :: body => some (longGroup accepted (String.ofList body))
  | '-' :: c :: rest => some (letterGroup accepted [] (c :: rest))
  | _ => none

def looksLikeOption (argument : String) : Bool := (group? [] argument).isSome

/-- give flags one by one -/
def addFlags (given : Given) (flags : List OptionSpec) : Except Stop Given := flags.foldlM (fun g o => g.add o "") given

/-- read arguments that are all options -/
def readOptions (accepted : List OptionSpec) (given : Given) : List String → Except Stop Given
  | [] => .ok given
  | "--" :: rest => if rest.isEmpty then .ok given else .error .usage
  | argument :: rest =>
    match group? accepted argument with
    | none => .error .usage
    | some group => do
      let given ← addFlags given group.flags
      match group.ending, rest with
      | .complete, rest => readOptions accepted given rest
      | .valued spec value, rest => readOptions accepted (← given.add spec value) rest
      | .awaiting spec, value :: rest =>
        if looksLikeOption value then .error .usage else readOptions accepted (← given.add spec value) rest
      | _, _ => .error .usage

end PixelAudit.CommandLine
