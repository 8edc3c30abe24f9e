/-
The parameters that the events of one family may carry.

A matcher lists the parameters in the order in which they were declared, most specific first, and finds them by index: a
key that is declared outright counts before any pattern of keys, and of two declarations of a key the first. `add`
takes in one declaration, `compile` all of them; `check` lists what is wrong with the parameters of an event.
-/
import PixelAudit.Schema.ValueCheck

namespace PixelAudit

structure CompiledParam where
  label : String
  /-- the pattern of keys, for a parameter without a key of its own -/
  keyPattern : Option Pattern
  required : Bool
  value : ValueCheck

structure ParamsMatcher where
  params : List CompiledParam := []
  /-- the index of each declared key -/
  byKey : Dict Nat := ∅
  /-- the indices of the patterns of keys, in order -/
  patterned : List Nat := []
  /-- the indices of the keys that must be there, in order -/
  required : List Nat := []
  ignored : NameSet := ∅
  lowerCase : Bool := false
  /-- the newest version that one of the parameters asks for -/
  versionFloor : Option AppVersion := none

namespace ParamsMatcher

/-- raise the floor to a version that is newer -/
def raiseFloor (m : ParamsMatcher) (version : Option AppVersion) : ParamsMatcher :=
  match version with
  | none => m
  | some v =>
    match m.versionFloor with
    | none => { m with versionFloor := some v }
    | some floor => if floor.older v then { m with versionFloor := some v } else m

/-- append a parameter -/
def push (m : ParamsMatcher) (p : CompiledParam) : ParamsMatcher := { m with params := m.params ++ [p] }

/-- take in a declared key; a key declared before stays as it is -/
def addKey (m : ParamsMatcher) (spec : ParamSpec) (key : String) (value : ValueCheck) : ParamsMatcher :=
  let key := foldText m.lowerCase key
  if m.byKey.contains key then m
  else
    let index := m.params.length
    let added : ParamsMatcher := { m.push ⟨key, none, spec.required, value⟩ with byKey := m.byKey.insert key index }
    if m.ignored.contains key then added
    else
      let noted : ParamsMatcher := if spec.required then { added with required := m.required ++ [index] } else added
      noted.raiseFloor spec.minVersion

/-- take in a pattern of keys -/
def addPattern (m : ParamsMatcher) (spec : ParamSpec) (source : String) (pattern : Pattern) (value : ValueCheck) :
    ParamsMatcher :=
  let added : ParamsMatcher :=
    { m.push ⟨source, some pattern, false, value⟩ with patterned := m.patterned ++ [m.params.length] }
  added.raiseFloor spec.minVersion

/-- take in one declaration; one behind a gate that is not open is passed over -/
def add (experiments : Experiments) (m : ParamsMatcher) (spec : ParamSpec) :
    Except DefinitionFault ParamsMatcher :=
  if !experiments.allows spec then .ok m
  else do
    let value ← ValueCheck.compile spec.rules m.lowerCase
    match spec.key, spec.keyPattern with
    | some key, _ => return m.addKey spec key value
    | none, some source => do
      let pattern ← ValueCheck.compilePattern source m.lowerCase
      return m.addPattern spec source pattern value
    | none, none => .error .neitherKeyNorPattern

/-- a matcher without parameters -/
def start (ctx : CompileContext) : ParamsMatcher :=
  { ignored := NameSet.ofList (ctx.ignoreParams.names.map ctx.fold)
    lowerCase := ctx.forceLowerCase }

/-- the declarations of a family, most specific first, and then the common parameters by their names -/
def compile (specs : List ParamSpec) (ctx : CompileContext) : Except DefinitionFault ParamsMatcher :=
  (specs ++ ctx.commonParams.values).foldlM (add ctx.experiments) (start ctx)

/-- the parameter that rules a key -/
def lookup (m : ParamsMatcher) (key : String) : Option CompiledParam :=
  match m.byKey.find? key with
  | some index => m.params[index]?
  | none =>
    (m.patterned.filterMap (fun index => m.params[index]?)).find? fun p =>
      match p.keyPattern with
      | some pattern => pattern.accepts key
      | none => false

def foldToken (m : ParamsMatcher) (t : ParamToken) : ParamToken := if m.lowerCase then t.lower else t

/-- what is wrong with one parameter that is not ignored, letters folded -/
def checkToken (m : ParamsMatcher) (t : ParamToken) : Option Violation :=
  match m.lookup t.key with
  | some p => (p.value.unmet? t.value).map fun expected => ⟨.validValue p.label expected, t.value⟩
  | none => some ⟨.knownParameter t.key, t.raw⟩

/-- the parameters that are looked at, letters folded -/
def relevant (m : ParamsMatcher) (tokens : List ParamToken) : List ParamToken :=
  (tokens.map m.foldToken).filter fun t => !m.ignored.contains t.key

/-- the parameters of an event as they arrived -/
def rawTokens (tokens : List ParamToken) : String := "&".intercalate (tokens.map ParamToken.raw)

/-- the parameters that must be there -/
def requiredParams (m : ParamsMatcher) : List CompiledParam := m.required.filterMap fun index => m.params[index]?

/-- required parameters that are missing, in the order of their declarations -/
def missing (m : ParamsMatcher) (tokens : List ParamToken) : List Violation :=
  let present := NameSet.ofList ((m.relevant tokens).map ParamToken.key)
  (m.requiredParams.filter fun p => !present.contains p.label).map fun p =>
    ⟨.requiredParameter p.label, rawTokens tokens⟩

/-- everything that is wrong: parameter by parameter, and then what is missing -/
def check (m : ParamsMatcher) (tokens : List ParamToken) : List Violation :=
  (m.relevant tokens).filterMap m.checkToken ++ m.missing tokens

end ParamsMatcher

end PixelAudit
