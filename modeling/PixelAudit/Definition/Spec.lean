/-
Specifications of single parameters and of single name suffixes, as they are written in definitions and in the catalogs
of common ones.

`ParamSpec.form` and `SuffixSpec.form` say how they are read; `toJson` writes them, leaving out what is empty.

Main results: `normalize_idem` (a normalized catalog stays as it is).
-/
import PixelAudit.Event

namespace PixelAudit

open Decimal (Binary64)
open Json (Misfit)

/-- what the text of a value has to spell -/
inductive ValueType where
  | string
  | integer
  | number
  | boolean
  deriving DecidableEq, Repr, Inhabited

namespace ValueType

def text : ValueType → String
  | .string => "string"
  | .integer => "integer"
  | .number => "number"
  | .boolean => "boolean"

def decoder : Decoder ValueType :=
  Decoder.choice [("string", .string), ("integer", .integer), ("number", .number), ("boolean", .boolean)]

end ValueType

/-- a parameter is declared only while one of the variants of an experiment runs -/
structure ExperimentGate where
  id : String
  variants : List String
  deriving DecidableEq, Repr, Inhabited

namespace ExperimentGate

def form : Form ExperimentGate where
  title := "ExperimentGate"
  blank := ⟨"", []⟩
  fields := [
    (Field.of "id" .string fun v g => { g with id := v }).needed,
    (Field.of "variants" (.list .string) fun v g => { g with variants := v }).needed]
  closed := true

def decoder : Decoder ExperimentGate := form.decoder

def toJson (g : ExperimentGate) : Json :=
  .object [("id", .string g.id), ("variants", Json.strings g.variants)]

end ExperimentGate

/-- a value of an enumeration is a text, a number or a truth value, kept as text -/
def scalarText : Json → Except Misfit String
  | .string s => .ok s
  | .integer n => .ok (Json.compact (.integer n))
  | .real x => .ok (Json.compact (.real x))
  | .bool b => .ok (Json.compact (.bool b))
  | v => .error (.enumNotScalar v.compact)

def scalarTexts : Decoder (List String) := (Decoder.list .any).refine fun vs => vs.mapM scalarText

/-- the rules for one parameter of an event -/
structure ParamSpec where
  key : Option String := none
  /-- a pattern of keys instead of one key -/
  keyPattern : Option String := none
  description : Option String := none
  valueType : Option ValueType := none
  /-- the values that are allowed; an empty list allows all -/
  allowed : List String := []
  pattern : Option String := none
  minimum : Option Binary64 := none
  maximum : Option Binary64 := none
  required : Bool := false
  minVersion : Option AppVersion := none
  experiment : Option ExperimentGate := none
  deriving DecidableEq, Repr, Inhabited

/-- a member for what is there -/
def optionalMember {α : Type} (name : String) (write : α → Json) : Option α → List (String × Json)
  | some a => [(name, write a)]
  | none => []

/-- a member for a list that is not empty -/
def listMember {α : Type} (name : String) (write : α → Json) : List α → List (String × Json)
  | [] => []
  | items => [(name, .array (items.map write))]

/-- two things that may be missing agree -/
def sameOption {α : Type} (same : α → α → Bool) : Option α → Option α → Bool
  | some a, some b => same a b
  | none, none => true
  | _, _ => false

/-- two lists agree item by item -/
def sameList {α : Type} (same : α → α → Bool) : List α → List α → Bool
  | a :: as, b :: bs => same a b && sameList same as bs
  | [], [] => true
  | _, _ => false

namespace ParamSpec

def named (key : String) : ParamSpec := { key := some key }

def asRequired (p : ParamSpec) : ParamSpec := { p with required := true }

def withAllowed (p : ParamSpec) (values : List String) : ParamSpec := { p with allowed := values }

/-- the name of the parameter in messages -/
def label (p : ParamSpec) : String := (p.key.or p.keyPattern).getD "<unnamed>"

def form : Form ParamSpec where
  title := "ParamSpec"
  blank := {}
  fields := [
    (Field.of "key" (.optional .string) fun v p => { p with key := v }).orNamed "name",
    Field.of "keyPattern" (.optional .string) fun v p => { p with keyPattern := v },
    Field.of "description" (.optional .string) fun v p => { p with description := v },
    Field.of "type" (.optional ValueType.decoder) fun v p => { p with valueType := v },
    Field.of "enum" scalarTexts fun v p => { p with allowed := v },
    Field.of "pattern" (.optional .string) fun v p => { p with pattern := v },
    Field.of "minimum" (.optional .binary64) fun v p => { p with minimum := v },
    Field.of "maximum" (.optional .binary64) fun v p => { p with maximum := v },
    Field.of "required" .bool fun v p => { p with required := v },
    Field.of "minVersion" (.optional AppVersion.decoder) fun v p => { p with minVersion := v },
    Field.of "experiment" (.optional ExperimentGate.decoder) fun v p => { p with experiment := v }]
  closed := true

def decoder : Decoder ParamSpec := form.decoder

def toJson (p : ParamSpec) : Json :=
  .object <|
    optionalMember "key" .string p.key ++
    optionalMember "keyPattern" .string p.keyPattern ++
    optionalMember "description" .string p.description ++
    optionalMember "type" (fun t => .string t.text) p.valueType ++
    listMember "enum" .string p.allowed ++
    optionalMember "pattern" .string p.pattern ++
    optionalMember "minimum" .real p.minimum ++
    optionalMember "maximum" .real p.maximum ++
    (if p.required then [("required", .bool true)] else []) ++
    optionalMember "minVersion" AppVersion.toJson p.minVersion ++
    optionalMember "experiment" ExperimentGate.toJson p.experiment

/-- equal rules: bounds and versions are compared by value -/
def same (p q : ParamSpec) : Bool :=
  p.key == q.key && p.keyPattern == q.keyPattern && p.description == q.description &&
    p.valueType == q.valueType && p.allowed == q.allowed && p.pattern == q.pattern &&
    sameOption Binary64.same p.minimum q.minimum && sameOption Binary64.same p.maximum q.maximum &&
    p.required == q.required && sameOption AppVersion.same p.minVersion q.minVersion &&
    p.experiment == q.experiment

end ParamSpec

/-- the rules for one segment after the name of a family -/
structure SuffixSpec where
  /-- the segment itself -/
  key : Option String := none
  description : Option String := none
  valueType : Option ValueType := none
  allowed : List String := []
  pattern : Option String := none
  deriving DecidableEq, Repr, Inhabited

namespace SuffixSpec

def literal (key : String) : SuffixSpec := { key := some key }

/-- what is expected of the segment, in messages -/
def label (s : SuffixSpec) : String :=
  match s.key, s.allowed, s.pattern, s.valueType with
  | some key, _, _, _ => key
  | none, value :: values, _, _ => "one of [" ++ ", ".intercalate (value :: values) ++ "]"
  | none, [], some pattern, _ => "/" ++ pattern ++ "/"
  | none, [], none, some t => t.text
  | none, [], none, none => "any"

def form : Form SuffixSpec where
  title := "SuffixSpec"
  blank := {}
  fields := [
    Field.of "key" (.optional .string) fun v s => { s with key := v },
    Field.of "description" (.optional .string) fun v s => { s with description := v },
    Field.of "type" (.optional ValueType.decoder) fun v s => { s with valueType := v },
    Field.of "enum" scalarTexts fun v s => { s with allowed := v },
    Field.of "pattern" (.optional .string) fun v s => { s with pattern := v }]
  closed := true

def decoder : Decoder SuffixSpec := form.decoder

def toJson (s : SuffixSpec) : Json :=
  .object <|
    optionalMember "key" .string s.key ++
    optionalMember "description" .string s.description ++
    optionalMember "type" (fun t => .string t.text) s.valueType ++
    listMember "enum" .string s.allowed ++
    optionalMember "pattern" .string s.pattern

end SuffixSpec

/-- the common parameters by their names -/
abbrev ParamCatalog := Dict ParamSpec

/-- the common suffixes by their names -/
abbrev SuffixCatalog := Dict SuffixSpec

namespace ParamCatalog

/-- an entry with neither a key nor a pattern of keys takes its name as key -/
def normalizeEntry (name : String) (p : ParamSpec) : ParamSpec :=
  if p.key.isNone && p.keyPattern.isNone then { p with key := some name } else p

def normalize (catalog : ParamCatalog) : ParamCatalog := catalog.map normalizeEntry

theorem normalizeEntry_idem (name : String) (p : ParamSpec) :
    normalizeEntry name (normalizeEntry name p) = normalizeEntry name p := by
  unfold normalizeEntry
  split <;> simp_all

/-- a normalized catalog stays as it is -/
theorem normalize_idem (catalog : ParamCatalog) : normalize (normalize catalog) = normalize catalog := by
  simp [normalize, Dict.map, normalizeEntry_idem, Function.comp_def]

end ParamCatalog

end PixelAudit
