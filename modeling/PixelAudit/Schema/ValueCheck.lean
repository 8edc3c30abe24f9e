/-
Checking one value against the rules of a specification.

The rules are tried in a fixed order: the values allowed, the pattern, the type, the bounds. The first that does not
hold is the expectation that is reported.

Main results: `unmet?_eq_none_iff` (a value is accepted if it meets every rule).
-/
import PixelAudit.Pattern.Anchored
import PixelAudit.Schema.Context
import PixelAudit.Schema.Violation

namespace PixelAudit

open Decimal (Binary64)

/-- the rules as they are declared -/
structure ValueRules where
  /-- one value that is allowed -/
  literal : Option String := none
  allowed : List String := []
  pattern : Option String := none
  valueType : Option ValueType := none
  minimum : Option Binary64 := none
  maximum : Option Binary64 := none

def ParamSpec.rules (p : ParamSpec) : ValueRules :=
  { allowed := p.allowed, pattern := p.pattern, valueType := p.valueType, minimum := p.minimum, maximum := p.maximum }

def SuffixSpec.rules (s : SuffixSpec) : ValueRules :=
  { literal := s.key, allowed := s.allowed, pattern := s.pattern, valueType := s.valueType }

/-- the rules, ready to be applied -/
structure ValueCheck where
  /-- the values that are allowed, if there are such -/
  allowed : Option NameSet
  pattern : Option Pattern
  valueType : Option ValueType
  minimum : Option Binary64
  maximum : Option Binary64

namespace ValueCheck

/-- the values that are allowed -/
def allowedSet (rules : ValueRules) (lowerCase : Bool) : Option NameSet :=
  match rules.literal.toList ++ rules.allowed with
  | [] => none
  | values => some (NameSet.ofList (values.map (foldText lowerCase)))

/-- understand a pattern under the rule for case -/
def compilePattern (source : String) (lowerCase : Bool) : Except DefinitionFault Pattern :=
  match Pattern.compile? source lowerCase with
  | some p => .ok p
  | none => .error (.badPattern source)

def compilePattern? (lowerCase : Bool) : Option String → Except DefinitionFault (Option Pattern)
  | none => .ok none
  | some source => (compilePattern source lowerCase).map some

/-- the least value must not exceed the greatest -/
def checkBounds : Option Binary64 → Option Binary64 → Except DefinitionFault Unit
  | some least, some greatest =>
    if greatest.lt least then .error (.emptyBounds least.plainText greatest.plainText) else .ok ()
  | _, _ => .ok ()

def compile (rules : ValueRules) (lowerCase : Bool) : Except DefinitionFault ValueCheck := do
  let pattern ← compilePattern? lowerCase rules.pattern
  checkBounds rules.minimum rules.maximum
  return {
    allowed := allowedSet rules lowerCase
    pattern
    valueType := rules.valueType
    minimum := rules.minimum
    maximum := rules.maximum }

/-- the number that a text spells, if it is finite -/
def finite? (value : String) : Option Binary64 := (Decimal.binary64? value).filter Binary64.isFinite

def unmetAllowed? (c : ValueCheck) (value : String) : Option Expectation :=
  match c.allowed with
  | some values => if values.contains value then none else some (.oneOf values.names)
  | none => none

def unmetPattern? (c : ValueCheck) (value : String) : Option Expectation :=
  match c.pattern with
  | some p => if p.accepts value then none else some (.form p.source)
  | none => none

/-- the text spells a value of the type -/
def hasType (value : String) : ValueType → Bool
  | .string => true
  | .integer => (Decimal.int64? value).isSome
  | .number => (finite? value).isSome
  | .boolean => value == "true" || value == "false"

def unmetType? (c : ValueCheck) (value : String) : Option Expectation :=
  match c.valueType with
  | some t => if hasType value t then none else some (.ofType t)
  | none => none

def unmetBounds? (c : ValueCheck) (value : String) : Option Expectation :=
  if c.minimum.isNone && c.maximum.isNone then none
  else
    match finite? value with
    | none => some (.ofType .number)
    | some x =>
      match c.minimum.filter x.lt with
      | some least => some (.atLeast least)
      | none => (c.maximum.filter (fun greatest => greatest.lt x)).map .atMost

/-- the first rule that the value does not meet -/
def unmet? (c : ValueCheck) (value : String) : Option Expectation :=
  ((c.unmetAllowed? value).or (c.unmetPattern? value)).or ((c.unmetType? value).or (c.unmetBounds? value))

def accepts (c : ValueCheck) (value : String) : Bool := (c.unmet? value).isNone

/-- a value is accepted if it meets every rule -/
theorem unmet?_eq_none_iff (c : ValueCheck) (value : String) :
    c.unmet? value = none ↔
      c.unmetAllowed? value = none ∧ c.unmetPattern? value = none ∧ c.unmetType? value = none ∧
        c.unmetBounds? value = none := by
  simp [unmet?, and_assoc]

end ValueCheck

end PixelAudit
