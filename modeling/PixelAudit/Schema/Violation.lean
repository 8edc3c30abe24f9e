/-
Rules that an event breaks. A violation is filed under its descriptor, with the raw value that broke the rule as an
example.
-/
import PixelAudit.Definition.Spec

namespace PixelAudit

open Decimal (Binary64)

/-- what a value should have been -/
inductive Expectation where
  | oneOf (values : List String)
  | form (pattern : String)
  | ofType (type : ValueType)
  | atLeast (bound : Binary64)
  | atMost (bound : Binary64)
  deriving DecidableEq, Repr

def Expectation.text : Expectation → String
  | .oneOf values => "expected one of [" ++ ", ".intercalate values ++ "]"
  | .form pattern => "expected to match /" ++ pattern ++ "/"
  | .ofType type => "expected " ++ type.text
  | .atLeast bound => "expected >= " ++ bound.plainText
  | .atMost bound => "expected <= " ++ bound.plainText

/-- the rule that is broken -/
inductive Rule where
  | knownParameter (key : String)
  | validValue (key : String) (expected : Expectation)
  | requiredParameter (key : String)
  | validSuffix (position : Nat) (expected : String)
  | noFurtherSuffix
  | wellFormedEvent
  deriving DecidableEq, Repr

/-- the text under which violations of a rule are filed -/
def Rule.descriptor : Rule → String
  | .knownParameter key => s!"undocumented parameter '{key}'"
  | .validValue key expected => s!"invalid value for '{key}': " ++ expected.text
  | .requiredParameter key => s!"missing required parameter '{key}'"
  | .validSuffix position expected => s!"invalid suffix at position {position}: expected {expected}"
  | .noFurtherSuffix => "unexpected suffix segments"
  | .wellFormedEvent => "malformed event"

structure Violation where
  rule : Rule
  /-- the raw value that broke the rule -/
  sample : String
  deriving DecidableEq, Repr

def Violation.descriptor (v : Violation) : String := v.rule.descriptor

/-- the violation is about the suffixes of the name -/
def Rule.aboutSuffix : Rule → Bool
  | .validSuffix .. => true
  | .noFurtherSuffix => true
  | _ => false

end PixelAudit
