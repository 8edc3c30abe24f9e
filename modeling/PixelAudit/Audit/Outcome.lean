/-
The verdict on one event.
-/
import PixelAudit.Schema.Violation

namespace PixelAudit

inductive Verdict where
  | undocumented
  | oldAppVersion
  | failed
  | passed
  deriving DecidableEq, Repr, Inhabited

namespace Verdict

def text : Verdict → String
  | .undocumented => "UNDOCUMENTED"
  | .oldAppVersion => "OLD_APP_VERSION"
  | .failed => "VALIDATION_FAILED"
  | .passed => "VALIDATION_PASSED"

def all : List Verdict := [.undocumented, .oldAppVersion, .failed, .passed]

def decoder : Decoder Verdict := Decoder.choice (all.map fun v => (v.text, v))

end Verdict

/-- a broken rule by its descriptor, with the value that broke it -/
structure Finding where
  descriptor : String
  sample : String
  deriving DecidableEq, Repr, Inhabited

namespace Finding

def ofViolation (v : Violation) : Finding := ⟨v.descriptor, v.sample⟩

def form : Form Finding where
  title := "ErrorExample"
  blank := ⟨"", ""⟩
  fields := [
    (Field.of "descriptor" .string fun v f => { f with descriptor := v }).needed,
    (Field.of "example" .string fun v f => { f with sample := v }).needed]
  closed := false

def toJson (f : Finding) : Json := .object [("descriptor", .string f.descriptor), ("example", .string f.sample)]

end Finding

structure Outcome where
  verdict : Verdict
  /-- the family of the event, empty if it has none -/
  family : String := ""
  owners : NameSet := ∅
  /-- what is wrong with a failed event -/
  findings : List Finding := []
  deriving DecidableEq, Inhabited

namespace Outcome

def form : Form Outcome where
  title := "ValidationOutcome"
  blank := { verdict := .undocumented }
  fields := [
    (Field.of "kind" Verdict.decoder fun v o => { o with verdict := v }).needed,
    (Field.of "prefix" .string fun v o => { o with family := v }).needed,
    (Field.of "owners" .names fun v o => { o with owners := v }).needed,
    (Field.of "errors" (.list Finding.form.decoder) fun v o => { o with findings := v }).needed]
  closed := false

def toJson (o : Outcome) : Json :=
  .object [
    ("kind", .string o.verdict.text), ("prefix", .string o.family), ("owners", Json.strings o.owners.names),
    ("errors", .array (o.findings.map Finding.toJson))]

end Outcome

end PixelAudit
