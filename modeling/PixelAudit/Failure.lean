/-
Failures of a run: what went wrong, and what was being done meanwhile, outermost first.
-/
import PixelAudit.Definition.Fault
import PixelAudit.Files.Tree

namespace PixelAudit

/-- what was being done -/
inductive Activity where
  | reading (path : String)
  | parsing (path : String)
  | tokenizing (path : String)
  | creating (path : String)
  | writing (path : String)
  | opening (path : String)
  | compiling (path : String)
  | readingArtifact (path : String)
  | loadingArtifact (path : String)
  | readingHeader
  | readingRow (number : Nat)
  deriving DecidableEq, Repr

def Activity.text : Activity → String
  | .reading path => "Failed to read " ++ path
  | .parsing path => "Failed to parse " ++ path
  | .tokenizing path => "Failed to tokenize " ++ path
  | .creating path => "Failed to create " ++ path
  | .writing path => "Failed to write " ++ path
  | .opening path => "Failed to open " ++ path
  | .compiling path => "Failed to compile " ++ path
  | .readingArtifact path => "Failed to read trie artifact " ++ path
  | .loadingArtifact path => "Failed to load trie artifact " ++ path
  | .readingHeader => "Failed to read CSV header"
  | .readingRow number => s!"Failed to read row {number}"

inductive Cause where
  | audit (error : AuditError)
  | file (fault : FileFault)
  | json (error : Json.TextError)
  | yaml
  | csv
  | missingColumn (name : String)
  | rootNotDirectory (root : String)
  | definitionsMissing (path : String)
  | ignoreEntryNotText (path shown : String)
  | ignoreListForm (path : String)
  deriving DecidableEq, Repr

def Cause.message : Cause → String
  | .audit error => error.message
  | .file fault => fault.message
  | .json error => error.message
  | .yaml => "<yaml error>"
  | .csv => "<csv error>"
  | .missingColumn name => s!"CSV is missing the '{name}' column"
  | .rootNotDirectory root => s!"Definitions root {root} is not a directory"
  | .definitionsMissing path => "Missing definitions directory " ++ path
  | .ignoreEntryNotText path shown => s!"{path}: ignore entries must be strings, got {shown}"
  | .ignoreListForm path => s!"{path}: ignore list must be a list or mapping"

structure Failure where
  cause : Cause
  /-- outermost first -/
  during : List Activity := []
  deriving DecidableEq, Repr

namespace Failure

def message (f : Failure) : String := ": ".intercalate (f.during.map Activity.text ++ [f.cause.message])

/-- the failure of an enclosing activity -/
def inside (activity : Activity) (f : Failure) : Failure := { f with during := activity :: f.during }

end Failure

/-- a failure that can only have one cause -/
def failWith {α ε : Type} (cause : ε → Cause) (during : List Activity) : Except ε α → Except Failure α
  | .ok a => .ok a
  | .error e => .error { cause := cause e, during }

end PixelAudit
