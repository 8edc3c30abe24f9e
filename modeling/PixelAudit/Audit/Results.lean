/-
The files that a run leaves behind: the undocumented names, the examples of faults, and a summary. The summary holds the
totals, the counts of the rows, the report, and what is declared about the families that had events.
-/
import PixelAudit.Audit.LiveRun
import PixelAudit.Catalog.Node
import PixelAudit.Files.Disk

namespace PixelAudit

/-- what the summary says about a declared family -/
structure FamilyNotes where
  description : Option String
  triggers : List String
  deriving DecidableEq

namespace FamilyNotes

def ofDefinition (d : PixelDefinition) : FamilyNotes := ⟨d.description, d.triggers⟩

def toJson (n : FamilyNotes) : Json :=
  .object (optionalMember "description" .string n.description ++ listMember "triggers" .string n.triggers)

end FamilyNotes

structure Summary where
  totals : Dict Nat
  run : RunStats
  report : Report
  families : Dict FamilyNotes

namespace Summary

/-- number of events by verdict -/
def totalsOf (report : Report) : Dict Nat := Dict.ofList (Verdict.all.map fun v => (v.text, report.count v))

/-- the notes of a family, if it is declared -/
def notes? (declared : Node) (family : String) : Option FamilyNotes :=
  (declared.get? family).bind fun node => node.definition.map FamilyNotes.ofDefinition

/-- the summary of a run; families that are not declared are left out -/
def new (report : Report) (run : RunStats) (declared : Node) : Summary :=
  { totals := totalsOf report
    run
    report
    families := Dict.ofList (report.families.names.filterMap fun family =>
      (notes? declared family).map fun notes => (family, notes)) }

/-- the members of the written form, without the time -/
def members (s : Summary) : List (String × Json) := [
  ("totals", .object (s.totals.entries.map fun (verdict, n) => (verdict, .integer n))),
  ("run", s.run.toJson),
  ("report", s.report.toJson),
  ("families", .object (s.families.entries.map fun (family, notes) => (family, notes.toJson)))]

/-- the written form, with the time at which it was made -/
def toJson (s : Summary) (time : String) : Json := .object (("generatedAt", .string time) :: s.members)

end Summary

/-- the paths of the files that a run leaves behind -/
structure ResultPaths where
  undocumented : String
  errors : String
  summary : String
  deriving DecidableEq

namespace ResultPaths

/-- the files in a directory -/
def inside (directory : String) : ResultPaths :=
  { undocumented := FilePath.join directory "undocumented_pixels.json"
    errors := FilePath.join directory "pixel_errors.json"
    summary := FilePath.join directory "summary.json" }

end ResultPaths

namespace RunState

/-- the summary of what a run has come to -/
def summary (s : RunState) (declared : Node) : Summary := .new s.report s.stats declared

/-- write the files into a directory, which is made if it is missing -/
def write (s : RunState) (directory : String) (declared : Node) (time : String) : Disk ResultPaths := do
  let paths := ResultPaths.inside directory
  Disk.create directory
  Disk.write paths.undocumented s.notes.undocumentedJson.pretty
  Disk.write paths.errors s.notes.faultsJson.pretty
  Disk.write paths.summary ((s.summary declared).toJson time).pretty
  return paths

end RunState

end PixelAudit
