/-
Judging an export, row by row.

The first record names the columns; a column is found by its name, blanks around it aside. Each further record is one
event. A row that is not text or has no name is counted as malformed, and nothing else happens to it. Before each row
the run may be told to stop; what it has counted so far stays.

Main results: `loop_append` (a run that is not stopped goes on where another ended).
-/
import PixelAudit.Audit.Report
import PixelAudit.Audit.Validator
import PixelAudit.Csv.Table
import PixelAudit.Failure

namespace PixelAudit

/-- the names of the columns -/
structure LiveColumns where
  pixel : String := "pixel"
  params : String := "params"
  /-- may be missing -/
  version : String := "version"

structure RunStats where
  rows : Nat := 0
  malformedRows : Nat := 0
  aborted : Bool := false
  deriving DecidableEq, Inhabited

namespace RunStats

def toJson (s : RunStats) : Json :=
  .object [("rows", .integer s.rows), ("malformedRows", .integer s.malformedRows), ("aborted", .bool s.aborted)]

end RunStats

/-- what a run has come to -/
structure RunState where
  notes : Notes := {}
  report : Report := {}
  stats : RunStats := {}

/-- where the columns stand in a record -/
structure ColumnPlaces where
  pixel : Nat
  params : Nat
  version : Option Nat

namespace LiveRun

/-- the place of the first column with the name -/
def place? (headers : List String) (name : String) : Option Nat := headers.findIdx? fun h => Text.trim h == name

def places (columns : LiveColumns) (headers : List String) : Except Cause ColumnPlaces :=
  match place? headers columns.pixel, place? headers columns.params with
  | none, _ => .error (.missingColumn columns.pixel)
  | _, none => .error (.missingColumn columns.params)
  | some pixel, some params => .ok ⟨pixel, params, place? headers columns.version⟩

/-- the event of a row; `none` if the row is malformed -/
def event? (places : ColumnPlaces) (row : Csv.Record) : Option RawEvent := do
  let fields ← Csv.Record.texts? row
  let pixel := Text.trim (fields[places.pixel]?.getD "")
  if pixel = "" then none
  else some {
    pixel
    params := fields[places.params]?.getD ""
    version := places.version.bind fun i => fields[i]? }

/-- handle one row -/
def step (v : Validator) (places : ColumnPlaces) (s : RunState) (row : Csv.Record) : RunState :=
  match event? places row with
  | none => { s with stats := { s.stats with rows := s.stats.rows + 1, malformedRows := s.stats.malformedRows + 1 } }
  | some e => {
      notes := v.step s.notes e
      report := s.report.fold (v.judge e)
      stats := { s.stats with rows := s.stats.rows + 1 } }

/-- handle rows until they end or the run is told to stop, which depends on how many it has handled -/
def loop (v : Validator) (places : ColumnPlaces) (stopped : Nat → Bool) (s : RunState) : List Csv.Record → RunState
  | [] => if stopped s.stats.rows then { s with stats := { s.stats with aborted := true } } else s
  | row :: rest =>
    if stopped s.stats.rows then { s with stats := { s.stats with aborted := true } }
    else loop v places stopped (step v places s row) rest

theorem loop_never (v : Validator) (places : ColumnPlaces) (s : RunState) (rows : List Csv.Record) :
    loop v places (fun _ => false) s rows = rows.foldl (step v places) s := by
  induction rows generalizing s with
  | nil => rfl
  | cons row rest ih => simp [loop, ih]

/-- a run that is not stopped goes on where another ended -/
theorem loop_append (v : Validator) (places : ColumnPlaces) (s : RunState) (first second : List Csv.Record) :
    loop v places (fun _ => false) s (first ++ second) =
      loop v places (fun _ => false) (loop v places (fun _ => false) s first) second := by
  simp [loop_never, List.foldl_append]

/-- the names of the columns and the rows of a source -/
def header (source : Csv.Source) : Except Failure (List String × List Csv.Record) :=
  match source.records, source.failure with
  | [], some message => .error ⟨.file (.other message), [.readingHeader]⟩
  | [], none => .ok ([], [])
  | first :: rows, _ =>
    match Csv.Record.texts? first with
    | some headers => .ok (headers, rows)
    | none => .error ⟨.csv, [.readingHeader]⟩

/-- Judge a whole export. The notes and the report go on from earlier ones; on a failure they are as they stood then. -/
def run (v : Validator) (columns : LiveColumns) (source : Csv.Source) (stopped : Nat → Bool)
    (notes : Notes) (report : Report) : RunState × Option Failure :=
  let start : RunState := { notes, report }
  match header source with
  | .error f => (start, some f)
  | .ok (headers, rows) =>
    match places columns headers with
    | .error cause => (start, some ⟨cause, []⟩)
    | .ok places =>
      let s := loop v places stopped start rows
      match source.failure with
      | some message =>
        if s.stats.aborted then (s, none)
        else (s, some ⟨.file (.other message), [.readingRow (s.stats.rows + 1)]⟩)
      | none => (s, none)

end LiveRun

end PixelAudit
