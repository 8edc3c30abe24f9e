/-
Comma-separated values, as bytes.

Fields are parted by commas and records by line ends of any kind; empty lines are no records. A field may stand between
quotes, in which a quote is written twice; a quote elsewhere is an ordinary character. A byte-order mark in front is
skipped.

Main results: `scan_append` (reading goes on where it stopped).
-/
import PixelAudit.Text.Utf8

namespace PixelAudit.Csv

abbrev Field := List UInt8

abbrev Record := List Field

/-- where the reader stands -/
inductive Mode where
  | recordStart
  | fieldStart
  | inField
  | inQuotes
  /-- after a quote inside quotes, which ends the field or is the first of two -/
  | afterQuote
  deriving DecidableEq

structure State where
  mode : Mode := .recordStart
  /-- bytes of the present field, last one first -/
  field : List UInt8 := []
  /-- fields of the present record, last one first -/
  fields : List Field := []
  /-- records that have ended, last one first -/
  records : List Record := []

def comma : UInt8 := 0x2C

def quote : UInt8 := 0x22

def isLineEnd (b : UInt8) : Bool := b == 0x0A || b == 0x0D

namespace State

def push (s : State) (mode : Mode) (b : UInt8) : State := { s with mode, field := b :: s.field }

def endField (s : State) : State :=
  { s with mode := .fieldStart, field := [], fields := s.field.reverse :: s.fields }

def endRecord (s : State) : State :=
  { mode := .recordStart, field := [], fields := [], records := (s.field.reverse :: s.fields).reverse :: s.records }

/-- a byte outside quotes that may end the field -/
def plain (s : State) (b : UInt8) : State :=
  if b = comma then s.endField else if isLineEnd b then s.endRecord else s.push .inField b

/-- read one byte -/
def step (s : State) (b : UInt8) : State :=
  match s.mode with
  | .recordStart =>
    if isLineEnd b then s else if b = quote then { s with mode := .inQuotes } else s.plain b
  | .fieldStart => if b = quote then { s with mode := .inQuotes } else s.plain b
  | .inField => s.plain b
  | .inQuotes => if b = quote then { s with mode := .afterQuote } else s.push .inQuotes b
  | .afterQuote => if b = quote then s.push .inQuotes b else s.plain b

/-- the records that have ended -/
def complete (s : State) : List Record := s.records.reverse

/-- the record that the end of the input ends -/
def unfinished (s : State) : Option Record :=
  if s.mode = .recordStart then none else some (s.field.reverse :: s.fields).reverse

end State

/-- read bytes -/
def scan (s : State) (bytes : List UInt8) : State := bytes.foldl State.step s

theorem scan_append (s : State) (first second : List UInt8) :
    scan s (first ++ second) = scan (scan s first) second := by
  simp [scan, List.foldl_append]

def withoutMark : List UInt8 → List UInt8
  | 0xEF :: 0xBB :: 0xBF :: rest => rest
  | bytes => bytes

/-- bytes that are read, and the failure that ends them if that is not their end -/
structure Source where
  bytes : List UInt8
  failure : Option String := none

/-- the records of a source; a failure loses the one that has not ended -/
def Source.records (s : Source) : List Record :=
  let state := scan {} (withoutMark s.bytes)
  match s.failure with
  | none => state.complete ++ state.unfinished.toList
  | some _ => state.complete

/-- the fields as text, if they all are -/
def Record.texts? (r : Record) : Option (List String) := r.mapM fun f => (Text.Utf8.decode f).toOption

end PixelAudit.Csv
