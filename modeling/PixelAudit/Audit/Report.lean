/-
Counting verdicts by family and owners of failed events. A report knows verdicts only; the same verdict twice counts
twice.

Main results: `foldAll_append` (folding goes on from the report before).
-/
import PixelAudit.Audit.Outcome

namespace PixelAudit

/-- the verdicts on the events of one family -/
structure FamilyCounts where
  passed : Nat := 0
  failed : Nat := 0
  oldAppVersion : Nat := 0
  owners : NameSet := ∅
  deriving DecidableEq, Inhabited

namespace FamilyCounts

def total (c : FamilyCounts) : Nat := c.passed + c.failed + c.oldAppVersion

def merge (c d : FamilyCounts) : FamilyCounts :=
  { passed := c.passed + d.passed
    failed := c.failed + d.failed
    oldAppVersion := c.oldAppVersion + d.oldAppVersion
    owners := NameSet.union c.owners d.owners }

/-- count a verdict -/
def add (c : FamilyCounts) (o : Outcome) : FamilyCounts :=
  let c := { c with owners := NameSet.union c.owners o.owners }
  match o.verdict with
  | .passed => { c with passed := c.passed + 1 }
  | .failed => { c with failed := c.failed + 1 }
  | .oldAppVersion => { c with oldAppVersion := c.oldAppVersion + 1 }
  | .undocumented => c

def form : Form FamilyCounts where
  title := "PrefixStats"
  blank := {}
  fields := [
    (Field.of "passed" .natural64 fun v c => { c with passed := v }).needed,
    (Field.of "failed" .natural64 fun v c => { c with failed := v }).needed,
    (Field.of "oldAppVersion" .natural64 fun v c => { c with oldAppVersion := v }).needed,
    (Field.of "owners" .names fun v c => { c with owners := v }).needed]
  closed := false

def toJson (c : FamilyCounts) : Json :=
  .object [
    ("passed", .integer c.passed), ("failed", .integer c.failed), ("oldAppVersion", .integer c.oldAppVersion),
    ("owners", Json.strings c.owners.names)]

end FamilyCounts

structure Report where
  totalEvents : Nat := 0
  undocumented : Nat := 0
  families : Dict FamilyCounts := ∅
  /-- the families with failed events, by owner -/
  failuresByOwner : Dict NameSet := ∅
  deriving DecidableEq, Inhabited

namespace Report

/-- an owner fails with a family -/
def blame (family : String) (failures : Dict NameSet) (owner : String) : Dict NameSet :=
  failures.insert owner (NameSet.insert (failures.getD owner ∅) family)

/-- count a verdict -/
def fold (r : Report) (o : Outcome) : Report :=
  let r := { r with totalEvents := r.totalEvents + 1 }
  match o.verdict with
  | .undocumented => { r with undocumented := r.undocumented + 1 }
  | verdict => {
      r with
      families := r.families.insert o.family ((r.families.getD o.family {}).add o)
      failuresByOwner :=
        if verdict = .failed then o.owners.names.foldl (blame o.family) r.failuresByOwner else r.failuresByOwner }

def foldAll (r : Report) (outcomes : List Outcome) : Report := outcomes.foldl fold r

theorem foldAll_append (r : Report) (first second : List Outcome) :
    r.foldAll (first ++ second) = (r.foldAll first).foldAll second := by
  simp [foldAll, List.foldl_append]

/-- the counts of both reports -/
def merge (r s : Report) : Report :=
  { totalEvents := r.totalEvents + s.totalEvents
    undocumented := r.undocumented + s.undocumented
    families := s.families.entries.foldl
      (fun families (family, counts) => families.insert family ((families.getD family {}).merge counts)) r.families
    failuresByOwner := s.failuresByOwner.entries.foldl
      (fun failures (owner, families) => failures.insert owner (NameSet.union (failures.getD owner ∅) families))
      r.failuresByOwner }

/-- add up over the families -/
def tally (r : Report) (field : FamilyCounts → Nat) : Nat := r.families.values.foldr (fun c n => field c + n) 0

/-- number of events with a verdict -/
def count (r : Report) : Verdict → Nat
  | .undocumented => r.undocumented
  | .passed => r.tally FamilyCounts.passed
  | .failed => r.tally FamilyCounts.failed
  | .oldAppVersion => r.tally FamilyCounts.oldAppVersion

def ownersWithFailures (r : Report) : List String := r.failuresByOwner.names

def form : Form Report where
  title := "ValidationReport"
  blank := {}
  fields := [
    (Field.of "totalEvents" .natural64 fun v r => { r with totalEvents := v }).needed,
    (Field.of "undocumented" .natural64 fun v r => { r with undocumented := v }).needed,
    (Field.of "prefixes" (.table FamilyCounts.form.decoder) fun v r => { r with families := v }).needed,
    (Field.of "failuresByOwner" (.table .names) fun v r => { r with failuresByOwner := v }).needed]
  closed := false

def toJson (r : Report) : Json :=
  .object [
    ("totalEvents", .integer r.totalEvents), ("undocumented", .integer r.undocumented),
    ("prefixes", .object (r.families.entries.map fun (family, counts) => (family, counts.toJson))),
    ("failuresByOwner", .object (r.failuresByOwner.entries.map fun (owner, families) =>
      (owner, Json.strings families.names)))]

end Report

end PixelAudit
