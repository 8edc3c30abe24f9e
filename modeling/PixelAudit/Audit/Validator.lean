/-
Judging events, and keeping what was found.

`Validator.judge` gives the verdict on one event; it looks at the compiled families and at nothing else. `Notes` hold
the names of undocumented events and, by family and descriptor, examples of what was wrong, no more than the cap admits.
`run` judges events in their order and notes each verdict; the notes of several workers are put together by `merge`.

Main results: `run_append` (a run goes on from the notes of the run before).
-/
import PixelAudit.Audit.Outcome
import PixelAudit.Catalog.Compiled

namespace PixelAudit

/-- how many examples are kept of one kind of fault -/
inductive SampleCap where
  | limit (most : Nat)
  | keepAll
  deriving DecidableEq, Repr

namespace SampleCap

instance : Inhabited SampleCap := ⟨.limit 5⟩

/-- another example may be added to so many -/
def admits : SampleCap → Nat → Bool
  | .limit most, present => present < most
  | .keepAll, _ => true

end SampleCap

/-- examples of faults, by family and by descriptor -/
abbrev FaultTable := Dict (Dict NameSet)

namespace FaultTable

/-- note one fault; its descriptor is listed even if the cap admits no example -/
def addFinding (cap : SampleCap) (faults : Dict NameSet) (f : Finding) : Dict NameSet :=
  let samples := faults.getD f.descriptor ∅
  let kept :=
    if !samples.contains f.sample && cap.admits samples.size then samples.insert f.sample else samples
  faults.insert f.descriptor kept

/-- note faults of a family, which is listed even if there are none -/
def record (cap : SampleCap) (table : FaultTable) (family : String) (findings : List Finding) : FaultTable :=
  table.insert family (findings.foldl (addFinding cap) (table.getD family ∅))

end FaultTable

/-- an event as it is exported -/
structure RawEvent where
  pixel : String
  params : String
  /-- the version of the application, if the export has it -/
  version : Option String := none
  deriving DecidableEq, Repr

structure Validator where
  catalog : CompiledCatalog
  /-- the parameter that carries the version of an event without one -/
  versionKey : Option String := none
  cap : SampleCap := default

/-- what was found in a run -/
structure Notes where
  undocumented : NameSet := ∅
  faults : FaultTable := ∅
  deriving DecidableEq, Inhabited

namespace Validator

/-- the name under which an event is looked up -/
def eventName (v : Validator) (e : RawEvent) : String := foldText v.catalog.lowerCase e.pixel

/-- equal but for the case of ASCII letters -/
def sameIgnoringAsciiCase (s t : String) : Bool := s.toList.map Char.toLower == t.toList.map Char.toLower

/-- a key is that of the parameter that carries the version -/
def isVersionKey (v : Validator) (wanted key : String) : Bool :=
  if v.catalog.lowerCase then sameIgnoringAsciiCase key wanted else key == wanted

/-- the value of the first parameter that carries the version -/
def versionParam (v : Validator) (tokens : List ParamToken) : Option String :=
  v.versionKey.bind fun wanted => (tokens.find? fun t => v.isVersionKey wanted t.key).map ParamToken.value

/-- the version that comes with the event, unless it is blank -/
def explicitVersion (e : RawEvent) : Option String := (e.version.map Text.trim).filter (· ≠ "")

/-- the version of an event as a text -/
def versionText (v : Validator) (e : RawEvent) (tokens : List ParamToken) : Option String :=
  (explicitVersion e).or (v.versionParam tokens)

/-- how the version of an event stands to the floor of its family -/
inductive VersionStanding where
  /-- no floor, no version, or one that is not below the floor -/
  | recent
  | old
  | unreadable (raw : String)
  deriving DecidableEq

def standing (floor : Option AppVersion) (version : Option String) : VersionStanding :=
  match floor, version with
  | some floor, some raw =>
    match AppVersion.parse? raw with
    | some observed => if observed.older floor then .old else .recent
    | none => .unreadable raw
  | _, _ => .recent

/-- an unreadable version is a fault of the event -/
def versionViolations : VersionStanding → List Violation
  | .unreadable raw => [⟨.wellFormedEvent, (AuditError.unreadableVersion raw).message⟩]
  | _ => []

/-- what is wrong with the parameters and the suffixes of an event -/
def schemaViolations (family : PixelFamily) (remainder : String) :
    Except EventFault (List ParamToken) → List Violation
  | .ok tokens => family.schema.check remainder tokens
  | .error fault => [⟨.wellFormedEvent, (AuditError.malformedEvent fault).message⟩]

/-- the verdict on an event of a family -/
def judgeInFamily (v : Validator) (family : PixelFamily) (remainder : String) (e : RawEvent) : Outcome :=
  let parsed := Event.parseParams e.params
  let tokens := match parsed with
    | .ok tokens => tokens
    | .error _ => []
  let standing := standing family.minVersion (v.versionText e tokens)
  if standing = .old then { verdict := .oldAppVersion, family := family.name, owners := family.owners }
  else
    match versionViolations standing ++ schemaViolations family remainder parsed with
    | [] => { verdict := .passed, family := family.name, owners := family.owners }
    | violations => {
        verdict := .failed
        family := family.name
        owners := family.owners
        findings := violations.map Finding.ofViolation }

/-- the verdict on an event -/
def judge (v : Validator) (e : RawEvent) : Outcome :=
  let found := v.catalog.lookup (v.eventName e)
  match found.family with
  | none => { verdict := .undocumented }
  | some family => v.judgeInFamily family found.remainder e

/-- note a verdict on an event of the given name -/
def note (v : Validator) (notes : Notes) (name : String) (o : Outcome) : Notes :=
  match o.verdict with
  | .undocumented => { notes with undocumented := notes.undocumented.insert name }
  | .failed => { notes with faults := notes.faults.record v.cap o.family o.findings }
  | _ => notes

/-- judge an event and note the verdict -/
def step (v : Validator) (notes : Notes) (e : RawEvent) : Notes := v.note notes (v.eventName e) (v.judge e)

/-- judge events in their order -/
def run (v : Validator) (notes : Notes) (events : List RawEvent) : Notes := events.foldl v.step notes

/-- a run goes on from the notes of the run before -/
theorem run_append (v : Validator) (notes : Notes) (first second : List RawEvent) :
    v.run notes (first ++ second) = v.run (v.run notes first) second := by
  simp [run, List.foldl_append]

/-- the examples of one kind of fault as findings -/
def findingsOf (descriptor : String) (samples : NameSet) : List Finding :=
  samples.names.map fun sample => ⟨descriptor, sample⟩

/-- add the notes of another worker, example by example, under the cap of this one -/
def merge (v : Validator) (notes other : Notes) : Notes :=
  { undocumented := NameSet.union notes.undocumented other.undocumented
    faults := other.faults.entries.foldl
      (fun table (family, faults) => faults.entries.foldl
        (fun table (descriptor, samples) => table.record v.cap family (findingsOf descriptor samples)) table)
      notes.faults }

end Validator

namespace Notes

def undocumentedJson (n : Notes) : Json := Json.strings n.undocumented.names

def faultsJson (n : Notes) : Json :=
  .object (n.faults.entries.map fun (family, faults) =>
    (family, .object (faults.entries.map fun (descriptor, samples) => (descriptor, Json.strings samples.names))))

end Notes

end PixelAudit
