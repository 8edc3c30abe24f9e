/-
Building the tree of declared families from definition sources.

A source maps names of families to records. Its families are taken in the order of their names; what was taken in before
a fault stays.
-/
import PixelAudit.Catalog.Node

namespace PixelAudit

structure Catalog where
  root : Node := .empty
  commonParams : ParamCatalog := ∅
  commonSuffixes : SuffixCatalog := ∅

namespace Catalog

/-- a catalog without families; common parameters without a key take their names -/
def new (commonParams : ParamCatalog) (commonSuffixes : SuffixCatalog) : Catalog :=
  { commonParams := commonParams.normalize, commonSuffixes }

/-- no segment of the name is empty -/
def isWellFormedName (name : String) : Bool := (Text.pieces '.' name).all (· ≠ "")

/-- one record of a source; the answer says whether the family is new -/
def addRecord (c : Catalog) (origin name : String) (record : Json) : Except AuditError (Catalog × Bool) :=
  if !isWellFormedName name then .error (.definition name .emptySegment)
  else
    match PixelDefinition.ofRecord c.commonParams c.commonSuffixes record with
    | .error fault => .error (.definition name fault)
    | .ok definition =>
      match c.root.insert definition origin (Text.pieces '.' name) with
      | .error first => .error (.conflict name first origin)
      | .ok (root, added) => .ok ({ c with root }, added)

/-- the records of a source in their order, up to the first fault; so many families were new before -/
def addRecords (c : Catalog) (origin : String) (added : Nat) : List (String × Json) → Catalog × Except AuditError Nat
  | [] => (c, .ok added)
  | (name, record) :: rest =>
    match c.addRecord origin name record with
    | .error e => (c, .error e)
    | .ok (c, isNew) => c.addRecords origin (if isNew then added + 1 else added) rest

/-- a whole source; the answer is the number of new families -/
def addSource (c : Catalog) (origin : String) : Json → Catalog × Except AuditError Nat
  | .object records => c.addRecords origin 0 records
  | _ => (c, .error (.definition origin .sourceNotMapping))

end Catalog

end PixelAudit
