/-
The definition of one pixel family, and how it is read from a record of a definition file.

The record is looked at in a fixed order: unknown fields, owners, description, triggers, version, parameters, repeated
keys, suffixes; the first fault counts. A parameter or suffix is written out or named, and then taken from the catalog
of common ones as it stands there.
-/
import PixelAudit.Definition.Fault

namespace PixelAudit

/-- one declared family, with common parameters and suffixes filled in -/
structure PixelDefinition where
  owners : NameSet := ∅
  description : Option String := none
  triggers : List String := []
  parameters : List ParamSpec := []
  suffixes : List SuffixSpec := []
  minVersion : Option AppVersion := none
  deriving DecidableEq, Inhabited

namespace PixelDefinition

def toJson (d : PixelDefinition) : Json :=
  .object <|
    [("owners", Json.strings d.owners.names)] ++
    optionalMember "description" .string d.description ++
    listMember "triggers" .string d.triggers ++
    listMember "parameters" ParamSpec.toJson d.parameters ++
    listMember "suffixes" SuffixSpec.toJson d.suffixes ++
    optionalMember "minVersion" AppVersion.toJson d.minVersion

/-- how a stored definition is read -/
def form : Form PixelDefinition where
  title := "PixelDefinition"
  blank := {}
  fields := [
    Field.of "owners" .names fun v d => { d with owners := v },
    Field.of "description" (.optional .string) fun v d => { d with description := v },
    Field.of "triggers" (.list .string) fun v d => { d with triggers := v },
    Field.of "parameters" (.list ParamSpec.decoder) fun v d => { d with parameters := v },
    Field.of "suffixes" (.list SuffixSpec.decoder) fun v d => { d with suffixes := v },
    Field.of "minVersion" (.optional AppVersion.decoder) fun v d => { d with minVersion := v }]
  closed := false

def decoder : Decoder PixelDefinition := form.decoder

/-- equal definitions: bounds and versions are compared by value -/
def same (d e : PixelDefinition) : Bool :=
  d.owners == e.owners && d.description == e.description && d.triggers == e.triggers &&
    sameList ParamSpec.same d.parameters e.parameters && d.suffixes == e.suffixes &&
    sameOption AppVersion.same d.minVersion e.minVersion

/-- the fields of a record -/
def fieldNames : List String := ["owners", "description", "triggers", "minVersion", "parameters", "suffixes"]

/-- the first field that no record has -/
def unknownField? (members : List (String × Json)) : Option String :=
  (members.find? fun m => !fieldNames.contains m.1).map Prod.fst

def readOwners : Option Json → Except DefinitionFault NameSet
  | some (.array items) => do
    let names ← items.mapM fun
      | .string s => .ok s
      | _ => .error .ownersNotTexts
    return NameSet.ofList names
  | some _ => .error .ownersNotList
  | none => .error .ownersMissing

def readDescription : Option Json → Except DefinitionFault (Option String)
  | none => .ok none
  | some .null => .ok none
  | some (.string s) => .ok (some s)
  | some _ => .error .descriptionNotText

/-- triggers that are no texts are kept as their JSON text -/
def readTriggers : Option Json → Except DefinitionFault (List String)
  | none => .ok []
  | some .null => .ok []
  | some (.array items) => .ok (items.map fun
    | .string s => s
    | v => v.compact)
  | some _ => .error .triggersNotList

def readMinVersion : Option Json → Except DefinitionFault (Option AppVersion)
  | none => .ok none
  | some .null => .ok none
  | some (.string s) =>
    match AppVersion.parse? s with
    | some v => .ok (some v)
    | none => .error (.unreadableVersion s)
  | some v => .error (.versionNotText v.compact)

/-- a list of specifications, which may be missing -/
def readList {α : Type} (kind : SpecKind) (read : Json → Except DefinitionFault α) :
    Option Json → Except DefinitionFault (List α)
  | none => .ok []
  | some .null => .ok []
  | some (.array items) => items.mapM read
  | some _ => .error (.listNotArray kind)

/-- one key or one pattern of keys, and no pattern that is required -/
def checkShape (p : ParamSpec) : Except DefinitionFault ParamSpec :=
  match p.key, p.keyPattern with
  | some _, some _ => .error (.keyAndPattern p.label)
  | none, none => .error .neitherKeyNorPattern
  | none, some pattern => if p.required then .error (.requiredPattern pattern) else .ok p
  | some _, none => .ok p

/-- a specification that is named or written out -/
def readSpec {α : Type} (kind : SpecKind) (catalog : Dict α) (decoder : Decoder α) :
    Json → Except DefinitionFault α
  | .string name =>
    match catalog.find? name with
    | some spec => .ok spec
    | none => .error (.unknownShortcut kind name)
  | .object members =>
    match decoder.ofValue (.object members) with
    | .ok spec => .ok spec
    | .error cause => .error (.misfit cause)
  | _ => .error (.entryNeitherObjectNorName kind)

/-- only a parameter that is written out has its shape checked -/
def readParameter (common : ParamCatalog) (v : Json) : Except DefinitionFault ParamSpec := do
  let spec ← readSpec .parameter common ParamSpec.decoder v
  match v with
  | .object _ => checkShape spec
  | _ => return spec

/-- the first key that an earlier parameter has too -/
def repeatedKey? (seen : List String) : List ParamSpec → Option String
  | [] => none
  | p :: rest =>
    match p.key with
    | some key => if seen.contains key then some key else repeatedKey? (key :: seen) rest
    | none => repeatedKey? seen rest

/-- read the record of a family -/
def ofRecord (commonParams : ParamCatalog) (commonSuffixes : SuffixCatalog) :
    Json → Except DefinitionFault PixelDefinition
  | .object members => do
    if let some name := unknownField? members then throw (.unknownField name)
    let field (name : String) : Option Json := Entries.find? name members
    let owners ← readOwners (field "owners")
    let description ← readDescription (field "description")
    let triggers ← readTriggers (field "triggers")
    let minVersion ← readMinVersion (field "minVersion")
    let parameters ← readList .parameter (readParameter commonParams) (field "parameters")
    if let some key := repeatedKey? [] parameters then throw (.repeatedParameter key)
    let suffixes ← readList .suffix (readSpec .suffix commonSuffixes SuffixSpec.decoder) (field "suffixes")
    return { owners, description, triggers, parameters, suffixes, minVersion }
  | _ => .error .notObject

end PixelDefinition

end PixelAudit
