/-
Auditing an export against a compiled catalog, and the whole way there: definitions are loaded and stored as an
artifact, which is loaded again, compiled, and used to judge the export; the results are written to a directory.
-/
import PixelAudit.Audit.Results
import PixelAudit.Catalog.Store
import PixelAudit.Config.Root

namespace PixelAudit

/-- an export with the moment at which the audit is told to stop, by the number of rows handled, and the present time -/
structure Export where
  source : Csv.Source
  stopped : Nat → Bool := fun _ => false
  time : String

/-- how an export is audited -/
structure ExportAudit where
  versionKey : Option String := none
  cap : SampleCap := default
  columns : LiveColumns := {}
  /-- the directory of the results -/
  out : String := "results"

namespace ExportAudit

/-- judge an export and write the results -/
def run (a : ExportAudit) (catalog : CompiledCatalog) (declared : Node) (data : Export) :
    Disk (RunState × ResultPaths) := do
  let validator : Validator := { catalog, versionKey := a.versionKey, cap := a.cap }
  match LiveRun.run validator a.columns data.source data.stopped {} {} with
  | (_, some failure) => throw failure
  | (state, none) => return (state, ← state.write a.out declared data.time)

end ExportAudit

/-- the whole way from definitions to results -/
structure Pipeline where
  root : DefinitionsRoot
  globalIgnore : Option String := none
  /-- the file of the artifact -/
  artifact : String
  /-- an artifact stored earlier is used -/
  reuse : Bool := false
  /-- without a key for versions, that of the product is used -/
  audit : ExportAudit

namespace Pipeline

/-- store the definitions as an artifact -/
def store (p : Pipeline) : Disk Unit := do
  let loaded ← Disk.look fun tree => p.root.load tree p.globalIgnore
  (Artifact.new loaded.catalog.root).save p.artifact

def run (p : Pipeline) (data : Export) : Disk ResultPaths := do
  if !p.reuse then p.store
  let (product, context) ← Disk.look fun tree => p.root.context tree p.globalIgnore
  let artifact ← Artifact.load p.artifact
  let catalog ← Disk.ofExcept (failWith .audit [] (CompiledCatalog.build artifact.trie context))
  let audit := { p.audit with versionKey := p.audit.versionKey.or product.versionKey }
  let (_, paths) ← audit.run catalog artifact.trie data
  return paths

end Pipeline

end PixelAudit
