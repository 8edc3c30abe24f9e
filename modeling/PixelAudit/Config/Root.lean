/-
A definitions root: a directory that holds the configuration of a product, the catalogs of common parameters and
suffixes, a list of parameters to ignore, and below `definitions` the files that declare families. Everything but the
last may be missing, and each may be JSON or YAML.

Definition files are taken in the order of their paths, name by name, in whatever order directories list their entries.
They are what is not known as a directory and has the name of a document, unless this begins as that of a template does;
a name that is no text is never taken for that of a template.
-/
import PixelAudit.Catalog.Compiled
import PixelAudit.Catalog.Sources
import PixelAudit.Config.Product
import PixelAudit.Files.Document

namespace PixelAudit

structure DefinitionsRoot where
  path : String

/-- what a definitions root comes to -/
structure LoadedDefinitions where
  product : Product
  context : CompileContext
  catalog : Catalog
  /-- the definition files, in order, as they are shown -/
  files : List String

namespace DefinitionsRoot

/-- the extensions of documents, the first one preferred -/
def extensions : List String := ["json", "yaml", "yml"]

/-- what a name begins with that is not to be read -/
def templatePrefix : String := "TEMPLATE"

/-- the name is text and begins as that of a template -/
def isTemplateName (name : FileName) : Bool :=
  name.text?.any fun text => templatePrefix.toList.isPrefixOf text.toList

/-- the name has the extension of a document -/
def isDocumentName (name : FileName) : Bool := name.extension?.any extensions.contains

/-- what has the name is a definition file, if it is no directory -/
def isDefinitionName (name : FileName) : Bool := !isTemplateName name && isDocumentName name

/-- what has the name, by the one name that leads to it, if it is a definition file -/
def pathNamed (name : FileName) : List (List FileName) := if isDefinitionName name then [[name]] else []

/-- The definition files among the entries of the directory at the path and below them, each by the names that lead to
it. A directory whose own path is too long is not known as one, and counts by its name. -/
def pathsAmong (path : FilePath) : List (FileName × FileTree) → List (List FileName)
  | [] => []
  | (name, .directory inner) :: rest =>
    (if (path.enter name).fault? = none then (pathsAmong (path.enter name) inner).map (name :: ·)
    else pathNamed name) ++ pathsAmong path rest
  | (name, .file _) :: rest => pathNamed name ++ pathsAmong path rest
  | (name, .special _) :: rest => pathNamed name ++ pathsAmong path rest

/-- what paths are ordered by: the bytes of their names, name by name -/
def pathKey (names : List FileName) : List (List UInt8) := names.map FileName.bytes

/-- paths in order -/
def sortPaths (paths : List (List FileName)) : List (List FileName) :=
  paths.mergeSort fun p q => !decide (pathKey q < pathKey p)

/-- the directory of definition files -/
def definitionsPath (r : DefinitionsRoot) : String := FilePath.join r.path "definitions"

/-- the definition files, each by the names that lead to it from the directory of definitions -/
def definitionNames (r : DefinitionsRoot) (tree : FileTree) : Except Failure (List (List FileName)) :=
  match tree.get r.definitionsPath with
  | .ok (.directory entries) => .ok (sortPaths (pathsAmong r.definitionsPath entries))
  | _ => .error ⟨.definitionsMissing r.definitionsPath, []⟩

/-- the path of a definition file -/
def filePath (r : DefinitionsRoot) (names : List FileName) : FilePath := ⟨r.definitionsPath, names⟩

/-- a definition file as it is named in the catalog -/
def origin (names : List FileName) : String := (FilePath.mk "definitions" names).shown

/-- the definition files, in order -/
def definitionPaths (r : DefinitionsRoot) (tree : FileTree) : Except Failure (List FilePath) := do
  return (← r.definitionNames tree).map r.filePath

/-- the definition files, in order, as they are shown -/
def definitionFiles (r : DefinitionsRoot) (tree : FileTree) : Except Failure (List String) := do
  return (← r.definitionPaths tree).map FilePath.shown

/-- the document with the given stem, if there is one -/
def config? (r : DefinitionsRoot) (tree : FileTree) (stem : String) : Option String :=
  (extensions.map fun extension => FilePath.join r.path (stem ++ "." ++ extension)).find? fun path => tree.isFileAt path

/-- read the document with the given stem; without one the fallback stands in -/
def readConfig {α : Type} (r : DefinitionsRoot) (tree : FileTree) (stem : String) (decoder : Decoder α)
    (fallback : α) : Except Failure α :=
  match r.config? tree stem with
  | some path => tree.readDocument decoder path
  | none => .ok fallback

def product (r : DefinitionsRoot) (tree : FileTree) : Except Failure Product :=
  r.readConfig tree "product" Product.decoder {}

/-- the names in a list to ignore, which is a list of names or an object with these names -/
def ignoredNames (path : String) : Json → Except Failure (List String)
  | .array items => items.mapM fun
    | .string name => .ok name
    | v => .error ⟨.ignoreEntryNotText path v.compact, []⟩
  | .object members => .ok (members.map Prod.fst)
  | .null => .ok []
  | _ => .error ⟨.ignoreListForm path, []⟩

/-- read a list to ignore, if there is a path to one -/
def readIgnored (tree : FileTree) : Option String → Except Failure (List String)
  | some path => do ignoredNames path (← tree.readDocument .any path)
  | none => .ok []

/-- what the families of a product are compiled with; another list to ignore adds to that of the root -/
def contextFor (r : DefinitionsRoot) (tree : FileTree) (product : Product) (alsoIgnore : Option String) :
    Except Failure CompileContext := do
  let commonParams : ParamCatalog ← r.readConfig tree "common_params" (.table ParamSpec.decoder) ∅
  let commonSuffixes : SuffixCatalog ← r.readConfig tree "common_suffixes" (.table SuffixSpec.decoder) ∅
  let own ← readIgnored tree (r.config? tree "ignore_params")
  let further ← readIgnored tree alsoIgnore
  return {
    commonParams := commonParams.normalize
    commonSuffixes
    ignoreParams := NameSet.ofList (own ++ further)
    forceLowerCase := product.forceLowerCase
    experiments := product.experiments
    minVersion := product.minVersion }

/-- the product, and what its families are compiled with -/
def context (r : DefinitionsRoot) (tree : FileTree) (alsoIgnore : Option String) :
    Except Failure (Product × CompileContext) := do
  let product ← r.product tree
  let context ← r.contextFor tree product alsoIgnore
  return (product, context)

/-- take one definition file into a catalog -/
def addFile (r : DefinitionsRoot) (tree : FileTree) (catalog : Catalog) (names : List FileName) :
    Except Failure Catalog := do
  let path := r.filePath names
  let records ← tree.readDocument .any path
  let (catalog, added) := catalog.addSource (origin names) records
  let _ ← failWith .audit [.tokenizing path.shown] added
  return catalog

/-- load everything -/
def load (r : DefinitionsRoot) (tree : FileTree) (alsoIgnore : Option String) : Except Failure LoadedDefinitions := do
  if !tree.isDirectoryAt r.path then throw ⟨.rootNotDirectory r.path, []⟩
  let (product, context) ← r.context tree alsoIgnore
  let names ← r.definitionNames tree
  let catalog ← names.foldlM (r.addFile tree) (Catalog.new context.commonParams context.commonSuffixes)
  return { product, context, catalog, files := names.map fun n => (r.filePath n).shown }

end DefinitionsRoot

end PixelAudit
