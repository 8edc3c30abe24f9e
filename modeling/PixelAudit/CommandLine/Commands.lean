/-
What the commands do with the files, and what they say.
-/
import PixelAudit.Audit.Export
import PixelAudit.CommandLine.Arguments

namespace PixelAudit.CommandLine

/-- what a command leaves on the terminal -/
structure Reply where
  exitCode : Nat
  output : String := ""
  errors : String := ""
  deriving DecidableEq, Repr

/-- what a command is run with besides its arguments -/
structure Surroundings where
  /-- where definitions are if no option says so -/
  definitions : Option String
  /-- the run is told to stop -/
  stopped : Nat → Bool := fun _ => false
  time : String

/-- the definitions and their families -/
def loadAndCompile (o : DefinitionOptions) : Disk (LoadedDefinitions × CompiledCatalog) := do
  let loaded ← Disk.look fun tree => (DefinitionsRoot.mk o.root).load tree o.globalIgnore
  let compiled ← Disk.ofExcept (failWith .audit [] (CompiledCatalog.build loaded.catalog.root loaded.context))
  return (loaded, compiled)

/-- store definitions that compile as an artifact -/
def tokenize (o : DefinitionOptions) (out : String) : Disk String := do
  let (loaded, compiled) ← loadAndCompile o
  (Artifact.new loaded.catalog.root).save out
  return s!"OK Tokenized {compiled.familyCount} pixel families from {loaded.files.length} files into {out}\n"

/-- load and compile definitions -/
def check (o : DefinitionOptions) : Disk String := do
  let (loaded, compiled) ← loadAndCompile o
  return s!"OK {compiled.familyCount} pixel families in {loaded.files.length} files under {o.root}\n"

/-- a file to be read row by row; a directory can be opened, but not read -/
def openSource (path : String) (tree : FileTree) : Except Failure Csv.Source := do
  match ← failWith .file [.opening path] (tree.get path) with
  | .file bytes => return { bytes }
  | .special answer => return { bytes := ← failWith .file [.opening path] answer }
  | .directory _ => return { bytes := [], failure := some FileFault.isDirectory.message }

/-- what is said about a run that has ended -/
def runText (csv : String) (state : RunState) (paths : ResultPaths) : String :=
  let status := if state.stats.aborted then "ABORTED" else "OK"
  let count (v : Verdict) : Nat := state.report.count v
  let owners := state.report.ownersWithFailures
  status ++ s!" Validated {state.stats.rows} rows from {csv}\n" ++
    s!"  {count .passed} passed, {count .failed} failed, {count .oldAppVersion} old app version, " ++
    s!"{count .undocumented} undocumented, {state.stats.malformedRows} malformed rows\n" ++
    (if owners.isEmpty then "" else "  owners with failures: " ++ ", ".intercalate owners ++ "\n") ++
    s!"  results: {FilePath.parent paths.summary}\n"

/-- judge an export against an artifact -/
def validate (s : Surroundings) (o : DefinitionOptions) (v : ValidateOptions) : Disk String := do
  let (product, context) ← Disk.look fun tree => (DefinitionsRoot.mk o.root).context tree o.globalIgnore
  let artifact ← Artifact.load v.trie
  let compiled ← Disk.ofExcept (failWith .audit [.compiling v.trie] (CompiledCatalog.build artifact.trie context))
  let source ← Disk.look (openSource v.csv)
  let audit : ExportAudit :=
    { versionKey := v.versionKey.or product.versionKey, cap := v.cap, columns := v.columns, out := v.out }
  let (state, paths) ← audit.run compiled artifact.trie { source, stopped := s.stopped, time := s.time }
  return runText v.csv state paths

def Command.run (s : Surroundings) : Command → Disk String
  | .tokenize definitions out => CommandLine.tokenize definitions out
  | .validate definitions options => CommandLine.validate s definitions options
  | .check definitions => CommandLine.check definitions

def versionText : String := "pixel_cli 0.1.0\n"

def helpText : String :=
  "Compile pixel definitions and validate live pixel exports against them\n\n" ++
  "Usage: pixel_cli [OPTIONS] <COMMAND>\n\n" ++
  "Commands:\n" ++
  "  tokenize  Build the definition trie and persist it\n" ++
  "  validate  Validate a live export against a persisted trie\n" ++
  "  check     Load and compile definitions without writing anything\n" ++
  "  help      Print this message or the help of the given subcommand(s)\n\n" ++
  "Options:\n" ++
  "  -q, --quiet    Suppress non-essential output\n" ++
  "  -h, --help     Print help\n" ++
  "  -V, --version  Print version\n"

def usageText : String := "error: invalid arguments\n\nFor more information, try '--help'.\n"

/-- what is left on the terminal when the arguments are not read to their end -/
def Stop.reply : Stop → Reply
  | .help => { exitCode := 0, output := helpText }
  | .version => { exitCode := 0, output := versionText }
  | .usage => { exitCode := 2, errors := usageText }

/-- run a command line on files -/
def run (s : Surroundings) (arguments : List String) (tree : FileTree) : Reply × FileTree :=
  match read s.definitions arguments with
  | .error stop => (stop.reply, tree)
  | .ok invocation =>
    match invocation.command.run s tree with
    | .ok text tree => ({ exitCode := 0, output := if invocation.quiet then "" else text }, tree)
    | .error failure tree => ({ exitCode := 1, errors := "error: " ++ failure.message ++ "\n" }, tree)

end PixelAudit.CommandLine
