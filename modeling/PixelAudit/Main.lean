/-
The program: the files that a command line names are read, the command runs on them, and what it has changed is
written. Paths are taken from the directory in which the program runs.
-/
import Std.Time.DateTime.Timestamp
import PixelAudit.Calendar
import PixelAudit.CommandLine.Commands

namespace PixelAudit

open CommandLine

/-- a path that a command looks at, name by name -/
structure Wanted where
  names : List FileName
  /-- everything below it is wanted too -/
  whole : Bool

namespace Wanted

/-- what has to be known to follow names: where they lead, and each directory that is left upwards -/
def following (whole : Bool) (done : List FileName) : List FileName → List Wanted
  | [] => [⟨done, whole⟩]
  | name :: rest =>
    if name = FilePath.up then ⟨done, false⟩ :: following whole (FilePath.above done) rest
    else following whole (done ++ [name]) rest

def path (path : String) : List Wanted := following false [] (FilePath.names path)

def directory (path : String) : List Wanted := following true [] (FilePath.names path)

/-- the names that lead out of a directory -/
def waysOut : List FileName := [FilePath.top, FilePath.up]

/-- what is wanted of an entry of a directory -/
def below (wanted : List Wanted) (name : FileName) : List Wanted :=
  wanted.filterMap fun w =>
    match w.names with
    | first :: rest => if first = name then some { w with names := rest } else none
    | [] => if w.whole && !waysOut.contains name then some w else none

end Wanted

/-- the paths of a definitions root -/
def CommandLine.DefinitionOptions.wanted (o : DefinitionOptions) : List Wanted :=
  let r : DefinitionsRoot := ⟨o.root⟩
  let configs := ["product", "common_params", "common_suffixes", "ignore_params"].flatMap fun stem =>
    DefinitionsRoot.extensions.map fun extension => FilePath.join o.root (stem ++ "." ++ extension)
  Wanted.directory r.definitionsPath ++ (configs ++ o.globalIgnore.toList ++ [o.root]).flatMap Wanted.path

/-- the paths of a command -/
def CommandLine.Command.wanted : Command → List Wanted
  | .tokenize definitions out => definitions.wanted ++ Wanted.path out
  | .validate definitions options =>
    let results := ResultPaths.inside options.out
    definitions.wanted ++
      [options.trie, options.csv, results.undocumented, results.errors, results.summary].flatMap Wanted.path
  | .check definitions => definitions.wanted

/-- the paths of a command line -/
def wantedPaths (environment : Option String) (arguments : List String) : List Wanted :=
  match CommandLine.read environment arguments with
  | .ok invocation => invocation.command.wanted
  | .error _ => []

/-- the bytes of what is no directory -/
def content (entry : IO.FS.DirEntry) : IO (List UInt8) := return (← IO.FS.readBinFile entry.path).toList

/-- read a file, or as much of a directory as is wanted -/
partial def snapshot (wanted : List Wanted) (entry : IO.FS.DirEntry) : IO FileTree := do
  match (← entry.path.metadata).type with
  | .dir =>
    let outside := ["/", ".."].map fun name => { root := entry.path, fileName := name }
    let mut entries : List (FileName × FileTree) := []
    for inner in (← entry.path.readDir).toList ++ outside do
      let name := FileName.ofText inner.fileName
      let wanted := Wanted.below wanted name
      if !wanted.isEmpty then entries := FileTree.withEntry name (← snapshot wanted inner) entries
    return .directory entries
  | .file => return .file (← content entry)
  | _ => try return .special (.ok (← content entry)) catch e => return .special (.error (.other (toString e)))

mutual

/-- the files of a tree, each with its path -/
def filesOf (path : String) : FileTree → List (String × List UInt8)
  | .file bytes => [(path, bytes)]
  | .directory entries => filesOfEntries path entries
  | .special _ => []

def filesOfEntries (path : String) : List (FileName × FileTree) → List (String × List UInt8)
  | [] => []
  | (name, entry) :: rest => filesOf (FilePath.join path name.shown) entry ++ filesOfEntries path rest

end

/-- the files that are new or have another content -/
def changedFiles (before after : FileTree) : List (String × List UInt8) :=
  (filesOf "" after).filter fun f =>
    match before.readBytes f.1 with
    | .ok bytes => bytes != f.2
    | .error _ => true

/-- write the files that have changed -/
def writeChanges (before after : FileTree) : IO Unit := do
  for (path, bytes) in changedFiles before after do
    if FilePath.parent path ≠ "" then IO.FS.createDirAll (FilePath.parent path)
    IO.FS.writeBinFile path bytes.toByteArray

/-- the present time -/
def now : IO String := do
  let nanoseconds := (← Std.Time.Timestamp.now).toNanosecondsSinceUnixEpoch.val.toNat
  return Calendar.text (nanoseconds / 1000000000) (nanoseconds % 1000000000)

end PixelAudit

open PixelAudit in
def main (arguments : List String) : IO UInt32 := do
  let environment ← IO.getEnv "PIXEL_DEFS_DIR"
  let before ← snapshot (wantedPaths environment arguments) { root := ".", fileName := "." }
  let (reply, after) := CommandLine.run { definitions := environment, time := ← now } arguments before
  writeChanges before after
  IO.print reply.output
  IO.eprint reply.errors
  return reply.exitCode.toUInt32
