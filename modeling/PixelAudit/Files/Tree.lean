/-
Files and directories as a value, and the operations on paths that a run needs.

A path is resolved from the directory in which a run works, the top of its tree; `.` is the same directory and `..` the
one above. What lies outside that directory can be known too: the top then has an entry `/` for the root of all files,
and an entry `..` for the directory above. Names and paths have a greatest length, and no path holds the character zero.
What goes wrong is told in the words of the operating system.

An entry may be neither a file nor a directory, such as a pipe or a socket. What is read from it comes from elsewhere,
and what is written to it goes elsewhere.

Main results: `find_put` (an entry is found where it was put).
-/
import PixelAudit.Files.Path

namespace PixelAudit

inductive FileTree where
  | file (bytes : List UInt8)
  | directory (entries : List (FileName × FileTree))
  /-- neither of them; the answer is what reading it gives, or why it cannot be opened -/
  | special (answer : Except FileFault (List UInt8))
  deriving Inhabited

namespace FileTree

def empty : FileTree := .directory []

/-- nothing has the name -/
def missing (name : FileName) : FileFault := if name.isTooLong then .nameTooLong else .notFound

/-- what stands under a list of names -/
def find (tree : FileTree) : List FileName → Except FileFault FileTree
  | [] => .ok tree
  | name :: rest =>
    match tree with
    | directory entries =>
      match entries.lookup name with
      | some child => child.find rest
      | none => .error (missing name)
    | _ => .error .notDirectory

/-- names that lead from the top; a step upwards needs a directory to go up from -/
def resolve (tree : FileTree) (done : List FileName) : List FileName → Except FileFault (List FileName)
  | [] => .ok done
  | name :: rest =>
    if name = FilePath.up then do
      match ← tree.find done with
      | directory _ => tree.resolve (FilePath.above done) rest
      | _ => .error .notDirectory
    else tree.resolve (done ++ [name]) rest

/-- the names of a path, from the top -/
def locate (tree : FileTree) (path : FilePath) : Except FileFault (List FileName) := do
  path.checked
  if path = "" then .error .notFound else tree.resolve [] path.names

/-- what stands under a path -/
def get (tree : FileTree) (path : FilePath) : Except FileFault FileTree := do
  match ← tree.find (← tree.locate path) with
  | directory entries => return directory entries
  | entry => if path.endsWithSlash then .error .notDirectory else return entry

def isFileAt (tree : FileTree) (path : FilePath) : Bool :=
  match tree.get path with
  | .ok (file _) => true
  | _ => false

def isDirectoryAt (tree : FileTree) (path : FilePath) : Bool :=
  match tree.get path with
  | .ok (directory _) => true
  | _ => false

/-- the bytes of a file -/
def readBytes (tree : FileTree) (path : FilePath) : Except FileFault (List UInt8) := do
  match ← tree.get path with
  | file bytes => return bytes
  | directory _ => .error .isDirectory
  | special answer => answer

/-- the text of a file -/
def read (tree : FileTree) (path : FilePath) : Except FileFault String := do
  match Text.Utf8.decode (← tree.readBytes path) with
  | .ok text => return text
  | .error _ => .error .notText

/-- entries with one of the name instead of those that have it -/
def withEntry (name : FileName) (entry : FileTree) (entries : List (FileName × FileTree)) :
    List (FileName × FileTree) :=
  (name, entry) :: entries.filter fun e => e.1 ≠ name

/-- put an entry under names, the last of which may be new; a directory is not replaced -/
def put (tree entry : FileTree) : List FileName → Except FileFault FileTree
  | [] => .error .isDirectory
  | [name] =>
    match tree with
    | directory entries =>
      match entries.lookup name with
      | some (directory _) => .error .isDirectory
      | _ => if name.isTooLong then .error .nameTooLong else .ok (directory (withEntry name entry entries))
    | _ => .error .notDirectory
  | name :: next :: rest =>
    match tree with
    | directory entries =>
      match entries.lookup name with
      | some child => do return directory (withEntry name (← child.put entry (next :: rest)) entries)
      | none => .error (missing name)
    | _ => .error .notDirectory

/-- write a file, whose directory has to exist -/
def write (tree : FileTree) (path : FilePath) (text : String) : Except FileFault FileTree := do
  let names ← tree.locate path
  if path.endsWithSlash then .error .isDirectory
  else match tree.find names with
    | .ok (special answer) => answer.map fun _ => tree
    | _ => tree.put (file (Text.Utf8.encode text)) names

/-- Make every directory on the way that is missing; those that have been made stay if a later one cannot be made. What
is in the way and no directory is something that exists if it comes last, or after a directory that had to be made, and
no directory otherwise. -/
def makeAll (done : List FileName) (made : Bool) : List FileName → EStateM FileFault FileTree Unit
  | [] => pure ()
  | name :: rest => do
    if name = FilePath.up then makeAll (FilePath.above done) made rest
    else
      let tree ← getThe FileTree
      match tree.find (done ++ [name]) with
      | .ok (directory _) => makeAll (done ++ [name]) made rest
      | .ok _ => throw (if made || rest.isEmpty then .exists_ else .notDirectory)
      | .error .notFound => do
        match tree.put empty (done ++ [name]) with
        | .ok grown => do
          set grown
          makeAll (done ++ [name]) true rest
        | .error fault => throw fault
      | .error fault => throw fault

/-- make a directory with all directories around it -/
def createAll (path : FilePath) : EStateM FileFault FileTree Unit :=
  match path.fault? with
  | some fault => throw fault
  | none => makeAll [] false path.names

/-- an entry is found where it was put -/
theorem find_put {tree entry grown : FileTree} {names : List FileName} (h : tree.put entry names = .ok grown) :
    grown.find names = .ok entry := by
  have hlookup : ∀ (name : FileName) (value : FileTree) entries,
      (withEntry name value entries).lookup name = some value := fun _ _ _ => List.lookup_cons_self
  induction names generalizing tree grown with
  | nil => simp [put] at h
  | cons name rest ih =>
    cases tree with
    | file bytes => cases rest <;> simp [put] at h
    | special answer => cases rest <;> simp [put] at h
    | directory entries =>
      cases rest with
      | nil =>
        simp only [put] at h
        split at h
        · cases h
        · split at h
          · cases h
          · cases h
            simp [find, hlookup]
      | cons next rest =>
        simp only [put] at h
        split at h
        · rename_i child hchild
          cases hput : child.put entry (next :: rest) with
          | error e =>
            rw [hput] at h
            cases h
          | ok inner =>
            rw [hput] at h
            cases h
            simp only [find, hlookup]
            exact ih hput
        · cases h

end FileTree

end PixelAudit
