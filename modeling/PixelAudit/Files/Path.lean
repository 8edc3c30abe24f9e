/-
Paths: a text as it is given, and the names that were found by going into directories from there.

What a program is told are texts. What it finds in a directory may be no text, so a path goes on with names.
-/
import PixelAudit.Files.Name
import PixelAudit.Text.Pieces

namespace PixelAudit

inductive FileFault where
  | notFound
  | exists_
  | notDirectory
  | isDirectory
  | notText
  | nameTooLong
  | zeroInPath
  | other (message : String)
  deriving DecidableEq, Repr

def FileFault.message : FileFault → String
  | .notFound => "No such file or directory (os error 2)"
  | .exists_ => "File exists (os error 17)"
  | .notDirectory => "Not a directory (os error 20)"
  | .isDirectory => "Is a directory (os error 21)"
  | .notText => "stream did not contain valid UTF-8"
  | .nameTooLong => "File name too long (os error 36)"
  | .zeroInPath => "file name contained an unexpected NUL byte"
  | .other message => message

structure FilePath where
  text : String
  /-- the names found below the text, in the order in which they lead on -/
  found : List FileName := []
  deriving DecidableEq, Repr

namespace FilePath

instance : Coe String FilePath := ⟨fun text => { text }⟩

/-! texts that are paths -/

/-- a path inside another -/
def join (path name : String) : String :=
  if path = "" then name
  else if path.toList.getLast? = some '/' then path ++ name
  else path ++ "/" ++ name

/-- a path from the root of all files -/
def isAbsolute (path : String) : Bool := path.toList.head? == some '/'

/-- the names of a path, without empty ones and those for the same directory; a slash in front is a name -/
def pieces (path : String) : List String :=
  (if isAbsolute path then ["/"] else []) ++ (Text.pieces '/' path).filter fun n => n ≠ "" && n ≠ "."

/-- a path, last character first, without names for the same directory at its end -/
def dropSame : List Char → List Char
  | '/' :: rest => dropSame rest
  | '.' :: '/' :: rest => dropSame rest
  | cs => cs

/-- the path without its last name; empty if there is one name only -/
def parent (path : String) : String :=
  String.ofList (dropSame ((dropSame path.toList.reverse).dropWhile (· != '/'))).reverse

/-! paths -/

/-- the path of an entry of the directory at a path -/
def enter (path : FilePath) (name : FileName) : FilePath := { path with found := path.found ++ [name] }

/-- the names of a path -/
def names (path : FilePath) : List FileName := (pieces path.text).map FileName.ofText ++ path.found

/-- the root of all files -/
def top : FileName := "/"

/-- the directory above -/
def up : FileName := ".."

/-- one step upwards: the root of all files has nothing above it -/
def above (done : List FileName) : List FileName :=
  match done.getLast? with
  | none => [up]
  | some name => if name = top then done else if name = up then done ++ [up] else done.dropLast

/-- the extension of the last name of a path -/
def extension? (path : FilePath) : Option String := path.names.getLast?.bind FileName.extension?

/-- a path that ends as that of a directory -/
def endsWithSlash (path : FilePath) : Bool := path.found.isEmpty && path.text.toList.getLast? == some '/'

/-- the byte between two names -/
def slash : UInt8 := 0x2F

/-- the bytes of a path, with a slash before each name that was found, unless there is one -/
def bytes (path : FilePath) : List UInt8 :=
  path.found.foldl
    (fun done name => done ++ (if done.isEmpty || done.getLast? == some slash then [] else [slash]) ++ name.bytes)
    (Text.Utf8.encode path.text)

/-- a path as it is shown -/
def shown (path : FilePath) : String := path.found.foldl (fun done name => join done name.shown) path.text

/-- greatest number of bytes of a path -/
def limit : Nat := 4095

/-- why a path leads nowhere, whatever files there are -/
def fault? (path : FilePath) : Option FileFault :=
  if path.bytes.contains 0 then some .zeroInPath
  else if limit < path.bytes.length then some .nameTooLong
  else none

/-- a path that can lead somewhere -/
def checked (path : FilePath) : Except FileFault Unit :=
  match path.fault? with
  | some fault => .error fault
  | none => .ok ()

end FilePath

end PixelAudit
