/-
Work on files. What has been changed stays when the work fails later on.

Main results: `run_look`, `run_change` (what reading and changing do to the files).
-/
import PixelAudit.Failure

namespace PixelAudit

/-- work on a tree of files -/
abbrev Disk := EStateM Failure FileTree

namespace Disk

variable {α : Type}

/-- look at the files -/
def look (f : FileTree → Except Failure α) : Disk α := fun tree =>
  match f tree with
  | .ok a => .ok a tree
  | .error failure => .error failure tree

/-- change the files -/
def change (f : FileTree → Except Failure FileTree) : Disk Unit := fun tree =>
  match f tree with
  | .ok grown => .ok () grown
  | .error failure => .error failure tree

/-- go on with a value, unless there is a failure instead -/
def ofExcept : Except Failure α → Disk α
  | .ok a => pure a
  | .error failure => throw failure

/-- make a directory with all directories around it -/
def create (path : String) : Disk Unit := fun tree =>
  match FileTree.createAll path tree with
  | .ok _ grown => .ok () grown
  | .error fault grown => .error { cause := .file fault, during := [.creating path] } grown

/-- write a file -/
def write (path text : String) : Disk Unit := change fun tree => failWith .file [.writing path] (tree.write path text)

theorem run_look (f : FileTree → Except Failure α) (tree : FileTree) :
    look f tree = match f tree with
      | .ok a => .ok a tree
      | .error failure => .error failure tree := rfl

theorem run_change (f : FileTree → Except Failure FileTree) (tree : FileTree) :
    change f tree = match f tree with
      | .ok grown => .ok () grown
      | .error failure => .error failure tree := rfl

end Disk

end PixelAudit
