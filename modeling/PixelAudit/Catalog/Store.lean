/-
Storing a tree of declared families in a file, and loading it again.
-/
import PixelAudit.Catalog.Artifact
import PixelAudit.Files.Disk

namespace PixelAudit

namespace Artifact

/-- write the stored text, after making the directory around the file -/
def save (a : Artifact) (path : String) : Disk Unit := do
  if FilePath.parent path ≠ "" then Disk.create (FilePath.parent path)
  Disk.write path a.text

/-- read a stored text -/
def load (path : String) : Disk Artifact := do
  let text ← Disk.look fun tree => failWith .file [.readingArtifact path] (tree.read path)
  Disk.ofExcept (failWith .audit [.loadingArtifact path] (ofText text))

end Artifact

end PixelAudit
