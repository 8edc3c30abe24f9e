/-
Documents in files. A file whose name ends in `.yaml` or `.yml` holds YAML, any other JSON.
-/
import PixelAudit.Failure
import PixelAudit.Yaml.Document

namespace PixelAudit

namespace FileTree

def isYaml (path : FilePath) : Bool :=
  match path.extension? with
  | some extension => extension == "yaml" || extension == "yml"
  | none => false

/-- read the document in a file -/
def readDocument {α : Type} (tree : FileTree) (decoder : Decoder α) (path : FilePath) : Except Failure α := do
  let text ← failWith .file [.reading path.shown] (tree.read path)
  if isYaml path then
    match (Yaml.parse? text).bind decoder.ofYaml with
    | some a => return a
    | none => .error ⟨.yaml, [.parsing path.shown]⟩
  else failWith .json [.parsing path.shown] (decoder.parse text)

end FileTree

end PixelAudit
