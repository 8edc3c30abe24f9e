/-
The stored form of a tree of declared families: a JSON text with the number of its format.
-/
import PixelAudit.Catalog.Node

namespace PixelAudit

namespace Node

mutual

def toJson : Node → Json
  | ⟨children, definition, origin⟩ =>
    .object <|
      (if children.isEmpty then [] else [("children", .object (toJsonList children))]) ++
      optionalMember "definition" PixelDefinition.toJson definition ++
      optionalMember "origin" .string origin

def toJsonList : List (String × Node) → List (String × Json)
  | [] => []
  | (segment, child) :: rest => (segment, child.toJson) :: toJsonList rest

end

/-- how a node is read whose children are read by the given decoder -/
def form (child : Decoder Node) : Form Node where
  title := "PixelDefinitionNode"
  blank := .empty
  fields := [
    Field.of "children" (.table child) fun v n => { n with children := v.entries },
    Field.of "definition" (.optional PixelDefinition.decoder) fun v n => { n with definition := v },
    Field.of "origin" (.optional .string) fun v n => { n with origin := v }]
  closed := false

/-- a node with at most so many generations below it; each takes room in the text, which gives out first -/
def decoder : Nat → Decoder Node
  | 0 => { ofText := fun _ => Json.Reader.failAhead .tooDeep, ofValue := fun _ => .ok .empty, ofYaml := fun _ => none }
  | depth + 1 => (form (decoder depth)).decoder

end Node

structure Artifact where
  formatVersion : Nat
  trie : Node

namespace Artifact

/-- a tree in the present format -/
def new (trie : Node) : Artifact := ⟨artifactFormat, trie⟩

def form : Form Artifact where
  title := "TrieArtifact"
  blank := ⟨0, .empty⟩
  fields := [
    (Field.of "formatVersion" .natural32 fun v a => { a with formatVersion := v }).needed,
    (Field.of "trie" (Node.decoder (Json.maxDepth + 1)) fun v a => { a with trie := v }).needed]
  closed := false

def toJson (a : Artifact) : Json := .object [("formatVersion", .integer a.formatVersion), ("trie", a.trie.toJson)]

/-- the stored text -/
def text (a : Artifact) : String := a.toJson.pretty

/-- read a stored text, which has to be in the present format -/
def ofText (raw : String) : Except AuditError Artifact :=
  match form.decoder.parse raw with
  | .error cause => .error (.artifact (.unreadable cause))
  | .ok a =>
    if a.formatVersion = artifactFormat then .ok a
    else .error (.artifact (.unsupportedFormat a.formatVersion))

end Artifact

end PixelAudit
