/-
YAML documents: scalars, sequences and mappings.
-/
import PixelAudit.Yaml.Scalar

namespace PixelAudit

inductive Yaml where
  /-- a document without content -/
  | absent
  /-- a collection that cannot be read, and may only be passed over -/
  | unreadable
  | scalar (scalar : Yaml.Scalar)
  | sequence (tag : Option Yaml.Tag) (items : List Yaml)
  | mapping (tag : Option Yaml.Tag) (entries : List (Yaml × Yaml))
  deriving Inhabited

namespace Yaml

/-- a plain scalar without characters -/
def blank : Yaml := .scalar .blank

/-- nothing is written where a collection is wanted -/
def isMissing : Yaml → Bool
  | .absent => true
  | .scalar s => s.isMissing
  | _ => false

/-- the text of a scalar that stands as a key -/
def keyText? : Yaml → Option String
  | .scalar s => some s.text
  | _ => none

/-- a tag of the document's own has no counterpart in JSON -/
def isOwn : Option Tag → Bool
  | some (.own _) => true
  | _ => false

mutual

/-- the document with so many collections inside each other; deeper ones cannot be read -/
def within (room : Nat) : Yaml → Yaml
  | .absent => .absent
  | .unreadable => .unreadable
  | .scalar s => .scalar s
  | .sequence tag items =>
    match room with
    | 0 => .unreadable
    | room + 1 => .sequence tag (itemsWithin room items)
  | .mapping tag entries =>
    match room with
    | 0 => .unreadable
    | room + 1 => .mapping tag (entriesWithin room entries)

def itemsWithin (room : Nat) : List Yaml → List Yaml
  | [] => []
  | item :: rest => within room item :: itemsWithin room rest

def entriesWithin (room : Nat) : List (Yaml × Yaml) → List (Yaml × Yaml)
  | [] => []
  | (key, value) :: rest => (within room key, within room value) :: entriesWithin room rest

end

mutual

/-- the document as a JSON value; of two entries with one key the later stays -/
def toJson? : Yaml → Option Json
  | .absent => some .null
  | .unreadable => none
  | .scalar s => s.toJson?
  | .sequence tag items => if isOwn tag then none else (itemsJson? items).map .array
  | .mapping tag entries =>
    if isOwn tag then none else (entriesJson? entries).map fun es => .object (Entries.ofList es)

def itemsJson? : List Yaml → Option (List Json)
  | [] => some []
  | item :: rest => do return (← item.toJson?) :: (← itemsJson? rest)

def entriesJson? : List (Yaml × Yaml) → Option (List (String × Json))
  | [] => some []
  | (key, value) :: rest => do return (← keyText? key, ← value.toJson?) :: (← entriesJson? rest)

end

end Yaml

end PixelAudit
