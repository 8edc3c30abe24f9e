/-
The tokens of a YAML text.

Collections in block style have no marks of their own: their starts and ends are tokens that follow from the columns,
and so is the start of a key that has no mark.
-/
import PixelAudit.Yaml.Scalar

namespace PixelAudit.Yaml

inductive Token where
  /-- the version that a document asks for -/
  | version (major minor : Nat)
  /-- an abbreviation for the start of tags -/
  | tagHandle (handle start : String)
  | documentStart
  | documentEnd
  | blockSequence
  | blockMapping
  | blockEnd
  | flowSequence
  | flowSequenceEnd
  | flowMapping
  | flowMappingEnd
  | comma
  | dash
  | key
  | value
  | anchor (name : String)
  /-- the node with the given anchor -/
  | aliasOf (name : String)
  /-- a tag, by its abbreviated start and the rest -/
  | tag (handle rest : String)
  | scalar (text : String) (style : Style)
  deriving DecidableEq, Repr

end PixelAudit.Yaml
