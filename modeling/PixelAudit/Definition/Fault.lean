/-
What can be wrong with the definitions of pixel families, and the errors that stop work on a whole catalog or event.
-/
import PixelAudit.Definition.Spec

namespace PixelAudit

/-- the two kinds of specifications in a definition -/
inductive SpecKind where
  | parameter
  | suffix
  deriving DecidableEq, Repr

def SpecKind.text : SpecKind → String
  | .parameter => "parameter"
  | .suffix => "suffix"

/-- why a definition is refused -/
inductive DefinitionFault where
  | sourceNotMapping
  | emptySegment
  | notObject
  | unknownField (name : String)
  | ownersNotTexts
  | ownersNotList
  | ownersMissing
  | descriptionNotText
  | triggersNotList
  | unreadableVersion (raw : String)
  | versionNotText (shown : String)
  | listNotArray (kind : SpecKind)
  | unknownShortcut (kind : SpecKind) (name : String)
  | entryNeitherObjectNorName (kind : SpecKind)
  | misfit (cause : Json.Misfit)
  | keyAndPattern (label : String)
  | neitherKeyNorPattern
  | requiredPattern (pattern : String)
  | repeatedParameter (key : String)
  | badPattern (pattern : String)
  | emptyBounds (minimum maximum : String)
  deriving DecidableEq, Repr

def DefinitionFault.message : DefinitionFault → String
  | .sourceNotMapping => "definition source must be a mapping of pixel names"
  | .emptySegment => "pixel name has an empty segment"
  | .notObject => "definition must be an object"
  | .unknownField name => s!"unknown field '{name}'"
  | .ownersNotTexts => "owners must be strings"
  | .ownersNotList => "owners must be a list"
  | .ownersMissing => "missing owners"
  | .descriptionNotText => "description must be a string"
  | .triggersNotList => "triggers must be a list"
  | .unreadableVersion raw => s!"invalid version '{raw}'"
  | .versionNotText shown => "minVersion must be a string, got " ++ shown
  | .listNotArray kind => kind.text ++ " list must be an array"
  | .unknownShortcut kind name => "unknown " ++ kind.text ++ s!" shortcut '{name}'"
  | .entryNeitherObjectNorName kind => kind.text ++ " entry must be an object or shortcut name"
  | .misfit cause => cause.message
  | .keyAndPattern label => s!"parameter '{label}' has both key and keyPattern"
  | .neitherKeyNorPattern => "parameter needs either key or keyPattern"
  | .requiredPattern pattern => s!"keyPattern parameter '{pattern}' cannot be required"
  | .repeatedParameter key => s!"duplicate parameter '{key}'"
  | .badPattern pattern => s!"invalid pattern '{pattern}': <regex error>"
  | .emptyBounds minimum maximum => s!"minimum {minimum} exceeds maximum {maximum}"

/-- why a stored catalog cannot be used -/
inductive ArtifactFault where
  | unreadable (cause : Json.TextError)
  | unsupportedFormat (version : Nat)
  deriving DecidableEq, Repr

/-- the format in which catalogs are stored -/
def artifactFormat : Nat := 1

def ArtifactFault.message : ArtifactFault → String
  | .unreadable cause => cause.message
  | .unsupportedFormat version => s!"unsupported format version {version} (expected {artifactFormat})"

/-- errors that stop work on a catalog, or on one event -/
inductive AuditError where
  | definition (pixel : String) (fault : DefinitionFault)
  /-- one family with two different definitions, from two sources -/
  | conflict (pixel first second : String)
  | malformedEvent (fault : EventFault)
  | unreadableVersion (raw : String)
  | artifact (fault : ArtifactFault)
  deriving DecidableEq, Repr

def AuditError.message : AuditError → String
  | .definition pixel fault => s!"invalid definition for pixel '{pixel}': " ++ fault.message
  | .conflict pixel first second =>
    s!"pixel '{pixel}' declared in both '{first}' and '{second}' with different definitions"
  | .malformedEvent fault => "malformed event: " ++ fault.message
  | .unreadableVersion raw => s!"invalid version '{raw}'"
  | .artifact fault => "unreadable trie artifact: " ++ fault.message

end PixelAudit
