/-
The parameters of an event as they arrive: a query string, or a JSON list of `key=value` texts, both percent-encoded.
-/
import PixelAudit.Text.LowerCase
import PixelAudit.Text.Percent
import PixelAudit.Version

namespace PixelAudit

/-- one parameter of an event -/
structure ParamToken where
  key : String
  value : String
  deriving DecidableEq, Repr, Inhabited

namespace ParamToken

/-- the parameter as it is shown in reports -/
def raw (t : ParamToken) : String := t.key ++ "=" ++ t.value

def lower (t : ParamToken) : ParamToken := ⟨Text.lower t.key, Text.lower t.value⟩

end ParamToken

/-- why the parameters of an event cannot be used -/
inductive EventFault where
  /-- the text starts like a JSON list, but is none -/
  | unreadableList (cause : Json.TextError)
  /-- an entry of the list is no text -/
  | entryNotText (shown : String)
  | badEncoding (part : String) (cause : Text.Utf8.Fault)
  deriving DecidableEq, Repr

def EventFault.message : EventFault → String
  | .unreadableList cause => "unparsable parameter list: " ++ cause.message
  | .entryNotText shown => "parameter list entries must be strings, got " ++ shown
  | .badEncoding part cause => s!"bad percent-encoding in '{part}': " ++ cause.message

namespace Event

def decodePart (part : String) : Except EventFault String :=
  match Text.Percent.decode part with
  | .ok s => .ok s
  | .error cause => .error (.badEncoding part cause)

/-- key and value of a token, which its first equals sign parts; without one the value is empty -/
def parseToken (token : String) : Except EventFault ParamToken := do
  let (key, value) := (Text.cut? '=' token).getD (token, "")
  return ⟨← decodePart key, ← decodePart value⟩

/-- an entry of a JSON list, which has to be a text -/
def parseEntry : Json → Except EventFault ParamToken
  | .string s => parseToken s
  | v => .error (.entryNotText v.compact)

/-- the tokens of a query string: question marks in front and empty tokens are dropped -/
def queryTokens (trimmed : String) : List String :=
  (Text.pieces '&' (String.ofList (trimmed.toList.dropWhile (· == '?')))).filter (· ≠ "")

/-- the parameters that a text spells -/
def parseParams (raw : String) : Except EventFault (List ParamToken) := do
  let trimmed := Text.trim raw
  if trimmed = "" then return []
  else if trimmed.toList.head? = some '[' then
    match (Decoder.list Decoder.any).parse trimmed with
    | .ok items => items.mapM parseEntry
    | .error cause => throw (.unreadableList cause)
  else (queryTokens trimmed).mapM parseToken

end Event

end PixelAudit
