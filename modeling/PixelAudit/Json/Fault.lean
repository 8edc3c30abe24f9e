/-
What can be wrong with a JSON text, and with a JSON value where a value of a certain form is wanted.

`Misfit` is a value of the wrong form; `Fault` is a broken text or a misfit met while reading it; `Place` counts lines
from one and columns in bytes.
-/
import PixelAudit.Json.Value
import PixelAudit.Text.Quoted

namespace PixelAudit.Json

/-- a value of the wrong form -/
inductive Misfit where
  | wrongKind (got wanted : String)
  | wrongValue (got wanted : String)
  | wrongLength (length : Nat) (wanted : String)
  | unknownField (name : String) (fields : List String)
  | unknownVariant (name : String) (variants : List String)
  | missingField (name : String)
  | repeatedField (name : String)
  | unreadableVersion (raw : String)
  | enumNotScalar (shown : String)
  deriving DecidableEq, Repr

/-- names as an enumeration: one, either of two, or one of a list -/
def alternatives (names : List String) : String :=
  match names with
  | [] => "there are no fields"
  | [a] => s!"expected `{a}`"
  | [a, b] => s!"expected `{a}` or `{b}`"
  | names => "expected one of " ++ ", ".intercalate (names.map fun n => s!"`{n}`")

def Misfit.message : Misfit → String
  | .wrongKind got wanted => s!"invalid type: {got}, expected {wanted}"
  | .wrongValue got wanted => s!"invalid value: {got}, expected {wanted}"
  | .wrongLength length wanted => s!"invalid length {length}, expected {wanted}"
  | .unknownField name [] => s!"unknown field `{name}`, there are no fields"
  | .unknownField name fields => s!"unknown field `{name}`, " ++ alternatives fields
  | .unknownVariant name variants => s!"unknown variant `{name}`, " ++ alternatives variants
  | .missingField name => s!"missing field `{name}`"
  | .repeatedField name => s!"duplicate field `{name}`"
  | .unreadableVersion raw => s!"invalid version '{raw}'"
  | .enumNotScalar shown => s!"enum values must be scalars, got {shown}"

/-- what a value is, in messages -/
def kindText : Json → String
  | .null => "null"
  | .bool b => s!"boolean `{b}`"
  | .integer n => s!"integer `{n}`"
  | .real x => "floating point `" ++ x.documentText ++ "`"
  | .string s => "string " ++ Text.quoted s
  | .array _ => "sequence"
  | .object _ => "map"

inductive Fault where
  | endInList
  | endInObject
  | endInString
  | endInValue
  | colonExpected
  | listCommaOrEndExpected
  | objectCommaOrEndExpected
  | wordExpected
  | valueExpected
  | badEscape
  | badNumber
  | numberTooLarge
  | controlCharacter
  | keyNotString
  | loneSurrogate
  | trailingComma
  | trailingCharacters
  | hexEscapeCutShort
  | tooDeep
  | misfit (cause : Misfit)
  deriving DecidableEq, Repr

def Fault.message : Fault → String
  | .endInList => "EOF while parsing a list"
  | .endInObject => "EOF while parsing an object"
  | .endInString => "EOF while parsing a string"
  | .endInValue => "EOF while parsing a value"
  | .colonExpected => "expected `:`"
  | .listCommaOrEndExpected => "expected `,` or `]`"
  | .objectCommaOrEndExpected => "expected `,` or `\x7d`"
  | .wordExpected => "expected ident"
  | .valueExpected => "expected value"
  | .badEscape => "invalid escape"
  | .badNumber => "invalid number"
  | .numberTooLarge => "number out of range"
  | .controlCharacter => "control character (\\u0000-\\u001F) found while parsing a string"
  | .keyNotString => "key must be a string"
  | .loneSurrogate => "lone leading surrogate in hex escape"
  | .trailingComma => "trailing comma"
  | .trailingCharacters => "trailing characters"
  | .hexEscapeCutShort => "unexpected end of hex escape"
  | .tooDeep => "recursion limit exceeded"
  | .misfit cause => cause.message

/-- a line, counted from one, and a number of bytes of it -/
structure Place where
  line : Nat
  column : Nat
  deriving DecidableEq, Repr

/-- a fault of a text, with its place -/
structure TextError where
  fault : Fault
  place : Place
  deriving DecidableEq, Repr

def TextError.message (e : TextError) : String :=
  e.fault.message ++ s!" at line {e.place.line} column {e.place.column}"

end PixelAudit.Json
