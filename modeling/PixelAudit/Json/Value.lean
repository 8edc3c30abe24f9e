/-
JSON values, and their two written forms: compact on one line, and indented by two spaces a level.

The members of an object are listed in the order in which they are written; a value read from text lists them by name.
-/
import PixelAudit.Dict
import PixelAudit.Decimal.Shortest

namespace PixelAudit

open Decimal (Binary64)

inductive Json where
  | null
  | bool (value : Bool)
  /-- a whole number -/
  | integer (value : Int)
  /-- any other number -/
  | real (value : Binary64)
  | string (value : String)
  | array (items : List Json)
  | object (members : List (String × Json))
  deriving Inhabited

namespace Json

/-- a member by its name -/
def get? (name : String) : Json → Option Json
  | .object members => Entries.find? name members
  | _ => none

/-- a control character by its code point, in four digits -/
def controlText (c : Char) : List Char :=
  let digits := Nat.toDigits 16 c.toNat
  ['\\', 'u'] ++ List.replicate (4 - digits.length) '0' ++ digits

/-- a character inside a quoted text: quotes, backslashes and control characters are escaped -/
def escapeChar (c : Char) : List Char :=
  if c = '"' then ['\\', '"']
  else if c = '\\' then ['\\', '\\']
  else if 0x20 ≤ c.toNat then [c]
  else if c = '\n' then ['\\', 'n']
  else if c = '\r' then ['\\', 'r']
  else if c = '\t' then ['\\', 't']
  else if c.toNat = 0x8 then ['\\', 'b']
  else if c.toNat = 0xC then ['\\', 'f']
  else controlText c

/-- a text between quotes -/
def quote (s : String) : String := String.ofList ('"' :: (s.toList.flatMap escapeChar ++ ['"']))

mutual

/-- the written form on one line -/
def compact : Json → String
  | .null => "null"
  | .bool true => "true"
  | .bool false => "false"
  | .integer n => toString n
  | .real x => x.documentText
  | .string s => quote s
  | .array items => "[" ++ compactItems items ++ "]"
  | .object members => "\x7b" ++ compactMembers members ++ "\x7d"

def compactItems : List Json → String
  | [] => ""
  | [item] => item.compact
  | item :: rest => item.compact ++ "," ++ compactItems rest

def compactMembers : List (String × Json) → String
  | [] => ""
  | [(name, value)] => quote name ++ ":" ++ value.compact
  | (name, value) :: rest => quote name ++ ":" ++ value.compact ++ "," ++ compactMembers rest

end

/-- a new line at the given depth -/
def newLine (depth : Nat) : String := "\n" ++ String.ofList (List.replicate (2 * depth) ' ')

mutual

/-- the written form with one item or member a line, inside so many enclosing values -/
def indented (depth : Nat) : Json → String
  | .array [] => "[]"
  | .array (item :: rest) =>
    "[" ++ newLine (depth + 1) ++ item.indented (depth + 1) ++ indentedItems (depth + 1) rest ++ newLine depth ++ "]"
  | .object [] => "\x7b\x7d"
  | .object ((name, value) :: rest) =>
    "\x7b" ++ newLine (depth + 1) ++ quote name ++ ": " ++ value.indented (depth + 1) ++
      indentedMembers (depth + 1) rest ++ newLine depth ++ "\x7d"
  | .null => "null"
  | .bool true => "true"
  | .bool false => "false"
  | .integer n => toString n
  | .real x => x.documentText
  | .string s => quote s

/-- the items after the first -/
def indentedItems (depth : Nat) : List Json → String
  | [] => ""
  | item :: rest => "," ++ newLine depth ++ item.indented depth ++ indentedItems depth rest

/-- the members after the first -/
def indentedMembers (depth : Nat) : List (String × Json) → String
  | [] => ""
  | (name, value) :: rest =>
    "," ++ newLine depth ++ quote name ++ ": " ++ value.indented depth ++ indentedMembers depth rest

end

/-- the written form over several lines -/
def pretty (value : Json) : String := value.indented 0

/-- strings as an array -/
def strings (items : List String) : Json := .array (items.map .string)

end Json

end PixelAudit
