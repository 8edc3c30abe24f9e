/-
What can stand before a document or a node: directives, anchors and tags.
-/
import PixelAudit.Text.Utf8
import PixelAudit.Yaml.Cursor
import PixelAudit.Yaml.Token

namespace PixelAudit.Yaml

/-- a character of a name -/
def isNameChar (c : Char) : Bool := c.isAlphanum || c == '_' || c == '-'

/-- what may follow the name of an anchor -/
def endsAnchor (cs : List Char) : Bool := isGap cs || cs.head?.any ("?:,]\x7d%@`".toList.contains ·)

/-- the name of an anchor, after its mark -/
def anchorName : Reader String := do
  let name ← takeWhile isNameChar
  if name.isEmpty || !endsAnchor (← get).rest then refuse
  return String.ofList name

/-! tags -/

/-- a character of a tag; inside angle brackets some marks are too -/
def isTagChar (bracketed : Bool) (c : Char) : Bool :=
  isNameChar c || ";/?:@&=+$.!~*'()".toList.contains c || (bracketed && (c == ',' || c == '[' || c == ']'))

/-- bytes written as a percent sign and two digits each, so many of them -/
def percentBytes (bytes : List UInt8) : Nat → Reader (List UInt8)
  | 0 => return bytes.reverse
  | n + 1 => do
    match (← get).rest with
    | '%' :: a :: b :: _ =>
      match digitsOfBase? 16 [a, b] with
      | some byte => do
        bumpMany 3
        percentBytes (byte.toUInt8 :: bytes) n
      | none => refuse
    | _ => refuse

/-- a character by its bytes, each with a percent sign -/
def percentChar : Reader (List Char) := do
  let before ← get
  let first := ((← percentBytes [] 1).head?.getD 0).toNat
  set before
  if (0x80 ≤ first ∧ first < 0xC0) ∨ 0xF8 ≤ first then refuse
  let count := if first < 0x80 then 1 else if first < 0xE0 then 2 else if first < 0xF0 then 3 else 4
  match Text.Utf8.decode (← percentBytes [] count) with
  | .ok text => return text.toList
  | .error _ => refuse

/-- the characters of a tag, put after those read so far -/
def tagText (bracketed : Bool) (text : List Char) : Nat → Reader (List Char)
  | 0 => refuse
  | fuel + 1 => do
    let part ← takeWhile (isTagChar bracketed)
    if (← peek) = some '%' then tagText bracketed (text ++ part ++ (← percentChar)) fuel
    else return text ++ part

/-- the start of a tag: an exclamation mark, a name and, if it follows, another exclamation mark -/
def tagStart : Reader (List Char) := do
  if (← peek) ≠ some '!' then refuse
  bump
  let name ← takeWhile isNameChar
  if (← peek) = some '!' then
    bump
    return '!' :: (name ++ ['!'])
  else return '!' :: name

/-- a tag, from its exclamation mark on -/
def tagToken (inFlow : Bool) (fuel : Nat) : Reader Token := do
  let token ← match (← get).rest with
    | '!' :: '<' :: _ => do
      bumpMany 2
      let text ← tagText true [] fuel
      if text.isEmpty ∨ (← peek) ≠ some '>' then refuse
      bump
      pure (Token.tag "" (String.ofList text))
    | _ => do
      let start ← tagStart
      if 1 < start.length ∧ start.getLast? = some '!' then
        let rest ← tagText false [] fuel
        if rest.isEmpty then refuse
        pure (Token.tag (String.ofList start) (String.ofList rest))
      else
        let rest ← tagText false start.tail fuel
        pure (if rest.isEmpty then Token.tag "" "!" else Token.tag "!" (String.ofList rest))
  let s ← get
  if isGap s.rest || (inFlow && s.rest.head? == some ',') then return token else refuse

/-! directives -/

/-- a number of at most nine digits -/
def versionNumber : Reader Nat := do
  let digits ← takeWhile Decimal.isDigit
  if digits.isEmpty || 9 < digits.length then refuse
  return Decimal.ofDigits digits

/-- a directive, after its percent sign, with the rest of its line -/
def directive (fuel : Nat) : Reader Token := do
  let name ← takeWhile isNameChar
  if name.isEmpty || !isGap (← get).rest then refuse
  skipBlanks
  let token ←
    if name = "YAML".toList then do
      let major ← versionNumber
      if (← peek) ≠ some '.' then refuse
      bump
      pure (Token.version major (← versionNumber))
    else if name = "TAG".toList then do
      let handle ← tagStart
      if handle ≠ ['!'] ∧ (handle.length = 1 ∨ handle.getLast? ≠ some '!') then refuse
      if !(← peek).any isBlank then refuse
      skipBlanks
      let start ← tagText true [] fuel
      if start.isEmpty || !isGap (← get).rest then refuse
      pure (Token.tagHandle (String.ofList handle) (String.ofList start))
    else refuse
  restOfLine
  return token

end PixelAudit.Yaml
