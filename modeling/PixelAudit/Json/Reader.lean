/-
Reading JSON text from the front.

A reader consumes characters from a list. When it stops with a fault it keeps what it has not consumed, because closing
a bracket after a fault still consumes the bracket, and the place of a fault without one is taken only then.

`value` reads any value, `skipValue` passes over one without storing it. Arrays and objects may be nested at most
`maxDepth` deep in `value`; `skipValue` has no such limit, and it is laxer about trailing commas and escapes.
-/
import PixelAudit.Json.Fault
import PixelAudit.Decimal.Numeral

namespace PixelAudit.Json

open Decimal (Binary64)

/-- why a reader stopped: the fault and, once known, the text left at its place and a number of bytes past it -/
structure Stop where
  fault : Fault
  mark : Option (List Char × Nat)

abbrev Reader (α : Type) := EStateM Stop (List Char) α

namespace Reader

/-- the next character, which stays -/
def peek : Reader (Option Char) := do return (← get).head?

/-- pass over one character -/
def bump : Reader Unit := modify List.tail

/-- stop at the present place -/
def failHere {α : Type} (fault : Fault) : Reader α := do throw ⟨fault, some (← get, 0)⟩

/-- stop one byte past the present place -/
def failAhead {α : Type} (fault : Fault) : Reader α := do throw ⟨fault, some (← get, 1)⟩

/-- stop without a place; an enclosing reader fixes it -/
def misfit {α : Type} (cause : Misfit) : Reader α := throw ⟨.misfit cause, none⟩

/-- give a fault without a place the present one -/
def atPlace {α : Type} (reader : Reader α) : Reader α := fun cs =>
  match reader cs with
  | .error ⟨fault, none⟩ rest => .error ⟨fault, some (rest, 0)⟩ rest
  | result => result

/-- A reader followed by a closing one, which runs in any case; the first fault counts. -/
def thenClose {α : Type} (body : Reader α) (close : Reader Unit) : Reader α := fun cs =>
  match body cs with
  | .ok a rest =>
    match close rest with
    | .ok _ rest => .ok a rest
    | .error stop rest => .error stop rest
  | .error stop rest =>
    match close rest with
    | .ok _ rest => .error stop rest
    | .error _ rest => .error stop rest

def isSpace (c : Char) : Bool := c == ' ' || c == '\n' || c == '\t' || c == '\r'

/-- pass over white space and look at the next character -/
def peekToken : Reader (Option Char) := fun cs =>
  let rest := cs.dropWhile isSpace
  .ok rest.head? rest

/-- read the given letters -/
def word : List Char → Reader Unit
  | [] => pure ()
  | expected :: more => do
    match ← peek with
    | none => failHere .endInValue
    | some c => if c = expected then do bump; word more else failAhead .wordExpected

/-- pass over digits and return them -/
def digits : Reader (List Char) := fun cs => .ok (cs.takeWhile Decimal.isDigit) (cs.dropWhile Decimal.isDigit)

end Reader

open Reader

/-! numbers -/

/-- one past the greatest significand kept while digits are read -/
def significandLimit : Nat := UInt64.size

/-- read digits into a significand while it stays below the limit; the digits left over are returned -/
def gather (significand : Nat) : List Char → Nat × List Char
  | [] => (significand, [])
  | c :: rest =>
    let next := significand * 10 + Decimal.digitValue c
    if next < significandLimit then gather next rest else (significand, c :: rest)

/-- A significand times a power of ten: both are rounded to binary numbers, and then their product or quotient is. Far
below the range the number is first scaled up; `none` is an overflow. -/
def scaled? (negative : Bool) (significand : Nat) (exponent : Int) : Option Binary64 :=
  let start := Binary64.ofNat significand
  let finish (x : Binary64) : Option Binary64 := some (if negative then x.negate else x)
  if significand = 0 then finish (Binary64.zero false)
  else if 308 < exponent then none
  else if 0 ≤ exponent then
    let x := start.mul (Binary64.ofNat (Nat.pow 10 exponent.toNat))
    if x.isFinite then finish x else none
  else
    let step (x : Binary64) (n : Nat) : Binary64 := x.div (Binary64.ofNat (Nat.pow 10 n))
    let down := (-exponent).toNat
    if down ≤ 308 then finish (step start down)
    else if down ≤ 616 then finish (step (step start 308) (down - 308))
    else finish (Binary64.zero false)

/-- greatest exponent that is read in full -/
def exponentLimit : Nat := Nat.pow 2 31

/-- the digits of an exponent, as long as they stay below the limit -/
def exponentDigits (value : Nat) : Nat → Reader (Option Nat)
  | 0 => pure (some value)
  | fuel + 1 => do
    match ← peek with
    | none => pure (some value)
    | some c =>
      if Decimal.isDigit c then do
        bump
        let next := value * 10 + Decimal.digitValue c
        if next < exponentLimit then exponentDigits next fuel else pure none
      else pure (some value)

/-- a number whose digits have been read, or an overflow -/
def realNumber (negative : Bool) (significand : Nat) (exponent : Int) : Reader Json :=
  match scaled? negative significand exponent with
  | some x => pure (.real x)
  | none => failHere .numberTooLarge

/-- the digits of an exponent, after its sign -/
def exponentValue (negative : Bool) (significand : Nat) (start : Int) (down : Bool) : Reader Json := do
  match ← peek with
  | none => failHere .endInValue
  | some c =>
    if Decimal.isDigit c then do
      match ← exponentDigits 0 ((← get).length + 1) with
      | some n => realNumber negative significand (if down then start - n else start + n)
      | none =>
        if significand ≠ 0 ∧ ¬ down then failHere .numberTooLarge
        else do
          let _ ← digits
          pure (.real (Binary64.zero negative))
    else failAhead .badNumber

/-- an exponent, from its letter on -/
def exponentPart (negative : Bool) (significand : Nat) (start : Int) : Reader Json := do
  bump
  let down ← match ← peek with
    | some '+' => do bump; pure false
    | some '-' => do bump; pure true
    | _ => pure false
  exponentValue negative significand start down

/-- what follows the digits of a number with a point or an exponent -/
def exponentOrEnd (negative : Bool) (significand : Nat) (exponent : Int) : Reader Json := do
  match ← peek with
  | some 'e' => exponentPart negative significand exponent
  | some 'E' => exponentPart negative significand exponent
  | _ => realNumber negative significand exponent

/-- the digits after the point, from the point on; digits beyond the limit of the significand are dropped -/
def fractionPart (negative : Bool) (significand : Nat) (exponent : Int) : Reader Json := do
  bump
  let ds ← digits
  if ds.isEmpty then
    match ← peek with
    | none => failHere .endInValue
    | some _ => failAhead .badNumber
  else
    let (significand, dropped) := gather significand ds
    exponentOrEnd negative significand (exponent - (ds.length - dropped.length : Nat))

/-- A number, after its sign. A whole number without point and exponent that fits 64 bits stays whole; minus zero does
not. -/
def number (negative : Bool) : Reader Json := do
  match ← peek with
  | none => failHere .endInValue
  | some '0' => do
    bump
    match ← peek with
    | some c => if Decimal.isDigit c then failAhead .badNumber else after 0 0
    | none => after 0 0
  | some c =>
    if Decimal.isDigit c then do
      let ds ← digits
      let (significand, dropped) := gather 0 ds
      after significand dropped.length
    else failAhead .badNumber
where
  /-- the rest of a number whose digits before the point have been read, some of which did not fit -/
  after (significand dropped : Nat) : Reader Json := do
    match ← peek with
    | some '.' => fractionPart negative significand dropped
    | some 'e' => exponentPart negative significand dropped
    | some 'E' => exponentPart negative significand dropped
    | _ =>
      if dropped ≠ 0 then realNumber negative significand dropped
      else if !negative then pure (.integer significand)
      else if significand = 0 ∨ Nat.pow 2 63 < significand then
        pure (.real (Binary64.ofNat significand).negate)
      else pure (.integer (-(significand : Int)))

/-! strings -/

/-- the characters left after a number of bytes, and the bytes of a character that is cut in two -/
def dropBytes : List Char → Nat → Option (List Char × Nat)
  | cs, 0 => some (cs, 0)
  | [], _ + 1 => none
  | c :: rest, n + 1 =>
    if c.utf8Size ≤ n + 1 then dropBytes rest (n + 1 - c.utf8Size) else some (c :: rest, n + 1)

/-- four hexadecimal digits; four bytes are consumed whatever they are -/
def hexQuad : Reader Nat := fun cs =>
  match cs with
  | a :: b :: c :: d :: rest =>
    match Decimal.hexDigit? a, Decimal.hexDigit? b, Decimal.hexDigit? c, Decimal.hexDigit? d with
    | some a, some b, some c, some d => .ok (((a * 16 + b) * 16 + c) * 16 + d) rest
    | _, _, _, _ => stopAfter cs
  | _ => stopAfter cs
where
  stopAfter (cs : List Char) : EStateM.Result Stop (List Char) Nat :=
    match dropBytes cs 4 with
    | some mark => .error ⟨.badEscape, some mark⟩ mark.1
    | none => .error ⟨.endInString, some ([], 0)⟩ []

/-- the character of a one-letter escape -/
def shortEscape? (c : Char) : Option Char :=
  if c = '"' then some '"'
  else if c = '\\' then some '\\'
  else if c = '/' then some '/'
  else if c = 'b' then some (Char.ofNat 0x8)
  else if c = 'f' then some (Char.ofNat 0xC)
  else if c = 'n' then some '\n'
  else if c = 'r' then some '\r'
  else if c = 't' then some '\t'
  else none

/-- the second half of a surrogate pair must follow at once -/
def expectInPair (wanted : Char) : Reader Unit := do
  match ← peek with
  | none => failHere .endInString
  | some c => if c = wanted then bump else failAhead .hexEscapeCutShort

/-- the character of a hexadecimal escape, after its letter -/
def unicodeEscape : Reader Char := do
  let n ← hexQuad
  if 0xDC00 ≤ n ∧ n ≤ 0xDFFF then failHere .loneSurrogate
  else if n < 0xD800 ∨ 0xDBFF < n then pure (Char.ofNat n)
  else do
    expectInPair '\\'
    expectInPair 'u'
    let low ← hexQuad
    if low < 0xDC00 ∨ 0xDFFF < low then failHere .loneSurrogate
    else pure (Char.ofNat ((n - 0xD800) * 0x400 + (low - 0xDC00) + 0x10000))

/-- the character of an escape, after the backslash -/
def escape : Reader Char := do
  match ← peek with
  | none => failHere .endInString
  | some 'u' => do
    bump
    unicodeEscape
  | some c =>
    match shortEscape? c with
    | some decoded => do
      bump
      pure decoded
    | none => failAhead .badEscape

/-- the characters up to the closing quote, which is consumed; those read so far come last character first -/
def stringTail (read : List Char) : Nat → Reader String
  | 0 => failHere .endInString
  | fuel + 1 => do
    match ← peek with
    | none => failHere .endInString
    | some c =>
      if c = '"' then do
        bump
        pure (String.ofList read.reverse)
      else if c = '\\' then do
        bump
        let decoded ← escape
        stringTail (decoded :: read) fuel
      else if c.toNat < 0x20 then failAhead .controlCharacter
      else do
        bump
        stringTail (c :: read) fuel

/-- a string, after its opening quote -/
def stringBody : Reader String := do stringTail [] ((← get).length + 1)

/-! arrays and objects -/

/-- whether another item follows; `first` says that none has been read -/
def moreItems (first : Bool) : Reader Bool := do
  match ← peekToken with
  | none => failAhead .endInList
  | some c =>
    if c = ']' then pure false
    else if first then pure true
    else if c = ',' then do
      bump
      match ← peekToken with
      | none => failAhead .endInValue
      | some c => if c = ']' then failAhead .trailingComma else pure true
    else failAhead .listCommaOrEndExpected

/-- whether another member follows; `first` says that none has been read -/
def moreMembers (first : Bool) : Reader Bool := do
  match ← peekToken with
  | none => failAhead .endInObject
  | some c =>
    if c = '\x7d' then pure false
    else if first then
      if c = '"' then pure true else failAhead .keyNotString
    else if c = ',' then do
      bump
      match ← peekToken with
      | none => failAhead .endInValue
      | some c =>
        if c = '"' then pure true
        else if c = '\x7d' then failAhead .trailingComma
        else failAhead .keyNotString
    else failAhead .objectCommaOrEndExpected

/-- the end of an array; whatever else stands there is a fault -/
def closeArray : Reader Unit := do
  match ← peekToken with
  | none => failAhead .endInList
  | some c =>
    if c = ']' then bump
    else if c = ',' then do
      bump
      match ← peekToken with
      | some c => if c = ']' then failAhead .trailingComma else failAhead .trailingCharacters
      | none => failAhead .trailingCharacters
    else failAhead .trailingCharacters

/-- the end of an object; whatever else stands there is a fault -/
def closeObject : Reader Unit := do
  match ← peekToken with
  | none => failAhead .endInObject
  | some c =>
    if c = '\x7d' then bump
    else if c = ',' then failAhead .trailingComma
    else failAhead .trailingCharacters

/-- the items of an array, each by the given reader -/
def items {α : Type} (item : Reader α) (first : Bool) : Nat → Reader (List α)
  | 0 => failHere .endInList
  | fuel + 1 => do
    if ← moreItems first then
      let a ← item
      return a :: (← items item false fuel)
    else return []

/-- the key of a member, with its quotes -/
def memberKey : Reader String := do
  bump
  stringBody

def colon : Reader Unit := do
  match ← peekToken with
  | some c => if c = ':' then bump else failAhead .colonExpected
  | none => failAhead .endInObject

/-- the members of an object, each value by the given reader -/
def members {α : Type} (value : Reader α) (first : Bool) : Nat → Reader (List (String × α))
  | 0 => failHere .endInObject
  | fuel + 1 => do
    if ← moreMembers first then
      let key ← memberKey
      colon
      let a ← value
      return (key, a) :: (← members value false fuel)
    else return []

/-- an array in its brackets -/
def bracketed {α : Type} (item : Reader α) : Reader (List α) := do
  bump
  thenClose (do items item true ((← get).length + 1)) closeArray

/-- an object in its braces -/
def braced {α : Type} (value : Reader α) : Reader (List (String × α)) := do
  bump
  thenClose (do members value true ((← get).length + 1)) closeObject

/-- number of arrays and objects that may enclose one another -/
def maxDepth : Nat := 127

/-- a value that is neither an array nor an object, by its first character -/
def scalar (c : Char) : Reader Json := do
  if c = 'n' then do
    bump
    word ['u', 'l', 'l']
    pure .null
  else if c = 't' then do
    bump
    word ['r', 'u', 'e']
    pure (.bool true)
  else if c = 'f' then do
    bump
    word ['a', 'l', 's', 'e']
    pure (.bool false)
  else if c = '-' then do
    bump
    number true
  else if Decimal.isDigit c then number false
  else if c = '"' then do
    bump
    return .string (← stringBody)
  else failAhead .valueExpected

/-- any value inside which so many arrays and objects may be nested -/
def value : Nat → Reader Json
  | 0 => do
    match ← peekToken with
    | none => failAhead .endInValue
    | some c => if c = '[' ∨ c = '\x7b' then failAhead .tooDeep else scalar c
  | depth + 1 => do
    match ← peekToken with
    | none => failAhead .endInValue
    | some c =>
      if c = '[' then return .array (← bracketed (value depth))
      else if c = '\x7b' then return .object (Entries.ofList (← braced (value depth)))
      else scalar c

/-! passing over values -/

/-- pass over the rest of a string -/
def skipString : Nat → Reader Unit
  | 0 => failHere .endInString
  | fuel + 1 => do
    match ← peek with
    | none => failHere .endInString
    | some c =>
      if c = '"' then bump
      else if c = '\\' then do
        bump
        match ← peek with
        | none => failHere .endInString
        | some 'u' => do
          bump
          let _ ← hexQuad
          skipString fuel
        | some e =>
          if (shortEscape? e).isSome then do
            bump
            skipString fuel
          else failAhead .badEscape
      else if c.toNat < 0x20 then failHere .controlCharacter
      else do
        bump
        skipString fuel

/-- pass over an exponent, from its letter on -/
def skipExponent : Reader Unit := do
  bump
  match ← peek with
  | some '+' => bump
  | some '-' => bump
  | _ => pure ()
  match ← peek with
  | none => failHere .badNumber
  | some c =>
    if Decimal.isDigit c then do
      let _ ← digits
      pure ()
    else failAhead .badNumber

/-- pass over a number, after its sign -/
def skipNumber : Reader Unit := do
  match ← peek with
  | none => failHere .badNumber
  | some c =>
    if c = '0' then do
      bump
      match ← peek with
      | some d => if Decimal.isDigit d then failAhead .badNumber else pure ()
      | none => pure ()
    else if Decimal.isDigit c then do
      let _ ← digits
      pure ()
    else failAhead .badNumber
  match ← peek with
  | some '.' => do
    bump
    let ds ← digits
    if ds.isEmpty then failAhead .badNumber
    else
      match ← peek with
      | some 'e' => skipExponent
      | some 'E' => skipExponent
      | _ => pure ()
  | some 'e' => skipExponent
  | some 'E' => skipExponent
  | _ => pure ()

/-- an array or an object that has been opened -/
inductive Frame where
  | list
  | object
  deriving DecidableEq

def Frame.closer : Frame → Char
  | .list => ']'
  | .object => '\x7d'

/-- close the frames that end here: the frames in which another value follows, none when all are closed -/
def closeFrames (open_ : List Frame) (afterValue : Bool) : Nat → Reader (List Frame)
  | 0 => failHere .endInValue
  | fuel + 1 => do
    match open_ with
    | [] => pure []
    | frame :: outer =>
      match ← peekToken with
      | none => failAhead (if frame = .list then .endInList else .endInObject)
      | some c =>
        if c = ',' ∧ afterValue then do
          bump
          pure open_
        else if c = frame.closer then do
          bump
          closeFrames outer true fuel
        else if afterValue then
          failAhead (if frame = .list then .listCommaOrEndExpected else .objectCommaOrEndExpected)
        else pure open_

/-- pass over a value, and then over what follows it in the frames that are open -/
def skipFrom (open_ : List Frame) : Nat → Reader Unit
  | 0 => failHere .endInValue
  | fuel + 1 => do
    match ← peekToken with
    | none => failAhead .endInValue
    | some c =>
      let (inside, afterValue) ←
        if c = '[' then do
          bump
          pure (Frame.list :: open_, false)
        else if c = '\x7b' then do
          bump
          pure (Frame.object :: open_, false)
        else if c = '-' then do
          bump
          skipNumber
          pure (open_, true)
        else if Decimal.isDigit c then do
          skipNumber
          pure (open_, true)
        else if c = '"' then do
          bump
          skipString ((← get).length + 1)
          pure (open_, true)
        else do
          let _ ← scalar c
          pure (open_, true)
      match ← closeFrames inside afterValue ((← get).length + 2) with
      | [] => pure ()
      | .list :: outer => skipFrom (.list :: outer) fuel
      | .object :: outer => do
        match ← peekToken with
        | none => failAhead .endInObject
        | some c =>
          if c = '"' then do
            bump
            skipString ((← get).length + 1)
            colon
            skipFrom (.object :: outer) fuel
          else failAhead .keyNotString

/-- pass over one value -/
def skipValue : Reader Unit := do skipFrom [] ((← get).length + 1)

/-! whole texts -/

/-- only white space may follow -/
def endOfText : Reader Unit := do
  match ← peekToken with
  | none => pure ()
  | some _ => failAhead .trailingCharacters

def Place.start : Place := ⟨1, 0⟩

/-- the place after a character -/
def Place.after (p : Place) (c : Char) : Place :=
  if c = '\n' then ⟨p.line + 1, 0⟩ else ⟨p.line, p.column + c.utf8Size⟩

/-- the place of some bytes past a tail of the text -/
def Place.ofMark (text : List Char) (rest : List Char) (ahead : Nat) : Place :=
  let here := (text.take (text.length - rest.length)).foldl Place.after Place.start
  match rest with
  | [] => here
  | c :: _ =>
    if ahead = 0 then here
    else if c = '\n' then here.after c
    else ⟨here.line, here.column + ahead⟩

/-- run a reader over a whole text -/
def Reader.run {α : Type} (reader : Reader α) (text : String) : Except TextError α :=
  let cs := text.toList
  let whole : Reader α := do
    let a ← reader
    endOfText
    return a
  match whole cs with
  | .ok a _ => .ok a
  | .error ⟨fault, some (rest, ahead)⟩ _ => .error ⟨fault, Place.ofMark cs rest ahead⟩
  | .error ⟨fault, none⟩ rest => .error ⟨fault, Place.ofMark cs rest 0⟩

/-- the value that a text spells -/
def parse (text : String) : Except TextError Json := (value maxDepth).run text

end PixelAudit.Json
