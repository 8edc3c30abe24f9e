/-
The text of a scalar as it is written: plain, in single or double quotes, or as a block of lines.

A scalar may go on over several lines. Of the line ends between two of its parts a single one becomes a space, and of
more than one the first is dropped; a line separator is not folded. In a block of literal lines nothing is folded.
-/
import PixelAudit.Yaml.Cursor
import PixelAudit.Yaml.Scalar

namespace PixelAudit.Yaml

/-! between the parts of a scalar -/

/-- the text for line ends between two parts -/
def fold : List Char → List Char
  | ['\n'] => [' ']
  | '\n' :: more => more
  | breaks => breaks

/-- Blanks and line ends between two parts, last one first. Once a line end has come, blanks no longer count. -/
structure Gap where
  blanks : List Char
  breaks : List Char
  broken : Bool

namespace Gap

def empty : Gap := ⟨[], [], false⟩

/-- a line end that has been escaped, and leaves nothing -/
def escaped : Gap := ⟨[], [], true⟩

/-- the text for the gap, last character first -/
def text (g : Gap) : List Char := if g.broken then (fold g.breaks.reverse).reverse else g.blanks

/-- go on over blanks and line ends; after a line end no tab may stand before the given column -/
def extend (tabsFrom : Int) (g : Gap) : List Char → Mark → Option (Gap × Cursor)
  | [], m => some (g, ⟨[], m⟩)
  | '\r' :: '\n' :: rest, m =>
    extend tabsFrom { g with breaks := '\n' :: g.breaks, broken := true } rest (m.afterBreak 2)
  | c :: rest, m =>
    if isBreak c then
      extend tabsFrom { g with breaks := keptBreak c :: g.breaks, broken := true } rest (m.afterBreak c.utf8Size)
    else if isBlank c then
      if !g.broken then extend tabsFrom { g with blanks := c :: g.blanks } rest (m.after c)
      else if c == '\t' && (m.column : Int) < tabsFrom then none
      else extend tabsFrom g rest (m.after c)
    else some (g, ⟨c :: rest, m⟩)

end Gap

/-- read on in a gap -/
def readGap (tabsFrom : Int) (g : Gap) : Reader Gap := fun s => g.extend tabsFrom s.rest s.mark

/-! plain scalars -/

/-- a colon before such a character is refused in flow style -/
def clashesWithColon (c : Char) : Bool := isFlowMark c || c == '?'

/-- The part of a plain scalar up to a blank, a line end or the end of the scalar, put before the given characters, last
character first. A colon before a gap ends the scalar, and so does a mark of flow style inside a flow collection. -/
def plainPart (inFlow : Bool) (text : List Char) : List Char → Mark → Option (List Char × Cursor)
  | [], m => some (text, ⟨[], m⟩)
  | c :: rest, m =>
    if isGap (c :: rest) || (c == ':' && isGap rest) || (inFlow && isFlowMark c) then some (text, ⟨c :: rest, m⟩)
    else if inFlow && c == ':' && rest.head?.any clashesWithColon then none
    else plainPart inFlow (c :: text) rest (m.after c)

/-- The rest of a plain scalar, of which the given characters have been read, last one first, and a gap. In block style
its lines are indented. The result tells whether the scalar is followed by a line end. -/
def plainText (inFlow : Bool) (indent : Int) (text : List Char) (gap : Gap) : Nat → Reader (List Char × Bool)
  | 0 => refuse
  | fuel + 1 => do
    let s ← get
    if s.atMarker || s.rest.head? == some '#' then return (text, gap.broken)
    let part ← fun s => plainPart inFlow [] s.rest s.mark
    let (text, gap) := if part.isEmpty then (text, gap) else (part ++ gap.text ++ text, Gap.empty)
    let s ← get
    if s.rest.isEmpty || !isGap s.rest then return (text, gap.broken)
    let gap ← readGap indent gap
    if !inFlow && ((← get).mark.column : Int) < indent then return (text, gap.broken)
    plainText inFlow indent text gap fuel

/-! quoted scalars -/

/-- the character of a one-letter escape -/
def shortEscape? (c : Char) : Option Char :=
  match c with
  | '0' => some (Char.ofNat 0)
  | 'a' => some (Char.ofNat 7)
  | 'b' => some (Char.ofNat 8)
  | 't' => some '\t'
  | '\t' => some '\t'
  | 'n' => some '\n'
  | 'v' => some (Char.ofNat 11)
  | 'f' => some (Char.ofNat 12)
  | 'r' => some '\r'
  | 'e' => some (Char.ofNat 27)
  | ' ' => some ' '
  | '"' => some '"'
  | '/' => some '/'
  | '\\' => some '\\'
  | 'N' => some '\u0085'
  | '_' => some '\u00a0'
  | 'L' => some '\u2028'
  | 'P' => some '\u2029'
  | _ => none

/-- a character by a fixed number of hexadecimal digits -/
def hexEscape (count : Nat) : Reader Char := do
  let digits := (← get).rest.take count
  match digitsOfBase? 16 digits with
  | some code =>
    if digits.length ≠ count ∨ (0xD800 ≤ code ∧ code ≤ 0xDFFF) ∨ 0x10FFFF < code then refuse
    else
      bumpMany count
      return Char.ofNat code
  | none => refuse

/-- the character of an escape, after the backslash -/
def escape : Reader Char := do
  match ← peek with
  | none => refuse
  | some c => do
    bump
    if c = 'x' then hexEscape 2
    else if c = 'u' then hexEscape 4
    else if c = 'U' then hexEscape 8
    else match shortEscape? c with
      | some decoded => return decoded
      | none => refuse

/-- The characters up to the closing quote, which is passed over; those read so far come last one first. A document may
neither begin nor end inside. -/
def quotedText (single : Bool) (text : List Char) : Nat → Reader (List Char)
  | 0 => refuse
  | fuel + 1 => do
    let s ← get
    match s.rest with
    | [] => refuse
    | c :: rest =>
      if isGap s.rest then
        let gap ← readGap 0 .empty
        if (← get).atMarker then refuse
        quotedText single (gap.text ++ text) fuel
      else if single && c == '\x27' then
        if rest.head? = some '\x27' then
          bumpMany 2
          quotedText single ('\x27' :: text) fuel
        else
          bump
          return text
      else if !single && c == '"' then
        bump
        return text
      else if !single && c == '\\' then
        bump
        if (← lineEnd).isSome then
          let gap ← readGap 0 .escaped
          if (← get).atMarker then refuse
          quotedText single (gap.text ++ text) fuel
        else quotedText single ((← escape) :: text) fuel
      else
        bump
        quotedText single (c :: text) fuel

/-! blocks of lines -/

/-- which line ends stay at the end of a block -/
inductive Chomp where
  | strip
  | clip
  | keep

/-- the character that says which line ends stay -/
def chomp? : Reader (Option Chomp) := do
  match ← peek with
  | some '+' => do
    bump
    return some .keep
  | some '-' => do
    bump
    return some .strip
  | _ => return none

/-- a digit for the indentation of a block, other than zero -/
def indentDigit? : Reader (Option Nat) := do
  match ← peek with
  | some c =>
    if !Decimal.isDigit c then return none
    else if c = '0' then refuse
    else
      bump
      return some (Decimal.digitValue c)
  | none => return none

/-- the first line of a block, after its indicator -/
def blockHead : Reader (Chomp × Option Nat) := do
  let first ← chomp?
  let indent ← indentDigit?
  let chomp ← if first.isNone && indent.isSome then chomp? else pure first
  restOfLine
  return (chomp.getD .clip, indent)

/-- Indentation and empty lines up to a line with something on it: the line ends, and the widest indentation. Spaces
belong to the indentation up to the given column, or all of them. -/
def emptyLines (indent : Option Nat) (breaks : List Char) (widest : Nat) : Nat → Reader (List Char × Nat)
  | 0 => refuse
  | fuel + 1 => do
    let s ← get
    let spaces := (s.rest.takeWhile (· == ' ')).length
    bumpMany (match indent with
      | some n => min spaces (n - s.mark.column)
      | none => spaces)
    let s ← get
    let inside := match indent with
      | some n => s.mark.column < n
      | none => true
    if inside && s.rest.head? == some '\t' then refuse
    let widest := max widest s.mark.column
    match ← lineEnd with
    | some c => emptyLines indent (breaks ++ [c]) widest fuel
    | none => return (breaks, widest)

/-- the lines of a block: its text, the last line end, and the line ends after that -/
def blockLines (literal : Bool) (indent : Nat) (text last empty : List Char) (afterBlank : Bool) :
    Nat → Reader (List Char × List Char × List Char)
  | 0 => refuse
  | fuel + 1 => do
    let s ← get
    if s.mark.column ≠ indent ∨ s.rest.isEmpty then return (text, last, empty)
    let startsBlank := s.rest.head?.any isBlank
    let joined :=
      if !literal && last == ['\n'] && !afterBlank && !startsBlank then (if empty.isEmpty then [' '] else []) else last
    let line ← takeWhile fun c => !isBreak c
    let ending := (← lineEnd).toList
    let (following, _) ← emptyLines (some indent) [] 0 (fuel + 1)
    blockLines literal indent (text ++ joined ++ empty ++ line) ending following startsBlank fuel

/-- a block of lines, after its indicator, inside a collection at the given column -/
def blockText (literal : Bool) (parent : Int) (fuel : Nat) : Reader (List Char) := do
  let (chomp, given) ← blockHead
  let indent := given.map fun n => if 0 ≤ parent then parent.toNat + n else n
  let (empty, widest) ← emptyLines indent [] 0 fuel
  let indent := indent.getD (max widest (max (parent + 1) 1).toNat)
  let (text, last, empty) ← blockLines literal indent [] [] empty false fuel
  match chomp with
  | .strip => return text
  | .clip => return text ++ last
  | .keep => return text ++ last ++ empty

end PixelAudit.Yaml
