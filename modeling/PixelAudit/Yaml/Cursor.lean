/-
Places in the text of a YAML document, and passing over its characters.

A place is known by the bytes and the lines before it and by its column, which counts characters. A line ends with a
line feed, a carriage return, both of them, or one of three characters beyond ASCII.
-/

namespace PixelAudit.Yaml

structure Mark where
  byte : Nat
  line : Nat
  column : Nat
  deriving DecidableEq, Repr

def Mark.start : Mark := ⟨0, 0, 0⟩

/-- the place after a character of a line -/
def Mark.after (m : Mark) (c : Char) : Mark := ⟨m.byte + c.utf8Size, m.line, m.column + 1⟩

/-- the place after a line end of so many bytes -/
def Mark.afterBreak (m : Mark) (bytes : Nat) : Mark := ⟨m.byte + bytes, m.line + 1, 0⟩

structure Cursor where
  rest : List Char
  mark : Mark

/-- a reader, which refuses a text with `none` -/
abbrev Reader (α : Type) := StateT Cursor Option α

def refuse {α : Type} : Reader α := failure

def isBlank (c : Char) : Bool := c == ' ' || c == '\t'

def isBreak (c : Char) : Bool := c == '\n' || c == '\r' || c == '\u0085' || c == '\u2028' || c == '\u2029'

/-- a line end as it is kept: only the separators of lines and paragraphs stay what they are -/
def keptBreak (c : Char) : Char := if c == '\u2028' || c == '\u2029' then c else '\n'

/-- a blank, a line end or the end of the text comes next -/
def isGap : List Char → Bool
  | [] => true
  | c :: _ => isBlank c || isBreak c

/-- characters that open, part and close collections in flow style -/
def isFlowMark (c : Char) : Bool := c == ',' || c == '[' || c == ']' || c == '\x7b' || c == '\x7d'

namespace Cursor

/-- three of the character at the start of a line, and a gap -/
def isMarker (c : Char) (s : Cursor) : Bool :=
  s.mark.column == 0 && s.rest.take 3 == [c, c, c] && isGap (s.rest.drop 3)

/-- a document begins or ends here -/
def atMarker (s : Cursor) : Bool := s.isMarker '-' || s.isMarker '.'

/-- pass over so many characters of a line -/
def advance : Nat → Cursor → Cursor
  | n + 1, ⟨c :: rest, m⟩ => advance n ⟨rest, m.after c⟩
  | _, s => s

/-- split off the characters of a line as long as the test holds -/
def span (test : Char → Bool) : List Char → Mark → List Char × Cursor
  | [], m => ([], ⟨[], m⟩)
  | c :: rest, m =>
    if test c then
      let (taken, after) := span test rest (m.after c)
      (c :: taken, after)
    else ([], ⟨c :: rest, m⟩)

end Cursor

def peek : Reader (Option Char) := do return (← get).rest.head?

/-- pass over a character of a line -/
def bump : Reader Unit := modify (Cursor.advance 1)

/-- pass over so many characters of a line -/
def bumpMany (n : Nat) : Reader Unit := modify (Cursor.advance n)

/-- the characters from here on for which the test holds, on one line -/
def takeWhile (test : Char → Bool) : Reader (List Char) := fun s => some (Cursor.span test s.rest s.mark)

def skipBlanks : Reader Unit := do let _ ← takeWhile isBlank

/-- pass over a comment, if one starts here -/
def skipComment : Reader Unit := do
  if (← peek) = some '#' then
    let _ ← takeWhile fun c => !isBreak c

/-- pass over a line end, if there is one: the line end as it is kept -/
def lineEnd : Reader (Option Char) := do
  match ← get with
  | ⟨'\r' :: '\n' :: rest, m⟩ =>
    set (Cursor.mk rest (m.afterBreak 2))
    return some '\n'
  | ⟨c :: rest, m⟩ =>
    if isBreak c then
      set (Cursor.mk rest (m.afterBreak c.utf8Size))
      return some (keptBreak c)
    else return none
  | _ => return none

/-- nothing but blanks and a comment up to the end of the line, which is passed over -/
def restOfLine : Reader Unit := do
  skipBlanks
  skipComment
  if (← get).rest.isEmpty then return ()
  else if (← lineEnd).isNone then refuse

end PixelAudit.Yaml
