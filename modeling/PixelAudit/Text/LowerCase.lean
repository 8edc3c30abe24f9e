/-
Lower-casing of text by the full Unicode mapping.

Every letter is mapped on its own, with two exceptions: a capital I with a dot becomes two characters, and a capital
sigma becomes a final sigma at the end of a word. The end of a word is judged over the whole text: case-ignorable
characters (a full stop is one) are looked through on both sides.
-/
import PixelAudit.Text.CaseTable
import PixelAudit.Text.Recent

namespace PixelAudit.Text

def isCased (c : Char) : Bool := Recent.cased.mem c.toNat

def isCaseIgnorable (c : Char) : Bool := Recent.caseIgnorable.mem c.toNat

/-- the lower-case form of one character, away from the rule for sigma -/
def lowerChar (c : Char) : List Char :=
  if c.toNat < 0x80 then [c.toLower]
  else if c = 'İ' then ['i', '\u0307']
  else match lowerRuns.findSome? (fun run => run.apply? c.toNat) with
    | some code => [Char.ofNat code]
    | none => [c]

/-- the first character that is not case-ignorable is a cased one -/
def casedNext : List Char → Bool
  | [] => false
  | c :: rest => if isCaseIgnorable c then casedNext rest else isCased c

/-- the lower-case form of a character between the text before it, last character first, and the text after it -/
def lowerAt (before : List Char) (c : Char) (after : List Char) : List Char :=
  if c = 'Σ' then if casedNext before && !casedNext after then ['ς'] else ['σ'] else lowerChar c

/-- the lower-case form of the rest of a text -/
def lowerFrom (before : List Char) : List Char → List Char
  | [] => []
  | c :: rest => lowerAt before c rest ++ lowerFrom (c :: before) rest

/-- the lower-case form of a text -/
def lower (s : String) : String := String.ofList (lowerFrom [] s.toList)

end PixelAudit.Text
