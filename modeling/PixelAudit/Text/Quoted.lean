/-
Text shown between double quotes in messages: quotes and backslashes are escaped, and characters that cannot be seen on
their own are written by their code points.
-/
import PixelAudit.Text.Recent

namespace PixelAudit.Text

open Category Property

/-- letters that fill the place of a missing one and are not seen -/
def fillers : CodeSet := CodeSet.ofTable "115F-1160 3164 FFA0"

/-- sound marks that extend the character before them but are written in a place of their own -/
def wideMarks : CodeSet := CodeSet.ofTable "FF9E-FF9F"

/-- code points that are shown by their number -/
def unseen : CodeSet :=
  control ++ format ++ privateUse ++ lineSeparator ++ paragraphSeparator ++ spaceSeparator ++ fillers ++
    CodeSet.diff graphemeExtend wideMarks ++ CodeSet.diff unassigned Recent.assigned ++ Recent.graphemeExtend

/-- lower-case hexadecimal digits -/
def hexText (n : Nat) : String := String.ofList (Nat.toDigits 16 n)

def quotedChar (c : Char) : String :=
  if c = '"' then "\\\""
  else if c = '\\' then "\\\\"
  else if c = '\n' then "\\n"
  else if c = '\r' then "\\r"
  else if c = '\t' then "\\t"
  else if c.toNat = 0 then "\\0"
  else if 0x20 ≤ c.toNat ∧ c.toNat < 0x7F then String.singleton c
  else if unseen.mem c.toNat then "\\u\x7b" ++ hexText c.toNat ++ "\x7d"
  else String.singleton c

def quoted (s : String) : String := "\"" ++ String.join (s.toList.map quotedChar) ++ "\""

end PixelAudit.Text
