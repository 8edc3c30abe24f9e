/-
Numbers written as text: whole numbers within a range, and decimal numbers rounded to binary ones.

A whole number is an optional sign and at least one digit. A decimal number is an optional sign and either digits with
at most one point and an optional exponent, or one of the words for infinity and not-a-number in any case.
-/
import PixelAudit.Decimal.Binary64

namespace PixelAudit.Decimal

def isDigit (c : Char) : Bool := '0' ≤ c && c ≤ '9'

def digitValue (c : Char) : Nat := c.toNat - '0'.toNat

/-- the value of a hexadecimal digit -/
def hexDigit? (c : Char) : Option Nat :=
  if '0' ≤ c ∧ c ≤ '9' then some (c.toNat - '0'.toNat)
  else if 'a' ≤ c ∧ c ≤ 'f' then some (c.toNat - 'a'.toNat + 10)
  else if 'A' ≤ c ∧ c ≤ 'F' then some (c.toNat - 'A'.toNat + 10)
  else none

/-- the number that a row of digits denotes, most significant first -/
def ofDigits (digits : List Char) : Nat := digits.foldl (fun n c => n * 10 + digitValue c) 0

/-- split off a sign; `true` for a minus -/
def takeSign : List Char → Bool × List Char
  | '+' :: rest => (false, rest)
  | '-' :: rest => (true, rest)
  | cs => (false, cs)

def digits? (cs : List Char) : Option Nat :=
  if cs.isEmpty || !cs.all isDigit then none else some (ofDigits cs)

/-- least signed 64-bit number -/
def int64Min : Int := -Int.pow 2 63

/-- greatest signed 64-bit number -/
def int64Max : Int := Int.pow 2 63 - 1

/-- a whole number of the signed 64-bit range -/
def int64? (s : String) : Option Int :=
  let (negative, cs) := takeSign s.toList
  match digits? cs with
  | none => none
  | some n =>
    let value : Int := if negative then -(n : Int) else n
    if int64Min ≤ value ∧ value ≤ int64Max then some value else none

/-- the binary number nearest to `digits * 10^exponent` -/
def Binary64.ofDecimal (negative : Bool) (digits : Nat) (exponent : Int) : Binary64 :=
  if digits = 0 then Binary64.zero negative
  else
    let size : Int := (Nat.log2 digits : Int) * 30103 / 100000 + exponent
    if 400 < size then .infinite negative
    else if size < -400 then Binary64.zero negative
    else if 0 ≤ exponent then .ofRatio negative (digits * Nat.pow 10 exponent.toNat) 1
    else .ofRatio negative digits (Nat.pow 10 (-exponent).toNat)

/-- an exponent part, which may be missing -/
def exponentPart? : List Char → Option Int
  | [] => some 0
  | c :: rest =>
    if c = 'e' ∨ c = 'E' then
      let (negative, cs) := takeSign rest
      (digits? cs).map (fun n => if negative then -(n : Int) else n)
    else none

/-- words for values that are not finite -/
def specialWord? (negative : Bool) (cs : List Char) : Option Binary64 :=
  let word := String.ofList (cs.map Char.toLower)
  if word = "inf" ∨ word = "infinity" then some (.infinite negative)
  else if word = "nan" then some .nan
  else none

/-- a decimal number without its sign -/
def unsignedBinary64? (negative : Bool) (cs : List Char) : Option Binary64 :=
  let (whole, rest) := cs.span isDigit
  let (fraction, rest) := match rest with
    | '.' :: rest => rest.span isDigit
    | rest => ([], rest)
  if whole.isEmpty && fraction.isEmpty then none
  else
    (exponentPart? rest).map fun exponent =>
      Binary64.ofDecimal negative (ofDigits (whole ++ fraction)) (exponent - fraction.length)

/-- a decimal number, rounded to the nearest binary one -/
def binary64? (s : String) : Option Binary64 :=
  let (negative, cs) := takeSign s.toList
  match specialWord? negative cs with
  | some x => some x
  | none => unsignedBinary64? negative cs

end PixelAudit.Decimal
