/-
Percent-encoding: a percent sign and two hexadecimal digits stand for one byte; every other byte stands for itself, a
percent sign without two digits included. The bytes then have to be UTF-8.
-/
import PixelAudit.Text.Utf8

namespace PixelAudit.Text.Percent

/-- the value of a hexadecimal digit given as a byte -/
def digit? (b : UInt8) : Option Nat :=
  let n := b.toNat
  if 0x30 ≤ n ∧ n ≤ 0x39 then some (n - 0x30)
  else if 0x41 ≤ n ∧ n ≤ 0x46 then some (n - 0x41 + 10)
  else if 0x61 ≤ n ∧ n ≤ 0x66 then some (n - 0x61 + 10)
  else none

/-- the byte that two digits name -/
def byte? (high low : UInt8) : Option UInt8 := do
  let h ← digit? high
  let l ← digit? low
  return UInt8.ofNat (h * 16 + l)

/-- the percent sign -/
def mark : UInt8 := 0x25

def decodeBytes : List UInt8 → List UInt8
  | a :: b :: c :: rest =>
    if a = mark then
      match byte? b c with
      | some byte => byte :: decodeBytes rest
      | none => a :: decodeBytes (b :: c :: rest)
    else a :: decodeBytes (b :: c :: rest)
  | short => short

/-- the text behind a percent-encoded text -/
def decode (s : String) : Except Utf8.Fault String := Utf8.decode (decodeBytes (Utf8.encode s))

end PixelAudit.Text.Percent
