/-
The shortest decimal text of a binary number.

A finite number stands for every real that rounds to it: an interval around its value, with its ends if the significand
is even. `shortest` finds the coarsest decimal grid that has a point in the interval and takes the grid point nearest to
the value. The two layouts write these digits: `documentText` with a point or an exponent always, `plainText` never with
an exponent and without a fraction where there is none.
-/
import PixelAudit.Decimal.Binary64

namespace PixelAudit.Decimal

/-- the number `digits * 10^exponent` -/
structure Scaled where
  digits : Nat
  exponent : Int
  deriving DecidableEq, Repr

namespace Binary64

/-- a positive number with its rounding interval, all in units of `2^exponent` -/
structure Neighbourhood where
  low : Nat
  value : Nat
  high : Nat
  exponent : Int
  closed : Bool

def neighbourhood (m : Nat) (e : Int) : Neighbourhood :=
  { low := if m = Nat.pow 2 52 ∧ minExponent < e then 4 * m - 1 else 4 * m - 2
    value := 4 * m
    high := 4 * m + 2
    exponent := e - 2
    closed := m % 2 = 0 }

/-- factors `(a, b)` such that `d * 10^k ≤ x * 2^e` says `d * a ≤ x * b` -/
def commonScale (k e : Int) : Nat × Nat :=
  (Nat.pow 10 k.toNat * Nat.pow 2 (-e).toNat, Nat.pow 10 (-k).toNat * Nat.pow 2 e.toNat)

/-- `d * 10^k` lies in the interval -/
def Neighbourhood.holds (n : Neighbourhood) (d : Nat) (k : Int) : Bool :=
  let (a, b) := commonScale k n.exponent
  if n.closed then n.low * b ≤ d * a && d * a ≤ n.high * b
  else n.low * b < d * a && d * a < n.high * b

/-- the grid point of the interval nearest to the value, if the grid of multiples of `10^k` has one there -/
def Neighbourhood.pick? (n : Neighbourhood) (k : Int) : Option Scaled :=
  let (a, b) := commonScale k n.exponent
  let d := n.value * b / a
  match n.holds d k, n.holds (d + 1) k with
  | false, false => none
  | true, false => some ⟨d, k⟩
  | false, true => some ⟨d + 1, k⟩
  | true, true =>
    if 2 * n.value * b < (2 * d + 1) * a then some ⟨d, k⟩
    else if (2 * d + 1) * a < 2 * n.value * b then some ⟨d + 1, k⟩
    else if d % 2 = 0 then some ⟨d, k⟩ else some ⟨d + 1, k⟩

/-- try ever finer grids -/
def Neighbourhood.search (n : Neighbourhood) (k : Int) : Nat → Scaled
  | 0 => ⟨0, 0⟩
  | tries + 1 =>
    match n.pick? k with
    | some d => d
    | none => n.search (k - 1) tries

/-- the fewest digits that read back as `m * 2^e`, and of those the nearest -/
def shortest (m : Nat) (e : Int) : Scaled :=
  let top : Int := ((Nat.log2 m : Int) + e) * 30103 / 100000 + 2
  (neighbourhood m e).search top 40

end Binary64

/-- the decimal digits of a number -/
def digitChars (n : Nat) : List Char := Nat.toDigits 10 n

def signText (negative : Bool) : String := if negative then "-" else ""

/-- digits with the point after the given number of them, padded with zeros; `whole` ends a number without fraction -/
def positional (digits : List Char) (exponent : Int) (whole : String) : String :=
  if 0 ≤ exponent then String.ofList (digits ++ List.replicate exponent.toNat '0') ++ whole
  else
    let places := (-exponent).toNat
    if places < digits.length then
      let before := digits.length - places
      String.ofList (digits.take before ++ '.' :: digits.drop before)
    else String.ofList ('0' :: '.' :: (List.replicate (places - digits.length) '0' ++ digits))

/-- one digit before the point and an exponent with its sign -/
def scientific (digits : List Char) (exponent : Int) : String :=
  let mantissa := match digits with
    | [] => []
    | [d] => [d]
    | d :: rest => d :: '.' :: rest
  String.ofList (mantissa ++ 'e' :: (if exponent < 0 then '-' else '+') :: digitChars exponent.natAbs)

namespace Binary64

/-- Positional with at least one digit after the point while the exponent of the first digit lies in -5..15, else with
an exponent. -/
def documentText : Binary64 → String
  | .nan => "null"
  | .infinite _ => "null"
  | .finite s 0 _ _ => signText s ++ "0.0"
  | .finite s m e _ =>
    let d := shortest m e
    let digits := digitChars d.digits
    let leading : Int := d.exponent + digits.length - 1
    signText s ++
      (if -5 ≤ leading ∧ leading ≤ 15 then positional digits d.exponent ".0" else scientific digits leading)

/-- always positional, without a fraction where there is none -/
def plainText : Binary64 → String
  | .nan => "NaN"
  | .infinite s => signText s ++ "inf"
  | .finite s 0 _ _ => signText s ++ "0"
  | .finite s m e _ =>
    let d := shortest m e
    signText s ++ positional (digitChars d.digits) d.exponent ""

end Binary64

end PixelAudit.Decimal
