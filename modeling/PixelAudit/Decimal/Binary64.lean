/-
Binary floating-point numbers of 64 bits as exact values: a sign, a significand below 2^53 and a power of two from
2^-1074 to 2^971. A finite number is `units` times 2^-1074, so that comparing two of them is comparing integers.

`ofRatio` rounds a quotient of natural numbers to the nearest number, ties to the even significand, with an overflow to
infinity.

Main results: `lt_iff_units_lt` (the order of finite numbers is the order of their values).
-/

namespace PixelAudit.Decimal

namespace Binary64

/-- the least exponent -/
def minExponent : Int := -1074

/-- the greatest exponent -/
def maxExponent : Int := 971

/-- a significand of 53 bits and an exponent of the format -/
structure InRange (significand : Nat) (exponent : Int) : Prop where
  bits : significand < Nat.pow 2 53
  least : minExponent ≤ exponent
  greatest : exponent ≤ maxExponent

instance (significand : Nat) (exponent : Int) : Decidable (InRange significand exponent) :=
  decidable_of_decidable_of_iff (p := significand < Nat.pow 2 53 ∧ minExponent ≤ exponent ∧ exponent ≤ maxExponent)
    ⟨fun h => ⟨h.1, h.2.1, h.2.2⟩, fun h => ⟨h.bits, h.least, h.greatest⟩⟩

end Binary64

inductive Binary64 where
  /-- `significand * 2^exponent`, negated if `negative` -/
  | finite (negative : Bool) (significand : Nat) (exponent : Int) (inRange : Binary64.InRange significand exponent)
  | infinite (negative : Bool)
  | nan
  deriving DecidableEq, Repr

namespace Binary64

instance : Inhabited Binary64 := ⟨.nan⟩

def zero (negative : Bool) : Binary64 := .finite negative 0 minExponent (by decide)

def isFinite : Binary64 → Bool
  | .finite .. => true
  | _ => false

def negate : Binary64 → Binary64
  | .finite s m e h => .finite (!s) m e h
  | .infinite s => .infinite (!s)
  | .nan => .nan

/-- the value of a finite number in units of 2^-1074 -/
def units : Binary64 → Int
  | .finite negative m e _ =>
    let size : Int := m * Nat.pow 2 (e - minExponent).toNat
    if negative then -size else size
  | _ => 0

/-- strict order of values; nothing is below or above `nan` -/
def lt : Binary64 → Binary64 → Bool
  | .nan, _ => false
  | _, .nan => false
  | .infinite s, .infinite t => s && !t
  | .infinite s, .finite .. => s
  | .finite .., .infinite t => !t
  | x, y => x.units < y.units

/-- equality of values: the two zeros are equal, and `nan` equals nothing -/
def same : Binary64 → Binary64 → Bool
  | .nan, _ => false
  | _, .nan => false
  | .infinite s, .infinite t => s == t
  | .infinite _, .finite .. => false
  | .finite .., .infinite _ => false
  | x, y => x.units == y.units

/-- the quotient rounded to the nearest integer, a tie to the even one -/
def roundQuotient (num den : Nat) : Nat :=
  let q := num / den
  let r := num % den
  if 2 * r < den then q
  else if den < 2 * r then q + 1
  else if q % 2 = 0 then q else q + 1

/-- the quotient as a multiple of 2^exponent, rounded -/
def significandAt (num den : Nat) (exponent : Int) : Nat :=
  if 0 ≤ exponent then roundQuotient num (den * Nat.pow 2 exponent.toNat)
  else roundQuotient (num * Nat.pow 2 (-exponent).toNat) den

/-- the exponent at which the integer part of the quotient has 53 bits, or the least one -/
def exponentFor (num den : Nat) : Int :=
  let guess : Int := (Nat.log2 num : Int) - (Nat.log2 den : Int) - 52
  let below : Bool :=
    if 0 ≤ guess then num < den * Nat.pow 2 guess.toNat * Nat.pow 2 52
    else num * Nat.pow 2 (-guess).toNat < den * Nat.pow 2 52
  max minExponent (if below then guess - 1 else guess)

/-- the number nearest to the quotient `num / den` of a positive denominator, infinite if it is out of range -/
def ofRatio (negative : Bool) (num den : Nat) : Binary64 :=
  if num = 0 then zero negative
  else
    let e := exponentFor num den
    let m := significandAt num den e
    let (m, e) := if m = Nat.pow 2 53 then (Nat.pow 2 52, e + 1) else (m, e)
    if h : InRange m e then .finite negative m e h else .infinite negative

/-- the number nearest to a natural number -/
def ofNat (n : Nat) : Binary64 := ofRatio false n 1

/-- the value of a finite number as a quotient, without its sign -/
def ratio : Binary64 → Nat × Nat
  | .finite _ m e _ => if 0 ≤ e then (m * Nat.pow 2 e.toNat, 1) else (m, Nat.pow 2 (-e).toNat)
  | _ => (0, 1)

/-- the product of two finite positive numbers, rounded -/
def mul (x y : Binary64) : Binary64 :=
  match x, y with
  | .finite .., .finite .. =>
    let (a, b) := x.ratio
    let (c, d) := y.ratio
    ofRatio false (a * c) (b * d)
  | _, _ => .infinite false

/-- the quotient of two finite positive numbers, rounded -/
def div (x y : Binary64) : Binary64 :=
  match x, y with
  | .finite .., .finite .. =>
    let (a, b) := x.ratio
    let (c, d) := y.ratio
    ofRatio false (a * d) (b * c)
  | _, _ => .infinite false

theorem lt_iff_units_lt {s t : Bool} {m n : Nat} {d e : Int} {hm : InRange m d} {hn : InRange n e} :
    lt (.finite s m d hm) (.finite t n e hn) = true ↔ (finite s m d hm).units < (finite t n e hn).units := by
  simp [lt]

end Binary64

end PixelAudit.Decimal
