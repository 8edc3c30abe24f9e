/-
Scalars of YAML documents, and what they stand for.

A plain scalar is null, a truth value, a number or else text; a quoted one is always text. Whole numbers with a leading
zero are text. A tag can say what a scalar is, whatever its style.
-/
import PixelAudit.Json.Value
import PixelAudit.Decimal.Numeral

namespace PixelAudit.Yaml

open Decimal (Binary64)

/-- how a scalar is written -/
inductive Style where
  | plain
  | quoted
  /-- lines as they stand -/
  | literal
  /-- lines that are joined -/
  | folded
  deriving DecidableEq, Repr

/-- what a tag says -/
inductive Tag where
  | null
  | bool
  | int
  | float
  /-- a tag of the document's own, without its mark -/
  | own (name : String)
  | other
  deriving DecidableEq, Repr

/-- what the tags of the common types start with -/
def commonTags : String := "tag:yaml.org,2002:"

/-- the tag with the given full name -/
def Tag.ofName (name : String) : Tag :=
  match name.toList with
  | ['!'] => .own name
  | '!' :: rest => .own (String.ofList rest)
  | _ =>
    if name = commonTags ++ "null" then .null
    else if name = commonTags ++ "bool" then .bool
    else if name = commonTags ++ "int" then .int
    else if name = commonTags ++ "float" then .float
    else .other

structure Scalar where
  text : String
  style : Style
  tag : Option Tag
  deriving DecidableEq, Repr

/-! words and numbers -/

def isNullWord (s : String) : Bool := s == "~" || s == "null" || s == "Null" || s == "NULL"

def boolText? (s : String) : Option Bool :=
  if s = "true" ∨ s = "True" ∨ s = "TRUE" then some true
  else if s = "false" ∨ s = "False" ∨ s = "FALSE" then some false
  else none

/-- a zero followed by digits only -/
def hasLeadingZero (cs : List Char) : Bool :=
  match cs with
  | '0' :: d :: rest => (d :: rest).all Decimal.isDigit
  | _ => false

/-- digits of a base of at most sixteen -/
def digitsOfBase? (base : Nat) (cs : List Char) : Option Nat :=
  if cs.isEmpty then none
  else
    cs.foldl (fun acc c => acc.bind fun n =>
      match Decimal.hexDigit? c with
      | some d => if d < base then some (n * base + d) else none
      | none => none) (some 0)

/-- a whole number without its sign -/
def magnitude? : List Char → Option Nat
  | '0' :: 'x' :: rest => digitsOfBase? 16 rest
  | '0' :: 'o' :: rest => digitsOfBase? 8 rest
  | '0' :: 'b' :: rest => digitsOfBase? 2 rest
  | cs => if hasLeadingZero cs then none else Decimal.digits? cs

/-- least whole number -/
def integerMin : Int := -Int.pow 2 127

/-- one past the greatest whole number -/
def integerLimit : Int := Int.pow 2 128

/-- a whole number of at most 128 bits -/
def integer? (s : String) : Option Int :=
  let (negative, cs) := Decimal.takeSign s.toList
  ((magnitude? cs).map fun n => if negative then -(n : Int) else n).filter fun n =>
    integerMin ≤ n && n < integerLimit

/-- a number with a point or an exponent, or one of the words for what is not finite -/
def real? (s : String) : Option Binary64 :=
  let (negative, cs) := Decimal.takeSign s.toList
  let word := String.ofList cs
  if word = ".inf" ∨ word = ".Inf" ∨ word = ".INF" then some (.infinite negative)
  else if s = ".nan" ∨ s = ".NaN" ∨ s = ".NAN" then some .nan
  else (Decimal.binary64? s).filter Binary64.isFinite

/-- a number as a binary one -/
def number? (s : String) : Option Binary64 :=
  if hasLeadingZero (Decimal.takeSign s.toList).2 then none else real? s

/-! as JSON -/

/-- a whole number as a JSON value, which has at most 64 bits -/
def integerJson? (n : Int) : Option Json := if -Int.pow 2 63 ≤ n ∧ n < Int.pow 2 64 then some (.integer n) else none

/-- a binary number as a JSON value; what is not finite becomes null -/
def realJson (x : Binary64) : Json := if x.isFinite then .real x else .null

/-- a plain scalar as a JSON value -/
def plainJson? (s : String) : Option Json :=
  if s = "" ∨ isNullWord s then some .null
  else
    match boolText? s with
    | some b => some (.bool b)
    | none =>
      match integer? s with
      | some n => integerJson? n
      | none =>
        match number? s with
        | some x => some (realJson x)
        | none => some (.string s)

namespace Scalar

/-- a plain scalar without characters -/
def blank : Scalar := ⟨"", .plain, none⟩

/-- the scalar may stand for a value of the type that the tag names -/
def mayBe (s : Scalar) (tag : Tag) : Bool := s.style == .plain || (s.style == .literal && s.tag == some tag)

/-- nothing is written -/
def isMissing (s : Scalar) : Bool := s.style == .plain && s.text == ""

/-- whether the scalar stands for null; it is refused if only its tag says so -/
def isNull? (s : Scalar) : Option Bool :=
  if s.style ≠ .plain then some false
  else
    match s.tag with
    | some .null => if isNullWord s.text then some true else none
    | some _ => some false
    | none => some (s.text == "" || isNullWord s.text)

/-- the scalar as a JSON value -/
def toJson? (s : Scalar) : Option Json :=
  match s.tag with
  | some (.own _) => none
  | some .null => if isNullWord s.text then some .null else none
  | some .bool => (boolText? s.text).map .bool
  | some .int => (integer? s.text).bind integerJson?
  | some .float => (real? s.text).map realJson
  | some .other => some (.string s.text)
  | none => if s.style = .plain then plainJson? s.text else some (.string s.text)

/-- The word of a choice: the text, or the document's own tag of a scalar that is null. -/
def word? (s : Scalar) : Option String :=
  match s.tag with
  | some (.own name) => if s.style = .plain ∧ (s.text = "" ∨ isNullWord s.text) then some name else none
  | _ => some s.text

end Scalar

end PixelAudit.Yaml
