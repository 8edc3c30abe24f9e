/-
Version numbers of applications: numbers joined by points, compared as if padded with zeros.

A version is read from text piece by piece: each piece between two points starts with digits, which give its number,
and whatever follows the digits is ignored.

Main results: `compareSegments_nil_eq_iff` (only zeros compare equal to nothing).
-/
import PixelAudit.Text.Pieces
import PixelAudit.Text.Blank
import PixelAudit.Decimal.Numeral
import PixelAudit.Document.Decoder

namespace PixelAudit

/-- numbers of 64 bits, most significant first; there is at least one -/
structure AppVersion where
  segments : List UInt64
  segments_ne_nil : segments ≠ []
  deriving DecidableEq, Repr

namespace AppVersion

instance : Inhabited AppVersion := ⟨⟨[0], List.cons_ne_nil 0 []⟩⟩

/-- compare lists of numbers, the shorter one padded with zeros -/
def compareSegments : List UInt64 → List UInt64 → Ordering
  | [], bs => if bs.all (· == 0) then .eq else .lt
  | a :: as, [] => if a = 0 then compareSegments as [] else .gt
  | a :: as, b :: bs => if a < b then .lt else if b < a then .gt else compareSegments as bs

def compare (a b : AppVersion) : Ordering := compareSegments a.segments b.segments

/-- equal but for zeros at the end -/
def same (a b : AppVersion) : Bool := a.compare b == .eq

/-- strictly older -/
def older (a b : AppVersion) : Bool := a.compare b == .lt

/-- the newer of two versions, the first if neither is newer -/
def newer (a b : AppVersion) : AppVersion := if a.older b then b else a

/-- the newer of two versions that need not be there -/
def newer? : Option AppVersion → Option AppVersion → Option AppVersion
  | some a, some b => some (a.newer b)
  | some a, none => some a
  | none, b => b

/-- the number at the start of a piece -/
def segment? (piece : String) : Option UInt64 :=
  match Decimal.digits? (piece.toList.takeWhile Decimal.isDigit) with
  | some n => if n < UInt64.size then some (UInt64.ofNat n) else none
  | none => none

/-- read a version, blanks at both ends aside -/
def parse? (raw : String) : Option AppVersion :=
  let trimmed := Text.trim raw
  if trimmed = "" then none
  else
    match (Text.pieces '.' trimmed).mapM segment? with
    | some (n :: ns) => some ⟨n :: ns, List.cons_ne_nil n ns⟩
    | _ => none

/-- the numbers joined by points -/
def text (v : AppVersion) : String := Text.joined '.' (v.segments.map fun n => toString n.toNat)

/-- a version is written in JSON as its text -/
def toJson (v : AppVersion) : Json := .string v.text

def decoder : Decoder AppVersion :=
  Decoder.string.refine fun raw =>
    match parse? raw with
    | some v => .ok v
    | none => .error (.unreadableVersion raw)

/-- only zeros compare equal to nothing -/
theorem compareSegments_nil_eq_iff (bs : List UInt64) : compareSegments [] bs = .eq ↔ ∀ b ∈ bs, b = 0 := by
  simp [compareSegments]

end AppVersion

end PixelAudit
