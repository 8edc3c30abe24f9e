/-
Sets of code points as lists of ranges.

Membership looks at the ranges only, so a list need be neither sorted nor free of overlaps; `complement` sorts first.
A table of a Unicode property is written as text, `41-5A 61-7A 100-12E/2`, and read by `ofTable`.

Main results: `mem_union` (a union holds what one of the two holds).
-/

namespace PixelAudit.Text

/-- ranges of code points, both ends included -/
abbrev CodeSet := List (Nat × Nat)

namespace CodeSet

/-- the greatest code point -/
def last : Nat := 0x10FFFF

def everything : CodeSet := [(0, last)]

def mem (set : CodeSet) (code : Nat) : Bool := set.any (fun r => r.1 ≤ code && code ≤ r.2)

def single (c : Char) : CodeSet := [(c.toNat, c.toNat)]

def union (s t : CodeSet) : CodeSet := s ++ t

theorem mem_union (s t : CodeSet) (code : Nat) : (union s t).mem code = (s.mem code || t.mem code) := by
  simp [union, mem]

/-- the gaps of ranges in increasing order of their starts, from a code point on -/
def gaps (start : Nat) : CodeSet → CodeSet
  | [] => if start ≤ last then [(start, last)] else []
  | (a, b) :: rest =>
    if start < a then (start, a - 1) :: gaps (max start (b + 1)) rest else gaps (max start (b + 1)) rest

def sortByStart (set : CodeSet) : CodeSet := set.mergeSort (fun r s => r.1 ≤ s.1)

def complement (set : CodeSet) : CodeSet := gaps 0 set.sortByStart

def inter (s t : CodeSet) : CodeSet := complement (union (complement s) (complement t))

def diff (s t : CodeSet) : CodeSet := inter s (complement t)

/-- what exactly one of the two holds -/
def symmDiff (s t : CodeSet) : CodeSet := union (diff s t) (diff t s)

/-- ranges in increasing order without overlaps and without adjacent ones -/
def normal (set : CodeSet) : CodeSet := complement (complement set)

/-- the ranges of characters in increasing order: without surrogates, which are none -/
def scalars (set : CodeSet) : CodeSet := set.diff [(0xD800, 0xDFFF)]

/-- number of code points -/
def count (set : CodeSet) : Nat := set.normal.foldl (fun n r => n + (r.2 + 1 - r.1)) 0

def hexValue (c : Char) : Nat := if c.isDigit then c.toNat - '0'.toNat else c.toNat - 'A'.toNat + 10

def ofHex (cs : List Char) : Nat := cs.foldl (fun n c => n * 16 + hexValue c) 0

def isGap (c : Char) : Bool := c == ' ' || c == '\n'

/-- every code point of a range at the given distance, from the first on -/
def every (step first last : Nat) : CodeSet :=
  (List.range ((last - first) / step + 1)).map fun i => (first + i * step, first + i * step)

/-- a range: `41-5A` from end to end, `41` for one code point, `100-12E/2` for every second one -/
def ofItem (item : List Char) : CodeSet :=
  match (item.splitOn '/').map fun part => (part.splitOn '-').map ofHex with
  | [[a]] => if item.isEmpty then [] else [(a, a)]
  | [[a, b]] => [(a, b)]
  | [[a, b], [step]] => every step a b
  | _ => []

/-- read ranges separated by spaces or line ends -/
def ofTable (table : String) : CodeSet := (table.toList.splitOnP isGap).flatMap ofItem

end CodeSet

end PixelAudit.Text
