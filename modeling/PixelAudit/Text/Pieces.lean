/-
Cutting text at a separator and putting it together again.

Main results: `joined_pieces` (the pieces, joined, give the text back), `pieces_joined` (pieces free of the
separator come back from their joint).
-/

namespace PixelAudit.Text

/-- the pieces between the separators; the empty text has one empty piece -/
def pieces (separator : Char) (s : String) : List String :=
  (s.toList.splitOn separator).map String.ofList

/-- the pieces joined by the separator -/
def joined (separator : Char) (parts : List String) : String :=
  (String.singleton separator).intercalate parts

theorem joined_pieces (separator : Char) (s : String) : joined separator (pieces separator s) = s := by
  apply String.toList_inj.mp
  simp only [joined, pieces, String.toList_intercalate, String.toList_singleton, List.map_map]
  have h : (String.toList ∘ String.ofList) = id := by funext l; simp
  simp [h, List.intercalate_splitOn]

theorem pieces_joined (separator : Char) (parts : List String) (hfree : ∀ p ∈ parts, separator ∉ p.toList)
    (hne : parts ≠ []) : pieces separator (joined separator parts) = parts := by
  simp only [joined, pieces, String.toList_intercalate, String.toList_singleton]
  rw [List.splitOn_intercalate separator (by simpa using hfree) (by simpa using hne)]
  simp

/-- the characters from a place on, which is counted in bytes; there is none inside a character or past the end -/
def fromByte? : Nat → List Char → Option (List Char)
  | 0, cs => some cs
  | _ + 1, [] => none
  | n + 1, c :: cs => if c.utf8Size ≤ n + 1 then fromByte? (n + 1 - c.utf8Size) cs else none

/-- the text before and after the first separator, if there is one -/
def cut? (separator : Char) (s : String) : Option (String × String) :=
  match s.toList.span (· != separator) with
  | (_, []) => none
  | (before, _ :: after) => some (String.ofList before, String.ofList after)

end PixelAudit.Text
