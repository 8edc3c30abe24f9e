/-
Text joined from segments: the characters it has, and what is left of it after some of the segments.

Main results: `not_mem_of_mem_pieces` (the separator does not stand in a piece), `mem_toList_joined` (a character of the
joint is the separator or stands in a segment), `joined_eq_joined_iff` (which joints are equal), `fromByte?_joined`
(past the bytes of the first segments the others are left), `trim_eq_self` (without blanks nothing is trimmed).
-/
import PixelAudit.Text.Pieces
import PixelAudit.Text.Blank
import Mathlib.Tactic
import Mathlib.Data.List.TakeWhile

namespace PixelAudit.Text

theorem trim_eq_self {s : String} (h : ∀ c ∈ s.toList, isBlank c = false) : trim s = s := by
  have hkeep : ∀ cs : List Char, (∀ c ∈ cs, c ∈ s.toList) → cs.dropWhile isBlank = cs := fun cs hcs =>
    List.dropWhile_eq_self_iff.2 fun hl => by simp [h _ (hcs _ (List.getElem_mem hl))]
  rw [trim, trimChars, dropEndWhile, hkeep _ fun c hc => hc, hkeep _ fun c hc => List.mem_reverse.1 hc,
    List.reverse_reverse, String.ofList_toList]

/-! ## Pieces -/

variable (separator : Char)

theorem pieces_ne_nil (s : String) : pieces separator s ≠ [] := by
  simp [pieces, List.splitOn, List.splitOnP_ne_nil]

theorem pieces_injective {s t : String} (h : pieces separator s = pieces separator t) : s = t := by
  rw [← joined_pieces separator s, h, joined_pieces]

/-- there is one piece more than separators -/
theorem length_pieces (s : String) : (pieces separator s).length = s.toList.count separator + 1 := by
  have hlist : ∀ cs : List Char, (cs.splitOn separator).length = cs.count separator + 1 := by
    intro cs
    induction cs with
    | nil => rfl
    | cons c cs ih =>
      rw [List.splitOn_cons_eq_if_modifyHead, List.count_cons]
      split_ifs
      · rw [List.length_cons, ih]
      · rw [List.length_modifyHead, ih, Nat.add_zero]
  rw [pieces, List.length_map, hlist]

/-- the separator does not stand in a piece -/
theorem not_mem_of_mem_pieces {s p : String} (h : p ∈ pieces separator s) : separator ∉ p.toList := by
  have hfree : ∀ cs : List Char, ∀ l ∈ cs.splitOnP (· == separator), separator ∉ l := by
    intro cs
    induction cs with
    | nil => simp
    | cons c cs ih =>
      obtain ⟨first, rest, hsplit⟩ := List.exists_cons_of_ne_nil (List.splitOnP_ne_nil (· == separator) cs)
      rw [List.splitOnP_cons_eq_if_modifyHead]
      rw [hsplit] at ih ⊢
      intro l hl
      split_ifs at hl with hc
      · rcases List.mem_cons.1 hl with rfl | hl
        · exact List.not_mem_nil
        · exact ih l hl
      · rcases List.mem_cons.1 hl with rfl | hl
        · have hfirst := ih first List.mem_cons_self
          have hne : separator ≠ c := fun h => hc (by simp [h])
          simp [hne, hfirst]
        · exact ih l (List.mem_cons_of_mem _ hl)
  obtain ⟨l, hl, rfl⟩ := List.mem_map.1 h
  rw [String.toList_ofList]
  exact hfree _ l hl

/-! ## Joints -/

theorem joined_cons (p : String) {parts : List String} (h : parts ≠ []) :
    joined separator (p :: parts) = p ++ String.singleton separator ++ joined separator parts :=
  String.intercalate_cons_of_ne_nil h

/-- a character of the joint is the separator or stands in a segment -/
theorem mem_toList_joined {parts : List String} {c : Char} (h : c ∈ (joined separator parts).toList) :
    c = separator ∨ ∃ p ∈ parts, c ∈ p.toList := by
  induction parts with
  | nil => simp [joined] at h
  | cons p parts ih =>
    by_cases hne : parts = []
    · subst hne
      exact Or.inr ⟨p, List.mem_singleton_self p, by simpa [joined] using h⟩
    · rw [joined_cons separator p hne, String.toList_append, String.toList_append] at h
      rcases List.mem_append.1 h with h | h
      · rcases List.mem_append.1 h with h | h
        · exact Or.inr ⟨p, List.mem_cons_self, h⟩
        · exact Or.inl (by simpa using h)
      · rcases ih h with h | ⟨q, hq, hc⟩
        · exact Or.inl h
        · exact Or.inr ⟨q, List.mem_cons_of_mem _ hq, hc⟩

/-- the pieces of two texts with a separator between them -/
theorem pieces_append (s t : String) :
    pieces separator (s ++ String.singleton separator ++ t) = pieces separator s ++ pieces separator t := by
  have hsplit : (s.toList ++ separator :: t.toList).splitOn separator =
      s.toList.splitOn separator ++ t.toList.splitOn separator :=
    List.splitOnP_append_cons s.toList t.toList (beq_self_eq_true separator)
  simp [pieces, hsplit]

/-- a separator at the end opens an empty piece -/
theorem pieces_append_separator (s : String) :
    pieces separator (s ++ String.singleton separator) = pieces separator s ++ [""] := by
  have happend := pieces_append separator s ""
  rwa [String.append_empty, show pieces separator "" = [""] from rfl] at happend

/-- nothing is the joint of no segment, and of one that is empty -/
theorem joined_eq_empty_iff {parts : List String} (hfree : ∀ p ∈ parts, separator ∉ p.toList) :
    joined separator parts = "" ↔ parts = [] ∨ parts = [""] := by
  constructor
  · intro hempty
    by_cases hne : parts = []
    · exact Or.inl hne
    · right
      rw [← pieces_joined separator parts hfree hne, hempty]
      rfl
  · rintro (rfl | rfl)
    · rfl
    · rfl

/-- joints are different unless one is of no segment and the other of an empty one -/
theorem joined_eq_joined_iff {parts others : List String} (hparts : ∀ p ∈ parts, separator ∉ p.toList)
    (hothers : ∀ p ∈ others, separator ∉ p.toList) :
    joined separator parts = joined separator others ↔
      parts = others ∨ (parts = [] ∧ others = [""]) ∨ (parts = [""] ∧ others = []) := by
  have hnil : joined separator [] = "" := rfl
  by_cases hp : parts = []
  · rw [hp, hnil, eq_comm, joined_eq_empty_iff separator hothers]
    simp [eq_comm]
  · by_cases ho : others = []
    · rw [ho, hnil, joined_eq_empty_iff separator hparts]
      simp
    · simp only [hp, ho, false_and, and_false, or_false]
      refine ⟨fun h => ?_, congrArg _⟩
      rw [← pieces_joined separator parts hparts hp, h, pieces_joined separator others hothers ho]

/-! ## Bytes -/

theorem utf8ByteSize_ofList_cons (c : Char) (cs : List Char) :
    (String.ofList (c :: cs)).utf8ByteSize = c.utf8Size + (String.ofList cs).utf8ByteSize := by
  have happend : String.ofList (c :: cs) = String.singleton c ++ String.ofList cs := String.toList_inj.mp (by simp)
  rw [happend, String.utf8ByteSize_append, String.utf8ByteSize_singleton]

/-- past the bytes of a text the count starts anew -/
theorem fromByte?_add (s : String) (n : Nat) (rest : List Char) :
    fromByte? (s.utf8ByteSize + n) (s.toList ++ rest) = fromByte? n rest := by
  have hlist : ∀ cs : List Char, fromByte? ((String.ofList cs).utf8ByteSize + n) (cs ++ rest) = fromByte? n rest := by
    intro cs
    induction cs with
    | nil => simp
    | cons c cs ih =>
      have hpos := c.utf8Size_pos
      rw [utf8ByteSize_ofList_cons, List.cons_append]
      obtain ⟨k, hk⟩ : ∃ k, c.utf8Size + (String.ofList cs).utf8ByteSize + n = k + 1 :=
        ⟨_, (Nat.succ_pred_eq_of_pos (by omega)).symm⟩
      rw [hk, fromByte?, if_pos (by omega), ← ih]
      congr 1
      omega
  have hs := hlist s.toList
  rwa [String.ofList_toList] at hs

/-- the bytes of segments with a separator of one byte after each -/
def segmentBytes (segments : List String) : Nat := (segments.map fun p => p.utf8ByteSize + 1).sum

/-- past the bytes of the first segments the others are left; past the end nothing is -/
theorem fromByte?_joined (hsize : separator.utf8Size = 1) (used left : List String) :
    (fromByte? (segmentBytes used) (joined separator (used ++ left)).toList).getD [] =
      (joined separator left).toList := by
  induction used with
  | nil => simp [segmentBytes, fromByte?]
  | cons p used ih =>
    have hbytes : segmentBytes (p :: used) = p.utf8ByteSize + (1 + segmentBytes used) := by
      simp only [segmentBytes, List.map_cons, List.sum_cons]
      omega
    by_cases hlast : used ++ left = []
    · obtain ⟨rfl, rfl⟩ := List.append_eq_nil_iff.1 hlast
      have hend := fromByte?_add p 1 []
      rw [List.append_nil] at hend
      simp [joined, segmentBytes, hend, fromByte?]
    · have hsep := fromByte?_add (String.singleton separator) (segmentBytes used)
        (joined separator (used ++ left)).toList
      rw [String.utf8ByteSize_singleton, hsize] at hsep
      rw [List.cons_append, joined_cons separator p hlast, hbytes, String.append_assoc, String.toList_append,
        fromByte?_add, String.toList_append, hsep, ih]

end PixelAudit.Text
