/-
A version is read back from its text.

The text of a version is its numbers in decimal, with points between them. It has no blank to trim, no number has a
point in its text, and a text of digits only is read to its end.

Main results: `parse?_text` (a version is read back from its text, number by number), `reads_toJson` (and so it is from
its JSON form).
-/
import PixelAudit.Version
import PixelAudit.Proofs.Decimal.Digits
import PixelAudit.Proofs.Text.Segments
import PixelAudit.Proofs.Document.Readback
import Mathlib.Tactic
import Mathlib.Data.List.TakeWhile

namespace PixelAudit

namespace AppVersion

open Text Decimal

theorem isDigit_of_mem_toString {n : Nat} {c : Char} (h : c ∈ (toString n).toList) : Decimal.isDigit c = true := by
  rw [Json.Reader.isDigit_eq]
  exact Nat.isDigit_of_mem_toDigits (by omega) (le_refl 10) (by simpa using h)

/-- a number is read back from its digits -/
theorem segment?_toString (n : UInt64) : segment? (toString n.toNat) = some n := by
  have htake : (toString n.toNat).toList.takeWhile Decimal.isDigit = (toString n.toNat).toList :=
    List.takeWhile_eq_self_iff.2 fun c hc => isDigit_of_mem_toString hc
  have hdigits : digits? (toString n.toNat).toList = some n.toNat := by
    have hall : (toString n.toNat).toList.all Decimal.isDigit = true :=
      List.all_eq_true.2 fun c hc => isDigit_of_mem_toString hc
    rw [digits?, if_neg, Nat.toString_eq_repr, Nat.toList_repr, ofDigits_toDigits]
    rw [hall]
    simp [Nat.toDigits_ne_nil]
  rw [segment?, htake, hdigits]
  simp [n.toNat_lt]

theorem not_point_of_isDigit {c : Char} (h : Decimal.isDigit c = true) : '.' ≠ c := by
  rintro rfl
  revert h
  decide

theorem isBlank_of_isDigit {c : Char} (h : Decimal.isDigit c = true) : isBlank c = false := by
  simp only [Decimal.isDigit, Bool.and_eq_true, decide_eq_true_eq, Char.le_def, UInt32.le_iff_toNat_le] at h
  obtain ⟨hlow, hhigh⟩ := h
  have hlow : 48 ≤ c.toNat := hlow
  have hhigh : c.toNat ≤ 57 := hhigh
  simp only [isBlank, blankRanges, List.any_cons, List.any_nil, Bool.or_false, Bool.or_eq_false_iff,
    Bool.and_eq_false_iff, decide_eq_false_iff_not]
  omega

/-- the numbers of a version are read one by one -/
theorem mapM_segment? (segments : List UInt64) :
    (segments.map fun n => toString n.toNat).mapM segment? = some segments := by
  induction segments with
  | nil => rfl
  | cons n ns ih =>
    rw [List.map_cons, List.mapM_cons, segment?_toString, ih]
    rfl

theorem pieces_text (v : AppVersion) : pieces '.' v.text = v.segments.map fun n => toString n.toNat := by
  refine pieces_joined '.' _ ?_ (by simpa using v.segments_ne_nil)
  intro p hp hpoint
  obtain ⟨n, -, rfl⟩ := List.mem_map.1 hp
  exact not_point_of_isDigit (isDigit_of_mem_toString hpoint) rfl

theorem trim_text (v : AppVersion) : trim v.text = v.text := by
  refine trim_eq_self fun c hc => ?_
  rcases mem_toList_joined '.' hc with rfl | ⟨p, hp, hc⟩
  · decide
  · obtain ⟨n, -, rfl⟩ := List.mem_map.1 hp
    exact isBlank_of_isDigit (isDigit_of_mem_toString hc)

theorem text_ne_empty (v : AppVersion) : v.text ≠ "" := by
  intro hempty
  have hread := mapM_segment? v.segments
  rw [← pieces_text, hempty, show (pieces '.' "").mapM segment? = none by decide] at hread
  cases hread

/-- a version is read back from its text, number by number -/
theorem parse?_text (v : AppVersion) : parse? v.text = some v := by
  have hread : (pieces '.' v.text).mapM segment? = some v.segments := by rw [pieces_text, mapM_segment?]
  obtain ⟨segments, hne⟩ := v
  obtain ⟨n, ns, rfl⟩ := List.exists_cons_of_ne_nil hne
  simp only [parse?, trim_text, text_ne_empty, hread, ↓reduceIte]

theorem reads_toJson (v : AppVersion) : decoder.Reads v.toJson v :=
  (Decoder.Reads.string v.text).refine (by rw [parse?_text])

end AppVersion

end PixelAudit
