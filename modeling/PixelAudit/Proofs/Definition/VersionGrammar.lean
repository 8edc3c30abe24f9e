/-
The texts that are versions.

Without the blanks at both ends such a text is not empty, and each of its pieces between two points starts with digits.
They denote a number in base ten, which has to fit into 64 bits; zeros in front of it do not matter, nor does what
follows the digits (`Denotes`). Any other text is refused, wherever a version may stand, with an error that shows it as
it was written, blanks included.

Main results: `segment?_eq_some_iff` (a piece is read as the number that it denotes), `parse?_eq_some_iff` (a text is
read as the numbers of its pieces), `parse?_grammar` (which texts are read, what the others lead to, and that a version
is read back from its own text).
-/
import PixelAudit.Proofs.Definition.VersionText
import PixelAudit.Audit.Validator
import Mathlib.Data.Nat.Digits.Defs

namespace PixelAudit

namespace AppVersion

open Text Decimal

/-! ## Pieces -/

/-- a piece denotes the number of the digits that it starts with, as many as there are; anything may follow them -/
def Denotes (piece : String) (n : ℕ) : Prop :=
  ∃ digits tail, piece.toList = digits ++ tail ∧ digits ≠ [] ∧ (∀ c ∈ digits, '0' ≤ c ∧ c ≤ '9') ∧
    (∀ c, tail.head? = some c → ¬ ('0' ≤ c ∧ c ≤ '9')) ∧
    n = Nat.ofDigits 10 (digits.reverse.map fun c => c.toNat - '0'.toNat)

theorem isDigit_iff {c : Char} : Decimal.isDigit c = true ↔ '0' ≤ c ∧ c ≤ '9' := by
  simp [Decimal.isDigit]

/-- digits are summed up by their places -/
theorem ofDigits_eq (digits : List Char) :
    Decimal.ofDigits digits = Nat.ofDigits 10 (digits.reverse.map fun c => c.toNat - '0'.toNat) := by
  induction digits using List.reverseRecOn with
  | nil => rfl
  | append_singleton digits c ih =>
    have hlast : Decimal.ofDigits (digits ++ [c]) = Decimal.ofDigits digits * 10 + digitValue c := by
      simp [Decimal.ofDigits]
    rw [hlast, ih, List.reverse_append, List.reverse_singleton, List.singleton_append, List.map_cons,
      Nat.ofDigits_cons, digitValue]
    omega

/-- the digits at the start of a piece are those up to the first character that is none -/
theorem takeWhile_isDigit_append {digits tail : List Char} (hdigits : ∀ c ∈ digits, '0' ≤ c ∧ c ≤ '9')
    (htail : ∀ c, tail.head? = some c → ¬ ('0' ≤ c ∧ c ≤ '9')) :
    (digits ++ tail).takeWhile Decimal.isDigit = digits := by
  have hstop : tail.takeWhile Decimal.isDigit = [] := by
    cases tail with
    | nil => rfl
    | cons c cs => exact List.takeWhile_cons_of_neg fun hc => htail c rfl (isDigit_iff.1 hc)
  rw [List.takeWhile_append_of_pos fun c hc => isDigit_iff.2 (hdigits c hc), hstop, List.append_nil]

theorem denotes_iff {piece : String} {n : ℕ} :
    Denotes piece n ↔ digits? (piece.toList.takeWhile Decimal.isDigit) = some n := by
  constructor
  · rintro ⟨digits, tail, hpiece, hne, hdigits, htail, rfl⟩
    have hall : digits.all Decimal.isDigit = true := List.all_eq_true.2 fun c hc => isDigit_iff.2 (hdigits c hc)
    rw [hpiece, takeWhile_isDigit_append hdigits htail, digits?, hall, ofDigits_eq]
    simp [hne]
  · intro h
    rw [digits?] at h
    split_ifs at h with hnone
    have hne : piece.toList.takeWhile Decimal.isDigit ≠ [] := fun hnil => hnone (by simp [hnil])
    refine ⟨_, piece.toList.dropWhile Decimal.isDigit, List.takeWhile_append_dropWhile.symm, hne,
      fun c hc => isDigit_iff.1 (List.mem_takeWhile_imp hc), fun c hc hdigit => ?_, ?_⟩
    · have hhead := List.head?_dropWhile_not Decimal.isDigit piece.toList
      rw [hc] at hhead
      simp [isDigit_iff.2 hdigit] at hhead
    · rw [← ofDigits_eq]
      exact (Option.some.inj h).symm

/-- a piece is read as the number that it denotes, if this has no more than 64 bits -/
theorem segment?_eq_some_iff {piece : String} {n : UInt64} : segment? piece = some n ↔ Denotes piece n.toNat := by
  rw [denotes_iff, segment?]
  cases digits? (piece.toList.takeWhile Decimal.isDigit) with
  | none => simp
  | some k =>
    by_cases hk : k < UInt64.size
    · simp only [hk, if_true, Option.some.injEq, ← UInt64.toNat_inj, UInt64.toNat_ofNat_of_lt' hk]
    · have hne : k ≠ n.toNat := fun h => hk (h ▸ n.toNat_lt)
      simp [hk, hne]

theorem isSome_segment?_iff {piece : String} : (segment? piece).isSome = true ↔ ∃ n < 2 ^ 64, Denotes piece n := by
  rw [Option.isSome_iff_exists]
  constructor
  · rintro ⟨n, hn⟩
    exact ⟨n.toNat, n.toNat_lt, segment?_eq_some_iff.1 hn⟩
  · rintro ⟨n, hn, hpiece⟩
    exact ⟨UInt64.ofNat n, segment?_eq_some_iff.2 (by rwa [UInt64.toNat_ofNat_of_lt' hn])⟩

/-! ## Texts -/

/-- pieces are read one by one -/
theorem mapM_segment?_eq_some_iff {parts : List String} {segments : List UInt64} :
    parts.mapM segment? = some segments ↔ List.Forall₂ (fun piece n => Denotes piece n.toNat) parts segments := by
  induction parts generalizing segments with
  | nil =>
    rw [List.mapM_nil, List.forall₂_nil_left_iff]
    exact ⟨fun h => (Option.some.inj h).symm, fun h => h ▸ rfl⟩
  | cons piece parts ih =>
    rw [List.mapM_cons, List.forall₂_cons_left_iff]
    simp only [Option.bind_eq_bind, Option.bind_eq_some_iff, Option.pure_def, Option.some.injEq,
      segment?_eq_some_iff, ih]
    refine exists_congr fun n => ?_
    constructor
    · rintro ⟨hpiece, rest, hrest, rfl⟩
      exact ⟨rest, hpiece, hrest, rfl⟩
    · rintro ⟨rest, hpiece, hrest, rfl⟩
      exact ⟨hpiece, rest, hrest, rfl⟩

/-- a text is read as the numbers of its pieces -/
theorem parse?_eq_some_iff {raw : String} {v : AppVersion} :
    parse? raw = some v ↔ trim raw ≠ "" ∧
      List.Forall₂ (fun piece n => Denotes piece n.toNat) (pieces '.' (trim raw)) v.segments := by
  rw [← mapM_segment?_eq_some_iff, parse?]
  by_cases hblank : trim raw = ""
  · simp [hblank]
  · obtain ⟨segments, hsegments⟩ := v
    cases hread : (pieces '.' (trim raw)).mapM segment? with
    | none => simp [hblank]
    | some read =>
      cases read with
      | nil => simp [hblank, hsegments.symm]
      | cons n ns => simp [hblank]

/-- pieces are read if each of them is -/
theorem isSome_mapM_segment?_iff {parts : List String} :
    (parts.mapM segment?).isSome = true ↔ ∀ piece ∈ parts, (segment? piece).isSome = true := by
  induction parts with
  | nil => simp
  | cons piece parts ih =>
    rw [List.forall_mem_cons, ← ih, List.mapM_cons]
    cases segment? piece with
    | none => simp
    | some n => cases parts.mapM segment? <;> simp

/-- the texts that are read: not only blanks, and each piece denotes a number of 64 bits -/
def Grammatical (raw : String) : Prop :=
  trim raw ≠ "" ∧ ∀ piece ∈ pieces '.' (trim raw), ∃ n < 2 ^ 64, Denotes piece n

theorem isSome_parse?_iff {raw : String} : (parse? raw).isSome = true ↔ Grammatical raw := by
  have hpieces : (∀ piece ∈ pieces '.' (trim raw), ∃ n < 2 ^ 64, Denotes piece n) ↔
      ((pieces '.' (trim raw)).mapM segment?).isSome = true := by
    simp only [isSome_mapM_segment?_iff, isSome_segment?_iff]
  rw [Grammatical, hpieces, Option.isSome_iff_exists, Option.isSome_iff_exists]
  constructor
  · rintro ⟨v, hv⟩
    obtain ⟨hblank, hread⟩ := parse?_eq_some_iff.1 hv
    exact ⟨hblank, v.segments, mapM_segment?_eq_some_iff.2 hread⟩
  · rintro ⟨hblank, segments, hread⟩
    -- there is at least one piece, so at least one number
    have hne : segments ≠ [] := by
      rintro rfl
      have hnil := List.forall₂_nil_right_iff.1 (mapM_segment?_eq_some_iff.1 hread)
      exact pieces_ne_nil '.' (trim raw) hnil
    exact ⟨⟨segments, hne⟩, parse?_eq_some_iff.2 ⟨hblank, mapM_segment?_eq_some_iff.1 hread⟩⟩

/-- A text is read as a version exactly if it is not only blanks and each of its pieces starts with digits that denote a
number below 2^64; these numbers are those of the version. Any other text is refused, in a catalog as in a definition
or with an event, and the error shows all of it. A version is read back from its text, and from what is stored of it. -/
theorem parse?_grammar (raw : String) (v : AppVersion) :
    ((parse? raw).isSome = true ↔ Grammatical raw) ∧
    (parse? raw = some v ↔ trim raw ≠ "" ∧
      List.Forall₂ (fun piece n => Denotes piece n.toNat) (pieces '.' (trim raw)) v.segments) ∧
    (¬ Grammatical raw →
      decoder.ofValue (.string raw) = .error (.unreadableVersion raw) ∧
      PixelDefinition.readMinVersion (some (.string raw)) = .error (.unreadableVersion raw) ∧
      ∀ floor, Validator.standing (some floor) (some raw) = .unreadable raw) ∧
    parse? v.text = some v ∧ decoder.ofValue v.toJson = .ok v ∧ decoder.parse v.toJson.pretty = .ok v := by
  refine ⟨isSome_parse?_iff, parse?_eq_some_iff, fun hnot => ?_, parse?_text v, ?_, ?_⟩
  · have hnone : parse? raw = none := by rwa [← isSome_parse?_iff, Option.not_isSome_iff_eq_none] at hnot
    refine ⟨?_, ?_, fun floor => ?_⟩
    · simp [decoder, Decoder.refine, Decoder.string, bind, Except.bind, hnone]
    · rw [PixelDefinition.readMinVersion, hnone]
    · rw [Validator.standing, hnone]
  · simp [toJson, decoder, Decoder.refine, Decoder.string, bind, Except.bind, parse?_text]
  · exact (reads_toJson v).parse (Nat.zero_le _)

example : (parse? " 007.3rc1.0-beta ").map segments = some [7, 3, 0] := by decide

example : (parse? "18446744073709551615").isSome = true ∧ parse? "18446744073709551616" = none ∧
    parse? "1..2" = none := by
  decide

end AppVersion

end PixelAudit
