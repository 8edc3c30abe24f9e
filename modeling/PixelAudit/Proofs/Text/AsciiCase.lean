/-
The case of ASCII letters.

`String.toLower` folds these letters and no others. Everything that is done to a text before its letters are folded by
the full mapping gives the same result on the folded text, folded: blanks are trimmed, the text is cut at separators,
and it is decoded byte by byte. The digits of a percent escape may be letters, and so may the character that they name; the
bytes of longer characters are never letters.

Main results: `trim_toLower`, `pieces_toLower`, `cut?_toLower` (parts of a text), `lower_toLower` (the full mapping),
`Percent.decode_toLower` (percent-encoded text).
-/
import PixelAudit.Proofs.Text.CodeSets
import PixelAudit.Text.LowerCase
import PixelAudit.Text.Percent
import PixelAudit.Text.Pieces
import PixelAudit.Decimal.Numeral
import Mathlib.Tactic

namespace PixelAudit.Text

/-! ## Characters -/

/-- what holds of the characters of ASCII, one by one, and of all others holds of every character -/
theorem char_cases {P : Char → Prop} (hascii : ∀ code < 0x80, P (Char.ofNat code)) (hother : ∀ c, 0x80 ≤ c.toNat → P c)
    (c : Char) : P c := by
  by_cases hc : c.toNat < 0x80
  · have h := hascii c.toNat hc
    rwa [Char.ofNat_toNat] at h
  · exact hother c (by omega)

/-- beyond ASCII no character is folded -/
theorem toLower_eq_self {c : Char} (h : 0x80 ≤ c.toNat) : c.toLower = c := by
  apply dif_neg
  rintro ⟨-, hlast⟩
  have hle := UInt32.le_iff_toNat_le.1 hlast
  have hZ : ('Z' : Char).val.toNat = 90 := rfl
  have hcode : c.toNat = c.val.toNat := rfl
  omega

/-- a character that is folded is a letter, and becomes one -/
theorem toLower_cases (c : Char) : c.toLower = c ∨ c.isAlpha = true ∧ c.toLower.isAlpha = true := by
  induction c using char_cases with
  | hascii code hcode => revert code; decide
  | hother c hc => exact Or.inl (toLower_eq_self hc)

/-- only letters are folded to letters -/
theorem toLower_eq_iff {c d : Char} (hd : d.isAlpha = false) : c.toLower = d ↔ c = d := by
  rcases toLower_cases c with hsame | ⟨hletter, hfolded⟩
  · rw [hsame]
  · constructor
    · rintro rfl
      rw [hd] at hfolded
      cases hfolded
    · rintro rfl
      rw [hd] at hletter
      cases hletter

theorem isBlank_toLower (c : Char) : isBlank c.toLower = isBlank c := by
  induction c using char_cases with
  | hascii code hcode => revert code; decide
  | hother c hc => rw [toLower_eq_self hc]

theorem isDigit_toLower (c : Char) : Decimal.isDigit c.toLower = Decimal.isDigit c := by
  induction c using char_cases with
  | hascii code hcode => revert code; decide
  | hother c hc => rw [toLower_eq_self hc]

/-! ## Parts of a text -/

theorem toList_toLower (s : String) : s.toLower.toList = s.toList.map Char.toLower := String.toList_map

theorem ofList_map_toLower (cs : List Char) : String.ofList (cs.map Char.toLower) = (String.ofList cs).toLower := by
  apply String.toList_inj.mp
  rw [toList_toLower, String.toList_ofList, String.toList_ofList]

theorem toLower_eq_empty_iff (s : String) : s.toLower = "" ↔ s = "" := by
  rw [← String.toList_inj, ← String.toList_inj, toList_toLower]
  exact List.map_eq_nil_iff

theorem head?_toLower {d : Char} (hd : d.isAlpha = false) (s : String) :
    s.toLower.toList.head? = some d ↔ s.toList.head? = some d := by
  rw [toList_toLower, List.head?_map]
  cases s.toList.head? with
  | none => simp
  | some c => rw [Option.map_some, Option.some.injEq, Option.some.injEq, toLower_eq_iff hd]

theorem dropEndWhile_map {p : Char → Bool} (hp : ∀ c : Char, p c.toLower = p c) (cs : List Char) :
    dropEndWhile p (cs.map Char.toLower) = (dropEndWhile p cs).map Char.toLower := by
  have hcomp : p ∘ Char.toLower = p := funext hp
  rw [dropEndWhile, dropEndWhile, ← List.map_reverse, List.dropWhile_map, hcomp, List.map_reverse]

theorem trim_toLower (s : String) : trim s.toLower = (trim s).toLower := by
  have hcomp : isBlank ∘ Char.toLower = isBlank := funext isBlank_toLower
  rw [trim, trim, trimChars, trimChars, toList_toLower, List.dropWhile_map, hcomp, dropEndWhile_map isBlank_toLower,
    ofList_map_toLower]

theorem splitOn_map {separator : Char} (h : separator.isAlpha = false) (cs : List Char) :
    (cs.map Char.toLower).splitOn separator = (cs.splitOn separator).map (List.map Char.toLower) := by
  induction cs with
  | nil => rfl
  | cons c cs ih =>
    have hc : (c.toLower == separator) = (c == separator) := by
      rw [Bool.eq_iff_iff, beq_iff_eq, beq_iff_eq, toLower_eq_iff h]
    rw [List.map_cons, List.splitOn_cons_eq_if_modifyHead, List.splitOn_cons_eq_if_modifyHead, hc, ih]
    split_ifs
    · rfl
    · cases cs.splitOn separator <;> rfl

theorem pieces_toLower {separator : Char} (h : separator.isAlpha = false) (s : String) :
    pieces separator s.toLower = (pieces separator s).map String.toLower := by
  rw [pieces, pieces, toList_toLower, splitOn_map h, List.map_map, List.map_map]
  apply List.map_congr_left
  intro cs _
  exact ofList_map_toLower cs

theorem cut?_toLower {separator : Char} (h : separator.isAlpha = false) (s : String) :
    cut? separator s.toLower = (cut? separator s).map fun parts => (parts.1.toLower, parts.2.toLower) := by
  have hcomp : (fun c : Char => c != separator) ∘ Char.toLower = fun c => c != separator := by
    funext c
    rw [Function.comp_apply, Bool.eq_iff_iff, bne_iff_ne, bne_iff_ne, Ne, Ne, toLower_eq_iff h]
  simp only [cut?, toList_toLower, List.span_eq_takeWhile_dropWhile, List.takeWhile_map, List.dropWhile_map, hcomp]
  cases s.toList.dropWhile fun c => c != separator with
  | nil => rfl
  | cons c after => simp only [List.map_cons, Option.map_some, ofList_map_toLower]

/-! ## The lower-case form -/

theorem isAlpha_iff (c : Char) :
    c.isAlpha = true ↔ (0x41 ≤ c.toNat ∧ c.toNat ≤ 0x5A) ∨ (0x61 ≤ c.toNat ∧ c.toNat ≤ 0x7A) := by
  have hform : c.isAlpha = (decide ('A'.val ≤ c.val ∧ c.val ≤ 'Z'.val) ||
      (decide ('a'.val ≤ c.val) && decide (c.val ≤ 'z'.val))) := rfl
  have hcode : c.toNat = c.val.toNat := rfl
  have hA : ('A' : Char).val.toNat = 0x41 := rfl
  have hZ : ('Z' : Char).val.toNat = 0x5A := rfl
  have ha : ('a' : Char).val.toNat = 0x61 := rfl
  have hz : ('z' : Char).val.toNat = 0x7A := rfl
  rw [hform]
  simp only [Bool.or_eq_true, Bool.and_eq_true, decide_eq_true_eq, UInt32.le_iff_toNat_le, hcode, hA, hZ, ha, hz]

/-- no range has an ASCII letter -/
def avoidsLetters (set : CodeSet) : Bool :=
  set.all fun r => r.2 < 0x41 || (0x5A < r.1 && r.2 < 0x61) || 0x7A < r.1

theorem mem_of_avoidsLetters {cs : List Char} (h : avoidsLetters (CodeSet.ofChars cs) = true) {c : Char}
    (hc : c.isAlpha = true) : (CodeSet.ofTable (String.ofList cs)).mem c.toNat = false := by
  apply CodeSet.mem_ofTable_ofList
  rw [CodeSet.mem, List.any_eq_false]
  intro r hr
  have hr := List.all_eq_true.1 h r hr
  have hc := (isAlpha_iff c).1 hc
  simp only [Bool.or_eq_true, Bool.and_eq_true, decide_eq_true_eq] at hr ⊢
  omega

theorem mem_of_range {cs : List Char} {first last code : Nat} (h : (first, last) ∈ CodeSet.ofChars cs)
    (hfirst : first ≤ code) (hlast : code ≤ last) : (CodeSet.ofTable (String.ofList cs)).mem code = true := by
  apply CodeSet.mem_ofTable_ofList
  rw [CodeSet.mem, List.any_eq_true]
  exact ⟨_, h, by simp [hfirst, hlast]⟩

open CodeSet (mem_append mem_diff)

set_option maxRecDepth 100000 in
theorem isCaseIgnorable_of_isAlpha {c : Char} (hc : c.isAlpha = true) : isCaseIgnorable c = false := by
  have hnonspacing : Category.nonspacingMark.mem c.toNat = false := mem_of_avoidsLetters (by decide +kernel) hc
  have henclosing : Category.enclosingMark.mem c.toNat = false := mem_of_avoidsLetters (by decide) hc
  have hformat : Category.format.mem c.toNat = false := mem_of_avoidsLetters (by decide) hc
  have hletter : Category.modifierLetter.mem c.toNat = false := mem_of_avoidsLetters (by decide) hc
  have hsymbol : Category.modifierSymbol.mem c.toNat = false := mem_of_avoidsLetters (by decide) hc
  have hpoints : Property.wordPoints.mem c.toNat = false := mem_of_avoidsLetters (by decide) hc
  have hnew : Recent.newCaseIgnorable.mem c.toNat = false := mem_of_avoidsLetters (by decide) hc
  rw [isCaseIgnorable, Recent.caseIgnorable, Property.caseIgnorable]
  simp only [mem_append, hnonspacing, henclosing, hformat, hletter, hsymbol, hpoints, hnew, Bool.or_self]

set_option maxRecDepth 100000 in
theorem isCased_of_isAlpha {c : Char} (hc : c.isAlpha = true) : isCased c = true := by
  have hlost : (CodeSet.ofTable "295").mem c.toNat = false := mem_of_avoidsLetters (by decide) hc
  have hrange := (isAlpha_iff c).1 hc
  have hsmall : c.toNat ≤ CodeSet.last := by unfold CodeSet.last; omega
  rw [isCased, Recent.cased, mem_append, mem_diff _ _ hsmall, hlost, Property.cased, Property.lowercase,
    Property.uppercase]
  rcases hrange with ⟨hfirst, hlast⟩ | ⟨hfirst, hlast⟩
  · have hletter : Category.uppercaseLetter.mem c.toNat = true := mem_of_range (by decide) hfirst hlast
    simp only [mem_append, hletter, Bool.or_true, Bool.true_or, Bool.not_false, Bool.and_true]
  · have hletter : Category.lowercaseLetter.mem c.toNat = true := mem_of_range (by decide) hfirst hlast
    simp only [mem_append, hletter, Bool.true_or, Bool.not_false, Bool.and_true]

/-- the characters that a mapped text is judged by stay what they were -/
theorem casedNext_map (cs : List Char) : casedNext (cs.map Char.toLower) = casedNext cs := by
  induction cs with
  | nil => rfl
  | cons c cs ih =>
    rw [List.map_cons, casedNext, casedNext, ih]
    rcases toLower_cases c with hsame | ⟨hletter, hfolded⟩
    · rw [hsame]
    · rw [isCaseIgnorable_of_isAlpha hletter, isCaseIgnorable_of_isAlpha hfolded, isCased_of_isAlpha hletter,
        isCased_of_isAlpha hfolded]

theorem lowerChar_toLower (c : Char) : lowerChar c.toLower = lowerChar c := by
  induction c using char_cases with
  | hascii code hcode => revert code; decide
  | hother c hc => rw [toLower_eq_self hc]

theorem lowerAt_map (before : List Char) (c : Char) (after : List Char) :
    lowerAt (before.map Char.toLower) c.toLower (after.map Char.toLower) = lowerAt before c after := by
  rw [lowerAt, lowerAt, casedNext_map, casedNext_map, lowerChar_toLower]
  simp only [toLower_eq_iff (by decide : 'Σ'.isAlpha = false)]

theorem lowerFrom_map (before cs : List Char) :
    lowerFrom (before.map Char.toLower) (cs.map Char.toLower) = lowerFrom before cs := by
  induction cs generalizing before with
  | nil => rfl
  | cons c cs ih => rw [List.map_cons, lowerFrom, lowerFrom, lowerAt_map, ← List.map_cons, ih]

/-- the full mapping does not tell ASCII letters apart by their case -/
theorem lower_toLower (s : String) : lower s.toLower = lower s := by
  have h := lowerFrom_map [] s.toList
  rw [List.map_nil] at h
  rw [lower, lower, toList_toLower, h]

/-! ## Bytes -/

/-- the byte of an ASCII letter, folded -/
def lowerByte (b : UInt8) : UInt8 := if 0x41 ≤ b.toNat ∧ b.toNat ≤ 0x5A then b + 0x20 else b

theorem lowerByte_eq_self {b : UInt8} (h : 0x80 ≤ b.toNat) : lowerByte b = b := by
  apply if_neg
  omega

/-- what holds of the bytes of ASCII, one by one, and of all others holds of every byte -/
theorem byte_cases {P : UInt8 → Prop} (hascii : ∀ code < 0x80, P (UInt8.ofNat code))
    (hother : ∀ b : UInt8, 0x80 ≤ b.toNat → P b) (b : UInt8) : P b := by
  by_cases hb : b.toNat < 0x80
  · have h := hascii b.toNat hb
    rwa [UInt8.ofNat_toNat] at h
  · exact hother b (by omega)

theorem lowerByte_lt_iff (b : UInt8) : (lowerByte b).toNat < 0x80 ↔ b.toNat < 0x80 := by
  induction b using byte_cases with
  | hascii code hcode => revert code; decide
  | hother b hb => rw [lowerByte_eq_self hb]

namespace Utf8

/-- a character beyond ASCII is written with bytes beyond it -/
theorem le_of_mem_utf8EncodeChar {c : Char} (hc : 0x80 ≤ c.toNat) {b : UInt8} (hb : b ∈ String.utf8EncodeChar c) :
    0x80 ≤ b.toNat := by
  have hcode : c.toNat = c.val.toNat := rfl
  rw [hcode] at hc
  unfold String.utf8EncodeChar at hb
  dsimp only at hb
  split_ifs at hb
  · omega
  all_goals
    simp only [List.mem_cons, List.not_mem_nil, or_false] at hb
    rcases hb with rfl | rfl | rfl | rfl
  all_goals
    rw [UInt8.toNat_ofNat']
    omega

theorem utf8EncodeChar_toLower (c : Char) :
    String.utf8EncodeChar c.toLower = (String.utf8EncodeChar c).map lowerByte := by
  induction c using char_cases with
  | hascii code hcode => revert code; decide
  | hother c hc =>
    have hsame : (String.utf8EncodeChar c).map lowerByte = (String.utf8EncodeChar c).map id :=
      List.map_congr_left fun b hb => lowerByte_eq_self (le_of_mem_utf8EncodeChar hc hb)
    rw [toLower_eq_self hc, hsame, List.map_id]

theorem encode_toLower (s : String) : encode s.toLower = (encode s).map lowerByte := by
  rw [encode, encode, toList_toLower, List.flatMap_map, List.map_flatMap]
  simp only [utf8EncodeChar_toLower]

theorem ofNat_lowerByte {b : UInt8} (hb : b.toNat < 0x80) :
    Char.ofNat (lowerByte b).toNat = (Char.ofNat b.toNat).toLower := by
  induction b using byte_cases with
  | hascii code hcode => revert code; decide
  | hother b hother => omega

/-- no code point beyond ASCII is that of a letter that is folded -/
theorem ofNat_toLower {code : Nat} (h : 0x80 ≤ code) : (Char.ofNat code).toLower = Char.ofNat code := by
  by_cases hvalid : code.isValidChar
  · apply toLower_eq_self
    have hcode : (Char.ofNat code).toNat = code := by rw [Char.ofNat, dif_pos hvalid]; rfl
    omega
  · have hnone : Char.ofNat code = '\u0000' := by
      rw [Char.ofNat, dif_neg hvalid]
      rfl
    rw [hnone]
    decide

/-- what the first byte of a longer character fixes puts the character beyond ASCII -/
theorem lead?_bounds {first : Nat} {lead : Lead} (h : lead? first = some lead) :
    0x80 ≤ lead.low ∧ (lead.tails = 1 → 2 ≤ lead.bits) ∧ ∀ b, lead.low ≤ b → 2 ≤ extend lead.bits b := by
  unfold lead? at h
  split_ifs at h
  all_goals
    cases h
    dsimp only [extend]
    refine ⟨?_, ?_, ?_⟩
    · omega
    · omega
    · intro b hb
      omega

theorem le_extend {code b : Nat} (h : 2 ≤ code) : 0x80 ≤ extend code b := by
  unfold extend
  omega

theorem isTail_lowerByte (b : UInt8) : isTail (lowerByte b).toNat = isTail b.toNat := by
  induction b using byte_cases with
  | hascii code hcode => revert code; decide
  | hother b hb => rw [lowerByte_eq_self hb]

theorem lowerByte_of_isTail {b : UInt8} (h : ¬ (!isTail b.toNat) = true) : lowerByte b = b := by
  rw [Bool.not_eq_true, Bool.not_eq_false', isTail, Bool.and_eq_true, decide_eq_true_eq] at h
  exact lowerByte_eq_self h.1

section lead

variable {first : Nat} {lead : Lead} {b : UInt8}

theorem lowerByte_of_fit (hlead : lead? first = some lead) (h : ¬ (b.toNat < lead.low ∨ lead.high < b.toNat)) :
    lowerByte b = b := by
  have hlow := (lead?_bounds hlead).1
  exact lowerByte_eq_self (by omega)

/-- a second byte that does not fit is none that would fit if it were folded -/
theorem misfit_lowerByte (hlead : lead? first = some lead) (h : b.toNat < lead.low ∨ lead.high < b.toNat) :
    (lowerByte b).toNat < lead.low ∨ lead.high < (lowerByte b).toNat := by
  have hlow := (lead?_bounds hlead).1
  by_cases hb : b.toNat < 0x80
  · have hfolded := (lowerByte_lt_iff b).2 hb
    omega
  · rwa [lowerByte_eq_self (by omega)]

/-- two bytes that fit together put the character beyond ASCII, and a third one the more -/
theorem le_extend_of_fit (hlead : lead? first = some lead) (h : ¬ (b.toNat < lead.low ∨ lead.high < b.toNat))
    (c : Nat) : 0x80 ≤ extend (extend lead.bits b.toNat) c :=
  le_extend ((lead?_bounds hlead).2.2 b.toNat (by omega))

end lead

theorem map_cons_map {c d : Char} (h : c.toLower = d) (x : Except Fault (List Char)) :
    (x.map (List.map Char.toLower)).map (d :: ·) = (x.map (c :: ·)).map (List.map Char.toLower) := by
  subst h
  cases x <;> rfl

/-- the same bytes are ill-formed, and folded bytes spell folded characters -/
theorem decodeFrom_map (index : Nat) (bytes : List UInt8) :
    decodeFrom index (bytes.map lowerByte) = (decodeFrom index bytes).map (List.map Char.toLower) := by
  fun_induction decodeFrom index bytes with
  | case1 index => rfl
  | case2 index a rest ha ih =>
    rw [List.map_cons, decodeFrom.eq_def]
    simp only [(lowerByte_lt_iff a).2 ha, if_true, ih]
    exact map_cons_map (ofNat_lowerByte ha).symm _
  | case3 index a rest ha hlead =>
    rw [List.map_cons, lowerByte_eq_self (by omega), decodeFrom.eq_def]
    simp only [if_neg ha, hlead]
    rfl
  | case4 index a ha lead hlead =>
    rw [List.map_cons, lowerByte_eq_self (by omega), decodeFrom.eq_def]
    simp only [if_neg ha, hlead, List.map_nil]
    rfl
  | case5 index a ha lead b rest hlead hmisfit =>
    rw [List.map_cons, lowerByte_eq_self (by omega), decodeFrom.eq_def]
    simp only [if_neg ha, hlead, List.map_cons, if_pos (misfit_lowerByte hlead hmisfit)]
    rfl
  | case6 index a ha lead b rest hlead hfit htails ih =>
    have hcode : 0x80 ≤ extend lead.bits b.toNat := le_extend ((lead?_bounds hlead).2.1 htails)
    rw [List.map_cons, lowerByte_eq_self (by omega), decodeFrom.eq_def]
    simp only [if_neg ha, hlead, List.map_cons, lowerByte_of_fit hlead hfit, if_neg hfit, if_pos htails, ih]
    exact map_cons_map (ofNat_toLower hcode) _
  | case7 index a ha lead b hlead hfit htails =>
    rw [List.map_cons, lowerByte_eq_self (by omega), decodeFrom.eq_def]
    simp only [if_neg ha, hlead, List.map_cons, List.map_nil, lowerByte_of_fit hlead hfit, if_neg hfit, if_neg htails]
    rfl
  | case8 index a ha lead b hlead hfit htails c rest hc =>
    rw [List.map_cons, lowerByte_eq_self (by omega), decodeFrom.eq_def]
    simp only [if_neg ha, hlead, List.map_cons, lowerByte_of_fit hlead hfit, if_neg hfit, if_neg htails,
      isTail_lowerByte, if_pos hc]
    rfl
  | case9 index a ha lead b hlead hfit htails c rest hc htails' ih =>
    rw [List.map_cons, lowerByte_eq_self (by omega), decodeFrom.eq_def]
    simp only [if_neg ha, hlead, List.map_cons, lowerByte_of_fit hlead hfit, if_neg hfit, if_neg htails,
      lowerByte_of_isTail hc, if_neg hc, if_pos htails', ih]
    exact map_cons_map (ofNat_toLower (le_extend_of_fit hlead hfit _)) _
  | case10 index a ha lead b hlead hfit htails c hc htails' =>
    rw [List.map_cons, lowerByte_eq_self (by omega), decodeFrom.eq_def]
    simp only [if_neg ha, hlead, List.map_cons, List.map_nil, lowerByte_of_fit hlead hfit, if_neg hfit, if_neg htails,
      lowerByte_of_isTail hc, if_neg hc, if_neg htails']
    rfl
  | case11 index a ha lead b hlead hfit htails c hc htails' d rest hd =>
    rw [List.map_cons, lowerByte_eq_self (by omega), decodeFrom.eq_def]
    simp only [if_neg ha, hlead, List.map_cons, lowerByte_of_fit hlead hfit, if_neg hfit, if_neg htails,
      lowerByte_of_isTail hc, if_neg hc, if_neg htails', isTail_lowerByte, if_pos hd]
    rfl
  | case12 index a ha lead b hlead hfit htails c hc htails' d rest hd code ih =>
    have hcode : 2 ≤ extend (extend lead.bits b.toNat) c.toNat := le_trans (by decide) (le_extend_of_fit hlead hfit _)
    rw [List.map_cons, lowerByte_eq_self (by omega), decodeFrom.eq_def]
    simp only [if_neg ha, hlead, List.map_cons, lowerByte_of_fit hlead hfit, if_neg hfit, if_neg htails,
      lowerByte_of_isTail hc, if_neg hc, if_neg htails', lowerByte_of_isTail hd, if_neg hd, ih]
    exact map_cons_map (ofNat_toLower (le_extend hcode)) _

theorem decode_map (bytes : List UInt8) : decode (bytes.map lowerByte) = (decode bytes).map String.toLower := by
  rw [decode, decode, decodeFrom_map]
  cases decodeFrom 0 bytes with
  | error fault => rfl
  | ok cs => exact congrArg Except.ok (ofList_map_toLower cs)

end Utf8

namespace Percent

theorem digit?_lowerByte (b : UInt8) : digit? (lowerByte b) = digit? b := by
  induction b using byte_cases with
  | hascii code hcode => revert code; decide
  | hother b hb => rw [lowerByte_eq_self hb]

theorem lowerByte_lowerByte (b : UInt8) : lowerByte (lowerByte b) = lowerByte b := by
  induction b using byte_cases with
  | hascii code hcode => revert code; decide
  | hother b hb => rw [lowerByte_eq_self hb, lowerByte_eq_self hb]

theorem byte?_lowerByte (high low : UInt8) : byte? (lowerByte high) (lowerByte low) = byte? high low := by
  rw [byte?, byte?, digit?_lowerByte, digit?_lowerByte]

theorem lowerByte_eq_mark_iff (b : UInt8) : lowerByte b = mark ↔ b = mark := by
  induction b using byte_cases with
  | hascii code hcode => revert code; decide
  | hother b hb => rw [lowerByte_eq_self hb]

/-- the escapes name the same bytes; a byte that is named may be a letter, so what is decoded is folded again -/
theorem decodeBytes_map (bytes : List UInt8) :
    (decodeBytes (bytes.map lowerByte)).map lowerByte = (decodeBytes bytes).map lowerByte := by
  fun_induction decodeBytes bytes with
  | case1 b c rest byte hbyte ih =>
    have hmark : lowerByte mark = mark := by decide
    rw [List.map_cons, List.map_cons, List.map_cons, decodeBytes, hmark, if_pos rfl]
    simp only [byte?_lowerByte, hbyte, List.map_cons, ih]
  | case2 b c rest hbyte ih =>
    have hmark : lowerByte mark = mark := by decide
    rw [List.map_cons, List.map_cons, List.map_cons, decodeBytes, hmark, if_pos rfl]
    simp only [byte?_lowerByte, hbyte, List.map_cons, hmark]
    simp only [List.map_cons] at ih
    rw [ih]
  | case3 a b c rest ha ih =>
    have ha' : ¬ lowerByte a = mark := mt (lowerByte_eq_mark_iff a).1 ha
    rw [List.map_cons, List.map_cons, List.map_cons, decodeBytes, if_neg ha']
    simp only [List.map_cons, lowerByte_lowerByte]
    simp only [List.map_cons] at ih
    rw [ih]
  | case4 short hshort =>
    rcases short with _ | ⟨a, _ | ⟨b, _ | ⟨c, rest⟩⟩⟩
    · rfl
    · simp [decodeBytes, lowerByte_lowerByte]
    · simp [decodeBytes, lowerByte_lowerByte]
    · exact absurd rfl (hshort a b c rest)

theorem decode_toLower (s : String) : (decode s.toLower).map String.toLower = (decode s).map String.toLower := by
  rw [decode, decode, Utf8.encode_toLower, ← Utf8.decode_map, decodeBytes_map, Utf8.decode_map]

end Percent

end PixelAudit.Text
