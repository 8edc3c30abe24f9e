/-
Numbers that are written can be read again.

Reading does not give the same number back in every case, since a significand and a power of ten are rounded each on its
own before they are multiplied. What could keep a number from being read at all is an overflow, and there is none: the
digits that were written stand for at most half a unit more than the number, and three roundings do not lift that above
the bound. Only the two greatest numbers are too close to it for this reason; they are read one by one.

Main results: `scaled?_isSome` (digits and a power of ten below the bound make a number), `exists_reads_documentText`
(every number that is written with digits is read as one).
-/
import PixelAudit.Proofs.Decimal.Digits
import PixelAudit.Proofs.Decimal.Rounding
import PixelAudit.Proofs.Document.Readback
import Mathlib.Tactic

namespace PixelAudit.Json

open Decimal Reader
open Decimal.Binary64 (overflow rounding)

/-! ## Digits and a power of ten -/

/-- a significand and a power of ten that make no overflow -/
def Fits (significand : Nat) (exponent : Int) : Prop :=
  exponent < 0 ∨ exponent ≤ 308 ∧ (significand : ℚ) * 10 ^ exponent * rounding ^ 2 < overflow

theorem Fits.of_nonpos {significand : Nat} {exponent : Int} (h : significand < significandLimit) (hle : exponent ≤ 0) :
    Fits significand exponent := by
  rcases hle.lt_or_eq with hlt | rfl
  · exact Or.inl hlt
  · refine Or.inr ⟨by decide, ?_⟩
    have hcast : (significand : ℚ) < 2 ^ 64 := by exact_mod_cast h
    have hpow : (2 : ℚ) ^ 64 ≤ 2 ^ Binary64.maxExponent := by
      rw [← zpow_natCast]
      exact zpow_le_zpow_right₀ one_le_two (by decide)
    unfold overflow rounding
    rw [zpow_zero, mul_one]
    nlinarith

theorem scaled?_isSome (negative : Bool) {significand : Nat} {exponent : Int} (h : Fits significand exponent) :
    (scaled? negative significand exponent).isSome = true := by
  have hle : ¬ 308 < exponent := by rcases h with hneg | ⟨hle, -⟩ <;> omega
  unfold scaled?
  dsimp only
  by_cases hzero : significand = 0
  · rw [if_pos hzero]
    rfl
  rw [if_neg hzero, if_neg hle]
  by_cases hpos : 0 ≤ exponent
  · rw [if_pos hpos]
    lift exponent to ℕ using hpos
    obtain hneg | ⟨-, hlt⟩ := h
    · omega
    have hfinite : ((Binary64.ofNat significand).mul (Binary64.ofNat (10 ^ exponent))).isFinite = true := by
      refine Binary64.isFinite_mul_ofNat (Nat.pos_of_ne_zero hzero) (Nat.pow_pos (by norm_num)) ?_
      push_cast
      exact_mod_cast hlt
    rw [Int.toNat_natCast, Nat.pow_eq, if_pos hfinite]
    rfl
  · rw [if_neg hpos]
    split_ifs <;> rfl

theorem realNumber_ok (negative : Bool) {significand : Nat} {exponent : Int} (h : Fits significand exponent)
    (cs : List Char) : ∃ x, realNumber negative significand exponent cs = .ok (.real x) cs := by
  obtain ⟨x, hx⟩ := Option.isSome_iff_exists.1 (scaled?_isSome negative h)
  exact ⟨x, by rw [realNumber, hx]; rfl⟩

/-! ## Rows of digits -/

/-- what follows a row of digits is no digit -/
def EndsDigits (rest : List Char) : Prop := ∀ c ∈ rest.head?, isDigit c = false

theorem digits_append {ds rest : List Char} (hds : ∀ c ∈ ds, isDigit c = true) (hrest : EndsDigits rest) :
    digits (ds ++ rest) = .ok ds rest := by
  have hstop : rest.takeWhile isDigit = [] ∧ rest.dropWhile isDigit = rest := by
    cases rest with
    | nil => exact ⟨rfl, rfl⟩
    | cons c rest => simp [hrest c rfl]
  simp only [digits, List.takeWhile_append_of_pos hds, List.dropWhile_append_of_pos hds, hstop, List.append_nil]

/-- some digits in front are gathered, and they denote less than the limit -/
theorem gather_eq {n : Nat} (hn : n < significandLimit) (cs : List Char) :
    ∃ kept dropped, cs = kept ++ dropped ∧ gather n cs = (extended n kept, dropped) ∧
      extended n kept < significandLimit := by
  induction cs generalizing n with
  | nil => exact ⟨[], [], rfl, rfl, hn⟩
  | cons c cs ih =>
    unfold gather
    dsimp only
    split_ifs with hnext
    · obtain ⟨kept, dropped, hcs, hgather, hlt⟩ := ih hnext
      exact ⟨c :: kept, dropped, by rw [hcs, List.cons_append], by rw [hgather, extended_cons],
        by rwa [extended_cons]⟩
    · exact ⟨[], c :: cs, rfl, rfl, hn⟩

/-- digits that denote less than the limit are all gathered -/
theorem gather_all {n : Nat} {cs : List Char} (h : extended n cs < significandLimit) :
    gather n cs = (extended n cs, []) := by
  induction cs generalizing n with
  | nil => rfl
  | cons c cs ih =>
    have hle := mul_pow_le_extended (n * 10 + digitValue c) cs
    have hpow : 1 ≤ 10 ^ cs.length := Nat.one_le_pow _ _ (by norm_num)
    rw [extended_cons] at h
    have hnext : n * 10 + digitValue c < significandLimit :=
      lt_of_le_of_lt ((Nat.le_mul_of_pos_right _ hpow).trans hle) h
    unfold gather
    dsimp only
    rw [if_pos hnext, ih h, extended_cons]

/-- the digits of an exponent are read to their end, or are found to be too many -/
theorem exponentDigits_all {n fuel : Nat} {cs : List Char} (hcs : ∀ c ∈ cs, isDigit c = true)
    (hfuel : cs.length < fuel) :
    exponentDigits n fuel cs = .ok (some (extended n cs)) [] ∨
      exponentLimit ≤ extended n cs ∧ ∃ rest, (∀ c ∈ rest, isDigit c = true) ∧
        exponentDigits n fuel cs = .ok none rest := by
  induction cs generalizing n fuel with
  | nil =>
    obtain ⟨fuel, rfl⟩ : ∃ k, fuel = k + 1 := ⟨fuel - 1, by simp at hfuel; omega⟩
    exact Or.inl rfl
  | cons c cs ih =>
    obtain ⟨fuel, rfl⟩ : ∃ k, fuel = k + 1 := ⟨fuel - 1, by simp at hfuel; omega⟩
    have htail : ∀ c ∈ cs, isDigit c = true := fun c hc => hcs c (List.mem_cons_of_mem _ hc)
    have hstep : exponentDigits n (fuel + 1) (c :: cs) =
        if n * 10 + digitValue c < exponentLimit then exponentDigits (n * 10 + digitValue c) fuel cs
        else .ok none cs := by
      rw [exponentDigits, bind_ok (peek_cons c cs)]
      simp only [hcs c List.mem_cons_self, ↓reduceIte]
      rw [bind_ok (bump_cons c cs)]
      split_ifs <;> rfl
    rw [hstep, extended_cons]
    split_ifs with hnext
    · exact ih htail (by simpa using hfuel)
    · have hle := mul_pow_le_extended (n * 10 + digitValue c) cs
      have hpow : 1 ≤ 10 ^ cs.length := Nat.one_le_pow _ _ (by norm_num)
      refine Or.inr ⟨?_, cs, htail, rfl⟩
      exact (not_lt.1 hnext).trans ((Nat.le_mul_of_pos_right _ hpow).trans hle)

/-! ## The parts of a number -/

/-- the digits of an exponent after its sign, and what is made of them -/
theorem exponentValue_eq (negative : Bool) (significand n : Nat) (start : Int) (down : Bool) :
    exponentValue negative significand start down (digitChars n) =
      (do
        match ← exponentDigits 0 ((digitChars n).length + 1) with
        | some n => realNumber negative significand (if down then start - n else start + n)
        | none =>
          if significand ≠ 0 ∧ ¬ down then failHere .numberTooLarge
          else do
            let _ ← digits
            pure (.real (Binary64.zero negative))) (digitChars n) := by
  obtain ⟨c, cs, hcs, hc⟩ := toDigits_cons n
  unfold exponentValue
  rw [digitChars, hcs, bind_ok (peek_cons _ _)]
  dsimp only
  rw [if_pos (by rwa [isDigit_eq])]
  rfl

/-- an exponent that is not too great, after its sign -/
theorem exponentValue_up (negative : Bool) {significand n : Nat} {start : Int} (hn : n < exponentLimit)
    (h : Fits significand (start + n)) :
    ∃ x, exponentValue negative significand start false (digitChars n) = .ok (.real x) [] := by
  have hall : ∀ c ∈ digitChars n, isDigit c = true := fun c hc => isDigit_of_mem_digitChars hc
  have hvalue : extended 0 (digitChars n) = n := ofDigits_toDigits n
  rcases @exponentDigits_all 0 _ _ hall (Nat.lt_succ_self _) with hsome | ⟨hlimit, -⟩
  · obtain ⟨x, hx⟩ := realNumber_ok negative h []
    rw [hvalue] at hsome
    exact ⟨x, by rw [exponentValue_eq, bind_ok hsome, ← hx]; rfl⟩
  · omega

/-- an exponent below zero, after its sign -/
theorem exponentValue_down (negative : Bool) (significand : Nat) {n : Nat} {start : Int} (h : start - n < 0) :
    ∃ x, exponentValue negative significand start true (digitChars n) = .ok (.real x) [] := by
  have hall : ∀ c ∈ digitChars n, isDigit c = true := fun c hc => isDigit_of_mem_digitChars hc
  have hvalue : extended 0 (digitChars n) = n := ofDigits_toDigits n
  rcases @exponentDigits_all 0 _ _ hall (Nat.lt_succ_self _) with hsome | ⟨-, rest, hrest, hnone⟩
  · obtain ⟨x, hx⟩ := @realNumber_ok negative significand _ (Or.inl h) []
    rw [hvalue] at hsome
    exact ⟨x, by rw [exponentValue_eq, bind_ok hsome, ← hx]; rfl⟩
  · refine ⟨Binary64.zero negative, ?_⟩
    have hdigits := @digits_append rest [] hrest (by rintro c ⟨⟩)
    rw [List.append_nil] at hdigits
    rw [exponentValue_eq, bind_ok hnone]
    dsimp only
    rw [if_neg (by simp), bind_ok hdigits]
    rfl

theorem exponentPart_ok (negative : Bool) {significand : Nat} {start leading : Int} (hstart : start ≤ 0)
    (hup : 0 ≤ leading → leading < exponentLimit ∧ Fits significand (start + leading)) :
    ∃ x, exponentPart negative significand start
      ('e' :: (if leading < 0 then '-' else '+') :: digitChars leading.natAbs) = .ok (.real x) [] := by
  unfold exponentPart
  by_cases hneg : leading < 0
  · obtain ⟨x, hx⟩ := @exponentValue_down negative significand leading.natAbs start (by omega)
    rw [if_pos hneg]
    exact ⟨x, hx⟩
  · obtain ⟨hlimit, hfits⟩ := hup (by omega)
    have hn : (leading.natAbs : Int) = leading := by omega
    obtain ⟨x, hx⟩ := @exponentValue_up negative significand leading.natAbs start (by omega) (by rwa [hn])
    rw [if_neg hneg]
    exact ⟨x, hx⟩

/-- the digits after the point, some of which are gathered -/
theorem fractionPart_eq (negative : Bool) {significand : Nat} (hlt : significand < significandLimit) (exponent : Int)
    {ds rest : List Char} (hds : ∀ c ∈ ds, isDigit c = true) (hne : ds ≠ []) (hrest : EndsDigits rest) :
    ∃ kept dropped, ds = kept ++ dropped ∧ extended significand kept < significandLimit ∧
      fractionPart negative significand exponent ('.' :: (ds ++ rest)) =
        exponentOrEnd negative (extended significand kept) (exponent - kept.length) rest := by
  obtain ⟨kept, dropped, hsplit, hgather, hkept⟩ := gather_eq hlt ds
  refine ⟨kept, dropped, hsplit, hkept, ?_⟩
  have hlength : ds.length - dropped.length = kept.length := by
    rw [hsplit, List.length_append, Nat.add_sub_cancel]
  unfold fractionPart
  rw [bind_ok (bump_cons _ _), bind_ok (digits_append hds hrest), if_neg (by simpa using hne)]
  simp only [hgather, hlength]

theorem number_zero (negative : Bool) (rest : List Char) :
    number negative ('0' :: rest) =
      (do
        match ← peek with
        | some c => if isDigit c then failAhead .badNumber else number.after negative 0 0
        | none => number.after negative 0 0) rest := rfl

theorem number_digit (negative : Bool) {c : Char} (hc : c ≠ '0') (hdigit : isDigit c = true) (cs : List Char) :
    number negative (c :: cs) =
      (do
        let ds ← digits
        number.after negative (gather 0 ds).1 (gather 0 ds).2.length) (c :: cs) := by
  unfold number
  rw [bind_ok (peek_cons c cs)]
  refine congrFun ?_ (c :: cs)
  split
  · contradiction
  · rename_i heq
    exact absurd (Option.some.inj heq) hc
  · rename_i heq
    obtain rfl := Option.some.inj heq
    rw [if_pos hdigit]

/-- the digits before the point, of which the first is a zero only if it is the only one -/
theorem number_whole (negative : Bool) {c : Char} {cs rest : List Char} (hds : ∀ d ∈ c :: cs, isDigit d = true)
    (hzero : c = '0' → cs = []) (hlt : extended 0 (c :: cs) < significandLimit) (hrest : EndsDigits rest) :
    number negative (c :: cs ++ rest) = number.after negative (extended 0 (c :: cs)) 0 rest := by
  by_cases hc : c = '0'
  · obtain rfl := hzero hc
    subst hc
    rw [List.cons_append, number_zero]
    cases rest with
    | nil => rfl
    | cons d rest =>
      have hd : isDigit d = false := hrest d rfl
      rw [List.nil_append, bind_ok (peek_cons _ _)]
      simp only [hd]
      rfl
  · have hdigits := digits_append hds hrest
    rw [List.cons_append] at hdigits ⊢
    rw [number_digit negative hc (hds c List.mem_cons_self), bind_ok hdigits, gather_all hlt]
    rfl

/-! ## Numbers as they are written -/

theorem endsDigits_nil : EndsDigits [] := by
  rintro d ⟨⟩

theorem endsDigits_cons {c : Char} (hc : isDigit c = false) (cs : List Char) : EndsDigits (c :: cs) := by
  rintro d ⟨⟩
  exact hc

theorem extended_lt_limit {cs : List Char} (hcs : ∀ c ∈ cs, isDigit c = true) (hlength : cs.length ≤ 19) :
    extended 0 cs < significandLimit := by
  have hlt := @extended_lt 0 0 cs hcs (by norm_num)
  have hpow : 10 ^ (0 + cs.length) ≤ 10 ^ 19 := Nat.pow_le_pow_right (by norm_num) (by omega)
  exact lt_of_lt_of_le hlt (hpow.trans (by decide))

/-- digits on both sides of a point -/
theorem number_point (negative : Bool) {c : Char} {cs ds : List Char} (hcs : ∀ d ∈ c :: cs, isDigit d = true)
    (hzero : c = '0' → cs = []) (hlength : (c :: cs).length ≤ 19) (hds : ∀ d ∈ ds, isDigit d = true) (hne : ds ≠ []) :
    ∃ x, number negative (c :: cs ++ '.' :: ds) = .ok (.real x) [] := by
  have hlt := extended_lt_limit hcs hlength
  obtain ⟨kept, dropped, -, hkept, hfraction⟩ := fractionPart_eq negative hlt 0 hds hne endsDigits_nil
  obtain ⟨x, hx⟩ := realNumber_ok negative (Fits.of_nonpos hkept (by omega : (0 : Int) - kept.length ≤ 0)) []
  rw [List.append_nil] at hfraction
  have hafter : number.after negative (extended 0 (c :: cs)) 0 ('.' :: ds) = _ := hfraction
  exact ⟨x, by rw [number_whole negative hcs hzero hlt (endsDigits_cons (by decide) ds), hafter, ← hx]; rfl⟩

/-- a positional text whose first digit is a zero only if it is the only one -/
theorem number_positional (negative : Bool) {c : Char} {cs : List Char} (hcs : ∀ d ∈ c :: cs, isDigit d = true)
    {exponent : Int} (hzero : c = '0' → cs = [] ∧ exponent = 0) (hleading : exponent + cs.length ≤ 15) :
    ∃ x, number negative (positional (c :: cs) exponent ".0").toList = .ok (.real x) [] := by
  have hpad : ∀ n, ∀ d ∈ List.replicate n '0', isDigit d = true := by
    intro n d hd
    rw [(List.mem_replicate.1 hd).2]
    decide
  unfold positional
  dsimp only
  split_ifs with hpos hplaces
  · have htext : (String.ofList (c :: cs ++ List.replicate exponent.toNat '0') ++ ".0").toList =
        c :: (cs ++ List.replicate exponent.toNat '0') ++ '.' :: ['0'] := by simp
    rw [htext]
    refine number_point negative ?_ ?_ ?_ (List.forall_mem_singleton.2 rfl) (List.cons_ne_nil _ _)
    · rw [← List.cons_append]
      exact List.forall_mem_append.2 ⟨hcs, hpad _⟩
    · intro hc
      obtain ⟨rfl, rfl⟩ := hzero hc
      rfl
    · simp only [List.length_cons, List.length_append, List.length_replicate]
      omega
  · obtain ⟨before, hbefore⟩ : ∃ n, (c :: cs).length - (-exponent).toNat = n + 1 :=
      ⟨_, (Nat.succ_pred_eq_of_pos (Nat.sub_pos_of_lt hplaces)).symm⟩
    rw [String.toList_ofList, hbefore, List.take_succ_cons, List.drop_succ_cons]
    rw [List.length_cons] at hbefore
    refine number_point negative ?_ ?_ ?_ ?_ ?_
    · intro d hd
      rw [← List.take_succ_cons] at hd
      exact hcs d (List.mem_of_mem_take hd)
    · intro hc
      rw [(hzero hc).1, List.take_nil]
    · simp only [List.length_cons, List.length_take]
      omega
    · exact fun d hd => hcs d (List.mem_cons_of_mem _ (List.mem_of_mem_drop hd))
    · intro hnil
      have hlen := List.drop_eq_nil_iff.1 hnil
      omega
  · have htext : (String.ofList ('0' :: '.' :: (List.replicate ((-exponent).toNat - (c :: cs).length) '0' ++
        c :: cs))).toList = '0' :: [] ++ '.' :: (List.replicate ((-exponent).toNat - (c :: cs).length) '0' ++
        c :: cs) := by simp
    rw [htext]
    exact number_point negative (List.forall_mem_singleton.2 rfl) (fun _ => rfl) (by decide)
      (List.forall_mem_append.2 ⟨hpad _, hcs⟩) (by simp)

/-- the digits that are gathered and the power of ten that remains are no more than the whole -/
theorem Fits.of_gathered {c : Char} {cs kept dropped : List Char} (hsplit : cs = kept ++ dropped) {d : Nat}
    (hd : extended 0 (c :: cs) = d) {leading : Int} (hle : leading ≤ 308)
    (hbound : (d : ℚ) * 10 ^ (leading - cs.length) * rounding ^ 2 < overflow) :
    Fits (extended (extended 0 [c]) kept) (0 - kept.length + leading) := by
  refine Or.inr ⟨by omega, lt_of_le_of_lt ?_ hbound⟩
  have hmoved : extended (extended 0 [c]) kept * 10 ^ dropped.length ≤ d := by
    rw [← hd]
    simp only [hsplit, extended_cons, extended_nil, extended_append]
    exact mul_pow_le_extended _ _
  have hcast : (extended (extended 0 [c]) kept : ℚ) * 10 ^ dropped.length ≤ d := by exact_mod_cast hmoved
  have hexponent : (10 : ℚ) ^ (0 - (kept.length : Int) + leading) =
      10 ^ dropped.length * 10 ^ (leading - cs.length) := by
    rw [← zpow_natCast, ← zpow_add₀ (by norm_num : (10 : ℚ) ≠ 0), hsplit, List.length_append]
    congr 1
    push_cast
    omega
  rw [hexponent, ← mul_assoc]
  gcongr

/-- a text with an exponent -/
theorem number_scientific (negative : Bool) {d : Nat} {c : Char} {cs : List Char} (hdigits : digitChars d = c :: cs)
    {leading : Int} (hup : 0 ≤ leading →
      leading ≤ 308 ∧ (d : ℚ) * 10 ^ (leading - cs.length) * rounding ^ 2 < overflow) :
    ∃ x, number negative (scientific (c :: cs) leading).toList = .ok (.real x) [] := by
  have hall : ∀ d ∈ c :: cs, isDigit d = true := fun d hd => isDigit_of_mem_digitChars (hdigits ▸ hd)
  have hvalue : extended 0 (c :: cs) = d := by
    rw [← hdigits]
    exact ofDigits_toDigits d
  have hfirst : ∀ d ∈ [c], isDigit d = true := by simpa using hall c List.mem_cons_self
  have hlt := extended_lt_limit hfirst (by simp)
  have hpower : ∀ kept dropped, cs = kept ++ dropped → ∃ x, exponentPart negative (extended (extended 0 [c]) kept)
      (0 - kept.length) ('e' :: (if leading < 0 then '-' else '+') :: digitChars leading.natAbs) =
        .ok (.real x) [] := by
    intro kept dropped hsplit
    refine exponentPart_ok negative (by omega) fun hpos => ?_
    obtain ⟨hle, hbound⟩ := hup hpos
    exact ⟨lt_of_le_of_lt hle (by decide), Fits.of_gathered hsplit hvalue hle hbound⟩
  have hend : EndsDigits ('e' :: (if leading < 0 then '-' else '+') :: digitChars leading.natAbs) :=
    endsDigits_cons (by decide) _
  cases cs with
  | nil =>
    obtain ⟨x, hx⟩ := hpower [] [] rfl
    refine ⟨x, ?_⟩
    rw [scientific, String.toList_ofList, number_whole negative hfirst (fun _ => rfl) hlt hend, ← hx]
    rfl
  | cons d ds =>
    have hrest : ∀ e ∈ d :: ds, isDigit e = true := fun e he => hall e (List.mem_cons_of_mem _ he)
    obtain ⟨kept, dropped, hsplit, -, hfraction⟩ := fractionPart_eq negative hlt 0 hrest (List.cons_ne_nil d ds) hend
    obtain ⟨x, hx⟩ := hpower kept dropped hsplit
    have htext : (scientific (c :: d :: ds) leading).toList = [c] ++ '.' :: (d :: ds ++
        'e' :: (if leading < 0 then '-' else '+') :: digitChars leading.natAbs) := by simp [scientific]
    refine ⟨x, ?_⟩
    rw [htext, number_whole negative hfirst (fun _ => rfl) hlt (endsDigits_cons (by decide) _), ← hx]
    exact hfraction

/-! ## Numbers of 64 bits -/

/-- the text of a number without its sign -/
def Readable (negative : Bool) (text : String) : Prop :=
  (∃ c cs, text.toList = c :: cs ∧ c.isDigit = true) ∧ ∃ x, number negative text.toList = .ok (.real x) []

theorem scalar_digit {c : Char} (hc : c.isDigit = true) : scalar c = number false := by
  have hne : ∀ d : Char, d.isDigit = false → c ≠ d := by
    rintro d hd rfl
    rw [hd] at hc
    cases hc
  unfold scalar
  rw [if_neg (hne 'n' (by decide)), if_neg (hne 't' (by decide)), if_neg (hne 'f' (by decide)),
    if_neg (hne '-' (by decide)), if_pos (by rwa [isDigit_eq])]

/-- a number is read with its sign -/
theorem Readable.ofText {negative : Bool} {text : String} (h : Readable negative text) :
    ∃ x, Decoder.binary64.ofText 0 (signText negative ++ text).toList = .ok x [] := by
  obtain ⟨⟨c, cs, htext, hc⟩, x, hx⟩ := h
  refine ⟨x, ?_⟩
  unfold Decoder.binary64 Decoder.numeric
  cases negative with
  | true =>
    have hsigned : (signText true ++ text).toList = '-' :: text.toList := by simp [signText]
    rw [hsigned]
    refine atPlace_ok ((Decoder.withStart_cons (by decide) _).trans ?_)
    rw [if_pos (Or.inl rfl)]
    exact (bind_ok ((bind_ok (bump_cons _ _)).trans hx)).trans rfl
  | false =>
    have hsigned : (signText false ++ text).toList = c :: cs := by simp [signText, htext]
    rw [hsigned]
    rw [htext] at hx
    refine atPlace_ok ((Decoder.withStart_cons (Opens.of_digit .null (Or.inr hc)).notSpace _).trans ?_)
    rw [if_pos (Or.inr (by rwa [isDigit_eq])), scalar_digit hc]
    exact (bind_ok hx).trans rfl

/-- the digits of a number make no overflow, but for the two greatest numbers -/
theorem readable_shortest (negative : Bool) {m : Nat} {e : Int} (hm : 0 < m)
    (hbound : (m + 1 / 2 : ℚ) * 2 ^ e * rounding ^ 2 < overflow) :
    Readable negative
      (let d := Binary64.shortest m e
       let digits := digitChars d.digits
       let leading : Int := d.exponent + digits.length - 1
       if -5 ≤ leading ∧ leading ≤ 15 then positional digits d.exponent ".0" else scientific digits leading) := by
  dsimp only
  rcases Binary64.shortest_eq_zero_or_pos hm e with hzero | hpos
  · rw [hzero]
    exact ⟨⟨'0', ['.', '0'], rfl, rfl⟩, number_positional negative (List.forall_mem_singleton.2 rfl) (fun _ => ⟨rfl, rfl⟩) (by decide)⟩
  obtain ⟨c, cs, hdigits, hc⟩ := digitChars_cons hpos
  have hall : ∀ d ∈ c :: cs, isDigit d = true := fun d hd => isDigit_of_mem_digitChars (hdigits ▸ hd)
  have hfirst : c.isDigit = true := by rw [← isDigit_eq]; exact hall c List.mem_cons_self
  have hlow := pow_le_of_digitChars hpos
  have hle := Binary64.shortest_le m e
  generalize Binary64.shortest m e = d at *
  rw [hdigits] at hlow ⊢
  rw [List.length_cons] at hlow ⊢
  split_ifs with hleading
  · exact ⟨positional_cons rfl hfirst _ _,
      number_positional negative hall (fun h => absurd h hc) (by push_cast at hleading; omega)⟩
  · obtain ⟨ds, hds⟩ := scientific_cons (rfl : c :: cs = c :: cs) (d.exponent + ((cs.length + 1 : Nat) : Int) - 1)
    refine ⟨⟨c, ds, hds, hfirst⟩, number_scientific negative hdigits fun _ => ?_⟩
    have hexponent : d.exponent + ((cs.length + 1 : Nat) : Int) - 1 - cs.length = d.exponent := by
      push_cast
      omega
    have hbelow : (d.digits : ℚ) * 10 ^ d.exponent * rounding ^ 2 < overflow :=
      lt_of_le_of_lt (mul_le_mul_of_nonneg_right hle (sq_nonneg rounding)) hbound
    refine ⟨?_, by rwa [hexponent]⟩
    have hpower : (10 : ℚ) ^ (d.exponent + ((cs.length + 1 : Nat) : Int) - 1) < 10 ^ (309 : Int) := by
      have hfactor : (10 : ℚ) ^ cs.length ≤ d.digits := by exact_mod_cast hlow
      calc (10 : ℚ) ^ (d.exponent + ((cs.length + 1 : Nat) : Int) - 1) = 10 ^ cs.length * 10 ^ d.exponent := by
            rw [← zpow_natCast, ← zpow_add₀ (by norm_num : (10 : ℚ) ≠ 0)]
            congr 1
            push_cast
            omega
        _ ≤ d.digits * 10 ^ d.exponent := by gcongr
        _ ≤ d.digits * 10 ^ d.exponent * rounding ^ 2 :=
            le_mul_of_one_le_right (by positivity) (one_le_pow₀ Binary64.one_le_rounding)
        _ < overflow := hbelow
        _ ≤ 10 ^ (309 : Int) := Binary64.overflow_le
    have hlt := (zpow_lt_zpow_iff_right₀ (by norm_num : (1 : ℚ) < 10)).1 hpower
    omega

/-- the texts of the two greatest numbers are both read as the greatest -/
theorem reads_greatest : ∀ (s : Bool), ∀ m ∈ [2 ^ 53 - 2, 2 ^ 53 - 1], ∀ h : Binary64.InRange m Binary64.maxExponent,
    Decoder.binary64.ofText 0 (Binary64.finite s m Binary64.maxExponent h).documentText.toList =
      .ok (.finite s (2 ^ 53 - 1) Binary64.maxExponent (by decide)) [] := by
  decide +kernel

/-- a finite number is read from its text as some number -/
theorem exists_reads_documentText {x : Binary64} (hfinite : x.isFinite = true) :
    ∃ y, Decoder.binary64.ofText 0 x.documentText.toList = .ok y [] := by
  obtain ⟨s, m, e, hrange, rfl⟩ := Binary64.exists_of_isFinite hfinite
  rcases Nat.eq_zero_or_pos m with rfl | hpos
  · exact Readable.ofText ⟨⟨'0', ['.', '0'], rfl, rfl⟩,
      @number_positional s '0' [] (List.forall_mem_singleton.2 rfl) 0 (fun _ => ⟨rfl, rfl⟩) (by decide)⟩
  · by_cases hgreatest : m + 3 ≤ 2 ^ 53 ∨ e < Binary64.maxExponent
    · obtain ⟨m, rfl⟩ : ∃ k, m = k + 1 := ⟨m - 1, by omega⟩
      exact (readable_shortest s hpos (Binary64.half_above_lt hrange hgreatest)).ofText
    · have hbits : m < 2 ^ 53 := hrange.bits
      have hmost := hrange.greatest
      obtain rfl : e = Binary64.maxExponent := by omega
      have htwo : m = 2 ^ 53 - 2 ∨ m = 2 ^ 53 - 1 := by omega
      refine ⟨.finite s (2 ^ 53 - 1) Binary64.maxExponent (by decide), ?_⟩
      rcases htwo with rfl | rfl
      · exact reads_greatest s (2 ^ 53 - 2) (by decide) hrange
      · exact reads_greatest s (2 ^ 53 - 1) (by decide) hrange

/-- a finite number is read as some number wherever it stands -/
theorem exists_reads_real {x : Binary64} (hfinite : x.isFinite = true) :
    ∃ y, Decoder.binary64.Reads (.real x) y := by
  obtain ⟨c, cs, hcs, hc⟩ := documentText_cons hfinite
  obtain ⟨y, hy⟩ := exists_reads_documentText hfinite
  exact ⟨y, Decoder.Reads.numeric (fun _ => hcs) hc (by rwa [← hcs])⟩

end PixelAudit.Json
