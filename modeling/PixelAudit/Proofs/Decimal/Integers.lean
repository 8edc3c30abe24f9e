/-
Whole numbers as binary numbers.

A whole number of more than 53 bits is rounded to a multiple of a power of two, its spacing, a tie to the even multiple.
Rounding keeps the order of whole numbers, so it cannot carry one past a number that is represented exactly, but it may
carry it onto one.

Main results: `roundNat_mono` (rounding keeps the order), `roundNat_of_dvd` (numbers that are represented exactly),
`roundInt_near` (how far a number is moved), `IsWhole.roundInt_eq` (a whole binary number stays as it is),
`binary64?_of_int64?` (a text that spells a whole number spells the rounded one).
-/
import PixelAudit.Proofs.Decimal.Digits
import PixelAudit.Proofs.Decimal.Rounding
import PixelAudit.Proofs.Text.AsciiCase
import Mathlib.Data.List.TakeWhile
import Mathlib.Tactic

namespace PixelAudit.Decimal

namespace Binary64

/-! ## Rounded quotients -/

section quotient

variable {num num' den k : Nat}

/-- a quotient is rounded to one of the two integers around it -/
theorem roundQuotient_cases (num den : Nat) :
    roundQuotient num den = num / den ∨ roundQuotient num den = num / den + 1 ∧ 0 < num % den := by
  unfold roundQuotient
  dsimp only
  split_ifs with hlow hhigh heven
  · exact Or.inl rfl
  · exact Or.inr ⟨rfl, by omega⟩
  · exact Or.inl rfl
  · rcases Nat.eq_zero_or_pos (num % den) with hzero | hpos
    · -- a remainder of zero is a tie only if the denominator is zero, and then the quotient is even
      have hden : den = 0 := by omega
      rw [hden, Nat.div_zero] at heven
      exact absurd rfl heven
    · exact Or.inr ⟨rfl, hpos⟩

theorem roundQuotient_mono (h : num ≤ num') : roundQuotient num den ≤ roundQuotient num' den := by
  have hquotient : num / den ≤ num' / den := Nat.div_le_div_right h
  rcases hquotient.lt_or_eq with hlt | heq
  · rcases roundQuotient_cases num den with hr | ⟨hr, -⟩ <;>
      rcases roundQuotient_cases num' den with hr' | ⟨hr', -⟩ <;> omega
  · have hremainder : num % den ≤ num' % den := by
      have hsum := Nat.div_add_mod num den
      have hsum' := Nat.div_add_mod num' den
      rw [heq] at hsum
      omega
    unfold roundQuotient
    rw [heq]
    dsimp only
    split_ifs <;> omega

theorem roundQuotient_mul_of_dvd (h : den ∣ num) : roundQuotient num den * den = num := by
  have hzero : num % den = 0 := Nat.mod_eq_zero_of_dvd h
  have hexact : roundQuotient num den = num / den := by
    rcases roundQuotient_cases num den with heq | ⟨-, hpos⟩
    · exact heq
    · omega
  rw [hexact, Nat.div_mul_cancel h]

/-- a multiple of the denominator is not passed from below -/
theorem roundQuotient_mul_le (hk : den ∣ k) (h : num ≤ k) : roundQuotient num den * den ≤ k :=
  (Nat.mul_le_mul_right den (roundQuotient_mono h)).trans_eq (roundQuotient_mul_of_dvd hk)

/-- nor from above -/
theorem le_roundQuotient_mul (hk : den ∣ k) (h : k ≤ num) : k ≤ roundQuotient num den * den :=
  (roundQuotient_mul_of_dvd hk).symm.trans_le (Nat.mul_le_mul_right den (roundQuotient_mono h))

theorem roundQuotient_near (num : Nat) (hden : 0 < den) :
    2 * (roundQuotient num den * den) ≤ 2 * num + den ∧ 2 * num ≤ 2 * (roundQuotient num den * den) + den := by
  have hsum := Nat.div_add_mod' num den
  have hnext : (num / den + 1) * den = num / den * den + den := Nat.succ_mul _ _
  have hlt := Nat.mod_lt num hden
  unfold roundQuotient
  dsimp only
  split_ifs <;> omega

end quotient

/-! ## Natural numbers -/

/-- the distance of the binary numbers around a natural number, if they are whole -/
def spacing (n : Nat) : Nat := 2 ^ (n.log2 - 52)

/-- the binary number nearest to a natural number -/
def roundNat (n : Nat) : Nat := roundQuotient n (spacing n) * spacing n

theorem spacing_pos (n : Nat) : 0 < spacing n := Nat.pow_pos two_pos

/-- a number of 53 bits with zeros behind them is a multiple of its spacing -/
theorem spacing_dvd {m : Nat} (hm : m < 2 ^ 53) (k : Nat) : spacing (m * 2 ^ k) ∣ m * 2 ^ k := by
  rcases Nat.eq_zero_or_pos m with rfl | hpos
  · rw [zero_mul]
    exact dvd_zero _
  · have hlog : (m * 2 ^ k).log2 < 53 + k := by
      rw [Nat.log2_lt (Nat.mul_pos hpos (Nat.pow_pos two_pos)).ne', pow_add]
      exact Nat.mul_lt_mul_of_pos_right hm (Nat.pow_pos two_pos)
    have hpow : spacing (m * 2 ^ k) ∣ 2 ^ k := pow_dvd_pow 2 (by omega)
    exact hpow.mul_left m

theorem roundNat_of_dvd {n : Nat} (h : spacing n ∣ n) : roundNat n = n := roundQuotient_mul_of_dvd h

/-- 53 bits with zeros behind them are represented exactly -/
theorem roundNat_mul_pow {m : Nat} (hm : m < 2 ^ 53) (k : Nat) : roundNat (m * 2 ^ k) = m * 2 ^ k :=
  roundNat_of_dvd (spacing_dvd hm k)

theorem roundNat_of_lt {n : Nat} (h : n < 2 ^ 53) : roundNat n = n := by
  simpa using roundNat_mul_pow h 0

theorem roundNat_pow (k : Nat) : roundNat (2 ^ k) = 2 ^ k := by
  simpa using roundNat_mul_pow (m := 1) (by norm_num) k

theorem roundNat_mono {a b : Nat} (h : a ≤ b) : roundNat a ≤ roundNat b := by
  rcases Nat.eq_zero_or_pos a with rfl | ha
  · rw [roundNat_of_lt (by norm_num)]
    exact Nat.zero_le _
  have hlog : a.log2 ≤ b.log2 := (Nat.le_log2 (by omega)).2 ((Nat.log2_self_le ha.ne').trans h)
  rcases hlog.lt_or_eq with hlt | heq
  · -- a power of two lies between the two and is a multiple of both spacings
    calc roundNat a ≤ 2 ^ (a.log2 + 1) := roundQuotient_mul_le (pow_dvd_pow 2 (by omega)) Nat.lt_log2_self.le
      _ ≤ 2 ^ b.log2 := Nat.pow_le_pow_right two_pos hlt
      _ ≤ roundNat b := le_roundQuotient_mul (pow_dvd_pow 2 (by omega)) (Nat.log2_self_le (by omega))
  · have hspacing : spacing a = spacing b := by rw [spacing, spacing, heq]
    rw [roundNat, roundNat, hspacing]
    exact Nat.mul_le_mul_right _ (roundQuotient_mono h)

/-- a number is moved by at most half its spacing -/
theorem roundNat_near (n : Nat) : 2 * roundNat n ≤ 2 * n + spacing n ∧ 2 * n ≤ 2 * roundNat n + spacing n :=
  roundQuotient_near n (spacing_pos n)

/-! ## Whole numbers -/

/-- the binary number nearest to a whole number -/
def roundInt (n : Int) : Int := n.sign * roundNat n.natAbs

theorem roundInt_natCast (n : Nat) : roundInt n = roundNat n := by
  rcases Nat.eq_zero_or_pos n with rfl | hn
  · rfl
  · rw [roundInt, Int.sign_natCast_of_ne_zero hn.ne', one_mul, Int.natAbs_natCast]

theorem roundInt_neg (n : Int) : roundInt (-n) = -roundInt n := by
  rw [roundInt, roundInt, Int.sign_neg, Int.natAbs_neg, neg_mul]

theorem roundInt_mono {a b : Int} (h : a ≤ b) : roundInt a ≤ roundInt b := by
  rcases Int.eq_nat_or_neg a with ⟨m, rfl | rfl⟩ <;> rcases Int.eq_nat_or_neg b with ⟨n, rfl | rfl⟩
  · rw [roundInt_natCast, roundInt_natCast]
    exact_mod_cast roundNat_mono (by omega : m ≤ n)
  · obtain ⟨rfl, rfl⟩ : m = 0 ∧ n = 0 := by omega
    exact le_rfl
  · rw [roundInt_neg, roundInt_natCast, roundInt_natCast]
    omega
  · rw [roundInt_neg, roundInt_neg, roundInt_natCast, roundInt_natCast]
    have hle := roundNat_mono (by omega : n ≤ m)
    omega

theorem natAbs_roundInt (n : Int) : (roundInt n).natAbs = roundNat n.natAbs := by
  rcases Int.eq_nat_or_neg n with ⟨m, rfl | rfl⟩
  · rw [roundInt_natCast, Int.natAbs_natCast, Int.natAbs_natCast]
  · rw [roundInt_neg, roundInt_natCast, Int.natAbs_neg, Int.natAbs_neg, Int.natAbs_natCast, Int.natAbs_natCast]

theorem roundInt_of_roundNat {n : Int} (h : roundNat n.natAbs = n.natAbs) : roundInt n = n := by
  rw [roundInt, h, Int.sign_mul_natAbs]

/-- numbers below 2^53 are represented exactly, and no others become one of these -/
theorem eq_of_roundInt_eq {n k : Int} (hk : k.natAbs < 2 ^ 53) (h : roundInt n = k) : n = k := by
  have hn : n.natAbs < 2 ^ 53 := by
    by_contra hge
    have hle := roundNat_mono (not_lt.1 hge)
    rw [roundNat_pow, ← natAbs_roundInt, h] at hle
    omega
  rw [← h, roundInt_of_roundNat (roundNat_of_lt hn)]

/-- a number that is represented exactly is not reached from below, but by a number that is rounded onto it -/
theorem roundInt_lt_iff {n i : Int} (hi : roundInt i = i) : roundInt n < i ↔ n < i ∧ roundInt n ≠ i := by
  constructor
  · intro h
    refine ⟨?_, h.ne⟩
    by_contra hge
    have hle := roundInt_mono (not_lt.1 hge)
    omega
  · rintro ⟨hlt, hne⟩
    have hle := roundInt_mono hlt.le
    omega

theorem lt_roundInt_iff {n i : Int} (hi : roundInt i = i) : i < roundInt n ↔ i < n ∧ roundInt n ≠ i := by
  have hneg := roundInt_lt_iff (n := -n) (i := -i) (by rw [roundInt_neg, hi])
  rw [roundInt_neg] at hneg
  omega

theorem spacing_le {n k : Nat} (h : n < 2 ^ (53 + k)) : spacing n ≤ 2 ^ k := by
  rcases Nat.eq_zero_or_pos n with rfl | hn
  · exact Nat.one_le_two_pow
  · have hlog := (Nat.log2_lt hn.ne').2 h
    exact Nat.pow_le_pow_right two_pos (by omega)

/-- a whole number of 64 bits is moved by at most 512 -/
theorem roundInt_near {n : Int} (hlow : int64Min ≤ n) (hhigh : n ≤ int64Max) : (roundInt n - n).natAbs ≤ 512 := by
  have hmin : int64Min = -2 ^ 63 := rfl
  have hmax : int64Max = 2 ^ 63 - 1 := rfl
  have hnear := roundNat_near n.natAbs
  have hmoved : (roundInt n - n).natAbs * 2 ≤ spacing n.natAbs := by
    rcases Int.eq_nat_or_neg n with ⟨m, rfl | rfl⟩
    · rw [Int.natAbs_natCast] at hnear ⊢
      rw [roundInt_natCast]
      omega
    · rw [Int.natAbs_neg, Int.natAbs_natCast] at hnear ⊢
      rw [roundInt_neg, roundInt_natCast]
      omega
  rcases (show n.natAbs ≤ 2 ^ 63 by omega).lt_or_eq with hlt | heq
  · have hspacing := spacing_le (k := 10) hlt
    omega
  · have hexact : roundInt n = n := roundInt_of_roundNat (by rw [heq, roundNat_pow])
    rw [hexact, sub_self]
    exact Nat.zero_le _

/-! ## Whole binary numbers -/

/-- the number one, in the units of `units` -/
def oneUnits : Nat := 2 ^ 1074

theorem oneUnits_pos : 0 < oneUnits := by
  unfold oneUnits
  positivity

theorem pow_add_oneUnits (k : Nat) : 2 ^ (k + 1074) = 2 ^ k * oneUnits := by
  rw [oneUnits, pow_add]

theorem pow_mul_pow_eq_oneUnits {j k : Nat} (h : j + k = 1074) : 2 ^ j * 2 ^ k = oneUnits := by
  rw [oneUnits, ← h, pow_add]

/-- a number of the format that is finite and has this whole value -/
structure IsWhole (x : Binary64) (i : Int) : Prop where
  finite : x.isFinite = true
  units : x.units = i * oneUnits

theorem units_finite (s : Bool) (m : Nat) (e : Int) (h : InRange m e) : (Binary64.finite s m e h).units =
    if s then -((m * 2 ^ (e - minExponent).toNat : Nat) : Int) else (m * 2 ^ (e - minExponent).toNat : Nat) := by
  simp only [Binary64.units, Nat.pow_eq, Nat.cast_mul]

/-- what is whole already is not moved -/
theorem IsWhole.roundInt_eq {x : Binary64} {i : Int} (h : x.IsWhole i) : roundInt i = i := by
  obtain ⟨s, m, e, hrange, rfl⟩ := exists_of_isFinite h.finite
  have hlow := hrange.least
  have hmin : minExponent = -1074 := rfl
  have hsize : m * 2 ^ (e - minExponent).toNat = i.natAbs * oneUnits := by
    have hunits := congrArg Int.natAbs (h.units.symm.trans (units_finite s m e hrange))
    rw [Int.natAbs_mul, Int.natAbs_natCast] at hunits
    rw [hunits]
    split_ifs <;> simp only [Int.natAbs_neg, Int.natAbs_natCast]
  refine roundInt_of_roundNat ?_
  rcases le_total 0 e with he | he
  · lift e to ℕ using he
    have hexponent : ((e : Int) - minExponent).toNat = e + 1074 := by omega
    rw [hexponent, pow_add_oneUnits, ← mul_assoc] at hsize
    rw [← Nat.eq_of_mul_eq_mul_right oneUnits_pos hsize, roundNat_mul_pow hrange.bits]
  · obtain ⟨k, rfl⟩ : ∃ k : ℕ, e = -k := ⟨(-e).toNat, by omega⟩
    rw [← pow_mul_pow_eq_oneUnits (by omega : k + (-(k : Int) - minExponent).toNat = 1074), ← mul_assoc,
      Nat.mul_left_inj (Nat.pow_pos two_pos).ne'] at hsize
    have hle : i.natAbs ≤ m := by
      rw [hsize]
      exact Nat.le_mul_of_pos_right _ (Nat.pow_pos two_pos)
    exact roundNat_of_lt (hle.trans_lt hrange.bits)

/-- finite numbers with whole values are compared by these -/
theorem lt_iff_of_units {x y : Binary64} {i j : Int} (hx : x.isFinite = true) (hy : y.isFinite = true)
    (hxi : x.units = i * oneUnits) (hyj : y.units = j * oneUnits) : x.lt y = true ↔ i < j := by
  obtain ⟨s, m, d, hm, rfl⟩ := exists_of_isFinite hx
  obtain ⟨t, n, e, hn, rfl⟩ := exists_of_isFinite hy
  rw [lt_iff_units_lt, hxi, hyj]
  exact Int.mul_lt_mul_right (by exact_mod_cast oneUnits_pos)

section bound

variable {x bound : Binary64} {n i : Int}

/-- a rounded number is below a whole bound if the number is and is not rounded onto it -/
theorem IsWhole.below_iff (h : bound.IsWhole i) (hx : x.isFinite = true) (hunits : x.units = roundInt n * oneUnits) :
    x.lt bound = true ↔ n < i ∧ roundInt n ≠ i := by
  rw [lt_iff_of_units hx h.finite hunits h.units, roundInt_lt_iff h.roundInt_eq]

theorem IsWhole.above_iff (h : bound.IsWhole i) (hx : x.isFinite = true) (hunits : x.units = roundInt n * oneUnits) :
    bound.lt x = true ↔ i < n ∧ roundInt n ≠ i := by
  rw [lt_iff_of_units h.finite hx h.units hunits, lt_roundInt_iff h.roundInt_eq]

end bound

/-! ## Rounded whole numbers -/

/-- a whole number has its leading bit at the front of the 53 -/
theorem exponentFor_one {n : Nat} (hn : 0 < n) : exponentFor n 1 = n.log2 - 52 := by
  have hone : Nat.log2 1 = 0 := by decide
  have hleading := Nat.log2_self_le hn.ne'
  have hmin : minExponent = -1074 := rfl
  unfold exponentFor
  simp only [hone, Nat.pow_eq, one_mul, CharP.cast_eq_zero, sub_zero]
  have hbelow : (if 0 ≤ (n.log2 : Int) - 52 then decide (n < 2 ^ ((n.log2 : Int) - 52).toNat * 2 ^ 52)
      else decide (n * 2 ^ (-((n.log2 : Int) - 52)).toNat < 2 ^ 52)) = false := by
    split_ifs with h
    · have hexponent : n.log2 = ((n.log2 : Int) - 52).toNat + 52 := by omega
      rw [hexponent, pow_add] at hleading
      exact decide_eq_false (not_lt.2 hleading)
    · have hexponent : 52 = n.log2 + (-((n.log2 : Int) - 52)).toNat := by omega
      refine decide_eq_false (not_lt.2 ?_)
      calc 2 ^ 52 = 2 ^ n.log2 * 2 ^ (-((n.log2 : Int) - 52)).toNat := by rw [← pow_add, ← hexponent]
        _ ≤ n * 2 ^ (-((n.log2 : Int) - 52)).toNat := Nat.mul_le_mul_right _ hleading
  rw [hbelow, if_neg Bool.false_ne_true]
  omega

/-- there the significand denotes the rounded number -/
theorem significandAt_one (n : Nat) :
    significandAt n 1 (n.log2 - 52) * 2 ^ ((n.log2 : Int) - 52 - minExponent).toNat = roundNat n * oneUnits := by
  have hmin : minExponent = -1074 := rfl
  unfold significandAt
  split_ifs with h
  · have hshift : ((n.log2 : Int) - 52).toNat = n.log2 - 52 := by omega
    have hexponent : ((n.log2 : Int) - 52 - minExponent).toNat = n.log2 - 52 + 1074 := by omega
    rw [hshift, hexponent, one_mul, Nat.pow_eq, pow_add_oneUnits, ← mul_assoc]
    rfl
  · have hspacing : spacing n = 1 := by rw [spacing, Nat.sub_eq_zero_of_le (by omega), pow_zero]
    have hexact : roundNat n = n := roundNat_of_dvd (by rw [hspacing]; exact one_dvd n)
    have hwhole := roundQuotient_mul_of_dvd (one_dvd (n * 2 ^ (-((n.log2 : Int) - 52)).toNat))
    rw [mul_one] at hwhole
    rw [Nat.pow_eq, hwhole, hexact, mul_assoc, pow_mul_pow_eq_oneUnits (by omega)]

/-- a whole number that is not too great is rounded to a finite one -/
theorem ofRatio_one (negative : Bool) {n : Nat} (h : n < 2 ^ 64) : ∃ m e hrange,
    ofRatio negative n 1 = .finite negative m e hrange ∧
      m * 2 ^ (e - minExponent).toNat = roundNat n * oneUnits := by
  rcases Nat.eq_zero_or_pos n with rfl | hn
  · refine ⟨0, minExponent, _, rfl, ?_⟩
    rw [roundNat_of_lt (by norm_num), zero_mul, zero_mul]
  have hlog : n.log2 < 64 := (Nat.log2_lt hn.ne').2 h
  have hmin : minExponent = -1074 := rfl
  have hmax : maxExponent = 971 := rfl
  have hsize := significandAt_one n
  have hbits := significandAt_exponentFor_le n one_pos
  rw [exponentFor_one hn] at hbits
  unfold ofRatio
  rw [if_neg hn.ne', exponentFor_one hn]
  by_cases hcarry : significandAt n 1 (n.log2 - 52) = 2 ^ 53
  · have hrange : InRange (2 ^ 52) ((n.log2 : Int) - 52 + 1) := ⟨by norm_num, by omega, by omega⟩
    refine ⟨2 ^ 52, n.log2 - 52 + 1, hrange, ?_, ?_⟩
    · simp only [Nat.pow_eq, if_pos hcarry]
      exact dif_pos hrange
    · have hexponent :
          ((n.log2 : Int) - 52 + 1 - minExponent).toNat = ((n.log2 : Int) - 52 - minExponent).toNat + 1 := by
        omega
      rw [← hsize, hcarry, hexponent, pow_succ]
      ring
  · have hrange : InRange (significandAt n 1 (n.log2 - 52)) ((n.log2 : Int) - 52) :=
      ⟨lt_of_le_of_ne hbits hcarry, by omega, by omega⟩
    refine ⟨_, _, hrange, ?_, hsize⟩
    simp only [Nat.pow_eq, if_neg hcarry]
    exact dif_pos hrange

theorem ofDecimal_zero (negative : Bool) {n : Nat} (h : n < 2 ^ 64) : ∃ m e hrange,
    ofDecimal negative n 0 = .finite negative m e hrange ∧
      m * 2 ^ (e - minExponent).toNat = roundNat n * oneUnits := by
  rcases Nat.eq_zero_or_pos n with rfl | hn
  · exact ofRatio_one negative h
  have hlog : n.log2 < 64 := (Nat.log2_lt hn.ne').2 h
  have hsame : ofDecimal negative n 0 = ofRatio negative n 1 := by
    have hgreat : ¬ 400 < (n.log2 : Int) * 30103 / 100000 + 0 := by omega
    have hsmall : ¬ (n.log2 : Int) * 30103 / 100000 + 0 < -400 := by omega
    unfold ofDecimal
    rw [if_neg hn.ne']
    simp only [if_neg hgreat, if_neg hsmall, le_refl, if_true, Int.toNat_zero, Nat.pow_eq, pow_zero, mul_one]
  rw [hsame]
  exact ofRatio_one negative h

end Binary64

/-! ## Texts -/

/-- a whole number is written with digits behind its sign -/
theorem exists_digits_of_int64? {s : String} {n : Int} (h : int64? s = some n) : ∃ negative cs,
    takeSign s.toList = (negative, cs) ∧ cs ≠ [] ∧ (∀ c ∈ cs, isDigit c = true) ∧
      n = (if negative then -(ofDigits cs : Int) else ofDigits cs) ∧ int64Min ≤ n ∧ n ≤ int64Max := by
  unfold int64? at h
  generalize takeSign s.toList = parts at h ⊢
  obtain ⟨negative, cs⟩ := parts
  dsimp only at h
  cases hk : digits? cs with
  | none =>
    rw [hk] at h
    cases h
  | some k =>
    have hdigits : cs ≠ [] ∧ (∀ c ∈ cs, isDigit c = true) ∧ ofDigits cs = k := by
      unfold digits? at hk
      split_ifs at hk with hdigits
      simp only [Bool.or_eq_true, List.isEmpty_iff, Bool.not_eq_true', not_or, Bool.not_eq_false, List.all_eq_true]
        at hdigits
      exact ⟨hdigits.1, hdigits.2, Option.some.inj hk⟩
    obtain ⟨hne, hall, rfl⟩ := hdigits
    rw [hk] at h
    dsimp only at h
    generalize hvalue : (if negative = true then -(ofDigits cs : Int) else ofDigits cs) = value at h
    split_ifs at h with hbounds
    obtain rfl := Option.some.inj h
    exact ⟨negative, cs, rfl, hne, hall, hvalue.symm, hbounds.1, hbounds.2⟩

theorem takeSign_of_digits {cs : List Char} (h : ∀ c ∈ cs, isDigit c = true) : takeSign cs = (false, cs) := by
  unfold takeSign
  split
  · exact absurd (h '+' List.mem_cons_self) (by decide)
  · exact absurd (h '-' List.mem_cons_self) (by decide)
  · rfl

/-- every whole number of 64 bits is spelled by some text -/
theorem exists_int64? {n : Int} (hlow : int64Min ≤ n) (hhigh : n ≤ int64Max) : ∃ s, int64? s = some n := by
  have hdigits : digits? (digitChars n.natAbs) = some n.natAbs := by
    have hne : digitChars n.natAbs ≠ [] := Nat.toDigits_ne_nil
    have hall : ∀ c ∈ digitChars n.natAbs, isDigit c = true := fun c => isDigit_of_mem_digitChars
    have hvalue : ofDigits (digitChars n.natAbs) = n.natAbs := ofDigits_toDigits _
    rw [digits?, if_neg, hvalue]
    simpa [hne] using hall
  rcases lt_or_ge n 0 with hneg | hpos
  · refine ⟨String.ofList ('-' :: digitChars n.natAbs), ?_⟩
    have hn : -(n.natAbs : Int) = n := by omega
    simp only [int64?, String.toList_ofList, takeSign, hdigits, if_true, hn, if_pos (And.intro hlow hhigh)]
  · refine ⟨String.ofList (digitChars n.natAbs), ?_⟩
    have hn : (n.natAbs : Int) = n := by omega
    simp only [int64?, String.toList_ofList, takeSign_of_digits fun c => isDigit_of_mem_digitChars, hdigits,
      Bool.false_eq_true, if_false, hn, if_pos (And.intro hlow hhigh)]

/-- digits are no word for infinity or not-a-number -/
theorem specialWord?_of_digits (negative : Bool) {cs : List Char} (h : ∀ c ∈ cs, isDigit c = true) :
    specialWord? negative cs = none := by
  -- an n is in all of these words
  have hword : ∀ word : String, 'n' ∈ word.toList → String.ofList (cs.map Char.toLower) ≠ word := by
    rintro word hn rfl
    rw [String.toList_ofList] at hn
    obtain ⟨c, hc, hlower⟩ := List.mem_map.1 hn
    have hdigit := Text.isDigit_toLower c
    rw [hlower, h c hc] at hdigit
    exact absurd hdigit (by decide)
  unfold specialWord?
  rw [if_neg (not_or.2 ⟨hword "inf" (by decide), hword "infinity" (by decide)⟩), if_neg (hword "nan" (by decide))]

theorem unsignedBinary64?_of_digits (negative : Bool) {cs : List Char} (hne : cs ≠ [])
    (h : ∀ c ∈ cs, isDigit c = true) :
    unsignedBinary64? negative cs = some (Binary64.ofDecimal negative (ofDigits cs) 0) := by
  have hspan : cs.span isDigit = (cs, []) := by
    rw [List.span_eq_takeWhile_dropWhile, List.takeWhile_eq_self_iff.2 h, List.dropWhile_eq_nil_iff.2 h]
  have hempty : cs.isEmpty = false := List.isEmpty_eq_false_iff.2 hne
  unfold unsignedBinary64?
  rw [hspan]
  simp only [hempty, Bool.false_and, Bool.false_eq_true, if_false, exponentPart?, Option.map_some, List.append_nil,
    List.length_nil, Nat.cast_zero, sub_zero]

/-- a text that spells a whole number of 64 bits spells, as a binary number, the rounded one -/
theorem binary64?_of_int64? {s : String} {n : Int} (h : int64? s = some n) :
    ∃ x, binary64? s = some x ∧ x.isFinite = true ∧ x.units = Binary64.roundInt n * Binary64.oneUnits := by
  obtain ⟨negative, cs, hsign, hne, hdigits, hn, hlow, hhigh⟩ := exists_digits_of_int64? h
  have hmin : int64Min = -2 ^ 63 := rfl
  have hmax : int64Max = 2 ^ 63 - 1 := rfl
  have hsmall : ofDigits cs < 2 ^ 64 := by
    rw [hn] at hlow hhigh
    split_ifs at hlow hhigh <;> omega
  obtain ⟨m, e, hrange, hx, hsize⟩ := Binary64.ofDecimal_zero negative hsmall
  refine ⟨.finite negative m e hrange, ?_, rfl, ?_⟩
  · simp only [binary64?, hsign, specialWord?_of_digits negative hdigits,
      unsignedBinary64?_of_digits negative hne hdigits, hx]
  · rw [Binary64.units_finite, hsize, hn]
    cases negative
    · simp only [Bool.false_eq_true, if_false, Binary64.roundInt_natCast, Nat.cast_mul]
    · simp only [if_true, Binary64.roundInt_neg, Binary64.roundInt_natCast, Nat.cast_mul, neg_mul]

end PixelAudit.Decimal
