/-
Bounds on rounded numbers.

The magnitude of a number is a rational, and rounding adds at most half a unit of the last place to it. A quotient is
rounded to an infinite number only from the bound `overflow` on, which lies half a unit above the greatest finite number.

Main results: `isFinite_ofRatio` (below that bound rounding stays finite), `magnitude_ofRatio_le` (what rounding adds),
`isFinite_mul` (products below the bound are finite), `shortest_le` (the shortest digits of a number stand for less than
half a unit more than the number).
-/
import PixelAudit.Decimal.Shortest
import Mathlib.Tactic

namespace PixelAudit.Decimal.Binary64

/-- the value of a finite number without its sign -/
def magnitude : Binary64 → ℚ
  | .finite _ m e _ => m * 2 ^ e
  | _ => 0

@[simp] theorem magnitude_finite (s : Bool) (m : Nat) (e : Int) (h : InRange m e) :
    (finite s m e h).magnitude = m * 2 ^ e := rfl

@[simp] theorem magnitude_infinite (s : Bool) : (infinite s).magnitude = 0 := rfl

/-- from here on numbers are rounded to infinity -/
def overflow : ℚ := (2 ^ 53 - 1 / 2) * 2 ^ maxExponent

theorem overflow_le : overflow ≤ 10 ^ (309 : Int) := by
  have hnat : (2 : Nat) ^ 53 * 2 ^ 971 ≤ 10 ^ 309 := by decide +kernel
  have hcast : (2 : ℚ) ^ 53 * 2 ^ 971 ≤ 10 ^ 309 := by exact_mod_cast hnat
  have hunit : (0 : ℚ) < 2 ^ maxExponent := by positivity
  have hpow : (2 : ℚ) ^ maxExponent = 2 ^ 971 := zpow_natCast 2 971
  have hten : (10 : ℚ) ^ (309 : Int) = 10 ^ 309 := zpow_natCast 10 309
  rw [← hpow] at hcast
  rw [hten]
  refine le_trans ?_ hcast
  unfold overflow
  exact mul_le_mul_of_nonneg_right (by norm_num) hunit.le

/-- one rounding multiplies a number of normal size by no more than this -/
def rounding : ℚ := 1 + 1 / 2 ^ 53

/-- a power of integer exponent by two natural ones, one of which is zero -/
theorem zpow_mul_pow {b : ℚ} (hb : b ≠ 0) (k : ℤ) : b ^ k * b ^ (-k).toNat = b ^ k.toNat := by
  rcases le_total 0 k with hk | hk
  · lift k to ℕ using hk
    simp
  · obtain ⟨n, rfl⟩ : ∃ n : ℕ, k = -n := ⟨(-k).toNat, by omega⟩
    simp [hb]

/-! ## Quotients -/

theorem roundQuotient_le (num : Nat) {den : Nat} (hden : 0 < den) :
    (roundQuotient num den : ℚ) ≤ num / den + 1 / 2 := by
  have hpos : (0 : ℚ) < den := by exact_mod_cast hden
  have hup : 2 * (roundQuotient num den * den) ≤ 2 * num + den := by
    have hdiv := Nat.div_add_mod' num den
    have hnext : (num / den + 1) * den = num / den * den + den := Nat.succ_mul _ _
    unfold roundQuotient
    dsimp only
    split_ifs <;> omega
  have hcast : 2 * ((roundQuotient num den : ℚ) * den) ≤ 2 * num + den := by exact_mod_cast hup
  have hsplit : (num : ℚ) / den * den = num := div_mul_cancel₀ _ hpos.ne'
  nlinarith

variable {num den : Nat}

/-- a power of two is put on one side of a quotient or on the other -/
theorem significandAt_eq (num den : Nat) (e : ℤ) :
    significandAt num den e = roundQuotient (num * 2 ^ (-e).toNat) (den * 2 ^ e.toNat) := by
  unfold significandAt
  simp only [Nat.pow_eq]
  split_ifs with he
  · rw [Int.toNat_of_nonpos (by omega : -e ≤ 0), pow_zero, mul_one]
  · rw [Int.toNat_of_nonpos (by omega : e ≤ 0), pow_zero, mul_one]

theorem significandAt_le (hden : 0 < den) (e : ℤ) :
    (significandAt num den e : ℚ) * 2 ^ e ≤ num / den + 2 ^ e / 2 := by
  have hpow : (0 : ℚ) < 2 ^ e := by positivity
  have hscale : (num * 2 ^ (-e).toNat : ℚ) / (den * 2 ^ e.toNat) = num / den / 2 ^ e := by
    rw [← zpow_mul_pow two_ne_zero e]
    field_simp
  have hquot : (significandAt num den e : ℚ) ≤ num / den / 2 ^ e + 1 / 2 := by
    rw [significandAt_eq, ← hscale]
    refine (roundQuotient_le _ (Nat.mul_pos hden (Nat.pow_pos two_pos))).trans_eq ?_
    push_cast
    rfl
  calc (significandAt num den e : ℚ) * 2 ^ e ≤ (num / den / 2 ^ e + 1 / 2) * 2 ^ e := by gcongr
    _ = num / den + 2 ^ e / 2 := by field_simp

/-- a quotient is compared with a multiple of a power of two by whole numbers -/
theorem div_lt_iff_scaled (num : Nat) (hden : 0 < den) (k : Nat) (e : ℤ) :
    (num / den : ℚ) < k * 2 ^ e ↔ num * 2 ^ (-e).toNat < den * 2 ^ e.toNat * k := by
  have hpos : (0 : ℚ) < den := by exact_mod_cast hden
  have hpow : (0 : ℚ) < 2 ^ (-e).toNat := by positivity
  have hscale : (k : ℚ) * 2 ^ e * den * 2 ^ (-e).toNat = den * 2 ^ e.toNat * k := by
    rw [← zpow_mul_pow two_ne_zero e]
    ring
  rw [div_lt_iff₀ hpos, ← mul_lt_mul_iff_left₀ hpow, hscale]
  exact_mod_cast Iff.rfl

/-- the leading bits tell the size of a quotient up to a factor of two -/
theorem le_div_of_log2 (hnum : 0 < num) (hden : 0 < den) :
    (2 : ℚ) ^ ((Nat.log2 num : ℤ) - Nat.log2 den - 1) ≤ num / den := by
  have hpos : (0 : ℚ) < den := by exact_mod_cast hden
  have hn : (2 : ℚ) ^ Nat.log2 num ≤ num := by exact_mod_cast Nat.log2_self_le hnum.ne'
  have hd : (den : ℚ) ≤ 2 ^ (Nat.log2 den + 1) := by exact_mod_cast Nat.lt_log2_self.le
  calc (2 : ℚ) ^ ((Nat.log2 num : ℤ) - Nat.log2 den - 1) = 2 ^ Nat.log2 num / 2 ^ (Nat.log2 den + 1) := by
        rw [sub_sub, zpow_sub₀ two_ne_zero]
        norm_cast
    _ ≤ num / den := div_le_div₀ (by positivity) hn hpos hd

theorem div_lt_of_log2 (hden : 0 < den) :
    (num / den : ℚ) < 2 ^ ((Nat.log2 num : ℤ) - Nat.log2 den + 1) := by
  have hn : (num : ℚ) < 2 ^ (Nat.log2 num + 1) := by exact_mod_cast Nat.lt_log2_self
  have hd : (2 : ℚ) ^ Nat.log2 den ≤ den := by exact_mod_cast Nat.log2_self_le hden.ne'
  calc (num : ℚ) / den < 2 ^ (Nat.log2 num + 1) / 2 ^ Nat.log2 den := by
        refine div_lt_div₀ hn hd (by positivity) (by positivity)
    _ = 2 ^ ((Nat.log2 num : ℤ) - Nat.log2 den + 1) := by
        rw [sub_add_eq_add_sub, zpow_sub₀ two_ne_zero]
        norm_cast

/-- the exponent is guessed from the leading bits, and the guess is one too great or right -/
theorem exponentFor_eq (hden : 0 < den) {guess : ℤ} (hguess : (Nat.log2 num : ℤ) - Nat.log2 den - 52 = guess) :
    exponentFor num den = max minExponent (if (num / den : ℚ) < 2 ^ 52 * 2 ^ guess then guess - 1 else guess) := by
  have hscaled : (num / den : ℚ) < 2 ^ 52 * 2 ^ guess ↔
      num * 2 ^ (-guess).toNat < den * 2 ^ guess.toNat * 2 ^ 52 := by
    rw [← div_lt_iff_scaled num hden (2 ^ 52) guess]
    norm_cast
  have hbelow : (if 0 ≤ guess then decide (num < den * 2 ^ guess.toNat * 2 ^ 52)
      else decide (num * 2 ^ (-guess).toNat < den * 2 ^ 52)) = decide ((num / den : ℚ) < 2 ^ 52 * 2 ^ guess) := by
    simp only [hscaled]
    split_ifs with hsign
    · simp only [Int.toNat_of_nonpos (by omega : -guess ≤ 0), pow_zero, mul_one]
    · simp only [Int.toNat_of_nonpos (by omega : guess ≤ 0), pow_zero, mul_one]
  unfold exponentFor
  simp only [hguess, Nat.pow_eq, hbelow, decide_eq_true_eq]

/-- a normal exponent leaves 53 bits before the point -/
theorem le_of_exponentFor (hnum : 0 < num) (hden : 0 < den) (h : minExponent < exponentFor num den) :
    (2 : ℚ) ^ 52 * 2 ^ exponentFor num den ≤ num / den := by
  rw [exponentFor_eq hden rfl] at h ⊢
  rw [max_eq_right ((lt_max_iff.1 h).resolve_left (lt_irrefl _)).le]
  split_ifs with hlt
  · rw [← zpow_natCast, ← zpow_add₀ two_ne_zero]
    convert le_div_of_log2 hnum hden using 2
    push_cast
    omega
  · exact not_lt.1 hlt

/-- and no exponent leaves more -/
theorem lt_of_exponentFor (hden : 0 < den) :
    (num / den : ℚ) < 2 ^ 53 * 2 ^ exponentFor num den := by
  rw [exponentFor_eq hden rfl]
  generalize hguess : (Nat.log2 num : ℤ) - Nat.log2 den - 52 = guess
  have hsize : (num / den : ℚ) < 2 ^ 53 * 2 ^ (if (num / den : ℚ) < 2 ^ 52 * 2 ^ guess then guess - 1 else guess) := by
    split_ifs with hlt
    · refine hlt.trans_eq ?_
      rw [zpow_sub_one₀ two_ne_zero]
      ring
    · refine (div_lt_of_log2 hden).trans_eq ?_
      rw [← zpow_natCast, ← zpow_add₀ two_ne_zero]
      congr 1
      push_cast
      omega
  refine hsize.trans_le ?_
  gcongr
  · exact one_le_two
  · exact le_max_right _ _

/-- what is rounded at the exponent of a quotient has 53 bits, or is carried to the next power of two -/
theorem significandAt_exponentFor_le (num : Nat) (hden : 0 < den) :
    significandAt num den (exponentFor num den) ≤ 2 ^ 53 := by
  have hlt := @lt_of_exponentFor num den hden
  generalize exponentFor num den = e at hlt ⊢
  have hscaled : num * 2 ^ (-e).toNat < den * 2 ^ e.toNat * 2 ^ 53 := by
    rw [← div_lt_iff_scaled num hden (2 ^ 53) e]
    exact_mod_cast hlt
  have hdiv := Nat.div_lt_of_lt_mul hscaled
  rw [significandAt_eq]
  generalize num * 2 ^ (-e).toNat = a at hdiv ⊢
  generalize den * 2 ^ e.toNat = b at hdiv ⊢
  unfold roundQuotient
  dsimp only
  split_ifs <;> omega

/-- a quotient that is not small has a normal exponent -/
theorem le_of_one_le (hnum : 0 < num) (hden : 0 < den) (h : (1 : ℚ) ≤ num / den) :
    (2 : ℚ) ^ 52 * 2 ^ exponentFor num den ≤ num / den := by
  have hmin : minExponent ≤ exponentFor num den := le_max_left _ _
  rcases hmin.lt_or_eq with hlt | heq
  · exact le_of_exponentFor hnum hden hlt
  · rw [← heq]
    refine le_trans ?_ h
    rw [← zpow_natCast, ← zpow_add₀ two_ne_zero]
    exact zpow_le_one_of_nonpos₀ one_le_two (by decide)

/-! ## Rounded quotients -/

/-- a quotient is rounded at its exponent, unless it is too great -/
theorem ofRatio_cases (negative : Bool) (hnum : 0 < num) (hden : 0 < den) :
    (∃ m e h, ofRatio negative num den = .finite negative m e h ∧
      (m : ℚ) * 2 ^ e = significandAt num den (exponentFor num den) * 2 ^ exponentFor num den) ∨
    ofRatio negative num den = .infinite negative ∧ (maxExponent < exponentFor num den ∨
      exponentFor num den = maxExponent ∧ significandAt num den maxExponent = 2 ^ 53) := by
  have hmin : minExponent ≤ exponentFor num den := le_max_left _ _
  have hbits := significandAt_exponentFor_le num hden
  unfold ofRatio
  rw [if_neg hnum.ne']
  generalize exponentFor num den = e at hmin hbits ⊢
  by_cases hcarry : significandAt num den e = 2 ^ 53
  · simp only [Nat.pow_eq, if_pos hcarry]
    rcases lt_or_ge maxExponent (e + 1) with hlt | hle
    · refine Or.inr ⟨dif_neg fun h => absurd h.greatest (not_le.2 hlt), ?_⟩
      rcases (Int.lt_add_one_iff.1 hlt).lt_or_eq with hlt | rfl
      · exact Or.inl hlt
      · exact Or.inr ⟨rfl, hcarry⟩
    · have hrange : InRange (2 ^ 52) (e + 1) := ⟨by norm_num, by omega, hle⟩
      refine Or.inl ⟨2 ^ 52, e + 1, hrange, dif_pos hrange, ?_⟩
      rw [hcarry, zpow_add_one₀ two_ne_zero]
      norm_num
      ring
  · simp only [Nat.pow_eq, if_neg hcarry]
    rcases lt_or_ge maxExponent e with hlt | hle
    · exact Or.inr ⟨dif_neg fun h => absurd h.greatest (not_le.2 hlt), Or.inl hlt⟩
    · have hrange : InRange (significandAt num den e) e := ⟨lt_of_le_of_ne hbits hcarry, hmin, hle⟩
      exact Or.inl ⟨_, e, hrange, dif_pos hrange, rfl⟩

/-- what rounding adds to a quotient of normal size -/
theorem magnitude_ofRatio_le (negative : Bool) (hden : 0 < den) (h : (1 : ℚ) ≤ num / den) :
    (ofRatio negative num den).magnitude ≤ num / den * rounding := by
  have hnum : 0 < num := Nat.pos_of_ne_zero (by
    rintro rfl
    norm_num at h)
  have hnormal := le_of_one_le hnum hden h
  have hsum := @significandAt_le num den hden (exponentFor num den)
  have hrounded : (significandAt num den (exponentFor num den) : ℚ) * 2 ^ exponentFor num den ≤
      num / den * rounding := by
    unfold rounding
    linarith
  rcases ofRatio_cases negative hnum hden with ⟨m, e, h, heq, hsame⟩ | ⟨heq, -⟩
  · rw [heq, magnitude_finite, hsame]
    exact hrounded
  · rw [heq, magnitude_infinite]
    exact le_trans (by positivity) hrounded

/-- below the bound rounding stays finite -/
theorem isFinite_ofRatio (negative : Bool) (hden : 0 < den) (h : (num / den : ℚ) < overflow) :
    (ofRatio negative num den).isFinite = true := by
  rcases Nat.eq_zero_or_pos num with rfl | hnum
  · rfl
  rcases ofRatio_cases negative hnum hden with ⟨m, e, h, heq, -⟩ | ⟨-, hlt | ⟨-, hcarry⟩⟩
  · rw [heq]
    rfl
  · exfalso
    have hmin : minExponent < exponentFor num den := lt_trans (by decide) hlt
    have hnormal := le_of_exponentFor hnum hden hmin
    have hpow : (2 : ℚ) ^ (maxExponent + 1) ≤ 2 ^ exponentFor num den := zpow_le_zpow_right₀ one_le_two hlt
    rw [zpow_add_one₀ two_ne_zero] at hpow
    have hunit : (0 : ℚ) < 2 ^ maxExponent := by positivity
    unfold overflow at h
    linarith
  · exfalso
    have hsum := @significandAt_le num den hden maxExponent
    rw [hcarry] at hsum
    unfold overflow at h
    push_cast at hsum
    linarith

/-! ## Products -/

theorem exists_of_isFinite {x : Binary64} (h : x.isFinite = true) : ∃ s m e hm, x = finite s m e hm := by
  cases x with
  | finite s m e hm => exact ⟨s, m, e, hm, rfl⟩
  | infinite s => cases h
  | nan => cases h

theorem ratio_finite (s : Bool) (m : Nat) (e : Int) (h : InRange m e) : 0 < (finite s m e h).ratio.2 ∧
    ((finite s m e h).ratio.1 : ℚ) / (finite s m e h).ratio.2 = m * 2 ^ e := by
  simp only [ratio]
  split_ifs with he
  · lift e to ℕ using he
    simp
  · obtain ⟨n, rfl⟩ : ∃ n : ℕ, e = -n := ⟨(-e).toNat, by omega⟩
    simp [div_eq_mul_inv]

/-- a product below the bound is finite -/
theorem isFinite_mul {x y : Binary64} (hx : x.isFinite = true) (hy : y.isFinite = true)
    (h : x.magnitude * y.magnitude < overflow) : (x.mul y).isFinite = true := by
  obtain ⟨s, m, e, hm, rfl⟩ := exists_of_isFinite hx
  obtain ⟨t, n, k, hn, rfl⟩ := exists_of_isFinite hy
  obtain ⟨hxden, hxsize⟩ := ratio_finite s m e hm
  obtain ⟨hyden, hysize⟩ := ratio_finite t n k hn
  have hmul : (finite s m e hm).mul (finite t n k hn) =
      ofRatio false ((finite s m e hm).ratio.1 * (finite t n k hn).ratio.1)
        ((finite s m e hm).ratio.2 * (finite t n k hn).ratio.2) := rfl
  rw [hmul]
  refine isFinite_ofRatio false (Nat.mul_pos hxden hyden) ?_
  rw [Nat.cast_mul, Nat.cast_mul]
  rwa [mul_div_mul_comm, hxsize, hysize]

theorem isFinite_ofNat {n : Nat} (h : (n : ℚ) < overflow) : (ofNat n).isFinite = true :=
  isFinite_ofRatio false one_pos (by simpa using h)

theorem magnitude_ofNat_le {n : Nat} (hn : 0 < n) : (ofNat n).magnitude ≤ n * rounding := by
  have hone : (1 : ℚ) ≤ (n : ℚ) / (1 : ℕ) := by
    rw [Nat.cast_one, div_one]
    exact_mod_cast hn
  have hle := magnitude_ofRatio_le false one_pos hone
  rwa [Nat.cast_one, div_one] at hle

theorem magnitude_nonneg (x : Binary64) : 0 ≤ x.magnitude := by
  cases x with
  | finite s m e => rw [magnitude_finite]; positivity
  | infinite s => exact le_rfl
  | nan => exact le_rfl

theorem one_le_rounding : 1 ≤ rounding := by norm_num [rounding]

/-- two whole numbers are rounded and then their product is, and it is finite below the bound -/
theorem isFinite_mul_ofNat {n k : Nat} (hn : 0 < n) (hk : 0 < k) (h : (n * k : ℚ) * rounding ^ 2 < overflow) :
    ((ofNat n).mul (ofNat k)).isFinite = true := by
  have hnone : (1 : ℚ) ≤ n := by exact_mod_cast hn
  have hkone : (1 : ℚ) ≤ k := by exact_mod_cast hk
  have hsquare : 1 ≤ rounding ^ 2 := one_le_pow₀ one_le_rounding
  have hproduct : (n * k : ℚ) < overflow := lt_of_le_of_lt (le_mul_of_one_le_right (by positivity) hsquare) h
  refine isFinite_mul (isFinite_ofNat ?_) (isFinite_ofNat ?_) ?_
  · exact lt_of_le_of_lt (le_mul_of_one_le_right (by positivity) hkone) hproduct
  · exact lt_of_le_of_lt (le_mul_of_one_le_left (by positivity) hnone) hproduct
  · have hle := mul_le_mul (magnitude_ofNat_le hn) (magnitude_ofNat_le hk) (magnitude_nonneg _)
      (by have := one_le_rounding; positivity)
    refine lt_of_le_of_lt (hle.trans_eq ?_) h
    ring

/-! ## The shortest digits -/

/-- the digits and the power of ten stay within the upper end of a neighbourhood -/
theorem Neighbourhood.le_of_holds {n : Neighbourhood} {d : Nat} {k : Int} (h : n.holds d k = true) :
    (d : ℚ) * 10 ^ k ≤ n.high * 2 ^ n.exponent := by
  have hscaled : d * (Nat.pow 10 k.toNat * Nat.pow 2 (-n.exponent).toNat) ≤
      n.high * (Nat.pow 10 (-k).toNat * Nat.pow 2 n.exponent.toNat) := by
    unfold Neighbourhood.holds commonScale at h
    dsimp only at h
    split_ifs at h
    · simpa using (Bool.and_eq_true_iff.1 h).2
    · have hlt := (Bool.and_eq_true_iff.1 h).2
      exact (of_decide_eq_true hlt).le
  have hcast : (d : ℚ) * (10 ^ k.toNat * 2 ^ (-n.exponent).toNat) ≤
      n.high * (10 ^ (-k).toNat * 2 ^ n.exponent.toNat) := by exact_mod_cast hscaled
  have hpos : (0 : ℚ) < 10 ^ (-k).toNat * 2 ^ (-n.exponent).toNat := by positivity
  refine le_of_mul_le_mul_right ?_ hpos
  calc (d : ℚ) * 10 ^ k * (10 ^ (-k).toNat * 2 ^ (-n.exponent).toNat)
      = d * (10 ^ k * 10 ^ (-k).toNat * 2 ^ (-n.exponent).toNat) := by ring
    _ = d * (10 ^ k.toNat * 2 ^ (-n.exponent).toNat) := by rw [zpow_mul_pow (by norm_num)]
    _ ≤ n.high * (10 ^ (-k).toNat * 2 ^ n.exponent.toNat) := hcast
    _ = n.high * 2 ^ n.exponent * (10 ^ (-k).toNat * 2 ^ (-n.exponent).toNat) := by
      rw [← zpow_mul_pow two_ne_zero n.exponent]
      ring

theorem Neighbourhood.holds_of_pick? {n : Neighbourhood} {k : Int} {d : Scaled} (h : n.pick? k = some d) :
    n.holds d.digits d.exponent = true := by
  unfold Neighbourhood.pick? at h
  dsimp only at h
  split at h
  · cases h
  · cases h
    assumption
  · cases h
    assumption
  · split_ifs at h <;> cases h <;> assumption

theorem Neighbourhood.holds_search (n : Neighbourhood) (k : Int) (tries : Nat) :
    n.search k tries = ⟨0, 0⟩ ∨ n.holds (n.search k tries).digits (n.search k tries).exponent = true := by
  induction tries generalizing k with
  | zero => exact Or.inl rfl
  | succ tries ih =>
    unfold Neighbourhood.search
    cases hpick : n.pick? k with
    | some d => exact Or.inr (Neighbourhood.holds_of_pick? hpick)
    | none => exact ih (k - 1)

/-- zero does not lie in the neighbourhood of a positive number -/
theorem pos_of_holds {m d : Nat} {e k : Int} (hm : 0 < m) (h : (neighbourhood m e).holds d k = true) : 0 < d := by
  have hlow : 0 < (neighbourhood m e).low := by
    unfold neighbourhood
    dsimp only
    split_ifs <;> omega
  have hscale : 0 < (commonScale k (neighbourhood m e).exponent).2 :=
    Nat.mul_pos (Nat.pow_pos (by norm_num)) (Nat.pow_pos (by norm_num))
  have hle : (neighbourhood m e).low * (commonScale k (neighbourhood m e).exponent).2 ≤
      d * (commonScale k (neighbourhood m e).exponent).1 := by
    unfold Neighbourhood.holds at h
    dsimp only at h
    split_ifs at h
    · exact of_decide_eq_true (Bool.and_eq_true_iff.1 h).1
    · exact (of_decide_eq_true (Bool.and_eq_true_iff.1 h).1).le
  exact Nat.pos_of_mul_pos_right ((Nat.mul_pos hlow hscale).trans_le hle)

theorem shortest_eq_zero_or_pos {m : Nat} (hm : 0 < m) (e : Int) :
    shortest m e = ⟨0, 0⟩ ∨ 0 < (shortest m e).digits := by
  unfold shortest
  exact ((neighbourhood m e).holds_search _ 40).imp_right (pos_of_holds hm)

/-- the shortest digits stand for at most half a unit more than the number -/
theorem shortest_le (m : Nat) (e : Int) :
    ((shortest m e).digits : ℚ) * 10 ^ (shortest m e).exponent ≤ (m + 1 / 2) * 2 ^ e := by
  unfold shortest
  rcases (neighbourhood m e).holds_search (((Nat.log2 m : Int) + e) * 30103 / 100000 + 2) 40 with hzero | hholds
  · rw [hzero]
    simp only [Nat.cast_zero, zero_mul]
    positivity
  · refine (Neighbourhood.le_of_holds hholds).trans_eq ?_
    simp only [neighbourhood, zpow_sub₀ (two_ne_zero : (2 : ℚ) ≠ 0)]
    push_cast
    norm_num
    ring

/-- half a unit more than a number is far enough from the bound for two roundings, but for the two greatest numbers -/
theorem half_above_lt {m : Nat} {e : Int} (hrange : InRange m e)
    (h : m + 3 ≤ 2 ^ 53 ∨ e < maxExponent) : (m + 1 / 2 : ℚ) * 2 ^ e * rounding ^ 2 < overflow := by
  have hunit : (0 : ℚ) < 2 ^ maxExponent := by positivity
  have hpow : (2 : ℚ) ^ e ≤ 2 ^ maxExponent := zpow_le_zpow_right₀ one_le_two hrange.greatest
  have hhalf : e < maxExponent → (2 : ℚ) ^ e * 2 ≤ 2 ^ maxExponent := by
    intro hlt
    rw [← zpow_add_one₀ two_ne_zero]
    exact zpow_le_zpow_right₀ one_le_two hlt
  have hsquare : 0 < rounding ^ 2 := by unfold rounding; positivity
  unfold overflow
  generalize (2 : ℚ) ^ maxExponent = unit at *
  rcases h with hm | he
  · have hcast : (m : ℚ) + 3 ≤ 2 ^ 53 := by exact_mod_cast hm
    calc (m + 1 / 2 : ℚ) * 2 ^ e * rounding ^ 2 ≤ (2 ^ 53 - 5 / 2) * unit * rounding ^ 2 := by
          gcongr
          linarith
      _ = (2 ^ 53 - 5 / 2) * rounding ^ 2 * unit := by ring
      _ < (2 ^ 53 - 1 / 2) * unit := mul_lt_mul_of_pos_right (by norm_num [rounding]) hunit
  · have hcast : (m : ℚ) + 1 ≤ 2 ^ 53 := by exact_mod_cast hrange.bits
    calc (m + 1 / 2 : ℚ) * 2 ^ e * rounding ^ 2 ≤ 2 ^ 53 * (unit / 2) * rounding ^ 2 := by
          gcongr
          · linarith
          · linarith [hhalf he]
      _ = 2 ^ 52 * rounding ^ 2 * unit := by ring
      _ < (2 ^ 53 - 1 / 2) * unit := mul_lt_mul_of_pos_right (by norm_num [rounding]) hunit

end PixelAudit.Decimal.Binary64
