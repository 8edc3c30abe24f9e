/-
Rows of decimal digits and the numbers that they denote.

`extended n cs` is the number that the digits of `n` and `cs` denote together; readers of digits compute it from the
front.

Main results: `mul_pow_le_extended` and `extended_lt` (the size of what digits denote), `ofDigits_toDigits` (a number is
denoted by its own digits), `digitChars_cons` (of which the first is no zero).
-/
import PixelAudit.Decimal.Numeral
import PixelAudit.Decimal.Shortest
import Mathlib.Tactic

namespace PixelAudit.Decimal

/-- the number that is denoted when digits are written after those of a number -/
def extended (n : Nat) (digits : List Char) : Nat := digits.foldl (fun n c => n * 10 + digitValue c) n

@[simp] theorem extended_nil (n : Nat) : extended n [] = n := rfl

@[simp] theorem extended_cons (n : Nat) (c : Char) (cs : List Char) :
    extended n (c :: cs) = extended (n * 10 + digitValue c) cs := by
  simp only [extended, List.foldl_cons]

theorem extended_append (n : Nat) (cs ds : List Char) : extended n (cs ++ ds) = extended (extended n cs) ds :=
  List.foldl_append

/-- every further digit moves the number by a power of ten -/
theorem mul_pow_le_extended (n : Nat) (cs : List Char) : n * 10 ^ cs.length ≤ extended n cs := by
  induction cs generalizing n with
  | nil => simp
  | cons c cs ih =>
    refine le_trans ?_ (ih _)
    rw [List.length_cons, pow_succ]
    nlinarith [Nat.zero_le (digitValue c * 10 ^ cs.length)]

theorem digitValue_lt {c : Char} (h : isDigit c = true) : digitValue c < 10 := by
  simp only [isDigit, Bool.and_eq_true, decide_eq_true_eq, Char.le_def, UInt32.le_iff_toNat_le] at h
  have hhigh : c.toNat ≤ 57 := h.2
  have hzero : '0'.toNat = 48 := rfl
  unfold digitValue
  omega

theorem extended_lt {n k : Nat} {cs : List Char} (hcs : ∀ c ∈ cs, isDigit c = true) (hn : n < 10 ^ k) :
    extended n cs < 10 ^ (k + cs.length) := by
  induction cs generalizing n k with
  | nil => exact hn
  | cons c cs ih =>
    have hc := digitValue_lt (hcs c List.mem_cons_self)
    have hnext : n * 10 + digitValue c < 10 ^ (k + 1) := by
      rw [pow_succ]
      omega
    have hlast := ih (fun c hc => hcs c (List.mem_cons_of_mem _ hc)) hnext
    rwa [Nat.add_assoc, Nat.add_comm 1] at hlast

/-! ## The digits of a number -/

theorem ofDigits_toDigits (n : Nat) : ofDigits (Nat.toDigits 10 n) = n := by
  have hfold : ofDigits (Nat.toDigits 10 n) = Nat.ofDigitChars 10 (Nat.toDigits 10 n) 0 := by
    simp only [ofDigits, Nat.ofDigitChars_eq_foldl, digitValue, Nat.mul_comm]
  rw [hfold, Nat.ofDigitChars_ten_toDigits]

theorem isDigit_of_mem_digitChars {n : Nat} {c : Char} (h : c ∈ digitChars n) : isDigit c = true := by
  have hc := Nat.isDigit_of_mem_toDigits (by omega) (le_refl 10) h
  simpa only [isDigit, Char.isDigit, Char.le_def] using hc

/-- the first digit of a positive number is no zero -/
theorem digitChars_cons {n : Nat} (hn : 0 < n) : ∃ c cs, digitChars n = c :: cs ∧ c ≠ '0' := by
  induction n using Nat.strong_induction_on with
  | h n ih =>
    unfold digitChars at ih ⊢
    rcases Nat.lt_or_ge n 10 with hlt | hge
    · refine ⟨Nat.digitChar n, [], Nat.toDigits_of_lt_base hlt, ?_⟩
      interval_cases n <;> decide
    · obtain ⟨c, cs, hcs, hc⟩ := ih (n / 10) (by omega) (by omega)
      exact ⟨c, cs ++ [Nat.digitChar (n % 10)], by rw [Nat.toDigits_of_base_le (by omega) hge, hcs]; rfl, hc⟩

theorem pow_le_of_digitChars {n : Nat} (hn : 0 < n) : 10 ^ ((digitChars n).length - 1) ≤ n := by
  by_contra hlt
  have hlen : (digitChars n).length ≠ 1 := by
    intro hone
    rw [hone] at hlt
    omega
  have hpos : 0 < (digitChars n).length := Nat.length_toDigits_pos
  have hle := (Nat.length_toDigits_le_iff (by omega) (show 0 < (digitChars n).length - 1 by omega)).2 (not_le.1 hlt)
  unfold digitChars at hpos hle
  omega

end PixelAudit.Decimal
