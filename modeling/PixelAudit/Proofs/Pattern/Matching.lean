/-
Which parts of a text an expression matches.

`Expr.Spans` says it by the structure of the expression: between two places of a text there is a match. The sets of
places that are computed are those that a match leads to: of a repetition without bound only so many rounds are
computed as the text has places, but a match never leads back, and a round that stays where it is can be left out. So
what is found is what is matched somewhere, and between the tests for start and end of the text only the whole of it
is.

Main results: `testBit_ends` (the places that are computed), `foundIn_iff` (what is found), `spans_sequence` (a form
is matched as its items are), `foundIn_anchored_iff` (a form between the tests for start and end).
-/
import PixelAudit.Pattern.Form
import Mathlib.Tactic

namespace PixelAudit.Pattern

open Text (CodeSet)

/-! ## Matches -/

/-- so many steps, one after the other -/
def Steps (R : Nat → Nat → Prop) : Nat → Nat → Nat → Prop
  | 0, i, j => i = j
  | n + 1, i, j => ∃ k, R i k ∧ Steps R n k j

/-- the character before a place -/
def before? (cs : List Char) : Nat → Option Char
  | 0 => none
  | i + 1 => cs[i]?

/-- the expression matches what stands between the two places -/
def Expr.Spans (cs : List Char) : Expr CodeSet Look → Nat → Nat → Prop
  | .empty, i, j => i = j
  | .chars set, i, j => (∃ c, cs[i]? = some c ∧ set.mem c.toNat = true) ∧ i + 1 = j
  | .look test, i, j => (i ≤ cs.length ∧ test.holds (before? cs i) cs[i]? = true) ∧ i = j
  | .seq a b, i, j => ∃ k, a.Spans cs i k ∧ b.Spans cs k j
  | .alt a b, i, j => a.Spans cs i j ∨ b.Spans cs i j
  | .repeated least most body, i, j =>
    ∃ n, least ≤ n ∧ (∀ m ∈ most, n ≤ max least m) ∧ Steps (body.Spans cs) n i j

/-! ## Steps -/

section steps

variable {R : Nat → Nat → Prop} {i j k n m : Nat}

theorem steps_add : Steps R (m + n) i j ↔ ∃ k, Steps R m i k ∧ Steps R n k j := by
  induction m generalizing i with
  | zero =>
    rw [Nat.zero_add]
    constructor
    · intro h
      exact ⟨i, rfl, h⟩
    · rintro ⟨k, rfl, h⟩
      exact h
  | succ m ih =>
    rw [Nat.add_right_comm]
    constructor
    · rintro ⟨l, hil, hlj⟩
      obtain ⟨k, hlk, hkj⟩ := ih.1 hlj
      exact ⟨k, ⟨l, hil, hlk⟩, hkj⟩
    · rintro ⟨k, ⟨l, hil, hlk⟩, hkj⟩
      exact ⟨l, hil, ih.2 ⟨k, hlk, hkj⟩⟩

theorem steps_one : Steps R 1 i j ↔ R i j := by
  constructor
  · rintro ⟨k, hik, rfl⟩
    exact hik
  · intro h
    exact ⟨j, h, rfl⟩

/-- steps that may also stay where they are come to at most as many steps that do not -/
theorem steps_or_stay : Steps (fun i j => i = j ∨ R i j) n i j ↔ ∃ m ≤ n, Steps R m i j := by
  induction n generalizing i with
  | zero =>
    constructor
    · intro h
      exact ⟨0, le_rfl, h⟩
    · rintro ⟨m, hm, h⟩
      obtain rfl := Nat.le_zero.1 hm
      exact h
  | succ n ih =>
    constructor
    · rintro ⟨k, rfl | hik, hkj⟩
      · obtain ⟨m, hm, h⟩ := ih.1 hkj
        exact ⟨m, Nat.le_succ_of_le hm, h⟩
      · obtain ⟨m, hm, h⟩ := ih.1 hkj
        exact ⟨m + 1, Nat.succ_le_succ hm, k, hik, h⟩
    · rintro ⟨m, hm, h⟩
      cases m with
      | zero => exact ⟨i, Or.inl rfl, ih.2 ⟨0, Nat.zero_le n, h⟩⟩
      | succ m =>
        obtain ⟨k, hik, hkj⟩ := h
        exact ⟨k, Or.inr hik, ih.2 ⟨m, Nat.succ_le_succ_iff.1 hm, hkj⟩⟩

/-- steps never lead back, and no step leads past the end -/
def Forward (size : Nat) (R : Nat → Nat → Prop) : Prop := ∀ i j, R i j → i ≤ j ∧ (i < j → j ≤ size)

variable {size : Nat}

theorem Forward.steps (hR : Forward size R) : Forward size (Steps R n) := by
  intro i j h
  induction n generalizing i with
  | zero =>
    obtain rfl : i = j := h
    exact ⟨le_rfl, fun hlt => absurd hlt (lt_irrefl i)⟩
  | succ n ih =>
    obtain ⟨k, hik, hkj⟩ := h
    have hfirst := hR i k hik
    have hrest := ih k hkj
    omega

/-- steps that stay where they are can be left out, and there are no more others than places -/
theorem Forward.exists_few (hR : Forward size R) (h : Steps R n i j) : ∃ m ≤ size, Steps R m i j := by
  have hshort : ∀ n i, Steps R n i j → ∃ m ≤ j - i, Steps R m i j := by
    intro n
    induction n with
    | zero =>
      intro i h
      exact ⟨0, Nat.zero_le _, h⟩
    | succ n ih =>
      rintro i ⟨k, hik, hkj⟩
      obtain ⟨m, hm, hsteps⟩ := ih k hkj
      have hfirst := hR i k hik
      have hrest := hR.steps k j hkj
      by_cases hstay : i = k
      · subst hstay
        exact ⟨m, hm, hsteps⟩
      · exact ⟨m + 1, by omega, k, hik, hsteps⟩
  obtain ⟨m, hm, hsteps⟩ := hshort n i h
  have hends := hR.steps i j h
  exact ⟨m, by omega, hsteps⟩

end steps

theorem Expr.forward_spans (cs : List Char) (e : Expr CodeSet Look) : Forward cs.length (e.Spans cs) := by
  induction e with
  | empty =>
    intro i j h
    obtain rfl : i = j := h
    omega
  | chars set =>
    rintro i j ⟨⟨c, hc, -⟩, rfl⟩
    have hlt := (List.getElem?_eq_some_iff.1 hc).1
    omega
  | look test =>
    rintro i j ⟨-, rfl⟩
    omega
  | seq a b iha ihb =>
    rintro i j ⟨k, hik, hkj⟩
    have hfirst := iha i k hik
    have hsecond := ihb k j hkj
    omega
  | alt a b iha ihb =>
    rintro i j (h | h)
    · exact iha i j h
    · exact ihb i j h
  | repeated least most body ih =>
    rintro i j ⟨n, -, -, h⟩
    exact ih.steps i j h

/-! ## Sets of places -/

/-- a function of sets of places that leads from place to place -/
def Leads (f : Nat → Nat) (R : Nat → Nat → Prop) : Prop :=
  ∀ s j, (f s).testBit j = true ↔ ∃ i, s.testBit i = true ∧ R i j

section leads

variable {f : Nat → Nat} {R : Nat → Nat → Prop}

theorem Leads.iterate (hf : Leads f R) (n : Nat) : Leads (iterate f n) (Steps R n) := by
  intro s j
  rw [iterate_eq]
  induction n generalizing j with
  | zero =>
    constructor
    · intro h
      exact ⟨j, h, rfl⟩
    · rintro ⟨i, h, rfl⟩
      exact h
  | succ n ih =>
    rw [Nat.repeat, hf]
    constructor
    · rintro ⟨k, hk, hkj⟩
      obtain ⟨i, hi, hik⟩ := (ih k).1 hk
      exact ⟨i, hi, steps_add.2 ⟨k, hik, steps_one.2 hkj⟩⟩
    · rintro ⟨i, hi, hij⟩
      obtain ⟨k, hik, hkj⟩ := steps_add.1 hij
      exact ⟨k, (ih k).2 ⟨i, hi, hik⟩, steps_one.1 hkj⟩

theorem Leads.or_stay (hf : Leads f R) : Leads (fun s => s ||| f s) (fun i j => i = j ∨ R i j) := by
  intro s j
  rw [Nat.testBit_or, Bool.or_eq_true, hf]
  constructor
  · rintro (h | ⟨i, hi, hij⟩)
    · exact ⟨j, h, Or.inl rfl⟩
    · exact ⟨i, hi, Or.inr hij⟩
  · rintro ⟨i, hi, rfl | hij⟩
    · exact Or.inl hi
    · exact Or.inr ⟨i, hi, hij⟩

end leads

theorem testBit_charPlaces (set : CodeSet) (cs : List Char) (i : Nat) :
    (charPlaces set cs).testBit i = true ↔ ∃ c, cs[i]? = some c ∧ set.mem c.toNat = true := by
  induction cs generalizing i with
  | nil => simp [charPlaces]
  | cons c cs ih =>
    rw [charPlaces, Nat.mul_comm]
    cases i with
    | zero => cases h : set.mem c.toNat <;> simp [h]
    | succ i =>
      have hbit : (if set.mem c.toNat = true then 1 else 0) < 2 ^ 1 := by split_ifs <;> decide
      rw [← Nat.pow_one 2, Nat.testBit_two_pow_mul_add _ hbit, if_neg (by omega), Nat.add_sub_cancel, ih,
        List.getElem?_cons_succ]

theorem testBit_places (test : Look) (cs : List Char) (before : Option Char) (i : Nat) :
    (test.places before cs).testBit i = true ↔
      i ≤ cs.length ∧ test.holds (if i = 0 then before else before? cs i) cs[i]? = true := by
  induction cs generalizing i before with
  | nil =>
    cases i with
    | zero => cases h : test.holds before none <;> simp [Look.places, h]
    | succ i => cases h : test.holds before none <;> simp [Look.places, h, Nat.testBit_succ]
  | cons c cs ih =>
    rw [Look.places, Nat.mul_comm]
    cases i with
    | zero => cases h : test.holds before (some c) <;> simp [h]
    | succ i =>
      have hbit : (if test.holds before (some c) = true then 1 else 0) < 2 ^ 1 := by split_ifs <;> decide
      rw [← Nat.pow_one 2, Nat.testBit_two_pow_mul_add _ hbit, if_neg (by omega), Nat.add_sub_cancel, ih,
        List.getElem?_cons_succ, List.length_cons, Nat.succ_le_succ_iff, if_neg (Nat.succ_ne_zero i)]
      cases i <;> rfl

namespace Expr

/-- the expression with its sets and tests given by their places in a text -/
def placed (cs : List Char) (e : Expr CodeSet Look) : Expr Nat Nat :=
  e.mapLeaves (fun set => charPlaces set cs) (fun test => test.places none cs)

/-- the places that are computed are those that matches lead to -/
theorem testBit_ends (cs : List Char) (e : Expr CodeSet Look) : Leads ((e.placed cs).ends cs.length) (e.Spans cs) := by
  induction e with
  | empty =>
    intro s j
    constructor
    · intro h
      exact ⟨j, h, rfl⟩
    · rintro ⟨i, h, rfl⟩
      exact h
  | chars set =>
    intro s j
    rw [placed, mapLeaves, ends, Nat.testBit_shiftLeft]
    simp only [Nat.testBit_and, Bool.and_eq_true, decide_eq_true_eq, testBit_charPlaces, Spans]
    constructor
    · rintro ⟨hle, hi, hc⟩
      exact ⟨j - 1, hi, hc, by omega⟩
    · rintro ⟨i, hi, hc, rfl⟩
      exact ⟨by omega, hi, hc⟩
  | look test =>
    intro s j
    have hbefore : (if j = 0 then none else before? cs j) = before? cs j := by cases j <;> rfl
    rw [placed, mapLeaves, ends, Nat.testBit_and, Bool.and_eq_true, testBit_places, hbefore]
    simp only [Spans]
    constructor
    · rintro ⟨hs, htest⟩
      exact ⟨j, hs, htest, rfl⟩
    · rintro ⟨i, hs, htest, rfl⟩
      exact ⟨hs, htest⟩
  | seq a b iha ihb =>
    intro s j
    refine (ihb _ j).trans ⟨?_, ?_⟩
    · rintro ⟨k, hk, hkj⟩
      obtain ⟨i, hi, hik⟩ := (iha s k).1 hk
      exact ⟨i, hi, k, hik, hkj⟩
    · rintro ⟨i, hi, k, hik, hkj⟩
      exact ⟨k, (iha s k).2 ⟨i, hi, hik⟩, hkj⟩
  | alt a b iha ihb =>
    intro s j
    rw [placed, mapLeaves, ends, Nat.testBit_or, Bool.or_eq_true]
    refine (or_congr (iha s j) (ihb s j)).trans ⟨?_, ?_⟩
    · rintro (⟨i, hi, h⟩ | ⟨i, hi, h⟩)
      · exact ⟨i, hi, Or.inl h⟩
      · exact ⟨i, hi, Or.inr h⟩
    · rintro ⟨i, hi, h | h⟩
      · exact Or.inl ⟨i, hi, h⟩
      · exact Or.inr ⟨i, hi, h⟩
  | repeated least most body ih =>
    intro s j
    -- first as many rounds as have to be, and then as many more as may be
    refine ((ih.or_stay.iterate _) _ j).trans ?_
    constructor
    · rintro ⟨k, hk, hkj⟩
      obtain ⟨i, hi, hik⟩ := (ih.iterate least s k).1 hk
      obtain ⟨m, hm, hkj⟩ := steps_or_stay.1 hkj
      refine ⟨i, hi, least + m, Nat.le_add_right _ _, ?_, steps_add.2 ⟨k, hik, hkj⟩⟩
      rintro most rfl
      dsimp only at hm
      omega
    · rintro ⟨i, hi, n, hleast, hmost, hij⟩
      obtain ⟨m, rfl⟩ := Nat.exists_eq_add_of_le hleast
      obtain ⟨k, hik, hkj⟩ := steps_add.1 hij
      refine ⟨k, (ih.iterate least s k).2 ⟨i, hi, hik⟩, steps_or_stay.2 ?_⟩
      cases most with
      | some most =>
        have hle := hmost most rfl
        exact ⟨m, by dsimp only; omega, hkj⟩
      | none =>
        obtain ⟨few, hfew, hsteps⟩ := (body.forward_spans cs).exists_few hkj
        exact ⟨few, by dsimp only; omega, hsteps⟩

/-- what is found is what is matched somewhere -/
theorem foundIn_iff (cs : List Char) (e : Expr CodeSet Look) :
    e.foundIn cs = true ↔ ∃ i j, i ≤ cs.length ∧ e.Spans cs i j := by
  have hstart : ∀ i, (Nat.pow 2 (cs.length + 1) - 1).testBit i = true ↔ i ≤ cs.length := by
    intro i
    have hbit := @Nat.testBit_two_pow_sub_one (cs.length + 1) i
    rw [show Nat.pow 2 (cs.length + 1) = 2 ^ (cs.length + 1) from rfl, hbit, decide_eq_true_eq, Nat.lt_succ_iff]
  have hends := e.testBit_ends cs (Nat.pow 2 (cs.length + 1) - 1)
  simp only [hstart] at hends
  have hfound : e.foundIn cs = ((e.placed cs).ends cs.length (Nat.pow 2 (cs.length + 1) - 1) != 0) := rfl
  rw [hfound, bne_iff_ne]
  constructor
  · intro hne
    obtain ⟨j, hj⟩ := Nat.exists_testBit_of_ne_zero hne
    obtain ⟨i, hi, hij⟩ := (hends j).1 hj
    exact ⟨i, j, hi, hij⟩
  · rintro ⟨i, j, hi, hij⟩ hzero
    have hj := (hends j).2 ⟨i, hi, hij⟩
    rw [hzero, Nat.zero_testBit] at hj
    cases hj

end Expr

/-! ## Forms -/

namespace Form

variable {cs : List Char} {i j : Nat}

theorem spans_append (as bs : List Form) : (exprOfItems (as ++ bs)).Spans cs i j ↔
    ∃ k, (exprOfItems as).Spans cs i k ∧ (exprOfItems bs).Spans cs k j := by
  induction as generalizing i with
  | nil =>
    constructor
    · intro h
      exact ⟨i, rfl, h⟩
    · rintro ⟨k, rfl, h⟩
      exact h
  | cons a as ih =>
    constructor
    · rintro ⟨l, hil, hlj⟩
      obtain ⟨k, hlk, hkj⟩ := ih.1 hlj
      exact ⟨k, ⟨l, hil, hlk⟩, hkj⟩
    · rintro ⟨k, ⟨l, hil, hlk⟩, hkj⟩
      exact ⟨l, hil, ih.2 ⟨k, hlk, hkj⟩⟩

theorem spans_singleton (f : Form) : (exprOfItems [f]).Spans cs i j ↔ f.expr.Spans cs i j := by
  constructor
  · rintro ⟨k, h, rfl⟩
    exact h
  · intro h
    exact ⟨j, h, rfl⟩

/-- a form is matched as its items are, one after the other -/
theorem spans_items (f : Form) : (exprOfItems f.items).Spans cs i j ↔ f.expr.Spans cs i j := by
  cases f with
  | empty => rfl
  | concat fs => rfl
  | _ => exact spans_singleton _

theorem spans_flatMap_items (fs : List Form) :
    (exprOfItems (fs.flatMap items)).Spans cs i j ↔ (exprOfItems fs).Spans cs i j := by
  induction fs generalizing i with
  | nil => rfl
  | cons f fs ih =>
    rw [List.flatMap_cons, spans_append]
    exact exists_congr fun k => and_congr (spans_items f) ih

theorem spans_literal_append (a b : List Char) : (literal (a ++ b)).expr.Spans cs i j ↔
    ∃ k, (literal a).expr.Spans cs i k ∧ (literal b).expr.Spans cs k j := by
  simp only [expr]
  induction a generalizing i with
  | nil =>
    constructor
    · intro h
      exact ⟨i, rfl, h⟩
    · rintro ⟨k, rfl, h⟩
      exact h
  | cons c a ih =>
    rw [List.cons_append, List.foldr_cons, List.foldr_cons]
    constructor
    · rintro ⟨l, hil, hlj⟩
      obtain ⟨k, hlk, hkj⟩ := ih.1 hlj
      exact ⟨k, ⟨l, hil, hlk⟩, hkj⟩
    · rintro ⟨k, ⟨l, hil, hlk⟩, hkj⟩
      exact ⟨l, hil, ih.2 ⟨k, hlk, hkj⟩⟩

theorem spans_joinLiterals (fs : List Form) :
    (exprOfItems (joinLiterals fs)).Spans cs i j ↔ (exprOfItems fs).Spans cs i j := by
  induction fs generalizing i with
  | nil => rfl
  | cons f fs ih =>
    have hsame : (exprOfItems (f :: joinLiterals fs)).Spans cs i j ↔ (exprOfItems (f :: fs)).Spans cs i j :=
      exists_congr fun k => and_congr Iff.rfl ih
    cases f with
    | literal a =>
      rw [joinLiterals]
      split
      · -- two literals become one
        rename_i b rest hrest
        rw [← hsame, hrest]
        constructor
        · rintro ⟨l, hil, hlj⟩
          obtain ⟨k, hik, hkl⟩ := (spans_literal_append a b).1 hil
          exact ⟨k, hik, l, hkl, hlj⟩
        · rintro ⟨k, hik, l, hkl, hlj⟩
          exact ⟨l, (spans_literal_append a b).2 ⟨k, hik, hkl⟩, hlj⟩
      · exact hsame
    | _ => exact hsame

/-- a sequence is matched as its parts are, one after the other -/
theorem spans_sequence (fs : List Form) : (sequence fs).expr.Spans cs i j ↔ (exprOfItems fs).Spans cs i j := by
  rw [← spans_flatMap_items, ← spans_joinLiterals, sequence]
  split
  · rename_i h
    rw [h]
    rfl
  · rename_i f h
    rw [h]
    exact (spans_singleton f).symm
  · rfl

/-- a form between the tests for start and end of the text -/
def anchored (f : Form) : Form := sequence [look .textStart, f, look .textEnd]

theorem spans_textStart : (look .textStart).expr.Spans cs i j ↔ i = 0 ∧ j = 0 := by
  constructor
  · rintro ⟨⟨hle, hnone⟩, rfl⟩
    cases i with
    | zero => exact ⟨rfl, rfl⟩
    | succ i =>
      have hnone := Option.isNone_iff_eq_none.1 hnone
      rw [before?, List.getElem?_eq_none_iff] at hnone
      omega
  · rintro ⟨rfl, rfl⟩
    exact ⟨⟨Nat.zero_le _, rfl⟩, rfl⟩

theorem spans_textEnd : (look .textEnd).expr.Spans cs i j ↔ i = cs.length ∧ j = cs.length := by
  constructor
  · rintro ⟨⟨hle, hnone⟩, rfl⟩
    have hnone := Option.isNone_iff_eq_none.1 hnone
    rw [List.getElem?_eq_none_iff] at hnone
    omega
  · rintro ⟨rfl, rfl⟩
    refine ⟨⟨le_rfl, ?_⟩, rfl⟩
    rw [List.getElem?_eq_none (le_refl _)]
    rfl

/-- between the tests for start and end a form is found if it matches the whole text -/
theorem foundIn_anchored_iff (f : Form) (cs : List Char) :
    f.anchored.expr.foundIn cs = true ↔ f.expr.Spans cs 0 cs.length := by
  rw [Expr.foundIn_iff]
  simp only [anchored, spans_sequence]
  constructor
  · rintro ⟨i, j, -, a, hstart, b, hbody, hend⟩
    obtain ⟨rfl, rfl⟩ := spans_textStart.1 hstart
    obtain ⟨rfl, -⟩ := spans_textEnd.1 ((spans_singleton _).1 hend)
    exact hbody
  · intro h
    exact ⟨0, cs.length, Nat.zero_le _, 0, spans_textStart.2 ⟨rfl, rfl⟩, cs.length, h,
      (spans_singleton _).2 (spans_textEnd.2 ⟨rfl, rfl⟩)⟩

end Form

end PixelAudit.Pattern
