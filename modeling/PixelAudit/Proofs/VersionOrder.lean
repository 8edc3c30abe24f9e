/-
The order of versions.

Two versions are compared number by number, and a number that one of them does not have counts as zero. So a version is,
for all comparisons, the function from places to numbers (`compareSegments_eq_iff`, `compareSegments_lt_iff`): versions
that are the same but for zeros at the end stand alike to every other version, and one may be put in the place of the
other wherever the newer of two versions is taken.

Floors need not be there, and a floor that is not there stands below all others; to raise two floors to a version keeps
them in their order.

Main results: `same_iff` (versions are the same that have the same numbers at all places), `older_congr` (the order does
not tell same versions apart), `newer?_congr` (nor does the newer of two), `AtMost.newer?` (floors that are raised stay
in order).
-/
import PixelAudit.Version
import PixelAudit.Definition.Spec
import Mathlib.Tactic

namespace PixelAudit.AppVersion

/-! ## The first difference -/

/-- the first difference of two sequences of numbers stands at their start, or later on -/
theorem first_lt_iff {f g : ℕ → UInt64} :
    (∃ i, (∀ j < i, f j = g j) ∧ f i < g i) ↔
      f 0 < g 0 ∨ (f 0 = g 0 ∧ ∃ i, (∀ j < i, f (j + 1) = g (j + 1)) ∧ f (i + 1) < g (i + 1)) := by
  constructor
  · rintro ⟨i, hsame, hlt⟩
    cases i with
    | zero => exact Or.inl hlt
    | succ i => exact Or.inr ⟨hsame 0 i.succ_pos, i, fun j hj => hsame (j + 1) (Nat.succ_lt_succ hj), hlt⟩
  · rintro (hlt | ⟨hzero, i, hsame, hlt⟩)
    · exact ⟨0, fun j hj => absurd hj j.not_lt_zero, hlt⟩
    · refine ⟨i + 1, fun j hj => ?_, hlt⟩
      cases j with
      | zero => exact hzero
      | succ j => exact hsame j (Nat.lt_of_succ_lt_succ hj)

theorem all_iff {f g : ℕ → UInt64} : (∀ i, f i = g i) ↔ f 0 = g 0 ∧ ∀ i, f (i + 1) = g (i + 1) :=
  ⟨fun h => ⟨h 0, fun i => h (i + 1)⟩, fun h i => by cases i with | zero => exact h.1 | succ i => exact h.2 i⟩

/-- versions compare equal if they have the same number at every place -/
theorem compareSegments_eq_iff (as bs : List UInt64) :
    compareSegments as bs = .eq ↔ ∀ i, as.getD i 0 = bs.getD i 0 := by
  induction as generalizing bs with
  | nil =>
    rw [compareSegments_nil_eq_iff]
    constructor
    · intro hzero i
      rw [List.getD_nil, List.getD_eq_getElem?_getD]
      cases hb : bs[i]? with
      | none => rfl
      | some b => exact (hzero b (List.mem_of_getElem? hb)).symm
    · intro hsame b hb
      obtain ⟨i, hi⟩ := List.getElem?_of_mem hb
      simpa [List.getD_eq_getElem?_getD, hi] using (hsame i).symm
  | cons a as ih =>
    rw [all_iff]
    cases bs with
    | nil =>
      have hrest := ih []
      simp only [compareSegments, List.getD_cons_zero, List.getD_cons_succ, List.getD_nil] at hrest ⊢
      split_ifs with ha
      · simp [ha, hrest]
      · simp [ha]
    | cons b bs =>
      simp only [compareSegments, List.getD_cons_zero, List.getD_cons_succ]
      split_ifs with hlt hgt
      · simp [UInt64.ne_of_lt hlt]
      · simp [(UInt64.ne_of_lt hgt).symm]
      · have heq : a = b := UInt64.le_antisymm (UInt64.not_lt.1 hgt) (UInt64.not_lt.1 hlt)
        simp [heq, ih]

/-- a version is older if it has the smaller number at the first place where they differ -/
theorem compareSegments_lt_iff (as bs : List UInt64) :
    compareSegments as bs = .lt ↔ ∃ i, (∀ j < i, as.getD j 0 = bs.getD j 0) ∧ as.getD i 0 < bs.getD i 0 := by
  induction as generalizing bs with
  | nil =>
    induction bs with
    | nil => simp [compareSegments]
    | cons b bs ih =>
      rw [first_lt_iff]
      simp only [compareSegments, List.getD_cons_zero, List.getD_cons_succ, List.getD_nil] at ih ⊢
      rw [← ih]
      by_cases hb : b = 0
      · simp [hb]
      · simp [hb, UInt64.pos_iff_ne_zero]
  | cons a as ih =>
    rw [first_lt_iff]
    cases bs with
    | nil =>
      have hrest := ih []
      simp only [compareSegments, List.getD_cons_zero, List.getD_cons_succ, List.getD_nil] at hrest ⊢
      rw [← hrest]
      split_ifs with ha
      · simp [ha]
      · simp [ha]
    | cons b bs =>
      simp only [compareSegments, List.getD_cons_zero, List.getD_cons_succ]
      rw [← ih]
      split_ifs with hlt hgt
      · simp [hlt]
      · simp [UInt64.lt_asymm hgt, (UInt64.ne_of_lt hgt).symm]
      · have heq : a = b := UInt64.le_antisymm (UInt64.not_lt.1 hgt) (UInt64.not_lt.1 hlt)
        simp [heq]

/-! ## Versions -/

/-- the number at a place -/
def numberAt (v : AppVersion) (i : ℕ) : UInt64 := v.segments.getD i 0

variable {a b c d : AppVersion}

theorem same_iff : a.same b = true ↔ a.numberAt = b.numberAt := by
  rw [same, beq_iff_eq, compare, compareSegments_eq_iff, funext_iff]
  rfl

theorem older_iff : a.older b = true ↔ ∃ i, (∀ j < i, a.numberAt j = b.numberAt j) ∧ a.numberAt i < b.numberAt i := by
  rw [older, beq_iff_eq, compare, compareSegments_lt_iff]
  rfl

/-- the order does not tell same versions apart -/
theorem older_congr (h : a.same b = true) (h2 : c.same d = true) : a.older c = b.older d := by
  rw [Bool.eq_iff_iff, older_iff, older_iff, same_iff.1 h, same_iff.1 h2]

theorem newer_congr (h : a.same b = true) (h2 : c.same d = true) : (a.newer c).same (b.newer d) = true := by
  rw [newer, newer, older_congr h h2]
  split_ifs
  · exact h2
  · exact h

/-- versions that need not be there: the same one, or none on both sides -/
def SameFloor (a b : Option AppVersion) : Prop := a.map numberAt = b.map numberAt

theorem sameFloor_iff {a b : Option AppVersion} : sameOption same a b = true ↔ SameFloor a b := by
  cases a <;> cases b <;> simp [sameOption, SameFloor, same_iff]

theorem newer?_congr {a b c d : Option AppVersion} (h : SameFloor a b) (h2 : SameFloor c d) :
    SameFloor (newer? a c) (newer? b d) := by
  rw [← sameFloor_iff] at h h2 ⊢
  cases a with
  | none =>
    cases b with
    | none => exact h2
    | some b => cases h
  | some a =>
    cases b with
    | none => cases h
    | some b =>
      cases c with
      | none =>
        cases d with
        | none => exact h
        | some d => cases h2
      | some c =>
        cases d with
        | none => cases h2
        | some d => exact newer_congr h h2

/-! ## Later floors -/

/-- the place of a version among all versions: its numbers, told apart by the first difference -/
def rank (v : AppVersion) : Lex (ℕ → ℕ) := toLex fun i => (v.numberAt i).toNat

theorem older_iff_rank_lt : a.older b = true ↔ a.rank < b.rank := by
  rw [older_iff]
  refine exists_congr fun i => and_congr ?_ UInt64.lt_iff_toNat_lt
  exact forall₂_congr fun j _ => UInt64.toNat_inj.symm

theorem older_eq_false_iff : a.older b = false ↔ b.rank ≤ a.rank := by
  rw [← Bool.not_eq_true]
  exact (not_congr older_iff_rank_lt).trans not_lt

theorem rank_newer : (a.newer b).rank = max a.rank b.rank := by
  by_cases h : a.older b = true
  · rw [newer, if_pos h, max_eq_right (older_iff_rank_lt.1 h).le]
  · rw [newer, if_neg h, max_eq_left (older_eq_false_iff.1 (eq_false_of_ne_true h))]

/-- the place of a version that need not be there: none stands before all others -/
def rank? (v : Option AppVersion) : WithBot (Lex (ℕ → ℕ)) := v.elim ⊥ fun v => v.rank

theorem rank?_newer? (a b : Option AppVersion) : rank? (newer? a b) = max (rank? a) (rank? b) := by
  cases a with
  | none => exact (max_eq_right bot_le).symm
  | some a =>
    cases b with
    | none => exact (max_eq_left bot_le).symm
    | some b => exact congrArg WithBot.some rank_newer

/-- no newer than another version that need not be there; none is no newer than any -/
def AtMost (low high : Option AppVersion) : Prop := ∀ a, low = some a → ∃ b, high = some b ∧ b.older a = false

theorem atMost_iff {low high : Option AppVersion} : AtMost low high ↔ rank? low ≤ rank? high := by
  cases low with
  | none => simp [AtMost, rank?]
  | some a =>
    cases high with
    | none => simp [AtMost, rank?]
    | some b => simp [AtMost, rank?, older_eq_false_iff]

/-- of two floors that are both raised to a version the later one stays the later -/
theorem AtMost.newer? {low high : Option AppVersion} (h : AtMost low high) (c : Option AppVersion) :
    AtMost (newer? low c) (newer? high c) := by
  rw [atMost_iff] at h ⊢
  rw [rank?_newer?, rank?_newer?]
  exact max_le_max_right _ h

/-- what is older than a floor is older than any later one -/
theorem AtMost.exists_older {low high : Option AppVersion} (h : AtMost low high) (ha : low = some a)
    (hold : c.older a = true) : ∃ b, high = some b ∧ c.older b = true := by
  obtain ⟨b, hb, hba⟩ := h a ha
  exact ⟨b, hb, older_iff_rank_lt.2 ((older_iff_rank_lt.1 hold).trans_le (older_eq_false_iff.1 hba))⟩

end PixelAudit.AppVersion
