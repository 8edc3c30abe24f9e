/-
Bounds of whole numbers.

A value of integer type is read twice. It has to spell a whole number of 64 bits, and it is compared with the bounds as
a binary number, for which it is rounded. Rounding keeps the order and leaves a bound where it is, so that a value
within the bounds is never reported. A value beyond a bound is reported unless it is rounded onto the bound; this
happens to bounds from 2^53 on, and to values that are at most 512 beyond them.

Main results: `unmet?_of_integer` (what is checked of a whole number), `beyond_and_not_roundedOnto_iff` (what is left of
being beyond a bound after rounding), `never_roundedOnto_iff` (which bounds no number is rounded onto), `integer_bounds`
(when a bound is reported, and which numbers it misses).
-/
import PixelAudit.Proofs.Decimal.Integers
import PixelAudit.Schema.ValueCheck

namespace PixelAudit

open Decimal (Binary64 int64? int64Min int64Max)
open Decimal.Binary64 (IsWhole roundInt)

/-- a specification of the whole numbers between bounds that are whole numbers, each of which may be missing -/
structure ParamSpec.IntegerRange (spec : ParamSpec) (low high : Option Int) : Prop where
  integer : spec.valueType = some .integer
  anyValue : spec.allowed = []
  anyForm : spec.pattern = none
  minimum : Option.Rel IsWhole spec.minimum low
  maximum : Option.Rel IsWhole spec.maximum high
  ordered : ∀ i ∈ low, ∀ j ∈ high, i ≤ j

namespace ValueCheck

/-- the number is not within the bounds -/
def Beyond (low high : Option Int) (n : Int) : Prop := (∃ i ∈ low, n < i) ∨ ∃ j ∈ high, j < n

/-- the number is beyond a bound and is rounded onto it -/
def RoundedOnto (low high : Option Int) (n : Int) : Prop :=
  (∃ i ∈ low, n < i ∧ roundInt n = i) ∨ ∃ j ∈ high, j < n ∧ roundInt n = j

/-- the value is reported for being beyond a bound -/
def ReportsBound (c : ValueCheck) (value : String) : Prop :=
  ∃ bound, c.unmet? value = some (.atLeast bound) ∨ c.unmet? value = some (.atMost bound)

variable {c : ValueCheck} {value : String} {n : Int} {low high : Option Int}

/-! ## What is reported -/

/-- a text that spells a whole number spells a finite binary number, the rounded one -/
theorem finite?_of_int64? (h : int64? value = some n) :
    ∃ x, finite? value = some x ∧ x.isFinite = true ∧ x.units = roundInt n * Binary64.oneUnits := by
  obtain ⟨x, hx, hfinite, hunits⟩ := Decimal.binary64?_of_int64? h
  exact ⟨x, by rw [finite?, hx, Option.filter_some, if_pos hfinite], hfinite, hunits⟩

theorem unmetBounds?_of_finite? {x : Binary64} (h : finite? value = some x) : c.unmetBounds? value =
    ((c.minimum.filter x.lt).map .atLeast).or ((c.maximum.filter fun greatest => greatest.lt x).map .atMost) := by
  unfold unmetBounds?
  rw [h]
  split_ifs with hnone
  · simp only [Bool.and_eq_true, Option.isNone_iff_eq_none] at hnone
    simp [hnone]
  · cases hleast : c.minimum.filter x.lt <;> simp [hleast]

/-- what is reported of a whole number where nothing else is asked for -/
theorem unmet?_of_integer (htype : c.valueType = some .integer) (hallowed : c.allowed = none) (hform : c.pattern = none)
    (h : int64? value = some n) : c.unmet? value = c.unmetBounds? value := by
  have hinteger : hasType value .integer = true := by rw [hasType, h]; rfl
  simp [unmet?, unmetAllowed?, unmetPattern?, unmetType?, hallowed, hform, htype, hinteger]

theorem reportsBound_of_unmet? {least greatest : Option Binary64}
    (h : c.unmet? value = (least.map .atLeast).or (greatest.map .atMost)) :
    (c.ReportsBound value ↔ least.isSome = true ∨ greatest.isSome = true) ∧
      (c.accepts value = true ↔ ¬ c.ReportsBound value) := by
  unfold ReportsBound accepts
  rw [h]
  cases least <;> cases greatest <;> simp

/-! ## When a bound is reported -/

section bounds

variable {x : Binary64} {bounds : Option Binary64} {whole : Option Int}

theorem isSome_filter_below (hwhole : Option.Rel IsWhole bounds whole) (hx : x.isFinite = true)
    (hunits : x.units = roundInt n * Binary64.oneUnits) :
    (bounds.filter x.lt).isSome = true ↔ ∃ i ∈ whole, n < i ∧ roundInt n ≠ i := by
  cases hwhole with
  | none => simp
  | some hbound => simp [Option.filter_some, ← hbound.below_iff hx hunits]

theorem isSome_filter_above (hwhole : Option.Rel IsWhole bounds whole) (hx : x.isFinite = true)
    (hunits : x.units = roundInt n * Binary64.oneUnits) :
    (bounds.filter fun greatest => greatest.lt x).isSome = true ↔ ∃ j ∈ whole, j < n ∧ roundInt n ≠ j := by
  cases hwhole with
  | none => simp
  | some hbound => simp [Option.filter_some, ← hbound.above_iff hx hunits]

end bounds

theorem beyond_of_roundedOnto (h : RoundedOnto low high n) : Beyond low high n := by
  rcases h with ⟨i, hi, hlt, -⟩ | ⟨j, hj, hlt, -⟩
  · exact Or.inl ⟨i, hi, hlt⟩
  · exact Or.inr ⟨j, hj, hlt⟩

/-- a number that is beyond one bound is within the other -/
theorem beyond_and_not_roundedOnto_iff (hordered : ∀ i ∈ low, ∀ j ∈ high, i ≤ j) :
    Beyond low high n ∧ ¬ RoundedOnto low high n ↔
      (∃ i ∈ low, n < i ∧ roundInt n ≠ i) ∨ ∃ j ∈ high, j < n ∧ roundInt n ≠ j := by
  unfold Beyond RoundedOnto
  constructor
  · rintro ⟨⟨i, hi, hlt⟩ | ⟨j, hj, hlt⟩, hnot⟩
    · exact Or.inl ⟨i, hi, hlt, fun heq => hnot (Or.inl ⟨i, hi, hlt, heq⟩)⟩
    · exact Or.inr ⟨j, hj, hlt, fun heq => hnot (Or.inr ⟨j, hj, hlt, heq⟩)⟩
  · rintro (⟨i, hi, hlt, hne⟩ | ⟨j, hj, hlt, hne⟩)
    · refine ⟨Or.inl ⟨i, hi, hlt⟩, ?_⟩
      rintro (⟨i', hi', -, heq⟩ | ⟨j, hj, hlt', -⟩)
      · exact hne (heq.trans (Option.mem_unique hi' hi))
      · have hle := hordered i hi j hj
        omega
    · refine ⟨Or.inr ⟨j, hj, hlt⟩, ?_⟩
      rintro (⟨i, hi, hlt', -⟩ | ⟨j', hj', -, heq⟩)
      · have hle := hordered i hi j hj
        omega
      · exact hne (heq.trans (Option.mem_unique hj' hj))

/-- a value is rounded onto a bound only from 2^53 on, and not from far -/
theorem near_of_roundedOnto (hlow : int64Min ≤ n) (hhigh : n ≤ int64Max) (h : RoundedOnto low high n) :
    ∃ b, (b ∈ low ∨ b ∈ high) ∧ 2 ^ 53 ≤ b.natAbs ∧ (n - b).natAbs ≤ 512 := by
  have hnear := Binary64.roundInt_near hlow hhigh
  have hgreat : ∀ b, n ≠ b → roundInt n = b → 2 ^ 53 ≤ b.natAbs := fun b hne heq =>
    not_lt.1 fun hlt => hne (Binary64.eq_of_roundInt_eq hlt heq)
  rcases h with ⟨b, hb, hlt, heq⟩ | ⟨b, hb, hlt, heq⟩
  · exact ⟨b, Or.inl hb, hgreat b hlt.ne heq, by omega⟩
  · exact ⟨b, Or.inr hb, hgreat b hlt.ne' heq, by omega⟩

theorem roundInt_int64Max : roundInt int64Max = int64Max + 1 := by decide

theorem roundInt_int64Min : roundInt int64Min = int64Min := by decide

/-- if any number is rounded onto a bound, then the one next to it is -/
theorem never_roundedOnto_iff (hlow : ∀ i ∈ low, roundInt i = i) (hhigh : ∀ j ∈ high, roundInt j = j) :
    (∀ n, int64Min ≤ n → n ≤ int64Max → ¬ RoundedOnto low high n) ↔
      (∀ i ∈ low, int64Min < i → i ≤ int64Max + 1 → roundInt (i - 1) ≠ i) ∧
        ∀ j ∈ high, int64Min ≤ j → j < int64Max → roundInt (j + 1) ≠ j := by
  constructor
  · intro hnever
    refine ⟨fun i hi hmin hmax heq => ?_, fun j hj hmin hmax heq => ?_⟩
    · exact hnever (i - 1) (by omega) (by omega) (Or.inl ⟨i, hi, by omega, heq⟩)
    · exact hnever (j + 1) (by omega) (by omega) (Or.inr ⟨j, hj, by omega, heq⟩)
  · rintro ⟨hbelow, habove⟩ n hmin hmax (⟨i, hi, hlt, heq⟩ | ⟨j, hj, hlt, heq⟩)
    · have hgreatest := Binary64.roundInt_mono hmax
      rw [heq, roundInt_int64Max] at hgreatest
      refine hbelow i hi (by omega) hgreatest (le_antisymm ?_ ?_)
      · exact (Binary64.roundInt_mono (by omega)).trans_eq (hlow i hi)
      · exact heq.symm.trans_le (Binary64.roundInt_mono (by omega))
    · have hleast := Binary64.roundInt_mono hmin
      rw [heq, roundInt_int64Min] at hleast
      refine habove j hj hleast (by omega) (le_antisymm ?_ ?_)
      · exact (Binary64.roundInt_mono (by omega)).trans_eq heq
      · exact (hhigh j hj).symm.trans_le (Binary64.roundInt_mono (by omega))

theorem roundInt_eq_of_rel {bounds : Option Binary64} {whole : Option Int} (h : Option.Rel IsWhole bounds whole) :
    ∀ i ∈ whole, roundInt i = i := by
  intro i hi
  cases h with
  | none => cases hi
  | some hbound =>
    obtain rfl := Option.some.inj hi
    exact hbound.roundInt_eq

/-- specifications of ranges are compiled to their bounds -/
theorem compile_of_integerRange {spec : ParamSpec} (h : spec.IntegerRange low high) (lowerCase : Bool) :
    compile spec.rules lowerCase = .ok ⟨none, none, some .integer, spec.minimum, spec.maximum⟩ := by
  have hordered : checkBounds spec.minimum spec.maximum = .ok () := by
    have hmin := h.minimum
    have hmax := h.maximum
    have hle := h.ordered
    generalize spec.minimum = least at hmin ⊢
    generalize spec.maximum = greatest at hmax ⊢
    cases hmin with
    | none => rfl
    | @some least i hleast =>
      cases hmax with
      | none => rfl
      | @some greatest j hgreatest =>
        have hle := hle i rfl j rfl
        refine if_neg fun hlt => ?_
        rw [Binary64.lt_iff_of_units hgreatest.finite hleast.finite hgreatest.units hleast.units] at hlt
        omega
  unfold compile
  simp [ParamSpec.rules, h.anyForm, h.anyValue, h.integer, compilePattern?, hordered, allowedSet, bind, Except.bind,
    pure, Except.pure]

/-- what is said of whole numbers that are checked against bounds -/
structure EnforcesRange (c : ValueCheck) (low high : Option Int) (value : String) (n : Int) : Prop where
  /-- a bound is reported for what is beyond it and not rounded onto it -/
  reported : c.ReportsBound value ↔ Beyond low high n ∧ ¬ RoundedOnto low high n
  /-- nothing else is reported -/
  accepted : c.accepts value = true ↔ ¬ c.ReportsBound value
  /-- so the bounds are enforced for this number unless it is rounded onto one of them -/
  enforced : (c.ReportsBound value ↔ Beyond low high n) ↔ ¬ RoundedOnto low high n
  /-- what is rounded onto a bound is near it, and the bound is great -/
  near : RoundedOnto low high n → ∃ b, (b ∈ low ∨ b ∈ high) ∧ 2 ^ 53 ≤ b.natAbs ∧ (n - b).natAbs ≤ 512

theorem enforcesRange_of_integerRange {spec : ParamSpec} (h : spec.IntegerRange low high) (hn : int64? value = some n) :
    (ValueCheck.mk none none (some .integer) spec.minimum spec.maximum).EnforcesRange low high value n := by
  obtain ⟨-, -, -, -, -, -, hmin, hmax⟩ := Decimal.exists_digits_of_int64? hn
  obtain ⟨x, hfinite, hx, hunits⟩ := finite?_of_int64? hn
  have hunmet := (unmet?_of_integer (c := ⟨none, none, some .integer, spec.minimum, spec.maximum⟩) rfl rfl rfl hn).trans
    (unmetBounds?_of_finite? hfinite)
  obtain ⟨hreported, haccepted⟩ := reportsBound_of_unmet? hunmet
  rw [isSome_filter_below h.minimum hx hunits, isSome_filter_above h.maximum hx hunits,
    ← beyond_and_not_roundedOnto_iff h.ordered] at hreported
  refine ⟨hreported, haccepted, ?_, near_of_roundedOnto hmin hmax⟩
  rw [hreported]
  exact ⟨fun hiff hrounded => (hiff.2 (beyond_of_roundedOnto hrounded)).2 hrounded, fun hnot => and_iff_left hnot⟩

/-- Whole numbers between bounds that are whole numbers are asked for. A whole number of 64 bits is reported to be
beyond a bound exactly if it is and is not rounded onto that bound, and else it is accepted. So the bounds are enforced
exactly for all numbers but those that are rounded onto one of them, and these are at most 512 beyond a bound of 2^53 or
more. They are enforced exactly for all numbers if and only if those next to the bounds are not rounded onto them. -/
theorem integer_bounds (spec : ParamSpec) (low high : Option Int) (h : spec.IntegerRange low high) (lowerCase : Bool) :
    ∃ c, compile spec.rules lowerCase = .ok c ∧
      (∀ value n, int64? value = some n → c.EnforcesRange low high value n) ∧
      ((∀ value n, int64? value = some n → (c.ReportsBound value ↔ Beyond low high n)) ↔
        (∀ i ∈ low, int64Min < i → i ≤ int64Max + 1 → roundInt (i - 1) ≠ i) ∧
          ∀ j ∈ high, int64Min ≤ j → j < int64Max → roundInt (j + 1) ≠ j) := by
  have henforces : ∀ value n, int64? value = some n →
      (ValueCheck.mk none none (some .integer) spec.minimum spec.maximum).EnforcesRange low high value n :=
    fun value n hn => enforcesRange_of_integerRange h hn
  refine ⟨_, compile_of_integerRange h lowerCase, henforces, ?_⟩
  rw [← never_roundedOnto_iff (roundInt_eq_of_rel h.minimum) (roundInt_eq_of_rel h.maximum)]
  constructor
  · intro hexact n hmin hmax
    obtain ⟨value, hn⟩ := Decimal.exists_int64? hmin hmax
    exact (henforces value n hn).enforced.1 (hexact value n hn)
  · intro hnever value n hn
    obtain ⟨-, -, -, -, -, -, hmin, hmax⟩ := Decimal.exists_digits_of_int64? hn
    exact (henforces value n hn).enforced.2 (hnever n hmin hmax)

/-- whole numbers from 2^53 + 4 on -/
def greatSpec : ParamSpec :=
  { key := some "n", valueType := some .integer, minimum := some (.finite false (2 ^ 52 + 2) 1 (by decide)) }

theorem greatSpec_integerRange : greatSpec.IntegerRange (some (2 ^ 53 + 4)) none where
  integer := rfl
  anyValue := rfl
  anyForm := rfl
  minimum := .some ⟨rfl, by decide +kernel⟩
  maximum := .none
  ordered _ _ _ h := by cases h

/-- a number that is two below the bound is reported -/
theorem integer_bounds_great : ∃ c, compile greatSpec.rules false = .ok c ∧ c.ReportsBound "9007199254740994" := by
  obtain ⟨c, hcompile, h, -⟩ := integer_bounds greatSpec (some (2 ^ 53 + 4)) none greatSpec_integerRange false
  refine ⟨c, hcompile, (h "9007199254740994" (2 ^ 53 + 2) (by decide)).reported.2 ⟨?_, ?_⟩⟩
  · exact Or.inl ⟨_, rfl, by decide⟩
  · rintro (⟨_, ⟨⟩, -, heq⟩ | ⟨_, ⟨⟩, -⟩)
    exact absurd heq (by decide)

/-- a number that is one below the bound is accepted -/
theorem bound_missed : ∃ c, compile greatSpec.rules false = .ok c ∧
    int64? "9007199254740995" = some (2 ^ 53 + 3) ∧ Beyond (some (2 ^ 53 + 4)) none (2 ^ 53 + 3) ∧
      ¬ c.ReportsBound "9007199254740995" ∧ c.accepts "9007199254740995" = true := by
  have hunmet : (ValueCheck.mk none none (some .integer) greatSpec.minimum none).unmet? "9007199254740995" = none := by
    decide +kernel
  refine ⟨_, rfl, by decide, Or.inl ⟨_, rfl, by decide⟩, ?_, ?_⟩
  · rintro ⟨bound, h | h⟩ <;> cases hunmet.symm.trans h
  · exact Option.isNone_iff_eq_none.2 hunmet

end ValueCheck

end PixelAudit
