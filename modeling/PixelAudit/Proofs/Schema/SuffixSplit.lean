/-
The segments after the name of a family, parted into declared and common ones.

The matcher takes segments from the end as long as they match a common suffix, and what is left has to match the
declared suffixes position by position. A segment may match both, so this could part the segments too far to the left.
It does not: where any split is good, so is the leftmost one from which all segments are common, since the split that is
good lies no further to the left and its declared part covers what is left over.

Main results: `withoutCommon_eq_take` (what is left over are the segments before the leftmost such split),
`mismatch?_eq_some_iff` (the first position that does not match), `check_positional_iff` (what is accepted, and what is
reported otherwise).
-/
import PixelAudit.Proofs.Schema.Matcher
import PixelAudit.Schema.Suffixes
import Mathlib.Tactic
import Mathlib.Order.Bounds.Basic

namespace PixelAudit

/-- a segment that takes some names -/
def SegmentMatcher.oneOf (label : String) (names : List String) : SegmentMatcher :=
  ⟨label, ⟨some (NameSet.ofList names), none, none, none, none⟩⟩

namespace SuffixesMatcher

variable {declared common : List SegmentMatcher} {parts : List String} {position k : Nat}

/-- every segment from the position on matches a common suffix -/
def CommonFrom (common : List SegmentMatcher) (parts : List String) (k : Nat) : Prop :=
  ∀ i s, k ≤ i → parts[i]? = some s → ∃ c ∈ common, c.accepts s = true

/-- the segment at the position matches what is declared there -/
def FitsAt (declared : List SegmentMatcher) (parts : List String) (i : Nat) : Prop :=
  ∃ m s, declared[i]? = some m ∧ parts[i]? = some s ∧ m.accepts s = true

/-- the segments before the position match what is declared, one by one, and the others match common suffixes -/
structure SplitsAt (declared common : List SegmentMatcher) (parts : List String) (k : Nat) : Prop where
  le : k ≤ declared.length
  fits : ∀ i < k, FitsAt declared parts i
  rest : CommonFrom common parts k

/-- the positions before the bound whose segment does not match what is declared there -/
def Unfit (declared : List SegmentMatcher) (parts : List String) (bound : Nat) : Set Nat :=
  {i | i < bound ∧ ¬ FitsAt declared parts i}

/-- the rule that is reported, with the number of segments left before those at the end that match common suffixes -/
inductive Reports (declared common : List SegmentMatcher) (parts : List String) : Rule → Prop where
  | further {left : Nat} (least : IsLeast {k | CommonFrom common parts k} left) (more : declared.length < left) :
    Reports declared common parts .noFurtherSuffix
  | unfit {left i : Nat} {m : SegmentMatcher} (least : IsLeast {k | CommonFrom common parts k} left)
    (le : left ≤ declared.length) (first : IsLeast (Unfit declared parts left) i)
    (declaredAt : declared[i]? = some m) : Reports declared common parts (.validSuffix i m.label)

/-! ## Common segments -/

/-- past the end there is nothing to match -/
theorem commonFrom_length (common : List SegmentMatcher) (parts : List String) :
    CommonFrom common parts parts.length := by
  intro i s hi hs
  rw [List.getElem?_eq_none hi] at hs
  cases hs

/-- without common suffixes there is nothing from the position on -/
theorem CommonFrom.length_le (h : CommonFrom [] parts k) : parts.length ≤ k := by
  by_contra hlt
  obtain ⟨c, hc, -⟩ := h k _ le_rfl (List.getElem?_eq_getElem (Nat.not_le.1 hlt))
  cases hc

theorem withoutCommon_concat (common : List SegmentMatcher) (parts : List String) (s : String) :
    withoutCommon common (parts ++ [s]) =
      if ∃ c ∈ common, c.accepts s = true then withoutCommon common parts else parts ++ [s] := by
  rw [withoutCommon, List.reverse_concat, List.dropWhile_cons]
  simp only [List.any_eq_true]
  split_ifs with hs
  · rfl
  · rw [← List.reverse_concat, List.reverse_reverse]

/-- What is left are the segments before the leftmost position from which all are common. -/
theorem withoutCommon_eq_take (common : List SegmentMatcher) (parts : List String) :
    withoutCommon common parts = parts.take (withoutCommon common parts).length ∧
      IsLeast {k | CommonFrom common parts k} (withoutCommon common parts).length := by
  induction parts using List.reverseRecOn with
  | nil => exact ⟨rfl, commonFrom_length common [], fun k _ => Nat.zero_le k⟩
  | append_singleton parts s ih =>
    obtain ⟨htake, hcommon, hleast⟩ := ih
    have hlength : (withoutCommon common parts).length ≤ parts.length :=
      hleast (commonFrom_length common parts)
    rw [withoutCommon_concat]
    split_ifs with hs
    · refine ⟨by rwa [List.take_append_of_le_length hlength], fun i t hi ht => ?_, fun k hk => hleast ?_⟩
      · rcases getElem?_concat_eq_some_iff.1 ht with ht | ⟨-, rfl⟩
        · exact hcommon i t hi ht
        · exact hs
      · exact fun i t hi ht => hk i t hi (getElem?_concat_eq_some_iff.2 (.inl ht))
    · refine ⟨List.take_length.symm, commonFrom_length common _, fun k hk => ?_⟩
      -- the last segment is not common, so no position before the end will do
      by_contra hlt
      rw [List.length_append, List.length_singleton, Nat.not_le, Nat.lt_succ_iff] at hlt
      exact hs (hk parts.length s hlt List.getElem?_concat_length)

/-! ## Declared segments -/

@[simp]
theorem fitsAt_zero {m : SegmentMatcher} {s : String} :
    FitsAt (m :: declared) (s :: parts) 0 ↔ m.accepts s = true := by
  simp [FitsAt]

@[simp]
theorem fitsAt_succ {m : SegmentMatcher} {s : String} {i : Nat} :
    FitsAt (m :: declared) (s :: parts) (i + 1) ↔ FitsAt declared parts i :=
  Iff.rfl

theorem fitsAt_take {i : Nat} (h : i < k) : FitsAt declared (parts.take k) i ↔ FitsAt declared parts i := by
  rw [FitsAt, FitsAt, List.getElem?_take_of_lt h]

theorem unfit_take : Unfit declared (parts.take k) k = Unfit declared parts k := by
  ext i
  exact and_congr_right fun hi => not_congr (fitsAt_take hi)

/-- where the first segment matches, the first that does not is the first among the others -/
theorem isLeast_unfit_cons {m : SegmentMatcher} {s : String} {i : Nat} (h : m.accepts s = true) :
    IsLeast (Unfit (m :: declared) (s :: parts) (k + 1)) (i + 1) ↔ IsLeast (Unfit declared parts k) i := by
  have hsucc : ∀ j, j + 1 ∈ Unfit (m :: declared) (s :: parts) (k + 1) ↔ j ∈ Unfit declared parts k := by
    intro j
    simp [Unfit]
  refine and_congr (hsucc i) ⟨fun hleast j hj => ?_, fun hleast j hj => ?_⟩
  · exact Nat.le_of_succ_le_succ (hleast ((hsucc j).2 hj))
  · cases j with
    | zero => exact absurd (fitsAt_zero.2 h) hj.2
    | succ j => exact Nat.succ_le_succ (hleast ((hsucc j).1 hj))

/-- The first position that does not match is found, with what is declared there. -/
theorem mismatch?_eq_some_iff {found : Nat × String} :
    mismatch? position declared parts = some found ↔
      ∃ i m, declared[i]? = some m ∧ found = (position + i, m.label) ∧
        IsLeast (Unfit declared parts parts.length) i := by
  induction declared generalizing position parts with
  | nil => simp [mismatch?]
  | cons m declared ih =>
    cases parts with
    | nil => simp [mismatch?, Unfit, IsLeast]
    | cons s parts =>
      rw [mismatch?]
      split_ifs with h
      · rw [ih]
        constructor
        · rintro ⟨i, n, hn, rfl, hleast⟩
          exact ⟨i + 1, n, hn, by rw [Nat.add_right_comm, Nat.add_assoc], (isLeast_unfit_cons h).2 hleast⟩
        · rintro ⟨i, n, hn, rfl, hleast⟩
          cases i with
          | zero => exact absurd (fitsAt_zero.2 h) hleast.1.2
          | succ i =>
            exact ⟨i, n, hn, by rw [Nat.add_right_comm, Nat.add_assoc], (isLeast_unfit_cons h).1 hleast⟩
      · have hfirst : IsLeast (Unfit (m :: declared) (s :: parts) (parts.length + 1)) 0 :=
          ⟨⟨Nat.succ_pos _, mt fitsAt_zero.1 h⟩, fun j _ => Nat.zero_le j⟩
        constructor
        · intro hfound
          exact ⟨0, m, rfl, (Option.some.inj hfound).symm, hfirst⟩
        · rintro ⟨i, n, hn, rfl, hleast⟩
          obtain rfl : i = 0 := hleast.unique hfirst
          obtain rfl : m = n := Option.some.inj hn
          rfl

/-- No position is found where all match, as far as something is declared. -/
theorem mismatch?_eq_none_iff (h : parts.length ≤ declared.length) :
    mismatch? position declared parts = none ↔ ∀ i < parts.length, FitsAt declared parts i := by
  constructor
  · intro hnone i hi
    by_contra hunfit
    obtain ⟨j, hj⟩ : ∃ j, IsLeast (Unfit declared parts parts.length) j :=
      BddBelow.exists_isLeast_of_nonempty (OrderBot.bddBelow _) ⟨i, hi, hunfit⟩
    have hdeclared := List.getElem?_eq_getElem (hj.1.1.trans_le h)
    rw [mismatch?_eq_some_iff.2 ⟨j, _, hdeclared, rfl, hj⟩] at hnone
    cases hnone
  · intro hfits
    rw [Option.eq_none_iff_forall_ne_some]
    intro found hfound
    obtain ⟨i, m, -, -, hleast⟩ := mismatch?_eq_some_iff.1 hfound
    exact hleast.1.2 (hfits i hleast.1.1)

/-! ## The split -/

/-- A split is good only if the leftmost one is. -/
theorem exists_splitsAt_iff {left : Nat} (hleft : IsLeast {k | CommonFrom common parts k} left) :
    (∃ k, SplitsAt declared common parts k) ↔ left ≤ declared.length ∧ ∀ i < left, FitsAt declared parts i := by
  constructor
  · rintro ⟨k, hk⟩
    have hle : left ≤ k := hleft.2 hk.rest
    exact ⟨hle.trans hk.le, fun i hi => hk.fits i (hi.trans_le hle)⟩
  · rintro ⟨hle, hfits⟩
    exact ⟨left, hle, hfits, hleft.1⟩

section Check

variable {remainder : String} {left : Nat} (h : remainder ≠ "")
  (hleft : IsLeast {k | CommonFrom common (segments remainder) k} left)

include hleft in
theorem length_take_segments : ((segments remainder).take left).length = left :=
  List.length_take_of_le (hleft.2 (commonFrom_length common _))

include h hleft

/-- the check, in terms of the leftmost split -/
theorem check_eq : (positional declared common).check remainder =
    if declared.length < left then some ⟨.noFurtherSuffix, remainder⟩
    else (mismatch? 0 declared ((segments remainder).take left)).map fun (position, label) =>
      ⟨.validSuffix position label, remainder⟩ := by
  obtain ⟨htake, hleast⟩ := withoutCommon_eq_take common (segments remainder)
  obtain rfl := hleast.unique hleft
  rw [← htake]
  exact if_neg h

theorem check_eq_none_iff : (positional declared common).check remainder = none ↔
    left ≤ declared.length ∧ ∀ i < left, FitsAt declared (segments remainder) i := by
  have hlength := length_take_segments hleft
  rw [check_eq h hleft]
  split_ifs with hmore
  · exact iff_of_false not_false fun hall => absurd hall.1 (Nat.not_le.2 hmore)
  · rw [Nat.not_lt] at hmore
    rw [Option.map_eq_none_iff, mismatch?_eq_none_iff (hlength.trans_le hmore), hlength, and_iff_right hmore]
    exact forall₂_congr fun i hi => fitsAt_take hi

theorem check_eq_some_iff {v : Violation} : (positional declared common).check remainder = some v ↔
    v.sample = remainder ∧ Reports declared common (segments remainder) v.rule := by
  obtain ⟨rule, sample⟩ := v
  have hlength := length_take_segments hleft
  rw [check_eq h hleft]
  split_ifs with hmore
  · rw [Option.some_inj, Violation.mk.injEq, and_comm, eq_comm (a := remainder)]
    refine and_congr_right fun _ => ⟨fun hrule => hrule ▸ .further hleft hmore, fun hreports => ?_⟩
    cases hreports with
    | further _ _ => rfl
    | unfit hleast hle _ _ => exact absurd (hleast.unique hleft ▸ hle) (Nat.not_le.2 hmore)
  · rw [Option.map_eq_some_iff]
    constructor
    · rintro ⟨found, hfound, hv⟩
      obtain ⟨i, m, hm, rfl, hfirst⟩ := mismatch?_eq_some_iff.1 hfound
      rw [hlength, unfit_take] at hfirst
      rw [Nat.zero_add] at hv
      obtain ⟨rfl, rfl⟩ := Violation.mk.inj hv
      exact ⟨rfl, .unfit hleft (Nat.not_lt.1 hmore) hfirst hm⟩
    · rintro ⟨rfl, hreports⟩
      cases hreports with
      | further hleast hmore' => exact absurd (hleast.unique hleft ▸ hmore') hmore
      | @unfit left' i m hleast _ hfirst hm =>
        obtain rfl := hleast.unique hleft
        refine ⟨(i, m.label), mismatch?_eq_some_iff.2 ⟨i, m, hm, by rw [Nat.zero_add], ?_⟩, rfl⟩
        rwa [hlength, unfit_take]

end Check

/-- what follows the name is accepted if there is a good split -/
theorem accepts_positional_iff {remainder : String} (h : remainder ≠ "") :
    (positional declared common).accepts remainder = true ↔ ∃ k, SplitsAt declared common (segments remainder) k := by
  have hleft := (withoutCommon_eq_take common (segments remainder)).2
  rw [accepts, Option.isNone_iff_eq_none, check_eq_none_iff h hleft, exists_splitsAt_iff hleft]

/-- **The split that is tried is as good as any.** What follows the name is accepted if and only if its segments can be
parted into some that match what is declared, position by position, and others that all match common suffixes. What is
reported otherwise goes by the segments before the longest run of common ones at the end. -/
theorem check_positional_iff (declared common : List SegmentMatcher) {remainder : String} (h : remainder ≠ "") :
    ((positional declared common).accepts remainder = true ↔
        ∃ k, SplitsAt declared common (segments remainder) k) ∧
      ∀ v, (positional declared common).check remainder = some v ↔
        v.sample = remainder ∧ Reports declared common (segments remainder) v.rule :=
  ⟨accepts_positional_iff h, fun _ => check_eq_some_iff h (withoutCommon_eq_take common _).2⟩

/-- a platform may be declared and common, a device is declared only -/
def platform : SegmentMatcher := .oneOf "platform" ["ios", "mac"]

def device : SegmentMatcher := .oneOf "device" ["phone", "watch"]

/-- both splits that leave no device over are good, the leftmost one too; a device in front stands where a platform is
due -/
theorem check_positional_iff_platform :
    "iOS.Mac" ≠ "" ∧ (∃ k, SplitsAt [platform, device] [platform] (segments "iOS.Mac") k) ∧
      "watch.iOS" ≠ "" ∧
        Reports [platform, device] [platform] (segments "watch.iOS") (.validSuffix 0 "platform") := by
  have hsome : ("iOS.Mac" : String) ≠ "" := by decide
  have hunfit : ("watch.iOS" : String) ≠ "" := by decide
  have haccepts : (positional [platform, device] [platform]).accepts "iOS.Mac" = true := by decide
  have hcheck : (positional [platform, device] [platform]).check "watch.iOS" =
      some ⟨.validSuffix 0 "platform", "watch.iOS"⟩ := by decide
  exact ⟨hsome, (check_positional_iff _ _ hsome).1.1 haccepts, hunfit,
    (((check_positional_iff _ _ hunfit).2 _).1 hcheck).2⟩

end SuffixesMatcher

end PixelAudit
