/-
The comparison of versions, as an order.

What a version does not have counts as zero, so versions do not stand in the lexicographic order of their numbers: `2`
is not before `2.0`. They do once both are filled up with zeros to one length, whichever that is
(`compareSegments_eq_compare_rightpad`), and from the order of lists the comparison has its laws. Two versions are the
same if the same is left of them without the zeros at their ends (`compareSegments_eq_iff_withoutEndZeros`).

Main result: `version_order` (the comparison is a total order of versions, those that are the same taken as one, and the
newer of two floors is their least upper bound).
-/
import PixelAudit.Proofs.VersionOrder
import Mathlib.Data.List.DropRight

namespace PixelAudit.AppVersion

/-! ## Padding -/

/-- the first numbers decide between two lists, unless they are equal -/
theorem compare_cons_cons (a b : UInt64) (as bs : List UInt64) :
    Ord.compare (a :: as) (b :: bs) = if a < b then .lt else if b < a then .gt else Ord.compare as bs := by
  rw [List.compare_cons_cons]
  by_cases hlt : a < b
  · simp [hlt, show Ord.compare a b = .lt from if_pos hlt]
  · by_cases heq : a = b
    · subst heq
      simp
    · have hgt : b < a := UInt64.lt_of_le_of_ne (UInt64.not_lt.1 hlt) (Ne.symm heq)
      have hcompare : Ord.compare a b = .gt := (if_neg hlt).trans (if_neg heq)
      simp [hlt, hgt, hcompare]

/-- the first numbers decide between two versions, unless they are equal; one that is not there is zero -/
theorem compareSegments_headD (as bs : List UInt64) :
    compareSegments as bs = if as.headD 0 < bs.headD 0 then .lt else if bs.headD 0 < as.headD 0 then .gt
      else compareSegments as.tail bs.tail := by
  cases as with
  | nil =>
    cases bs with
    | nil => rfl
    | cons b bs => by_cases hb : b = 0 <;> simp [compareSegments, hb, UInt64.pos_iff_ne_zero]
  | cons a as =>
    cases bs with
    | nil => by_cases ha : a = 0 <;> simp [compareSegments, ha, UInt64.pos_iff_ne_zero]
    | cons b bs => rfl

theorem rightpad_succ (as : List UInt64) (n : ℕ) : as.rightpad (n + 1) 0 = as.headD 0 :: as.tail.rightpad n 0 := by
  cases as with
  | nil => rfl
  | cons a as => simp [List.rightpad]

/-- versions compare as the lists do that are filled up with zeros to one length -/
theorem compareSegments_eq_compare_rightpad {as bs : List UInt64} {n : ℕ} (ha : as.length ≤ n)
    (hb : bs.length ≤ n) : compareSegments as bs = Ord.compare (as.rightpad n 0) (bs.rightpad n 0) := by
  induction n generalizing as bs with
  | zero =>
    obtain rfl := List.eq_nil_of_length_eq_zero (Nat.le_zero.1 ha)
    obtain rfl := List.eq_nil_of_length_eq_zero (Nat.le_zero.1 hb)
    rfl
  | succ n ih =>
    have has : as.tail.length ≤ n := by rw [List.length_tail]; omega
    have hbs : bs.tail.length ≤ n := by rw [List.length_tail]; omega
    rw [rightpad_succ, rightpad_succ, compare_cons_cons, ← ih has hbs, compareSegments_headD]

/-- the laws of the order of lists hold of versions: any few of them can be filled up to one length -/
instance : Std.TransCmp compareSegments where
  eq_swap {as bs} := by
    rw [compareSegments_eq_compare_rightpad (le_max_left as.length bs.length) (le_max_right _ _),
      compareSegments_eq_compare_rightpad (le_max_right as.length bs.length) (le_max_left _ _)]
    exact Std.OrientedCmp.eq_swap
  isLE_trans {as bs cs} hab hbc := by
    obtain ⟨n, ha, hb, hc⟩ : ∃ n, as.length ≤ n ∧ bs.length ≤ n ∧ cs.length ≤ n :=
      ⟨as.length + bs.length + cs.length, by omega, by omega, by omega⟩
    rw [compareSegments_eq_compare_rightpad ha hb] at hab
    rw [compareSegments_eq_compare_rightpad hb hc] at hbc
    rw [compareSegments_eq_compare_rightpad ha hc]
    exact Std.TransCmp.isLE_trans hab hbc

/-! ## Zeros at the end -/

/-- the numbers of a version up to the last that is not zero -/
def withoutEndZeros (segments : List UInt64) : List UInt64 := segments.rdropWhile (· == 0)

theorem withoutEndZeros_eq_nil_iff {as : List UInt64} : withoutEndZeros as = [] ↔ ∀ a ∈ as, a = 0 := by
  simp [withoutEndZeros, List.rdropWhile_eq_nil_iff]

theorem withoutEndZeros_cons (a : UInt64) (as : List UInt64) :
    withoutEndZeros (a :: as) = if a = 0 ∧ withoutEndZeros as = [] then [] else a :: withoutEndZeros as := by
  simp only [withoutEndZeros, List.rdropWhile, List.reverse_cons, List.dropWhile_append, List.reverse_eq_nil_iff]
  by_cases hrest : as.reverse.dropWhile (· == 0) = []
  · by_cases ha : a = 0 <;> simp [hrest, ha]
  · simp [hrest]

/-- the first number is the same if the same is left of two lists without the zeros at their ends -/
theorem eq_of_withoutEndZeros_cons {a b : UInt64} {as bs : List UInt64}
    (h : withoutEndZeros (a :: as) = withoutEndZeros (b :: bs)) : a = b := by
  rw [withoutEndZeros_cons, withoutEndZeros_cons] at h
  split_ifs at h with ha hb hb
  · rw [ha.1, hb.1]
  · exact (List.cons.inj h).1

theorem withoutEndZeros_cons_inj (a : UInt64) (as bs : List UInt64) :
    withoutEndZeros (a :: as) = withoutEndZeros (a :: bs) ↔ withoutEndZeros as = withoutEndZeros bs := by
  rw [withoutEndZeros_cons, withoutEndZeros_cons]
  split_ifs with has hbs hbs
  · simp [has.2, hbs.2]
  · have hne : withoutEndZeros bs ≠ [] := fun h => hbs ⟨has.1, h⟩
    rw [has.2]
    exact iff_of_false not_false hne.symm
  · have hne : withoutEndZeros as ≠ [] := fun h => has ⟨hbs.1, h⟩
    rw [hbs.2]
    exact iff_of_false not_false hne
  · simp

/-- versions are the same if the same is left of them without the zeros at their ends -/
theorem compareSegments_eq_iff_withoutEndZeros (as bs : List UInt64) :
    compareSegments as bs = .eq ↔ withoutEndZeros as = withoutEndZeros bs := by
  induction as generalizing bs with
  | nil =>
    rw [compareSegments_nil_eq_iff, ← withoutEndZeros_eq_nil_iff]
    exact eq_comm
  | cons a as ih =>
    cases bs with
    | nil =>
      have hrest : compareSegments as [] = .eq ↔ withoutEndZeros as = [] := ih []
      rw [compareSegments, withoutEndZeros_cons, show withoutEndZeros [] = [] from rfl]
      by_cases ha : a = 0 <;> simp [ha, hrest]
    | cons b bs =>
      by_cases hab : a = b
      · subst hab
        have hrest : compareSegments (a :: as) (a :: bs) = compareSegments as bs := by simp [compareSegments]
        rw [hrest, ih, withoutEndZeros_cons_inj]
      · exact iff_of_false (fun h => hab ((compareSegments_eq_iff _ _).1 h 0))
          fun h => hab (eq_of_withoutEndZeros_cons h)

example : compareSegments [2] [2, 0, 0] = .eq ∧ compareSegments [1, 10] [1, 9, 9] = .gt := by decide

/-! ## The newer of two floors -/

theorem sameFloor_iff_rank? {x y : Option AppVersion} : SameFloor x y ↔ rank? x = rank? y := by
  have hrank : ∀ a b : AppVersion, a.numberAt = b.numberAt ↔ a.rank = b.rank := by
    intro a b
    rw [rank, rank, toLex_inj, funext_iff, funext_iff]
    exact forall_congr' fun i => UInt64.toNat_inj.symm
  cases x <;> cases y <;> simp [SameFloor, rank?, hrank]

/-- the newer of two floors is one of them -/
theorem newer?_eq_or (x y : Option AppVersion) : newer? x y = x ∨ newer? x y = y := by
  cases x with
  | none => exact Or.inr rfl
  | some a =>
    cases y with
    | none => exact Or.inl rfl
    | some b =>
      rcases ite_eq_or_eq (a.older b = true) b a with h | h
      · exact Or.inr (congrArg some h)
      · exact Or.inl (congrArg some h)

/-! ## The laws -/

/-- the comparison, for lists of any lengths, as a total order of which some are the same -/
structure ComparisonLaws : Prop where
  total : ∀ as bs, (compareSegments as bs).isLE = true ∨ (compareSegments bs as).isLE = true
  swap : ∀ as bs, compareSegments as bs = (compareSegments bs as).swap
  trans : ∀ as bs cs, (compareSegments as bs).isLE = true → (compareSegments bs cs).isLE = true →
    (compareSegments as cs).isLE = true
  /-- two of which neither is later are the same -/
  antisymm : ∀ as bs, (compareSegments as bs).isLE = true ∧ (compareSegments bs as).isLE = true ↔
    compareSegments as bs = .eq
  equivalence : Equivalence fun as bs => compareSegments as bs = .eq
  /-- those are the same that are equal without the zeros at their ends -/
  eq_iff : ∀ as bs, compareSegments as bs = .eq ↔ withoutEndZeros as = withoutEndZeros bs
  /-- filled up with zeros to one length, whichever it is, they stand in lexicographic order -/
  padded : ∀ as bs n, as.length ≤ n → bs.length ≤ n →
    compareSegments as bs = Ord.compare (as.rightpad n 0) (bs.rightpad n 0)
  /-- versions are the same if their numbers are -/
  same_iff : ∀ a b : AppVersion, a.same b = true ↔ compareSegments a.segments b.segments = .eq

/-- the newer of two versions, which need not be there, as the least one that is no older than both -/
structure NewerLaws : Prop where
  upper : ∀ x y : Option AppVersion, AtMost x (newer? x y) ∧ AtMost y (newer? x y)
  one_of : ∀ x y : Option AppVersion, sameOption same (newer? x y) x = true ∨ sameOption same (newer? x y) y = true
  least : ∀ x y z : Option AppVersion, AtMost x z → AtMost y z → AtMost (newer? x y) z
  comm : ∀ x y : Option AppVersion, sameOption same (newer? x y) (newer? y x) = true
  assoc : ∀ x y z : Option AppVersion, sameOption same (newer? (newer? x y) z) (newer? x (newer? y z)) = true

theorem comparisonLaws : ComparisonLaws where
  total as bs := by
    have hswap : compareSegments bs as = (compareSegments as bs).swap := Std.OrientedCmp.eq_swap
    rw [hswap]
    cases compareSegments as bs <;> simp
  swap _ _ := Std.OrientedCmp.eq_swap
  trans _ _ _ := Std.TransCmp.isLE_trans
  antisymm as bs := by
    have hswap : compareSegments bs as = (compareSegments as bs).swap := Std.OrientedCmp.eq_swap
    rw [hswap]
    cases compareSegments as bs <;> simp
  equivalence := by
    simp only [compareSegments_eq_iff_withoutEndZeros]
    exact ⟨fun _ => rfl, Eq.symm, Eq.trans⟩
  eq_iff := compareSegments_eq_iff_withoutEndZeros
  padded _ _ _ := compareSegments_eq_compare_rightpad
  same_iff _ _ := beq_iff_eq

theorem sameOption_iff_rank? {x y : Option AppVersion} : sameOption same x y = true ↔ rank? x = rank? y :=
  sameFloor_iff.trans sameFloor_iff_rank?

/-- the newer version is the one of the greater rank, and ranks are in order -/
theorem newerLaws : NewerLaws where
  upper x y := by
    rw [atMost_iff, atMost_iff, rank?_newer?]
    exact ⟨le_max_left _ _, le_max_right _ _⟩
  one_of x y := by
    rcases newer?_eq_or x y with h | h
    · exact Or.inl (sameOption_iff_rank?.2 (congrArg rank? h))
    · exact Or.inr (sameOption_iff_rank?.2 (congrArg rank? h))
  least x y z hx hy := by
    rw [atMost_iff] at hx hy ⊢
    rw [rank?_newer?]
    exact max_le hx hy
  comm x y := by rw [sameOption_iff_rank?, rank?_newer?, rank?_newer?, max_comm]
  assoc x y z := by
    rw [sameOption_iff_rank?, rank?_newer?, rank?_newer?, rank?_newer?, rank?_newer?, max_assoc]

/-- **The order of versions.** The comparison is a total order of lists of numbers of any lengths, those that differ by
zeros at their ends taken as one, and the newer of two versions is their least upper bound in it. -/
theorem version_order : ComparisonLaws ∧ NewerLaws := ⟨comparisonLaws, newerLaws⟩

end PixelAudit.AppVersion
