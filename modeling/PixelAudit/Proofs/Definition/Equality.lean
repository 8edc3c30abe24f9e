/-
When two definitions count as equal.

Bounds are compared by value and versions up to zeros at the end, so equal definitions need not be identical. A bound
that is not a number equals nothing, itself included: equality is symmetric and transitive, but a definition with such a
bound does not equal itself. `Alike` is the equivalence that is left when `nan` counts as one more value. Nothing that is
computed from values tells alike bounds apart, so this is what later stages preserve.

Main results: `PixelDefinition.same_symm`, `PixelDefinition.same_trans` (equality is symmetric and transitive),
`PixelDefinition.same_iff_alike` (it is the equivalence, for definitions without such a bound),
`PixelDefinition.same_self_iff` (which definitions equal themselves).
-/
import PixelAudit.Definition.Record
import PixelAudit.Proofs.Definition.Stored
import PixelAudit.Proofs.VersionOrder
import Mathlib.Tactic
import Mathlib.Order.WithBot

namespace PixelAudit

open Decimal (Binary64)
open AppVersion (SameFloor)

/-! ## Bounds -/

namespace Decimal.Binary64

variable {x y z w : Binary64}

/-- the place of a number in the order of values; `nan` has none -/
def place : Binary64 → Option (WithBot (WithTop ℤ))
  | .nan => none
  | .infinite negative => some (if negative then ⊥ else ↑(⊤ : WithTop ℤ))
  | .finite s m e h => some (((finite s m e h).units : WithTop ℤ) : WithBot (WithTop ℤ))

theorem place_eq_none_iff : x.place = none ↔ x = .nan := by
  cases x <;> simp [place]

theorem lt_iff : x.lt y = true ↔ ∃ p q, x.place = some p ∧ y.place = some q ∧ p < q := by
  cases x with
  | nan => simp [lt, place]
  | infinite s =>
    cases y with
    | nan => simp [lt, place]
    | infinite t => cases s <;> cases t <;> simp [lt, place]
    | finite t n f => cases s <;> simp [lt, place]
  | finite s m e h =>
    cases y with
    | nan => simp [lt, place]
    | infinite t =>
      have htop : (((finite s m e h).units : WithTop ℤ) : WithBot (WithTop ℤ)) < ⊤ :=
        WithBot.coe_lt_coe.2 (WithTop.coe_lt_top _)
      cases t <;> simp [lt, place, htop]
    | finite t n f => simp [lt, place]

theorem same_iff : x.same y = true ↔ x.place = y.place ∧ x ≠ .nan := by
  cases x with
  | nan => simp [same]
  | infinite s =>
    cases y with
    | nan => simp [same, place]
    | infinite t => cases s <;> cases t <;> simp [same, place]
    | finite t n f => cases s <;> simp [same, place]
  | finite s m e h =>
    cases y with
    | nan => simp [same, place]
    | infinite t => cases t <;> simp [same, place]
    | finite t n f => simp [same, place]

/-- the order of values looks at the places only -/
theorem lt_congr (h : x.place = y.place) (h2 : z.place = w.place) : x.lt z = y.lt w := by
  rw [Bool.eq_iff_iff, lt_iff, lt_iff, h, h2]

end Decimal.Binary64

/-- bounds that need not be there: the same value, both not a number, or none on both sides -/
def AlikeBound (a b : Option Binary64) : Prop := a.map Binary64.place = b.map Binary64.place

theorem sameBound_iff {a b : Option Binary64} :
    sameOption Binary64.same a b = true ↔ (∀ x ∈ a, x ≠ .nan) ∧ AlikeBound a b := by
  cases a <;> cases b <;> simp [sameOption, AlikeBound, Binary64.same_iff, and_comm]

theorem sameList_iff {α : Type} {same : α → α → Bool} {as bs : List α} :
    sameList same as bs = true ↔ List.Forall₂ (fun x y => same x y = true) as bs := by
  induction as generalizing bs with
  | nil => cases bs <;> simp [sameList]
  | cons a as ih => cases bs <;> simp [sameList, ih]

/-! ## Parameters -/

namespace ParamSpec

/-- equal rules, if a bound that is not a number counts as a value -/
structure Alike (p q : ParamSpec) : Prop where
  /-- all but bounds and version are identical -/
  plain : { p with minimum := none, maximum := none, minVersion := none } =
    { q with minimum := none, maximum := none, minVersion := none }
  minimum : AlikeBound p.minimum q.minimum
  maximum : AlikeBound p.maximum q.maximum
  minVersion : SameFloor p.minVersion q.minVersion

variable {p q r : ParamSpec}

theorem Alike.refl (p : ParamSpec) : p.Alike p := ⟨rfl, rfl, rfl, rfl⟩

theorem Alike.symm (h : p.Alike q) : q.Alike p := ⟨h.plain.symm, h.minimum.symm, h.maximum.symm, h.minVersion.symm⟩

theorem Alike.trans (h : p.Alike q) (h2 : q.Alike r) : p.Alike r :=
  ⟨h.plain.trans h2.plain, h.minimum.trans h2.minimum, h.maximum.trans h2.maximum, h.minVersion.trans h2.minVersion⟩

/-- a parameter that is alike is this one with other bounds and another version -/
theorem Alike.exists_eq (h : p.Alike q) : ∃ minimum maximum minVersion,
    q = { p with minimum := minimum, maximum := maximum, minVersion := minVersion } ∧
      AlikeBound p.minimum minimum ∧ AlikeBound p.maximum maximum ∧ SameFloor p.minVersion minVersion := by
  refine ⟨q.minimum, q.maximum, q.minVersion, ?_, h.minimum, h.maximum, h.minVersion⟩
  have hplain := h.plain
  simp only [mk.injEq, true_and] at hplain ⊢
  obtain ⟨key, keyPattern, description, valueType, allowed, pattern, minimum, maximum, required, version, gate⟩ := q
  simp_all

/-- alike parameters have bounds at the same places -/
theorem Alike.places (h : p.Alike q) : p.bounds.map Binary64.place = q.bounds.map Binary64.place := by
  have htoList : ∀ o : Option Binary64, o.toList.map Binary64.place = (o.map Binary64.place).toList := by
    intro o
    cases o <;> rfl
  rw [bounds, bounds, List.map_append, List.map_append, htoList, htoList, htoList, htoList, h.minimum, h.maximum]

theorem same_iff_alike : p.same q = true ↔ (∀ x ∈ p.bounds, x ≠ .nan) ∧ p.Alike q := by
  have hbounds : (∀ x ∈ p.bounds, x ≠ .nan) ↔ (∀ x ∈ p.minimum, x ≠ .nan) ∧ ∀ x ∈ p.maximum, x ≠ .nan := by
    simp only [bounds, List.mem_append, Option.mem_toList, or_imp, forall_and, Option.mem_def]
  have halike : p.Alike q ↔ _ ∧ _ ∧ _ ∧ _ :=
    ⟨fun h => ⟨h.plain, h.minimum, h.maximum, h.minVersion⟩, fun h => ⟨h.1, h.2.1, h.2.2.1, h.2.2.2⟩⟩
  rw [hbounds, halike]
  simp only [same, Bool.and_eq_true, beq_iff_eq, sameBound_iff, AppVersion.sameFloor_iff, mk.injEq, true_and]
  tauto

end ParamSpec

namespace PixelDefinition

/-- equal definitions, if a bound that is not a number counts as a value -/
structure Alike (d e : PixelDefinition) : Prop where
  /-- all but parameters and version are identical -/
  plain : { d with parameters := [], minVersion := none } = { e with parameters := [], minVersion := none }
  parameters : List.Forall₂ ParamSpec.Alike d.parameters e.parameters
  minVersion : SameFloor d.minVersion e.minVersion

variable {d e f : PixelDefinition}

theorem Alike.refl (d : PixelDefinition) : d.Alike d :=
  ⟨rfl, List.forall₂_same.2 fun p _ => ParamSpec.Alike.refl p, rfl⟩

theorem Alike.symm (h : d.Alike e) : e.Alike d :=
  ⟨h.plain.symm, (h.parameters.imp fun _ _ hp => hp.symm).flip, h.minVersion.symm⟩

theorem Alike.trans (h : d.Alike e) (h2 : e.Alike f) : d.Alike f := by
  have hparameters : ∀ {ps qs rs : List ParamSpec}, List.Forall₂ ParamSpec.Alike ps qs →
      List.Forall₂ ParamSpec.Alike qs rs → List.Forall₂ ParamSpec.Alike ps rs := by
    intro ps qs rs hpq
    induction hpq generalizing rs with
    | nil => exact fun hqr => hqr
    | cons hp _ ih =>
      rintro (_ | ⟨hq, hrest⟩)
      exact .cons (hp.trans hq) (ih hrest)
  exact ⟨h.plain.trans h2.plain, hparameters h.parameters h2.parameters, h.minVersion.trans h2.minVersion⟩

/-- equality is being alike, for definitions without a bound that is not a number -/
theorem same_iff_alike : d.same e = true ↔ (∀ x ∈ d.bounds, x ≠ .nan) ∧ d.Alike e := by
  have hbounds : (∀ x ∈ d.bounds, x ≠ .nan) ↔ ∀ p ∈ d.parameters, ∀ x ∈ p.bounds, x ≠ .nan := by
    simp only [bounds, List.mem_flatMap]
    constructor
    · intro h p hp x hx
      exact h x ⟨p, hp, hx⟩
    · rintro h x ⟨p, hp, hx⟩
      exact h p hp x hx
  have halike : d.Alike e ↔ _ ∧ _ ∧ _ :=
    ⟨fun h => ⟨h.plain, h.parameters, h.minVersion⟩, fun h => ⟨h.1, h.2.1, h.2.2⟩⟩
  rw [hbounds, halike]
  simp only [same, Bool.and_eq_true, beq_iff_eq, sameList_iff, AppVersion.sameFloor_iff, ParamSpec.same_iff_alike,
    List.forall₂_and_left, mk.injEq, true_and]
  tauto

/-- alike definitions have bounds at the same places -/
theorem Alike.places (h : d.Alike e) : d.bounds.map Binary64.place = e.bounds.map Binary64.place := by
  have hparameters := h.parameters
  rw [bounds, bounds]
  generalize d.parameters = ps, e.parameters = qs at hparameters
  induction hparameters with
  | nil => rfl
  | cons hp _ ih => rw [List.flatMap_cons, List.flatMap_cons, List.map_append, List.map_append, hp.places, ih]

theorem ne_nan_iff (d : PixelDefinition) : (∀ x ∈ d.bounds, x ≠ .nan) ↔ none ∉ d.bounds.map Binary64.place := by
  simp only [List.mem_map, Binary64.place_eq_none_iff, exists_eq_right]
  exact ⟨fun h hnan => h _ hnan rfl, fun h x hx hnan => h (hnan ▸ hx)⟩

theorem same_symm (h : d.same e = true) : e.same d = true := by
  rw [same_iff_alike] at h ⊢
  refine ⟨?_, h.2.symm⟩
  rw [ne_nan_iff, ← h.2.places, ← ne_nan_iff]
  exact h.1

theorem same_trans (h : d.same e = true) (h2 : e.same f = true) : d.same f = true := by
  rw [same_iff_alike] at h h2 ⊢
  exact ⟨h.1, h.2.trans h2.2⟩

/-- a definition equals itself if no bound of it is not a number -/
theorem same_self_iff (d : PixelDefinition) : d.same d = true ↔ ∀ x ∈ d.bounds, x ≠ .nan := by
  rw [same_iff_alike]
  exact and_iff_left (Alike.refl d)

end PixelDefinition

end PixelAudit
