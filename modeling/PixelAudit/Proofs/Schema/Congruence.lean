/-
Alike declarations are compiled to alike rules.

Of a bound only its value is looked at, and of a version only what it is up to zeros at the end. So declarations that are
alike are refused together, or they are compiled to rules that differ in nothing else: `Agree` says this of two
computations, and it passes through their parts.

Main results: `ParamsMatcher.compile_agree` (the parameters of a family), `FamilySchema.compile_agree` (all its rules).
-/
import PixelAudit.Schema.Family
import PixelAudit.Proofs.Definition.Equality
import PixelAudit.Proofs.Schema.Matcher
import Mathlib.Tactic

namespace PixelAudit

/-- two computations both fail, or both succeed with results that are related -/
inductive Agree {ε α β : Type} (R : α → β → Prop) : Except ε α → Except ε β → Prop
  | ok {a : α} {b : β} (h : R a b) : Agree R (.ok a) (.ok b)
  | error (e e' : ε) : Agree R (.error e) (.error e')

namespace Agree

variable {ε α β γ δ : Type} {R : α → β → Prop} {S : γ → δ → Prop} {x : Except ε α} {y : Except ε β}

theorem self (x : Except ε α) : Agree Eq x x := by
  cases x with
  | error e => exact .error e e
  | ok a => exact .ok rfl

theorem bind {f : α → Except ε γ} {g : β → Except ε δ} (h : Agree R x y)
    (hfg : ∀ a b, R a b → Agree S (f a) (g b)) : Agree S (x >>= f) (y >>= g) := by
  cases h with
  | ok h => exact hfg _ _ h
  | error e e' => exact .error e e'

theorem map {f : α → γ} {g : β → δ} (h : Agree R x y) (hfg : ∀ a b, R a b → S (f a) (g b)) :
    Agree S (x.map f) (y.map g) := by
  cases h with
  | ok h => exact .ok (hfg _ _ h)
  | error e e' => exact .error e e'

theorem isOk_eq (h : Agree R x y) : x.isOk = y.isOk := by
  cases h <;> rfl

theorem of_ok {a : α} {b : β} (h : @Agree ε α β R (.ok a) (.ok b)) : R a b := by
  cases h with
  | ok h => exact h

/-- steps that agree on related items agree on related lists of them -/
theorem foldlM {f : α → γ → Except ε α} {g : β → δ → Except ε β} {cs : List γ} {ds : List δ} {a : α} {b : β}
    (hstep : ∀ a b c d, R a b → S c d → Agree R (f a c) (g b d)) (hlist : List.Forall₂ S cs ds) (h : R a b) :
    Agree R (cs.foldlM f a) (ds.foldlM g b) := by
  induction hlist generalizing a b with
  | nil => exact .ok h
  | cons hhead _ ih =>
    rw [List.foldlM_cons, List.foldlM_cons]
    exact (hstep a b _ _ h hhead).bind fun a b hab => ih hab

/-- computations that agree on every item agree on a list of items -/
theorem mapM {f : γ → Except ε α} {g : δ → Except ε β} {cs : List γ} {ds : List δ}
    (hstep : ∀ c d, S c d → Agree R (f c) (g d)) (hlist : List.Forall₂ S cs ds) :
    Agree (List.Forall₂ R) (cs.mapM f) (ds.mapM g) := by
  induction hlist with
  | nil => exact .ok .nil
  | cons hhead _ ih =>
    rw [List.mapM_cons, List.mapM_cons]
    exact (hstep _ _ hhead).bind fun a b hab => ih.bind fun as bs hrest => .ok (.cons hab hrest)

end Agree

open AppVersion (SameFloor)

/-! ## Values -/

namespace ValueCheck

/-- the same rules, with alike bounds -/
structure Alike (c d : ValueCheck) : Prop where
  allowed : c.allowed = d.allowed
  pattern : c.pattern = d.pattern
  valueType : c.valueType = d.valueType
  minimum : AlikeBound c.minimum d.minimum
  maximum : AlikeBound c.maximum d.maximum

/-- whether bounds are empty depends on their values only -/
theorem checkBounds_agree {a b c d : Option Decimal.Binary64} (h : AlikeBound a b) (h2 : AlikeBound c d) :
    Agree Eq (checkBounds a c) (checkBounds b d) := by
  cases a with
  | none =>
    cases b with
    | none => exact .ok rfl
    | some y => cases h
  | some x =>
    cases b with
    | none => cases h
    | some y =>
      cases c with
      | none =>
        cases d with
        | none => exact .ok rfl
        | some w => cases h2
      | some z =>
        cases d with
        | none => cases h2
        | some w =>
          have hlt : z.lt x = w.lt y := Decimal.Binary64.lt_congr (Option.some.inj h2) (Option.some.inj h)
          simp only [checkBounds, hlt]
          split_ifs
          · exact .error _ _
          · exact .ok rfl

theorem compile_agree {p q : ParamSpec} (h : p.Alike q) (lowerCase : Bool) :
    Agree Alike (compile p.rules lowerCase) (compile q.rules lowerCase) := by
  obtain ⟨minimum, maximum, minVersion, rfl, hminimum, hmaximum, -⟩ := h.exists_eq
  unfold compile
  refine (Agree.self _).bind fun pattern _ heq => ?_
  subst heq
  refine (checkBounds_agree hminimum hmaximum).bind fun _ _ _ => ?_
  exact .ok ⟨rfl, rfl, rfl, hminimum, hmaximum⟩

end ValueCheck

/-! ## Parameters -/

/-- the same parameter, with alike rules for its value -/
structure CompiledParam.Alike (p q : CompiledParam) : Prop where
  label : p.label = q.label
  keyPattern : p.keyPattern = q.keyPattern
  required : p.required = q.required
  value : p.value.Alike q.value

namespace ParamsMatcher

/-- the same parameters under the same indices, with alike rules, and the same floor -/
structure Alike (m n : ParamsMatcher) : Prop where
  plain : { m with params := [], versionFloor := none } = { n with params := [], versionFloor := none }
  params : List.Forall₂ CompiledParam.Alike m.params n.params
  versionFloor : SameFloor m.versionFloor n.versionFloor

/-- a matcher that is alike is this one with other rules and another floor -/
theorem Alike.exists_eq {m n : ParamsMatcher} (h : m.Alike n) : ∃ params versionFloor,
    n = { m with params := params, versionFloor := versionFloor } ∧
      List.Forall₂ CompiledParam.Alike m.params params ∧ SameFloor m.versionFloor versionFloor := by
  refine ⟨n.params, n.versionFloor, ?_, h.params, h.versionFloor⟩
  have hplain := h.plain
  simp only [mk.injEq, true_and] at hplain
  obtain ⟨params, byKey, patterned, required, ignored, lowerCase, floor⟩ := n
  simp_all

theorem newest_eq (floor version : Option AppVersion) : newest floor version = AppVersion.newer? floor version := by
  cases floor with
  | none => cases version <;> rfl
  | some floor =>
    cases version with
    | none => rfl
    | some v =>
      simp only [newest, AppVersion.newer?, AppVersion.newer]
      split_ifs <;> rfl

variable {m n : ParamsMatcher} {p q : ParamSpec}

theorem Alike.raiseFloor (h : m.Alike n) {version version' : Option AppVersion} (hversion : SameFloor version version') :
    (m.raiseFloor version).Alike (n.raiseFloor version') := by
  rw [raiseFloor_eq, raiseFloor_eq, newest_eq, newest_eq]
  exact ⟨h.plain, h.params, AppVersion.newer?_congr h.versionFloor hversion⟩

theorem Alike.addKey (h : m.Alike n) (hspec : p.Alike q) (key : String) {value value' : ValueCheck}
    (hvalue : value.Alike value') : (m.addKey p key value).Alike (n.addKey q key value') := by
  obtain ⟨params, floor, rfl, hparams, hfloor⟩ := h.exists_eq
  obtain ⟨minimum, maximum, version, rfl, -, -, hversion⟩ := hspec.exists_eq
  have hlength := hparams.length_eq
  have hparam : CompiledParam.Alike ⟨foldText m.lowerCase key, none, p.required, value⟩
      ⟨foldText m.lowerCase key, none, p.required, value'⟩ := ⟨rfl, rfl, rfl, hvalue⟩
  have hpushed := List.rel_append hparams (.cons hparam .nil)
  unfold ParamsMatcher.addKey
  dsimp only [push]
  rw [← hlength]
  split_ifs
  · exact h
  · exact ⟨rfl, hpushed, hfloor⟩
  · refine Alike.raiseFloor ?_ hversion
    exact ⟨rfl, hpushed, hfloor⟩
  · refine Alike.raiseFloor ?_ hversion
    exact ⟨rfl, hpushed, hfloor⟩

theorem Alike.addPattern (h : m.Alike n) (hspec : p.Alike q) (source : String) (pattern : Pattern)
    {value value' : ValueCheck} (hvalue : value.Alike value') :
    (m.addPattern p source pattern value).Alike (n.addPattern q source pattern value') := by
  obtain ⟨params, floor, rfl, hparams, hfloor⟩ := h.exists_eq
  have hparam : CompiledParam.Alike ⟨source, some pattern, false, value⟩ ⟨source, some pattern, false, value'⟩ :=
    ⟨rfl, rfl, rfl, hvalue⟩
  unfold ParamsMatcher.addPattern
  dsimp only [push]
  rw [← hparams.length_eq]
  refine Alike.raiseFloor ?_ hspec.minVersion
  exact ⟨rfl, List.rel_append hparams (.cons hparam .nil), hfloor⟩

theorem Alike.add (experiments : Experiments) (h : m.Alike n) (hspec : p.Alike q) :
    Agree Alike (m.add experiments p) (n.add experiments q) := by
  have hlower : n.lowerCase = m.lowerCase := by
    obtain ⟨_, _, rfl, -, -⟩ := h.exists_eq
    rfl
  have hvalue := ValueCheck.compile_agree hspec m.lowerCase
  have hsame : experiments.allows q = experiments.allows p ∧ q.key = p.key ∧ q.keyPattern = p.keyPattern := by
    obtain ⟨_, _, _, rfl, -, -, -⟩ := hspec.exists_eq
    exact ⟨rfl, rfl, rfl⟩
  obtain ⟨hallows, hkey, hpattern⟩ := hsame
  unfold ParamsMatcher.add
  rw [hallows, hkey, hpattern, hlower]
  split_ifs
  · exact .ok h
  · refine hvalue.bind fun value value' hvalue => ?_
    cases p.key with
    | some key => exact .ok (h.addKey hspec key hvalue)
    | none =>
      cases p.keyPattern with
      | none => exact .error _ _
      | some source =>
        refine (Agree.self _).bind fun pattern _ heq => ?_
        subst heq
        exact .ok (h.addPattern hspec source pattern hvalue)

theorem compile_agree {ps qs : List ParamSpec} (h : List.Forall₂ ParamSpec.Alike ps qs) (ctx : CompileContext) :
    Agree Alike (compile ps ctx) (compile qs ctx) := by
  have hcommon : List.Forall₂ ParamSpec.Alike ctx.commonParams.values ctx.commonParams.values :=
    List.forall₂_same.2 fun p _ => ParamSpec.Alike.refl p
  exact Agree.foldlM (fun m n p q hm hp => hm.add ctx.experiments hp) (List.rel_append h hcommon) ⟨rfl, .nil, rfl⟩

end ParamsMatcher

namespace FamilySchema

/-- alike parameters, and the same suffixes -/
structure Alike (s t : FamilySchema) : Prop where
  params : s.params.Alike t.params
  suffixes : s.suffixes = t.suffixes

/-- alike declarations are refused together, or compiled to alike rules -/
theorem compile_agree {ps qs : List ParamSpec} (h : List.Forall₂ ParamSpec.Alike ps qs) (suffixes : List SuffixSpec)
    (ctx : CompileContext) : Agree Alike (compile ps suffixes ctx) (compile qs suffixes ctx) := by
  refine (ParamsMatcher.compile_agree h ctx).bind fun m n hmn => ?_
  refine (Agree.self _).bind fun matcher _ heq => ?_
  subst heq
  exact .ok ⟨hmn, rfl⟩

end FamilySchema

end PixelAudit
