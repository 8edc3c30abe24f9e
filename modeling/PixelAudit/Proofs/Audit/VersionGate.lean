/-
The least version of a product.

It is handed down from the top of the tree and takes part in nothing but the floors of the families. So a product that
asks for a later version compiles to the same families, with floors that are no earlier; the same catalogs can be
compiled for it. An event that was too old stays too old, and an event that is not too old now is judged as it was.

Main results: `build_raised` (the catalogs for two least versions), `judge_raised` (the verdicts by them).
-/
import PixelAudit.Proofs.Audit.Classification
import PixelAudit.Proofs.Catalog.Congruence
import Mathlib.Tactic

namespace PixelAudit

open AppVersion (AtMost)
open Catalog (new nestedSources)
open CompiledNode (exists_build exists_build_of_map)
open Text (pieces)

/-- the same family, with a floor that is no earlier -/
structure PixelFamily.Raised (f g : PixelFamily) : Prop where
  name : f.name = g.name
  owners : f.owners = g.owners
  schema : f.schema = g.schema
  minVersion : AtMost f.minVersion g.minVersion

/-! ## Compiling -/

/-- the same is handed down, with a floor that is no earlier -/
structure Inherited.Raised (i j : Inherited) : Prop where
  params : i.params = j.params
  suffixes : i.suffixes = j.suffixes
  minVersion : AtMost i.minVersion j.minVersion

theorem Inherited.Raised.extend {i j : Inherited} (h : i.Raised j) (d : PixelDefinition) :
    (i.extend d).Raised (j.extend d) := by
  refine ⟨?_, ?_, h.minVersion.newer? d.minVersion⟩
  · rw [Inherited.extend, Inherited.extend, h.params]
  · rw [Inherited.extend, Inherited.extend, h.suffixes]

theorem Inherited.Raised.through {i j : Inherited} (h : i.Raised j) (d : Option PixelDefinition) :
    (i.through d).Raised (j.through d) := by
  cases d with
  | none => exact h
  | some d => exact h.extend d

namespace CompiledNode

variable (ctx : CompileContext) (low high : Option AppVersion) {i j : Inherited}

theorem compileFamily_raised (path : String) (h : i.Raised j) (d : PixelDefinition) :
    Agree PixelFamily.Raised (compileFamily { ctx with minVersion := low } path i d)
      (compileFamily { ctx with minVersion := high } path j d) := by
  -- the rules of a family do not depend on the least version
  have hschema : FamilySchema.compile i.params i.suffixes { ctx with minVersion := low } =
      FamilySchema.compile j.params j.suffixes { ctx with minVersion := high } := by
    rw [h.params, h.suffixes]
    rfl
  unfold compileFamily
  rw [hschema]
  cases FamilySchema.compile j.params j.suffixes { ctx with minVersion := high } with
  | error fault => exact .error _ _
  | ok schema => exact .ok ⟨rfl, rfl, rfl, h.minVersion.newer? _⟩

theorem nodeFamily_raised (path : String) (h : i.Raised j) (d : Option PixelDefinition) :
    Agree (Option.Rel PixelFamily.Raised) (nodeFamily { ctx with minVersion := low } path i d)
      (nodeFamily { ctx with minVersion := high } path j d) := by
  cases d with
  | none => exact .ok .none
  | some d => exact (compileFamily_raised ctx low high path (h.extend d) d).map fun _ _ hfamily => .some hfamily

/-- with a later floor handed down, the same nodes are compiled, with later floors -/
theorem compile_raised (n : Node) (path : String) (h : i.Raised j) :
    Agree (Paired PixelFamily.Raised) (compile { ctx with minVersion := low } path i n)
      (compile { ctx with minVersion := high } path j n) := by
  induction n using Node.induct generalizing path i j with
  | h n ih =>
    have hfold : CompileContext.fold { ctx with minVersion := low } =
        CompileContext.fold { ctx with minVersion := high } := rfl
    refine compile_paired hfold (nodeFamily_raised ctx low high path h n.definition) ?_
    apply List.forall₂_same.2
    intro c hc
    exact ⟨rfl, fun p => ih c hc p (h.through n.definition)⟩

end CompiledNode

namespace CompiledCatalog

/-- for a later least version the same catalogs can be compiled, with later floors -/
theorem build_raised (root : Node) (ctx : CompileContext) {low high : Option AppVersion} (h : AtMost low high) :
    Agree (fun c c' => c.root.Paired PixelFamily.Raised c'.root ∧ c.lowerCase = c'.lowerCase)
      (build root { ctx with minVersion := low }) (build root { ctx with minVersion := high }) := by
  have hhanded : Inherited.Raised { minVersion := low } { minVersion := high } := ⟨rfl, rfl, h⟩
  exact (CompiledNode.compile_raised ctx low high root "" hhanded).bind fun _ _ hroot => .ok ⟨hroot, rfl⟩

/-- in catalogs with the same nodes a name leads to related families, and the same remains of it -/
theorem lookup_paired {R : PixelFamily → PixelFamily → Prop} {c c' : CompiledCatalog}
    (h : c.root.Paired R c'.root) (name : String) :
    Option.Rel R (c.lookup name).family (c'.lookup name).family ∧
      (c.lookup name).remainder = (c'.lookup name).remainder := by
  have htrail := c.root.trail_prefix (pieces '.' name)
  have hnode := (c.root.walk_trail 0 (pieces '.' name)).1
  have hpair := h (c.root.trail (pieces '.' name))
  rw [hnode] at hpair
  obtain ⟨node', hnode', hrelated⟩ := exists_of_rel hpair rfl
  have hmost : ∀ longer, longer <+: pieces '.' name → (c.root.find? longer).isSome →
      longer.length ≤ (c.root.trail (pieces '.' name)).length :=
    fun longer hlonger hfound => (CompiledNode.prefix_trail hlonger hfound).length_le
  rw [c.lookup_eq_of_longest name htrail hnode hmost, c'.lookup_eq_of_longest name htrail hnode' ?_]
  · exact ⟨hrelated, rfl⟩
  · intro longer hlonger hfound
    rw [← isSome_of_rel (h longer)] at hfound
    exact hmost longer hlonger hfound

end CompiledCatalog

/-! ## Verdicts -/

namespace Validator

variable {v : Validator} {e : RawEvent} {f g : PixelFamily}

/-- what is too old for a family is too old with a later floor -/
theorem BelowFloor.raised (h : f.Raised g) (hold : v.BelowFloor f e) : v.BelowFloor g e := by
  obtain ⟨floor, raw, observed, hfloor, hversion, hread, holder⟩ := hold
  obtain ⟨floor', hfloor', holder'⟩ := h.minVersion.exists_older hfloor holder
  exact ⟨floor', raw, observed, hfloor', hversion, hread, holder'⟩

/-- an event whose version can be read, if it has one, has no fault but those that the rules find -/
theorem violations_of_readable (hread : ∀ raw, v.HasVersion e raw → (AppVersion.parse? raw).isSome = true)
    (remainder : String) :
    v.violations f remainder e = schemaViolations f remainder (Event.parseParams e.params) := by
  have hversion : versionViolations (v.standingIn f e) = [] := by
    apply versionViolations_eq_nil_iff.2
    intro raw hraw
    obtain ⟨-, hversion, hnone⟩ := standing_eq_unreadable_iff.1 hraw
    have hsome := hread raw (versionText_eq_some_iff.1 hversion)
    rw [hnone] at hsome
    cases hsome
  rw [violations, hversion, List.nil_append]

/-- an event that is not too old with the later floor is judged alike -/
theorem judgeInFamily_raised (h : f.Raised g)
    (hread : ∀ raw, v.HasVersion e raw → (AppVersion.parse? raw).isSome = true) (hnew : ¬ v.BelowFloor g e)
    (remainder : String) : v.judgeInFamily g remainder e = v.judgeInFamily f remainder e := by
  have hnew' : ¬ v.BelowFloor f e := fun hold => hnew (hold.raised h)
  have hschema : schemaViolations g remainder = schemaViolations f remainder := by
    funext parsed
    cases parsed with
    | error fault => rfl
    | ok tokens => rw [schemaViolations, schemaViolations, h.schema]
  rw [judgeInFamily_eq (mt standingIn_eq_old_iff.1 hnew), judgeInFamily_eq (mt standingIn_eq_old_iff.1 hnew'),
    violations_of_readable hread, violations_of_readable hread, hschema, h.name, h.owners]

/-- A product that asks for a later version can use the same catalogs. What is too old stays so, and an event that is
not too old, and whose version can be read if it has one, is judged alike in every respect. -/
theorem judge_raised (root : Node) (ctx : CompileContext) (low high : Option AppVersion) (h : AtMost low high) :
    (CompiledCatalog.build root { ctx with minVersion := low }).isOk =
        (CompiledCatalog.build root { ctx with minVersion := high }).isOk ∧
      ∀ c c', CompiledCatalog.build root { ctx with minVersion := low } = .ok c →
        CompiledCatalog.build root { ctx with minVersion := high } = .ok c' → ∀ versionKey cap e,
          (∀ raw, (Validator.mk c versionKey cap).HasVersion e raw → (AppVersion.parse? raw).isSome = true) →
            (((Validator.mk c versionKey cap).judge e).verdict = .oldAppVersion →
                ((Validator.mk c' versionKey cap).judge e).verdict = .oldAppVersion) ∧
              (((Validator.mk c' versionKey cap).judge e).verdict ≠ .oldAppVersion →
                (Validator.mk c' versionKey cap).judge e = (Validator.mk c versionKey cap).judge e) := by
  have hbuild := CompiledCatalog.build_raised root ctx h
  refine ⟨hbuild.isOk_eq, fun c c' hc hc' versionKey cap e hread => ?_⟩
  rw [hc, hc'] at hbuild
  obtain ⟨hroot, hcase⟩ := hbuild.of_ok
  obtain ⟨hfamily, hremainder⟩ := CompiledCatalog.lookup_paired hroot (foldText c.lowerCase e.pixel)
  simp only [judge, eventName, ← hcase, ← judgeInFamily_congr hcase, ← hremainder]
  generalize (c.lookup (foldText c.lowerCase e.pixel)).family = found,
    (c'.lookup (foldText c.lowerCase e.pixel)).family = found' at hfamily
  cases hfamily with
  | none => exact ⟨fun hold => hold, fun _ => rfl⟩
  | some hraised =>
    have hjudged := fun family => (Validator.mk c versionKey cap).judgeInFamily_judgedIn family
      (c.lookup (foldText c.lowerCase e.pixel)).remainder e
    constructor
    · intro hold
      exact (hjudged _).oldAppVersion.2 (((hjudged _).oldAppVersion.1 hold).raised hraised)
    · intro hnew
      exact judgeInFamily_raised hraised hread (mt (hjudged _).oldAppVersion.2 hnew) _

/-- A product that asks for a version after one that asked for none. The version of the first event is behind the later
floor, that of the second is not: its numbers are compared, not its digits. -/
theorem judge_raised_nested : ∃ c c',
    CompiledCatalog.build ((new ∅ ∅).addSources nestedSources).root {} = .ok c ∧
      CompiledCatalog.build ((new ∅ ∅).addSources nestedSources).root
        { minVersion := AppVersion.parse? "1.2" } = .ok c' ∧
      ((Validator.mk c' none default).judge ⟨"app.page.open", "z=1", some "1.1"⟩).verdict = .oldAppVersion ∧
      ((Validator.mk c' none default).judge ⟨"app.page.open", "z=1", some "1.10"⟩).verdict = .failed ∧
      (Validator.mk c' none default).judge ⟨"app.page.open", "z=1", some "1.10"⟩ =
        (Validator.mk c none default).judge ⟨"app.page.open", "z=1", some "1.10"⟩ := by
  obtain ⟨c, hc⟩ := exists_build ((new ∅ ∅).addSources nestedSources).root {} (by decide +kernel)
  have hjudged : ((CompiledCatalog.build ((new ∅ ∅).addSources nestedSources).root
      { minVersion := AppVersion.parse? "1.2" }).toOption.map fun c => (
        ((Validator.mk c none default).judge ⟨"app.page.open", "z=1", some "1.1"⟩).verdict,
        ((Validator.mk c none default).judge ⟨"app.page.open", "z=1", some "1.10"⟩).verdict)) =
      some (.oldAppVersion, .failed) := by decide +kernel
  obtain ⟨c', hc', hverdicts⟩ := exists_build_of_map hjudged
  obtain ⟨hold, hnew⟩ := Prod.mk.inj hverdicts
  have hread : ∀ raw, (Validator.mk c none default).HasVersion ⟨"app.page.open", "z=1", some "1.10"⟩ raw →
      (AppVersion.parse? raw).isSome = true := by
    intro raw hraw
    cases hraw with
    | own version nonblank =>
      cases version
      decide
    | parameter blank key => cases key
  have hraised := (judge_raised ((new ∅ ∅).addSources nestedSources).root {} none
    (AppVersion.parse? "1.2") (fun _ h => by cases h)).2 c c' hc hc' none default _ hread
  exact ⟨c, c', hc, hc', hold, hnew, hraised.2 (by rw [hnew]; decide)⟩

end Validator

end PixelAudit
