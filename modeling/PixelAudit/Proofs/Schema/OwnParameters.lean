/-
The parameters that a family declares itself.

Of two specifications for one key the first governs, so what a family declares comes before what is handed down to it or
common to all: its own parameters govern their keys, whatever the families above it say. Two of its own cannot have the
same key, but two may have keys that differ in case only. When letters are folded the second of them is passed over: its
rules are not applied, and nobody is told.

Main results: `Represents.enforces` (the first specification for a key is enforced), `find?_isFor_own` (when a parameter
of a definition is the first for its key), `compileFamily_enforces_iff` (a parameter of an accepted definition is
enforced unless one before it has the same key, letters folded).
-/
import PixelAudit.Proofs.Catalog.Compiled
import PixelAudit.Proofs.Definition.Accepted
import PixelAudit.Proofs.Schema.Governing
import PixelAudit.Proofs.Audit.LetterCase
import Mathlib.Tactic

namespace PixelAudit

namespace ParamsMatcher

/-! ## Specifications that are enforced -/

/-- the specification is what a matcher knows of the key -/
structure Enforces (m : ParamsMatcher) (ctx : CompileContext) (specs : List ParamSpec) (spec : ParamSpec)
    (key : String) : Prop where
  governs : ParamSpec.governor? ctx specs key = some spec
  /-- its rules are those for the values of the key -/
  value : ∃ value, ValueCheck.compile spec.rules ctx.forceLowerCase = .ok value ∧
    ∀ text, m.checkToken ⟨key, text⟩ =
      (value.unmet? text).map fun expected => ⟨.validValue key expected, text⟩
  /-- the key is missing if it is not there, unless it need not be or is ignored -/
  missing : ∀ tokens, (∃ sample, ⟨.requiredParameter key, sample⟩ ∈ m.check tokens) ↔
    (spec.required = true ∧ ¬ ctx.Ignores key) ∧ ∀ t ∈ tokens, ctx.fold t.key ≠ key

variable {m : ParamsMatcher} {ctx : CompileContext} {specs : List ParamSpec} {spec : ParamSpec} {key : String}

/-- the first specification for a key is enforced -/
theorem Represents.enforces (h : Represents ctx specs m) (hfirst : specs.find? (ParamSpec.isFor ctx key) = some spec) :
    m.Enforces ctx specs spec key := by
  have hgoverns : ParamSpec.governor? ctx specs key = some spec := by
    rw [ParamSpec.governor?, hfirst, Option.some_or]
  refine ⟨hgoverns, ?_, fun tokens => ?_⟩
  · obtain ⟨p, hlookup, hfrom⟩ := exists_of_rel (h.lookup key) hgoverns
    have hfor := List.find?_some hfirst
    cases hfrom with
    | @key own value hkey hvalue =>
      obtain rfl : ctx.fold own = key := by simpa [ParamSpec.isFor, hkey] using hfor
      refine ⟨value, hvalue, fun text => ?_⟩
      rw [checkToken, hlookup]
      rfl
    | pattern hkey =>
      rw [ParamSpec.isFor, hkey] at hfor
      cases hfor
  · rw [h.missing_iff, hfirst]
    simp

/-- of the specifications for a key only the first is enforced -/
theorem Represents.enforces_iff (h : Represents ctx specs m) (hmem : spec ∈ specs)
    (hfor : spec.isFor ctx key = true) :
    m.Enforces ctx specs spec key ↔ specs.find? (ParamSpec.isFor ctx key) = some spec := by
  constructor
  · intro henforced
    have hgoverns := henforced.governs
    cases hfirst : specs.find? (ParamSpec.isFor ctx key) with
    | none => exact absurd hfor (List.find?_eq_none.1 hfirst spec hmem)
    | some first =>
      rw [ParamSpec.governor?, hfirst, Option.some_or] at hgoverns
      exact hgoverns
  · exact h.enforces

end ParamsMatcher

namespace PixelDefinition

open ParamsMatcher (active Enforces)

/-! ## The first specification for a key -/

variable {ctx : CompileContext} {before after handed : List ParamSpec} {p : ParamSpec} {key : String}

/-- no parameter before this one has the very same key -/
theorem key_not_mem_before (hkey : p.key = some key) (hnodup : (keys (before ++ p :: after)).Nodup) :
    key ∉ keys before := by
  rw [keys, List.filterMap_append, List.filterMap_cons, hkey] at hnodup
  intro hmem
  exact List.disjoint_of_nodup_append hnodup hmem List.mem_cons_self

/-- an active parameter is the first for its key if none of the active ones before it is for that key -/
theorem find?_isFor_own (hkey : p.key = some key) (hopen : ctx.experiments.allows p = true)
    (hnodup : (keys (before ++ p :: after)).Nodup) :
    (active (before ++ p :: after ++ handed) ctx).find? (ParamSpec.isFor ctx (ctx.fold key)) = some p ↔
      ∀ q ∈ before, ctx.experiments.allows q = true → q.isFor ctx (ctx.fold key) = false := by
  have hfor : p.isFor ctx (ctx.fold key) = true := by simp [ParamSpec.isFor, hkey]
  have hnot : p ∉ before := by
    intro hp
    exact key_not_mem_before hkey hnodup (List.mem_filterMap.2 ⟨p, hp, hkey⟩)
  rw [active, List.append_assoc, List.append_assoc, List.filter_append, List.cons_append,
    List.filter_cons_of_pos hopen, List.find?_append, List.find?_cons_of_pos hfor, Option.or_eq_some_iff]
  constructor
  · intro hfirst
    rcases hfirst with hbefore | ⟨hnone, -⟩
    · exact absurd (List.mem_of_mem_filter (List.mem_of_find?_eq_some hbefore)) hnot
    · intro q hq hqopen
      simpa using List.find?_eq_none.1 hnone q (List.mem_filter.2 ⟨hq, hqopen⟩)
  · intro hbefore
    refine Or.inr ⟨List.find?_eq_none.2 ?_, rfl⟩
    intro q hq
    obtain ⟨hq, hqopen⟩ := List.mem_filter.1 hq
    simp [hbefore q hq hqopen]

/-- parameters with different keys are for different keys, unless letters are folded -/
theorem isFor_fold_eq_false_iff {q : ParamSpec} (hdifferent : q.key ≠ some key) :
    q.isFor ctx (ctx.fold key) = false ↔
      (ctx.forceLowerCase = true → ∀ other, q.key = some other → Text.lower other ≠ Text.lower key) := by
  cases hq : q.key with
  | none => simp [ParamSpec.isFor, hq]
  | some other =>
    have hne : other ≠ key := by
      rintro rfl
      exact hdifferent hq
    cases hcase : ctx.forceLowerCase with
    | false => simp [ParamSpec.isFor, hq, CompileContext.fold, foldText, hcase, hne]
    | true => simp [ParamSpec.isFor, hq, CompileContext.fold, foldText, hcase]

/-! ## Families -/

/-- A parameter of an accepted definition that has a key, and whose gate is open, is enforced in the family that the
definition is compiled to, whatever is handed down to it: unless letters are folded, and an active parameter before it
in the definition has the same key but for the case of its letters. -/
theorem compileFamily_enforces_iff (common : ParamCatalog) (commonSuffixes : SuffixCatalog) (record : Json)
    (d : PixelDefinition) (hread : ofRecord common commonSuffixes record = .ok d) (ctx : CompileContext)
    (path : String) (inherited : Inherited) (family : PixelFamily)
    (hcompile : CompiledNode.compileFamily ctx path (inherited.extend d) d = .ok family)
    (before : List ParamSpec) (p : ParamSpec) (after : List ParamSpec)
    (hparams : d.parameters = before ++ p :: after) (key : String) (hkey : p.key = some key)
    (hopen : ctx.experiments.allows p = true) :
    family.schema.params.Enforces ctx (active (inherited.extend d).params ctx) p (ctx.fold key) ↔
      (ctx.forceLowerCase = true → ∀ q ∈ before, ctx.experiments.allows q = true →
        ∀ other, q.key = some other → Text.lower other ≠ Text.lower key) := by
  have hnodup := ((repeatedKey?_eq_none_iff [] _).1 (ofRecord_eq_ok hread).2).1
  rw [hparams] at hnodup
  have hschema := (CompiledNode.compileFamily_eq_ok hcompile).2.2
  have hrepresents := ParamsMatcher.compile_represents (FamilySchema.compile_params hschema)
  have hdeclared : (inherited.extend d).params = before ++ p :: after ++ inherited.params := by
    rw [Inherited.extend, hparams]
  rw [hdeclared] at hrepresents ⊢
  have hmem : p ∈ active (before ++ p :: after ++ inherited.params) ctx := by simp [active, hopen]
  have hfor : p.isFor ctx (ctx.fold key) = true := by simp [ParamSpec.isFor, hkey]
  rw [hrepresents.enforces_iff hmem hfor, find?_isFor_own hkey hopen hnodup]
  have hdifferent : ∀ q ∈ before, q.key ≠ some key := by
    intro q hq heq
    exact key_not_mem_before hkey hnodup (List.mem_filterMap.2 ⟨q, hq, heq⟩)
  constructor
  · intro hbefore hcase q hq hqopen
    exact (isFor_fold_eq_false_iff (hdifferent q hq)).1 (hbefore q hq hqopen) hcase
  · intro hbefore q hq hqopen
    apply (isFor_fold_eq_false_iff (hdifferent q hq)).2
    intro hcase
    exact hbefore hcase q hq hqopen

/-- two parameters, the second of them required -/
def twoParameters (first second : String) : PixelDefinition :=
  { owners := NameSet.ofList ["t"], parameters := [{ key := some first }, { key := some second, required := true }] }

def recordOfTwo (first second : String) : Json :=
  recordWith [.object [("key", .string first)], .object [("key", .string second), ("required", .bool true)]]

/-- with letters folded, a parameter after one with another key is enforced -/
theorem compileFamily_enforces_second : ∃ family,
    ofRecord ∅ ∅ (recordOfTwo "Id" "Name") = .ok (twoParameters "Id" "Name") ∧
      CompiledNode.compileFamily { forceLowerCase := true } "app" (Inherited.extend {} (twoParameters "Id" "Name"))
        (twoParameters "Id" "Name") = .ok family ∧
      family.schema.params.Enforces { forceLowerCase := true }
        (active (Inherited.extend {} (twoParameters "Id" "Name")).params { forceLowerCase := true })
        { key := some "Name", required := true } "name" := by
  have hread : ofRecord ∅ ∅ (recordOfTwo "Id" "Name") = .ok (twoParameters "Id" "Name") := by decide
  have hcomputed : (CompiledNode.compileFamily { forceLowerCase := true } "app"
      (Inherited.extend {} (twoParameters "Id" "Name")) (twoParameters "Id" "Name")).toOption.map
        PixelFamily.name = some "app" := by
    decide
  obtain ⟨family, hcompile, -⟩ := exists_ok_of_map hcomputed
  have henforced := compileFamily_enforces_iff ∅ ∅ (recordOfTwo "Id" "Name") (twoParameters "Id" "Name") hread
    { forceLowerCase := true } "app" {} family hcompile [{ key := some "Id" }] { key := some "Name", required := true }
    [] rfl "Name" rfl rfl
  have hfold : CompileContext.fold { forceLowerCase := true } "Name" = "name" := by decide
  rw [hfold] at henforced
  refine ⟨family, hread, hcompile, henforced.2 ?_⟩
  intro _ q hq _ other hother
  rw [List.mem_singleton.1 hq] at hother
  rw [← Option.some.inj hother]
  decide

/-- with letters folded, a required parameter is not missed if one before it differs from it in case only -/
theorem compileFamily_drops_second : ∃ family,
    ofRecord ∅ ∅ (recordOfTwo "Id" "id") = .ok (twoParameters "Id" "id") ∧
      CompiledNode.compileFamily { forceLowerCase := true } "app" (Inherited.extend {} (twoParameters "Id" "id"))
        (twoParameters "Id" "id") = .ok family ∧
      family.schema.params.check [] = [] ∧
      ¬ family.schema.params.Enforces { forceLowerCase := true }
        (active (Inherited.extend {} (twoParameters "Id" "id")).params { forceLowerCase := true })
        { key := some "id", required := true } "id" := by
  have hcomputed : (CompiledNode.compileFamily { forceLowerCase := true } "app"
      (Inherited.extend {} (twoParameters "Id" "id")) (twoParameters "Id" "id")).toOption.map
        (fun family => family.schema.params.check []) = some [] := by
    decide
  obtain ⟨family, hcompile, hcheck⟩ := exists_ok_of_map hcomputed
  refine ⟨family, by decide, hcompile, hcheck, ?_⟩
  intro henforced
  have hrelevant : ¬ CompileContext.Ignores { forceLowerCase := true } "id" := by
    rintro ⟨name, hname, -⟩
    cases hname
  obtain ⟨sample, hmissing⟩ := (henforced.missing []).2 ⟨⟨rfl, hrelevant⟩, fun t ht => by cases ht⟩
  rw [hcheck] at hmissing
  cases hmissing

end PixelDefinition

end PixelAudit
