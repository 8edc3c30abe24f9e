/-
Events whose letters differ in case.

Under the rule for case a catalog folds the name of an event, and the keys and values of its parameters after they have
been decoded. The parameter that carries the version is found, and read, without regard to the case of ASCII letters. So
an event with such letters folded from the start is reported as it was: two events that differ in nothing else have the
same verdict, under the same family, for the same reasons. The examples that are shown differ, of course.

Main results: `parseParams_toLower` (the parameters of a folded query string), `judgeInFamily_folded` (the verdict of a
family on a folded event), `judge_sameReport` (the verdicts on two events that differ in the case of letters).
-/
import PixelAudit.Proofs.Audit.Classification
import PixelAudit.Proofs.Schema.Erasure
import PixelAudit.Proofs.Text.AsciiCase
import Mathlib.Tactic

namespace PixelAudit

open Catalog (new nestedSources)
open CompiledNode (exists_build_of_map)

/-! ## Versions -/

namespace AppVersion

/-- what follows the digits of a piece does not count, and digits have no case -/
theorem segment?_toLower (piece : String) : segment? piece.toLower = segment? piece := by
  have hcomp : Decimal.isDigit ∘ Char.toLower = Decimal.isDigit := funext Text.isDigit_toLower
  have hdigits : ∀ c : Char, Decimal.isDigit c = true → c.toLower = c := by
    intro c
    induction c using Text.char_cases with
    | hascii code hcode => revert code; decide
    | hother c hc => exact fun _ => Text.toLower_eq_self hc
  have htake : (piece.toList.takeWhile Decimal.isDigit).map Char.toLower =
      (piece.toList.takeWhile Decimal.isDigit).map id :=
    List.map_congr_left fun c hc => hdigits c (List.mem_takeWhile_imp hc)
  rw [segment?, segment?, Text.toList_toLower, List.takeWhile_map, hcomp, htake, List.map_id]

theorem parse?_toLower (raw : String) : parse? raw.toLower = parse? raw := by
  have hcomp : segment? ∘ String.toLower = segment? := funext segment?_toLower
  have hmapM : ∀ parts : List String, (parts.map String.toLower).mapM segment? = parts.mapM segment? := by
    intro parts
    rw [List.mapM_map, hcomp]
  simp only [parse?, Text.trim_toLower, Text.toLower_eq_empty_iff,
    Text.pieces_toLower (by decide : '.'.isAlpha = false), hmapM]

end AppVersion

/-! ## Parameters -/

/-- the parameter with its ASCII letters folded -/
def ParamToken.toLower (t : ParamToken) : ParamToken := ⟨t.key.toLower, t.value.toLower⟩

theorem ParamToken.lower_toLower (t : ParamToken) : t.toLower.lower = t.lower := by
  rw [lower, lower, toLower, Text.lower_toLower, Text.lower_toLower]

namespace Event

theorem decodePart_toLower (part : String) :
    Agree (fun s t => s.toLower = t.toLower) (decodePart part.toLower) (decodePart part) := by
  have h := Text.Percent.decode_toLower part
  unfold decodePart
  cases hfolded : Text.Percent.decode part.toLower with
  | ok s =>
    cases hplain : Text.Percent.decode part with
    | ok t =>
      rw [hfolded, hplain] at h
      exact .ok (Except.ok.inj h)
    | error fault =>
      rw [hfolded, hplain] at h
      cases h
  | error fault =>
    cases hplain : Text.Percent.decode part with
    | ok t =>
      rw [hfolded, hplain] at h
      cases h
    | error fault => exact .error _ _

theorem parseToken_toLower (token : String) :
    Agree (fun t u => t.toLower = u.toLower) (parseToken token.toLower) (parseToken token) := by
  have hparts : (Text.cut? '=' token.toLower).getD (token.toLower, "") =
      Prod.map String.toLower String.toLower ((Text.cut? '=' token).getD (token, "")) := by
    rw [Text.cut?_toLower (by decide)]
    cases Text.cut? '=' token with
    | none => exact congrArg (Prod.mk token.toLower) ((Text.toLower_eq_empty_iff "").2 rfl).symm
    | some parts => rfl
  unfold parseToken
  rw [hparts]
  refine (decodePart_toLower _).bind fun key key' hkey => ?_
  refine (decodePart_toLower _).bind fun value value' hvalue => ?_
  exact .ok (congrArg₂ ParamToken.mk hkey hvalue)

theorem queryTokens_toLower (trimmed : String) :
    queryTokens trimmed.toLower = (queryTokens trimmed).map String.toLower := by
  have hmarks : (fun c : Char => c == '?') ∘ Char.toLower = fun c => c == '?' := by
    funext c
    rw [Function.comp_apply, Bool.eq_iff_iff, beq_iff_eq, beq_iff_eq, Text.toLower_eq_iff (by decide)]
  have hempty : (fun s : String => decide (s ≠ "")) ∘ String.toLower = fun s => decide (s ≠ "") := by
    funext s
    rw [Function.comp_apply, decide_eq_decide, Ne, Ne, Text.toLower_eq_empty_iff]
  rw [queryTokens, queryTokens, Text.toList_toLower, List.dropWhile_map, hmarks, Text.ofList_map_toLower,
    Text.pieces_toLower (by decide), List.filter_map, hempty]

/-- a folded query string has the same parameters, folded, or none of the two can be read -/
theorem parseParams_toLower {raw : String} (hquery : (Text.trim raw).toList.head? ≠ some '[') :
    Agree (List.Forall₂ fun t u => t.toLower = u.toLower) (parseParams raw.toLower) (parseParams raw) := by
  have hquery' : (Text.trim raw).toLower.toList.head? ≠ some '[' := mt (Text.head?_toLower (by decide) _).1 hquery
  unfold parseParams
  simp only [Text.trim_toLower, Text.toLower_eq_empty_iff, if_neg hquery, if_neg hquery', queryTokens_toLower]
  split_ifs
  · exact .ok .nil
  · refine Agree.mapM (S := fun s t => s = t.toLower) ?_ ?_
    · rintro _ token rfl
      exact parseToken_toLower token
    · rw [List.forall₂_map_left_iff]
      exact List.forall₂_same.2 fun _ _ => rfl

end Event

/-! ## Verdicts -/

/-- the event with the ASCII letters of its name and of its parameters folded -/
def RawEvent.folded (e : RawEvent) : RawEvent := { e with pixel := e.pixel.toLower, params := e.params.toLower }

/-- two verdicts that differ in the examples only -/
structure Outcome.SameReport (o o' : Outcome) : Prop where
  verdict : o.verdict = o'.verdict
  family : o.family = o'.family
  owners : o.owners = o'.owners
  descriptors : o.findings.map Finding.descriptor = o'.findings.map Finding.descriptor

theorem Outcome.SameReport.refl (o : Outcome) : o.SameReport o := ⟨rfl, rfl, rfl, rfl⟩

theorem Outcome.SameReport.symm {o o' : Outcome} (h : o.SameReport o') : o'.SameReport o :=
  ⟨h.verdict.symm, h.family.symm, h.owners.symm, h.descriptors.symm⟩

theorem Outcome.SameReport.trans {o p q : Outcome} (h : o.SameReport p) (h2 : p.SameReport q) : o.SameReport q :=
  ⟨h.verdict.trans h2.verdict, h.family.trans h2.family, h.owners.trans h2.owners,
    h.descriptors.trans h2.descriptors⟩

theorem FamilySchema.compile_params {params : List ParamSpec} {suffixes : List SuffixSpec} {ctx : CompileContext}
    {schema : FamilySchema} (h : compile params suffixes ctx = .ok schema) :
    ParamsMatcher.compile params ctx = .ok schema.params := by
  unfold compile at h
  cases hparams : ParamsMatcher.compile params ctx with
  | error fault =>
    rw [hparams] at h
    cases h
  | ok m =>
    cases hsuffixes : SuffixesMatcher.compile suffixes ctx with
    | error fault =>
      rw [hparams, hsuffixes] at h
      cases h
    | ok s =>
      rw [hparams, hsuffixes] at h
      cases h
      rfl

namespace Validator

variable {v : Validator} {e : RawEvent} {family : PixelFamily}

theorem sameIgnoringAsciiCase_iff (s t : String) : sameIgnoringAsciiCase s t = true ↔ s.toLower = t.toLower := by
  rw [sameIgnoringAsciiCase, beq_iff_eq, ← String.toList_inj, Text.toList_toLower, Text.toList_toLower]

theorem isVersionKey_congr (hcase : v.catalog.lowerCase = true) (wanted : String) {key key' : String}
    (h : key.toLower = key'.toLower) : v.isVersionKey wanted key = v.isVersionKey wanted key' := by
  rw [isVersionKey, isVersionKey, if_pos hcase, if_pos hcase, Bool.eq_iff_iff, sameIgnoringAsciiCase_iff,
    sameIgnoringAsciiCase_iff, h]

theorem readParams_folded (hquery : (Text.trim e.params).toList.head? ≠ some '[') :
    List.Forall₂ (fun t u => t.toLower = u.toLower) (readParams e.folded) (readParams e) := by
  have h := Event.parseParams_toLower hquery
  have hparams : e.folded.params = e.params.toLower := rfl
  rw [readParams, readParams, hparams]
  generalize Event.parseParams e.params.toLower = parsed, Event.parseParams e.params = parsed' at h
  cases h with
  | ok h => exact h
  | error fault fault' => exact .nil

/-- the version of a folded event is that of the event, but for the case of its letters -/
theorem versionText_folded (hcase : v.catalog.lowerCase = true)
    (hquery : (Text.trim e.params).toList.head? ≠ some '[') :
    Option.Rel (fun s t => s.toLower = t.toLower) (v.versionText e.folded (readParams e.folded))
      (v.versionText e (readParams e)) := by
  have hown : explicitVersion e.folded = explicitVersion e := rfl
  rw [versionText, versionText, hown]
  cases explicitVersion e with
  | some raw => exact .some rfl
  | none =>
    rw [Option.none_or, Option.none_or, versionParam, versionParam]
    cases v.versionKey with
    | none => exact .none
    | some wanted =>
      have hfind := rel_find?_of_forall₂ (readParams_folded hquery) fun t u h =>
        isVersionKey_congr hcase wanted (congrArg ParamToken.key h)
      simp only [Option.bind_some]
      generalize (readParams e.folded).find? _ = found, (readParams e).find? _ = found' at hfind
      cases hfind with
      | none => exact .none
      | some h => exact .some (congrArg ParamToken.value h)

/-- a version stands to a floor as it does with its letters folded -/
theorem standing_congr {version version' : Option String}
    (h : Option.Rel (fun s t => s.toLower = t.toLower) version version') (floor : Option AppVersion) :
    (standing floor version = .old ↔ standing floor version' = .old) ∧
      (versionViolations (standing floor version)).map Violation.rule =
        (versionViolations (standing floor version')).map Violation.rule := by
  cases h with
  | none => exact ⟨Iff.rfl, rfl⟩
  | @some raw raw' h =>
    have hparse : AppVersion.parse? raw = AppVersion.parse? raw' := by
      rw [← AppVersion.parse?_toLower raw, h, AppVersion.parse?_toLower]
    cases floor with
    | none => exact ⟨Iff.rfl, rfl⟩
    | some floor =>
      simp only [standing, hparse]
      cases AppVersion.parse? raw' with
      | some observed => exact ⟨Iff.rfl, rfl⟩
      | none => simp [versionViolations]

theorem map_rule_schemaViolations_folded (hfolds : family.schema.params.lowerCase = true)
    (hquery : (Text.trim e.params).toList.head? ≠ some '[') (remainder : String) :
    (schemaViolations family remainder (Event.parseParams e.folded.params)).map Violation.rule =
      (schemaViolations family remainder (Event.parseParams e.params)).map Violation.rule := by
  have h := Event.parseParams_toLower hquery
  have hparams : e.folded.params = e.params.toLower := rfl
  rw [hparams]
  generalize Event.parseParams e.params.toLower = parsed, Event.parseParams e.params = parsed' at h
  cases h with
  | error fault fault' => rfl
  | @ok tokens tokens' h =>
    have hrelevant : family.schema.params.relevant tokens = family.schema.params.relevant tokens' := by
      have hmap : tokens.map ParamToken.lower = tokens'.map ParamToken.lower := by
        rw [← List.forall₂_eq_eq_eq, List.forall₂_map_left_iff, List.forall₂_map_right_iff]
        refine h.imp fun t u htoken => ?_
        rw [← t.lower_toLower, htoken, u.lower_toLower]
      have hfold : family.schema.params.foldToken = ParamToken.lower := by
        funext t
        rw [ParamsMatcher.foldToken, if_pos hfolds]
      rw [ParamsMatcher.relevant, ParamsMatcher.relevant, hfold, hmap]
    simp only [schemaViolations, FamilySchema.check, List.map_append, ParamsMatcher.map_rule_check_congr hrelevant]

/-- a family that folds letters reports a folded event as it reports the event -/
theorem judgeInFamily_folded (hcase : v.catalog.lowerCase = true) (hfolds : family.schema.params.lowerCase = true)
    (hquery : (Text.trim e.params).toList.head? ≠ some '[') (remainder : String) :
    (v.judgeInFamily family remainder e.folded).SameReport (v.judgeInFamily family remainder e) := by
  obtain ⟨hold, hversion⟩ := standing_congr (versionText_folded hcase hquery) family.minVersion
  by_cases hnew : v.standingIn family e = .old
  · rw [judgeInFamily_old hnew, judgeInFamily_old (hold.2 hnew)]
    exact .refl _
  · have hrules : (v.violations family remainder e.folded).map Violation.rule =
        (v.violations family remainder e).map Violation.rule := by
      rw [violations, violations, List.map_append, List.map_append,
        map_rule_schemaViolations_folded hfolds hquery]
      exact congrArg (· ++ _) hversion
    have hdescriptors := ParamsMatcher.map_descriptor_congr hrules
    rw [judgeInFamily_eq hnew, judgeInFamily_eq (mt hold.1 hnew)]
    generalize v.violations family remainder e.folded = found, v.violations family remainder e = found' at hdescriptors
    cases found with
    | nil =>
      rw [List.map_eq_nil_iff.1 hdescriptors.symm]
      exact .refl _
    | cons first rest =>
      cases found' with
      | nil => cases hdescriptors
      | cons first' rest' =>
        refine ⟨rfl, rfl, rfl, ?_⟩
        rw [List.map_map, List.map_map]
        exact hdescriptors

theorem eventName_folded (hcase : v.catalog.lowerCase = true) (e : RawEvent) :
    v.eventName e.folded = v.eventName e := by
  have hpixel : e.folded.pixel = e.pixel.toLower := rfl
  rw [eventName, eventName, hpixel, foldText, foldText, if_pos hcase, if_pos hcase, Text.lower_toLower]

/-- under the rule for case every family folds letters -/
theorem lowerCase_of_lookup {root : Node} {ctx : CompileContext} {c : CompiledCatalog}
    (hbuild : CompiledCatalog.build root ctx = .ok c) {name : String}
    (hfamily : (c.lookup name).family = some family) : family.schema.params.lowerCase = ctx.forceLowerCase := by
  obtain ⟨m, hcompile, rfl⟩ := CompiledNode.build_eq_ok hbuild
  obtain ⟨l, ⟨k, -, hl, -⟩, hlookup⟩ := CompiledCatalog.lookup_leadsTo ⟨m, ctx.forceLowerCase⟩ name
  rw [hlookup] at hfamily
  obtain ⟨path, scope, d, hd⟩ := CompiledNode.exists_compileFamily_of_find? hcompile hl hfamily
  have hparams := FamilySchema.compile_params (CompiledNode.compileFamily_eq_ok hd).2.2
  exact (ParamsMatcher.compile_represents hparams).lowerCase

/-- a folded event is reported as the event is -/
theorem judge_folded (hcase : v.catalog.lowerCase = true)
    (hfolds : ∀ name family, (v.catalog.lookup name).family = some family → family.schema.params.lowerCase = true)
    (hquery : (Text.trim e.params).toList.head? ≠ some '[') : (v.judge e.folded).SameReport (v.judge e) := by
  have hname : v.eventName e.folded = v.eventName e := eventName_folded hcase e
  rw [judge, judge, hname]
  cases hfamily : (v.catalog.lookup (v.eventName e)).family with
  | none => exact .refl _
  | some family => exact judgeInFamily_folded hcase (hfolds _ family hfamily) hquery _

theorem undocumented_note_congr {o o' : Outcome} (h : o.verdict = o'.verdict) (notes : Notes) (name : String) :
    (v.note notes name o).undocumented = (v.note notes name o').undocumented := by
  unfold note
  rw [h]
  cases o'.verdict <;> rfl

/-- Under the rule for case two events that differ in the case of ASCII letters are reported alike, and under the same
name if they are undocumented. Their parameters are query strings; the digits of an escape may differ in case too. -/
theorem judge_sameReport (root : Node) (ctx : CompileContext) (hcase : ctx.forceLowerCase = true) (c : CompiledCatalog)
    (hbuild : CompiledCatalog.build root ctx = .ok c) (versionKey : Option String) (cap : SampleCap) (e e' : RawEvent)
    (hversion : e.version = e'.version) (hpixel : sameIgnoringAsciiCase e.pixel e'.pixel = true)
    (hparams : sameIgnoringAsciiCase e.params e'.params = true)
    (hquery : (Text.trim e.params).toList.head? ≠ some '[') :
    ((Validator.mk c versionKey cap).judge e).SameReport ((Validator.mk c versionKey cap).judge e') ∧
      ∀ notes, ((Validator.mk c versionKey cap).step notes e).undocumented =
        ((Validator.mk c versionKey cap).step notes e').undocumented := by
  rw [sameIgnoringAsciiCase_iff] at hpixel hparams
  have hfolded : e.folded = e'.folded := by
    rw [RawEvent.folded, RawEvent.folded, hpixel, hparams, hversion]
  have hquery' : (Text.trim e'.params).toList.head? ≠ some '[' := by
    rwa [Ne, ← Text.head?_toLower (by decide), ← Text.trim_toLower, ← hparams, Text.trim_toLower,
      Text.head?_toLower (by decide)]
  have hfolds : ∀ name family, (c.lookup name).family = some family → family.schema.params.lowerCase = true :=
    fun name family hfamily => (lowerCase_of_lookup hbuild hfamily).trans hcase
  have hcatalog : c.lowerCase = true := by
    obtain ⟨m, -, rfl⟩ := CompiledNode.build_eq_ok hbuild
    exact hcase
  have hreport := (@judge_folded ⟨c, versionKey, cap⟩ e hcatalog hfolds hquery).symm
  rw [hfolded] at hreport
  have hreport := hreport.trans (judge_folded hcatalog hfolds hquery')
  have hname := (@eventName_folded ⟨c, versionKey, cap⟩ hcatalog e).symm
  rw [hfolded, eventName_folded hcatalog] at hname
  refine ⟨hreport, fun notes => ?_⟩
  rw [step, step, hname, undocumented_note_congr hreport.verdict]

/-- the name of the event, the keys of its parameters, an escape and a version are spelt in different case -/
theorem judge_sameReport_nested : ∃ c,
    CompiledCatalog.build ((new ∅ ∅).addSources nestedSources).root { forceLowerCase := true } = .ok c ∧
      ((Validator.mk c (some "v") default).judge ⟨"App.Page.Open", "?Y=%4A&Z&V=2b", none⟩).findings.map
        Finding.descriptor = ["undocumented parameter 'z'", "undocumented parameter 'v'"] ∧
      ((Validator.mk c (some "v") default).judge ⟨"App.Page.Open", "?Y=%4A&Z&V=2b", none⟩).SameReport
        ((Validator.mk c (some "v") default).judge ⟨"app.page.OPEN", "?y=%4a&z&v=2B", none⟩) := by
  have hjudged : ((CompiledCatalog.build ((new ∅ ∅).addSources nestedSources).root
      { forceLowerCase := true }).toOption.map fun c => ((Validator.mk c (some "v") default).judge
        ⟨"App.Page.Open", "?Y=%4A&Z&V=2b", none⟩).findings.map Finding.descriptor) =
      some ["undocumented parameter 'z'", "undocumented parameter 'v'"] := by decide +kernel
  obtain ⟨c, hbuild, hdescriptors⟩ := exists_build_of_map hjudged
  have hreport := judge_sameReport ((new ∅ ∅).addSources nestedSources).root { forceLowerCase := true } rfl c hbuild
    (some "v") default ⟨"App.Page.Open", "?Y=%4A&Z&V=2b", none⟩ ⟨"app.page.OPEN", "?y=%4a&z&v=2B", none⟩ rfl
    (by decide) (by decide) (by decide)
  exact ⟨c, hbuild, hdescriptors, hreport.1⟩

end Validator

end PixelAudit
