/-
The parameter that carries the version.

Under the rule for case the rules of a family tell keys apart by their lower-case forms under the full mapping. The
parameter that carries the version is looked for without regard to the case of ASCII letters only. So what is taken for
it always has its key, but a parameter with that key may be overlooked: if its key is written with a capital letter
beyond ASCII, or with a Kelvin sign for a k. An event of an old version is then judged as if it had none.

Main results: `find?_eq_find?_iff` (first matches of two tests, one of which is the stronger), `version_token_agrees`
(when the parameter that carries the version is the first one with its key), `judge_perm` (parameters in another order
get the same verdict as long as they carry the same version).
-/
import PixelAudit.Proofs.Audit.LetterCase
import PixelAudit.Proofs.Schema.ParameterOrder
import PixelAudit.Proofs.Text.LowerAscii
import Mathlib.Tactic

namespace PixelAudit

open Catalog (new nestedSources)
open CompiledNode (exists_build exists_build_of_map)

/-- the first match of a stronger test is that of a weaker one exactly if this one passes the stronger test too -/
theorem find?_eq_find?_iff {α : Type} {p q : α → Bool} (h : ∀ a, p a = true → q a = true) (l : List α) :
    l.find? p = l.find? q ↔ ∀ a, l.find? q = some a → p a = true := by
  constructor
  · intro heq a ha
    rw [← heq] at ha
    exact List.find?_some ha
  · intro hpasses
    cases hq : l.find? q with
    | none =>
      rw [List.find?_eq_none] at hq ⊢
      exact fun a ha hp => hq a ha (h a hp)
    | some a =>
      obtain ⟨-, before, after, rfl, hbefore⟩ := List.find?_eq_some_iff_append.1 hq
      refine List.find?_eq_some_iff_append.2 ⟨hpasses a hq, before, after, rfl, fun b hb => ?_⟩
      have hnot := hbefore b hb
      rw [Bool.not_eq_true'] at hnot ⊢
      exact Bool.eq_false_iff.2 fun hp => Bool.eq_false_iff.1 hnot (h b hp)

/-- the first parameter with a key, as the rules tell keys apart -/
def CompileContext.keyToken? (ctx : CompileContext) (key : String) (tokens : List ParamToken) : Option ParamToken :=
  tokens.find? fun t => ctx.fold t.key == ctx.fold key

theorem CompileContext.fold_eq_of_keyToken? {ctx : CompileContext} {key : String} {tokens : List ParamToken}
    {t : ParamToken} (h : ctx.keyToken? key tokens = some t) : ctx.fold t.key = ctx.fold key := by
  have hkey := List.find?_some (p := fun t : ParamToken => ctx.fold t.key == ctx.fold key) h
  exact beq_iff_eq.1 hkey

theorem CompileContext.fold_eq_fold_iff (ctx : CompileContext) (key key' : String) : ctx.fold key = ctx.fold key' ↔
    if ctx.forceLowerCase then Text.lower key = Text.lower key' else key = key' := by
  rw [fold, fold, foldText, foldText]
  split_ifs <;> rfl

namespace Validator

/-! ## The key of the version -/

/-- the first parameter that carries the version -/
def versionToken? (v : Validator) (tokens : List ParamToken) : Option ParamToken :=
  v.versionKey.bind fun wanted => tokens.find? fun t => v.isVersionKey wanted t.key

/-- its value is the version of an event that has none of its own -/
theorem versionParam_eq (v : Validator) (tokens : List ParamToken) :
    v.versionParam tokens = (v.versionToken? tokens).map ParamToken.value := by
  rw [versionParam, versionToken?, Option.map_bind]
  rfl

section key

variable {v : Validator} {ctx : CompileContext} {wanted : String} {tokens : List ParamToken}

theorem isVersionKey_iff (hcase : v.catalog.lowerCase = ctx.forceLowerCase) (key : String) :
    v.isVersionKey wanted key = true ↔
      if ctx.forceLowerCase then key.toLower = wanted.toLower else key = wanted := by
  rw [isVersionKey, hcase]
  split_ifs
  · exact sameIgnoringAsciiCase_iff key wanted
  · exact beq_iff_eq

/-- what carries the version has its key -/
theorem fold_eq_of_isVersionKey (hcase : v.catalog.lowerCase = ctx.forceLowerCase) {key : String}
    (h : v.isVersionKey wanted key = true) : ctx.fold key = ctx.fold wanted := by
  rw [isVersionKey_iff hcase] at h
  rw [ctx.fold_eq_fold_iff]
  split_ifs at h ⊢
  · rw [← Text.lower_toLower key, h, Text.lower_toLower]
  · exact h

/-- what has the key of the version carries it, but letters may be folded, and then those beyond ASCII have to match -/
theorem isVersionKey_iff_of_fold_eq (hcase : v.catalog.lowerCase = ctx.forceLowerCase) {key : String}
    (h : ctx.fold key = ctx.fold wanted) :
    v.isVersionKey wanted key = true ↔ (ctx.forceLowerCase = true → key.toLower = wanted.toLower) := by
  rw [isVersionKey_iff hcase]
  rw [ctx.fold_eq_fold_iff] at h
  split_ifs at h ⊢ with hfolds
  · exact ⟨fun hsame _ => hsame, fun hsame => hsame hfolds⟩
  · exact iff_of_true h fun hfolds' => absurd hfolds' hfolds

theorem versionToken?_eq (hkey : v.versionKey = some wanted) (tokens : List ParamToken) :
    v.versionToken? tokens = tokens.find? fun t => v.isVersionKey wanted t.key := by
  rw [versionToken?, hkey, Option.bind_some]

theorem isVersionKey_of_versionToken? (hkey : v.versionKey = some wanted) {t : ParamToken}
    (h : v.versionToken? tokens = some t) : v.isVersionKey wanted t.key = true := by
  rw [versionToken?_eq hkey] at h
  exact List.find?_some (p := fun t : ParamToken => v.isVersionKey wanted t.key) h

/-- the first parameter with the key carries the version unless it is overlooked -/
theorem versionToken?_eq_iff (hcase : v.catalog.lowerCase = ctx.forceLowerCase) (hkey : v.versionKey = some wanted) :
    v.versionToken? tokens = ctx.keyToken? wanted tokens ↔ ∀ t, ctx.keyToken? wanted tokens = some t →
      ctx.forceLowerCase = true → t.key.toLower = wanted.toLower := by
  have hstronger : ∀ t : ParamToken, v.isVersionKey wanted t.key = true →
      (ctx.fold t.key == ctx.fold wanted) = true :=
    fun t ht => beq_iff_eq.2 (fold_eq_of_isVersionKey hcase ht)
  rw [versionToken?_eq hkey, CompileContext.keyToken?, find?_eq_find?_iff hstronger]
  refine forall_congr' fun t => forall_congr' fun ht => ?_
  exact isVersionKey_iff_of_fold_eq hcase (ctx.fold_eq_of_keyToken? ht)

/-- it is never overlooked if the lower-case form of a key determines it up to the case of ASCII letters -/
theorem forall_versionToken?_eq_iff (hcase : v.catalog.lowerCase = ctx.forceLowerCase)
    (hkey : v.versionKey = some wanted) : (∀ tokens, v.versionToken? tokens = ctx.keyToken? wanted tokens) ↔
      (ctx.forceLowerCase = true → ∀ key, Text.lower key = Text.lower wanted → key.toLower = wanted.toLower) := by
  simp only [versionToken?_eq_iff hcase hkey]
  constructor
  · -- a parameter with another such key would be overlooked if it were the only one
    intro h hfolds key hsame
    have hfold : ctx.fold key = ctx.fold wanted := by rwa [ctx.fold_eq_fold_iff, if_pos hfolds]
    exact h [⟨key, ""⟩] ⟨key, ""⟩ (List.find?_cons_of_pos (beq_iff_eq.2 hfold)) hfolds
  · intro h tokens t ht hfolds
    have hfold := ctx.fold_eq_of_keyToken? ht
    rw [ctx.fold_eq_fold_iff, if_pos hfolds] at hfold
    exact h hfolds t.key hfold

end key

/-- how the parameter that carries the version relates to the first one with its key -/
structure VersionTokens (v : Validator) (ctx : CompileContext) (wanted : String) : Prop where
  /-- the rules of every family tell parameters apart by their folded keys -/
  folded : ∀ name family, (v.catalog.lookup name).family = some family →
    ∀ t, family.schema.params.foldToken t = ⟨ctx.fold t.key, ctx.fold t.value⟩
  /-- the version of an event without one of its own is read off the parameter that carries it -/
  value : ∀ tokens, v.versionParam tokens = (v.versionToken? tokens).map ParamToken.value
  sound : ∀ tokens t, v.versionToken? tokens = some t → ctx.fold t.key = ctx.fold wanted
  agree : ∀ tokens, v.versionToken? tokens = ctx.keyToken? wanted tokens ↔
    ∀ t, ctx.keyToken? wanted tokens = some t → ctx.forceLowerCase = true → t.key.toLower = wanted.toLower
  always : (∀ tokens, v.versionToken? tokens = ctx.keyToken? wanted tokens) ↔
    (ctx.forceLowerCase = true → ∀ key, Text.lower key = Text.lower wanted → key.toLower = wanted.toLower)
  ascii : Text.IsAscii wanted → ((∀ tokens, v.versionToken? tokens = ctx.keyToken? wanted tokens) ↔
    (ctx.forceLowerCase = true → 'k' ∉ wanted.toLower.toList))

/-- The parameter that is taken for the version has the key of the version, as the rules of the families tell keys
apart. It is the first such parameter exactly if that one has the key up to the case of ASCII letters. For a key of
ASCII this is so in every event, if letters are not folded or the key has no k. -/
theorem version_token_agrees (root : Node) (ctx : CompileContext) (compiled : CompiledCatalog)
    (hbuild : CompiledCatalog.build root ctx = .ok compiled) (wanted : String) (cap : SampleCap) :
    (Validator.mk compiled (some wanted) cap).VersionTokens ctx wanted := by
  have hcase : (Validator.mk compiled (some wanted) cap).catalog.lowerCase = ctx.forceLowerCase := by
    obtain ⟨m, -, rfl⟩ := CompiledNode.build_eq_ok hbuild
    rfl
  have halways := forall_versionToken?_eq_iff hcase rfl
  refine ⟨fun name family hfamily t => ?_, versionParam_eq _, fun tokens t ht => ?_,
    fun tokens => versionToken?_eq_iff hcase rfl, halways, fun hascii => ?_⟩
  · unfold ParamsMatcher.foldToken CompileContext.fold foldText
    rw [lowerCase_of_lookup hbuild hfamily]
    split_ifs <;> rfl
  · exact fold_eq_of_isVersionKey hcase (isVersionKey_of_versionToken? rfl ht)
  · rw [halways, Text.lower_determines_iff hascii]

/-- a key of ASCII without a k carries the version wherever it is met first -/
theorem version_token_agrees_nested : ∃ compiled,
    CompiledCatalog.build ((new ∅ ∅).addSources nestedSources).root { forceLowerCase := true } = .ok compiled ∧
      ∀ tokens, (Validator.mk compiled (some "appVersion") default).versionToken? tokens =
        CompileContext.keyToken? { forceLowerCase := true } "appVersion" tokens := by
  obtain ⟨compiled, hbuild⟩ :=
    exists_build ((new ∅ ∅).addSources nestedSources).root { forceLowerCase := true } (by decide +kernel)
  have htokens := version_token_agrees ((new ∅ ∅).addSources nestedSources).root { forceLowerCase := true } compiled
    hbuild "appVersion" default
  have hk : 'k' ∉ "appVersion".toLower.toList := by
    rw [Text.toList_toLower]
    decide
  exact ⟨compiled, hbuild, (htokens.ascii (by decide)).2 fun _ => hk⟩

/-- a family with a floor, which knows the parameter of the version by a letter beyond ASCII -/
def accentSources : List Source := [⟨"a.json", .object [("app", .object [
  ("owners", .array [.string "t"]), ("minVersion", .string "2.0"),
  ("parameters", .array [.object [("key", .string "versión")]])])]⟩]

/-- an event of an old version is judged if its letters are capitals, though the family knows its parameter -/
theorem version_overlooked : ∃ compiled,
    CompiledCatalog.build ((new ∅ ∅).addSources accentSources).root { forceLowerCase := true } = .ok compiled ∧
      CompileContext.keyToken? { forceLowerCase := true } "versión" [⟨"VERSIÓN", "1.0"⟩] = some ⟨"VERSIÓN", "1.0"⟩ ∧
      (Validator.mk compiled (some "versión") default).versionToken? [⟨"VERSIÓN", "1.0"⟩] = none ∧
      ((Validator.mk compiled (some "versión") default).judge ⟨"app", "VERSIÓN=1.0", none⟩).verdict = .passed ∧
      ((Validator.mk compiled (some "versión") default).judge ⟨"app", "versión=1.0", none⟩).verdict =
        .oldAppVersion := by
  have hanswer : ((CompiledCatalog.build ((new ∅ ∅).addSources accentSources).root
      { forceLowerCase := true }).toOption.map fun c => (
        (Validator.mk c (some "versión") default).versionToken? [⟨"VERSIÓN", "1.0"⟩],
        ((Validator.mk c (some "versión") default).judge ⟨"app", "VERSIÓN=1.0", none⟩).verdict,
        ((Validator.mk c (some "versión") default).judge ⟨"app", "versión=1.0", none⟩).verdict)) =
      some (none, .passed, .oldAppVersion) := by
    decide +kernel
  obtain ⟨compiled, hbuild, h⟩ := exists_build_of_map hanswer
  obtain ⟨htoken, hverdicts⟩ := Prod.mk.inj h
  obtain ⟨hcapitals, hsmall⟩ := Prod.mk.inj hverdicts
  exact ⟨compiled, hbuild, by decide, htoken, hcapitals, hsmall⟩

/-! ## Parameters in another order -/

section order

variable {v : Validator} {e e' : RawEvent} {tokens tokens' : List ParamToken}

/-- with parameters in another order a family finds the same rules broken, if the version is the same -/
theorem map_rule_violations_perm (hversion : v.versionText e (readParams e) = v.versionText e' (readParams e'))
    (htokens : Event.parseParams e.params = .ok tokens) (htokens' : Event.parseParams e'.params = .ok tokens')
    (hperm : tokens.Perm tokens') (family : PixelFamily) (remainder : String) :
    ((v.violations family remainder e).map Violation.rule).Perm
      ((v.violations family remainder e').map Violation.rule) := by
  rw [violations, violations, standingIn, standingIn, hversion, htokens, htokens']
  simp only [schemaViolations, FamilySchema.check, List.map_append]
  exact ((ParamsMatcher.map_rule_check_perm hperm).append_left _).append_left _

/-- Events that have the same name and the same version, and the same parameters in another order, get the same verdict.
The descriptors of what is found are the same too, each as often. -/
theorem judge_perm (hpixel : e.pixel = e'.pixel)
    (hversion : v.versionText e (readParams e) = v.versionText e' (readParams e'))
    (htokens : Event.parseParams e.params = .ok tokens) (htokens' : Event.parseParams e'.params = .ok tokens')
    (hperm : tokens.Perm tokens') :
    (v.judge e).verdict = (v.judge e').verdict ∧ (v.judge e).family = (v.judge e').family ∧
      (v.judge e).owners = (v.judge e').owners ∧
      ((v.judge e).findings.map Finding.descriptor).Perm ((v.judge e').findings.map Finding.descriptor) := by
  have hname : v.eventName e = v.eventName e' := by rw [eventName, eventName, hpixel]
  simp only [judge, hname]
  cases hfamily : (v.catalog.lookup (v.eventName e')).family with
  | none => exact ⟨rfl, rfl, rfl, .nil⟩
  | some family =>
    have hstanding : v.standingIn family e = v.standingIn family e' := by rw [standingIn, standingIn, hversion]
    dsimp only
    by_cases hold : v.standingIn family e' = .old
    · rw [judgeInFamily_old hold, judgeInFamily_old (hstanding.trans hold)]
      exact ⟨rfl, rfl, rfl, .nil⟩
    · have hrules := map_rule_violations_perm hversion htokens htokens' hperm family
        (v.catalog.lookup (v.eventName e')).remainder
      rw [judgeInFamily_eq hold, judgeInFamily_eq (hstanding ▸ hold)]
      generalize v.violations family _ e = found, v.violations family _ e' = found' at hrules
      cases found with
      | nil =>
        obtain rfl := List.map_eq_nil_iff.1 (List.nil_perm.1 hrules)
        exact ⟨rfl, rfl, rfl, .nil⟩
      | cons first rest =>
        cases found' with
        | nil => exact absurd (List.perm_nil.1 hrules) (List.cons_ne_nil _ _)
        | cons first' rest' =>
          refine ⟨rfl, rfl, rfl, ?_⟩
          rw [List.map_map, List.map_map]
          have hdescriptors := hrules.map Rule.descriptor
          rwa [List.map_map, List.map_map] at hdescriptors

end order

end Validator

end PixelAudit
