/-
Keys that are ignored.

A parameter with an ignored key is passed over before anything is looked up, and an ignored key is not asked for. The
specifications are compiled in the same way whatever is ignored. So to ignore more keys is to judge every event without
the parameters that have them, and to waive what is required of them.

Main results: `compile_sameParams` (what is ignored takes no part in compiling), `map_rule_check_congr` (an event breaks
the rules that the parameters that are looked at break), `check_erases` (what is reported when more keys are ignored).
-/
import PixelAudit.Proofs.Schema.Congruence
import PixelAudit.Proofs.Schema.Governing
import Mathlib.Tactic

namespace PixelAudit

namespace CompileContext

instance (ctx : CompileContext) : DecidablePred ctx.Ignores := fun key =>
  inferInstanceAs (Decidable (∃ name ∈ ctx.ignoreParams.names, ctx.fold name = key))

/-- the key of the parameter is not ignored, letters folded -/
def regards (ctx : CompileContext) (t : ParamToken) : Bool := !decide (ctx.Ignores (ctx.fold t.key))

/-- the rule is that an ignored key has to be there -/
def waives (ctx : CompileContext) : Rule → Bool
  | .requiredParameter key => ctx.Ignores key
  | _ => false

end CompileContext

namespace ParamsMatcher

variable {m n : ParamsMatcher} {ctx : CompileContext} {specs : List ParamSpec}

/-! ## Compiling -/

/-- the same parameters, found under the same keys -/
structure SameParams (m n : ParamsMatcher) : Prop where
  params : m.params = n.params
  byKey : m.byKey = n.byKey
  patterned : m.patterned = n.patterned
  lowerCase : m.lowerCase = n.lowerCase

theorem SameParams.addKey (h : SameParams m n) (spec : ParamSpec) (key : String) (value : ValueCheck) :
    SameParams (m.addKey spec key value) (n.addKey spec key value) := by
  unfold ParamsMatcher.addKey
  simp only [raiseFloor_eq, push, ← h.params, ← h.byKey, ← h.lowerCase]
  by_cases hbefore : m.byKey.contains (foldText m.lowerCase key) = true
  · rw [if_pos hbefore, if_pos hbefore]
    exact h
  · -- an ignored key is listed like any other
    rw [if_neg hbefore, if_neg hbefore]
    split_ifs <;> exact ⟨rfl, rfl, h.patterned, rfl⟩

theorem SameParams.addPattern (h : SameParams m n) (spec : ParamSpec) (source : String) (pattern : Pattern)
    (value : ValueCheck) :
    SameParams (m.addPattern spec source pattern value) (n.addPattern spec source pattern value) := by
  simp only [ParamsMatcher.addPattern, raiseFloor_eq, push, ← h.params, ← h.patterned]
  exact ⟨rfl, h.byKey, rfl, h.lowerCase⟩

theorem SameParams.add (experiments : Experiments) (h : SameParams m n) (spec : ParamSpec) :
    Agree SameParams (m.add experiments spec) (n.add experiments spec) := by
  unfold ParamsMatcher.add
  split_ifs
  · exact .ok h
  · rw [← h.lowerCase]
    refine (Agree.self _).bind fun value _ heq => ?_
    subst heq
    cases spec.key with
    | some key => exact .ok (h.addKey spec key value)
    | none =>
      cases spec.keyPattern with
      | none => exact .error _ _
      | some source =>
        refine (Agree.self _).bind fun pattern _ heq => ?_
        subst heq
        exact .ok (h.addPattern spec source pattern value)

/-- what is ignored takes no part in compiling -/
theorem compile_sameParams (specs : List ParamSpec) (ctx : CompileContext) (ignored : NameSet) :
    Agree SameParams (compile specs ctx) (compile specs { ctx with ignoreParams := ignored }) := by
  refine Agree.foldlM (S := Eq) ?_ (List.forall₂_refl _) ⟨rfl, rfl, rfl, rfl⟩
  intro a b spec _ hab heq
  subst heq
  exact hab.add ctx.experiments spec

/-! ## Checking -/

theorem SameParams.lookup_eq (h : SameParams m n) (key : String) : m.lookup key = n.lookup key := by
  simp only [lookup, h.params, h.byKey, h.patterned]

theorem SameParams.checkToken_eq (h : SameParams m n) (t : ParamToken) : m.checkToken t = n.checkToken t := by
  simp only [checkToken, h.lookup_eq]

theorem SameParams.foldToken_eq (h : SameParams m n) (t : ParamToken) : m.foldToken t = n.foldToken t := by
  simp only [foldToken, h.lowerCase]

/-- the keys of the parameters that are looked at -/
def presentKeys (m : ParamsMatcher) (tokens : List ParamToken) : NameSet :=
  NameSet.ofList ((m.relevant tokens).map ParamToken.key)

theorem contains_presentKeys (m : ParamsMatcher) (tokens : List ParamToken) (key : String) :
    (m.presentKeys tokens).contains key = true ↔
      m.ignored.contains key = false ∧ ∃ t ∈ tokens, (m.foldToken t).key = key := by
  rw [presentKeys, NameSet.contains_ofList]
  simp only [relevant, List.mem_map, List.mem_filter, Bool.not_eq_true']
  constructor
  · rintro ⟨_, ⟨⟨t, ht, rfl⟩, hignored⟩, rfl⟩
    exact ⟨hignored, t, ht, rfl⟩
  · rintro ⟨hignored, t, ht, rfl⟩
    exact ⟨_, ⟨⟨t, ht, rfl⟩, hignored⟩, rfl⟩

theorem map_rule_missing (m : ParamsMatcher) (tokens : List ParamToken) :
    (m.missing tokens).map Violation.rule =
      (m.requiredParams.filter fun p => !(m.presentKeys tokens).contains p.label).map fun p =>
        .requiredParameter p.label := by
  simp only [missing, presentKeys, List.map_map]
  rfl

/-- an event breaks the rules that the parameters that are looked at break -/
theorem map_rule_check_congr {tokens tokens' : List ParamToken} (h : m.relevant tokens = m.relevant tokens') :
    (m.check tokens).map Violation.rule = (m.check tokens').map Violation.rule := by
  simp only [check, List.map_append, map_rule_missing, presentKeys, h]

/-! ## More keys that are ignored -/

/-- the same parameters, and of the keys those that the context ignores are ignored -/
structure Widens (ctx : CompileContext) (m n : ParamsMatcher) : Prop where
  sameParams : SameParams m n
  indexed : m.Indexed
  indexed' : n.Indexed
  fold : ∀ t, n.foldToken t = ⟨ctx.fold t.key, ctx.fold t.value⟩
  ignored : ∀ key, n.ignored.contains key = true ↔ ctx.Ignores key
  more : ∀ key, m.ignored.contains key = true → n.ignored.contains key = true

theorem widens_of_compile {wider : NameSet}
    (hwider : ∀ name, ctx.ignoreParams.contains name = true → wider.contains name = true)
    (hm : compile specs ctx = .ok m) (hn : compile specs { ctx with ignoreParams := wider } = .ok n) :
    Widens { ctx with ignoreParams := wider } m n := by
  have hsame := compile_sameParams specs ctx wider
  rw [hm, hn] at hsame
  have hm' := compile_represents hm
  have hn' := compile_represents hn
  refine ⟨hsame.of_ok, hm'.indexed, hn'.indexed, hn'.foldToken_eq, hn'.ignored_iff, fun key hkey => ?_⟩
  rw [hn'.ignored_iff]
  obtain ⟨name, hname, hfold⟩ := (hm'.ignored_iff key).1 hkey
  rw [← Dict.contains_iff_mem_names] at hname
  exact ⟨name, (wider.contains_iff_mem_names name).1 (hwider name hname), hfold⟩

namespace Widens

theorem not_ignored (h : Widens ctx m n) (key : String) :
    (!n.ignored.contains key) = (!m.ignored.contains key && !decide (ctx.Ignores key)) := by
  have hiff := h.ignored key
  have hmore := h.more key
  cases hn : n.ignored.contains key <;> cases hm : m.ignored.contains key <;> simp_all

/-- the parameters that are looked at are those that are left when the ignored ones are taken out -/
theorem relevant_eq (h : Widens ctx m n) (tokens : List ParamToken) :
    n.relevant tokens = m.relevant (tokens.filter ctx.regards) := by
  simp only [relevant, List.filter_map, List.filter_filter]
  have hfold : m.foldToken = n.foldToken := funext h.sameParams.foldToken_eq
  rw [hfold]
  congr 1
  refine List.filter_congr fun t _ => ?_
  rw [Function.comp_apply, Function.comp_apply, h.not_ignored, CompileContext.regards, h.fold]

/-- fewer parameters have to be there -/
theorem requiredParams_eq (h : Widens ctx m n) :
    n.requiredParams = m.requiredParams.filter fun p => !decide (ctx.Ignores p.label) := by
  rw [h.indexed'.requiredParams_eq, h.indexed.requiredParams_eq, h.sameParams.params, List.filter_filter]
  refine List.filter_congr fun p _ => ?_
  simp only [CompiledParam.isDue, h.not_ignored]
  cases p.keyPattern.isNone <;> cases p.required <;> simp [Bool.and_comm]

/-- an event breaks the rules that it breaks without the ignored parameters, but for those that are waived -/
theorem map_rule_check (h : Widens ctx m n) (tokens : List ParamToken) :
    (n.check tokens).map Violation.rule =
      ((m.check (tokens.filter ctx.regards)).filter fun v => !ctx.waives v.rule).map Violation.rule := by
  have hparams : ((m.relevant (tokens.filter ctx.regards)).filterMap m.checkToken).filter
      (fun v => !ctx.waives v.rule) = (n.relevant tokens).filterMap n.checkToken := by
    rw [h.relevant_eq, ← funext h.sameParams.checkToken_eq, List.filter_eq_self]
    intro v hv
    obtain ⟨t, -, ht⟩ := List.mem_filterMap.1 hv
    rcases (m.checkToken_eq_some_iff t v).1 ht with ⟨-, rfl⟩ | ⟨p, expected, -, -, rfl⟩ <;> rfl
  have hmissing : ((m.missing (tokens.filter ctx.regards)).filter fun v => !ctx.waives v.rule).map Violation.rule =
      (n.missing tokens).map Violation.rule := by
    rw [map_rule_missing, h.requiredParams_eq, presentKeys, h.relevant_eq]
    have hrules : (fun v : Violation => !ctx.waives v.rule) = (fun r => !ctx.waives r) ∘ Violation.rule := rfl
    rw [hrules, ← List.filter_map, map_rule_missing, List.filter_map, List.filter_filter, List.filter_filter]
    congr 1
    refine List.filter_congr fun p _ => ?_
    rw [Bool.and_comm]
    rfl
  rw [check, check, List.filter_append, List.map_append, List.map_append, hparams, hmissing]

/-- nothing is found wrong that was not found wrong before -/
theorem check_sublist (h : Widens ctx m n) (tokens : List ParamToken) :
    (n.check tokens).Sublist (m.check tokens) := by
  have hrelevant : (n.relevant tokens).Sublist (m.relevant tokens) := by
    rw [h.relevant_eq]
    exact (List.filter_sublist.map _).filter _
  have hmissing : (n.missing tokens).Sublist (m.missing tokens) := by
    apply List.Sublist.map
    rw [h.requiredParams_eq, List.filter_filter]
    apply List.monotone_filter_right
    intro p hp
    simp only [Bool.and_eq_true, Bool.not_eq_true', decide_eq_false_iff_not] at hp ⊢
    obtain ⟨habsent, hregarded⟩ := hp
    -- a key that is not ignored is present under both lists, or under neither
    by_contra hpresent
    obtain ⟨-, t, ht, hkey⟩ := (m.contains_presentKeys tokens p.label).1 (eq_true_of_ne_false hpresent)
    have hnow : (n.presentKeys tokens).contains p.label = true := by
      rw [contains_presentKeys, ← Bool.not_eq_true, h.ignored]
      exact ⟨hregarded, t, ht, by rw [← h.sameParams.foldToken_eq, hkey]⟩
    exact Bool.false_ne_true (habsent.symm.trans hnow)
  have hfound : ((n.relevant tokens).filterMap n.checkToken).Sublist ((m.relevant tokens).filterMap m.checkToken) := by
    rw [← funext h.sameParams.checkToken_eq]
    exact hrelevant.filterMap _
  exact hfound.append hmissing

end Widens

/-! ## What is reported -/

/-- the descriptors under which an event is reported -/
def reports (m : ParamsMatcher) (tokens : List ParamToken) : List String :=
  (m.check tokens).map Violation.descriptor

/-- rules that are broken in the same order are reported alike -/
theorem map_descriptor_congr {found found' : List Violation}
    (h : found.map Violation.rule = found'.map Violation.rule) :
    found.map Violation.descriptor = found'.map Violation.descriptor := by
  have hdescriptor : Violation.descriptor = Rule.descriptor ∘ Violation.rule := rfl
  rw [hdescriptor, ← List.map_map, ← List.map_map, h]

/-- what is reported by a matcher that ignores the keys of a context, against one that ignores fewer -/
structure ErasedFrom (ctx : CompileContext) (m n : ParamsMatcher) : Prop where
  /-- what is reported without the ignored parameters, but for what is waived -/
  erased : ∀ tokens, n.reports tokens =
    ((m.check (tokens.filter ctx.regards)).filter fun v => !ctx.waives v.rule).map Violation.descriptor
  /-- ignored parameters may stand anywhere, or not at all -/
  unmoved : ∀ tokens tokens', tokens.filter ctx.regards = tokens'.filter ctx.regards →
    n.reports tokens = n.reports tokens'
  /-- nothing more is reported -/
  fewer : ∀ tokens, (n.reports tokens).Sublist (m.reports tokens)

/-- To ignore more keys makes no difference to whether specifications can be compiled. Events are then judged without
the parameters that have these keys, and without what the keys themselves are required for. -/
theorem check_erases (specs : List ParamSpec) (ctx : CompileContext) (wider : NameSet)
    (hwider : ∀ name, ctx.ignoreParams.contains name = true → wider.contains name = true) :
    (compile specs ctx).isOk = (compile specs { ctx with ignoreParams := wider }).isOk ∧
      ∀ m n, compile specs ctx = .ok m → compile specs { ctx with ignoreParams := wider } = .ok n →
        ErasedFrom { ctx with ignoreParams := wider } m n := by
  refine ⟨(compile_sameParams specs ctx wider).isOk_eq, fun m n hm hn => ?_⟩
  have h := widens_of_compile hwider hm hn
  constructor
  · intro tokens
    exact map_descriptor_congr (h.map_rule_check tokens)
  · intro tokens tokens' hsame
    apply map_descriptor_congr
    apply map_rule_check_congr
    rw [h.relevant_eq, h.relevant_eq, hsame]
  · intro tokens
    exact (h.check_sublist tokens).map Violation.descriptor

/-- a required key that a pattern accepts too, and another required key -/
def pageSpecs : List ParamSpec := [
  { keyPattern := some "page+", allowed := ["x"] },
  { key := some "page", valueType := some .integer, required := true },
  { key := some "id", required := true }]

/-- an ignored key is not looked at wherever it stands, and it is not missed -/
theorem check_erases_page : ∃ m n, compile pageSpecs {} = .ok m ∧
    compile pageSpecs { ignoreParams := NameSet.ofList ["page"] } = .ok n ∧
    n.reports [⟨"page", "1"⟩, ⟨"id", "2"⟩, ⟨"page", "x"⟩] = n.reports [⟨"id", "2"⟩] ∧
    (n.reports []).Sublist (m.reports []) := by
  have hok : (compile pageSpecs {}).isOk = true := by decide
  have herases := check_erases pageSpecs {} (NameSet.ofList ["page"]) fun name hname => by cases hname
  cases hm : compile pageSpecs {} with
  | error e =>
    rw [hm] at hok
    cases hok
  | ok m =>
    cases hn : compile pageSpecs { ignoreParams := NameSet.ofList ["page"] } with
    | error e =>
      rw [herases.1, hn] at hok
      cases hok
    | ok n =>
      have h := herases.2 m n hm hn
      exact ⟨m, n, rfl, rfl, h.unmoved _ _ (by decide), h.fewer []⟩

end ParamsMatcher

end PixelAudit
