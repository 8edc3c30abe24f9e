/-
Which specification governs a parameter.

Specifications come in order, those of a family before those of its ancestors, and the common ones last. Of those that
are active the first that declares a key governs it, however many stand before it with a pattern of keys; a key that is
not declared is governed by the first whose pattern accepts it. A compiled matcher judges each key by the specification
that governs it. Specifications that are not active count as if they were not there.

Main results: `Represents.added` (taking in a declaration keeps what governs), `compile_represents` (a compiled matcher
looks up what governs), `compile_governed` (the same in terms of a product, and nothing else matters).
-/
import PixelAudit.Proofs.Schema.Gates
import PixelAudit.Proofs.Schema.Matcher
import Mathlib.Tactic

namespace PixelAudit

/-- the key is to be ignored, letters folded -/
def CompileContext.Ignores (ctx : CompileContext) (key : String) : Prop :=
  ∃ name ∈ ctx.ignoreParams.names, ctx.fold name = key

namespace ParamSpec

/-- the specification declares this very key, letters folded -/
def isFor (ctx : CompileContext) (key : String) (spec : ParamSpec) : Bool := spec.key.any fun k => ctx.fold k == key

/-- the specification has no key but a pattern of keys, which accepts this one -/
def takesIn (ctx : CompileContext) (key : String) (spec : ParamSpec) : Bool :=
  spec.key.isNone && (spec.keyPattern.bind fun source => Pattern.compile? source ctx.forceLowerCase).any fun pattern =>
    pattern.accepts key

/-- the specification that governs a key: the first that declares it, or else the first whose pattern accepts it -/
def governor? (ctx : CompileContext) (specs : List ParamSpec) (key : String) : Option ParamSpec :=
  (specs.find? (isFor ctx key)).or (specs.find? (takesIn ctx key))

end ParamSpec

/-! ## A specification and what it is compiled to -/

namespace CompiledFrom

variable {ctx : CompileContext} {spec : ParamSpec} {p : CompiledParam}

theorem isFor_eq (h : CompiledFrom ctx.forceLowerCase spec p) (key : String) : spec.isFor ctx key = p.isFor key := by
  cases h with
  | key hkey => simp [ParamSpec.isFor, CompiledParam.isFor, CompileContext.fold, hkey]
  | pattern hkey => simp [ParamSpec.isFor, CompiledParam.isFor, hkey]

theorem takesIn_eq (h : CompiledFrom ctx.forceLowerCase spec p) (key : String) :
    spec.takesIn ctx key = p.takesIn key := by
  cases h with
  | key hkey => simp [ParamSpec.takesIn, CompiledParam.takesIn, hkey]
  | @pattern source pattern _ hkey hsource hpattern =>
    have hcompile : Pattern.compile? source ctx.forceLowerCase = some pattern := by
      unfold ValueCheck.compilePattern at hpattern
      cases hp : Pattern.compile? source ctx.forceLowerCase with
      | none => simp [hp] at hpattern
      | some q =>
        rw [hp] at hpattern
        rw [Except.ok.inj hpattern]
    simp [ParamSpec.takesIn, CompiledParam.takesIn, hkey, hsource, hcompile]

/-- the parameter of a declared key is required if its specification says so -/
theorem required_eq (h : CompiledFrom ctx.forceLowerCase spec p) (hexact : p.keyPattern = none) :
    p.required = spec.required := by
  cases h with
  | key => rfl
  | pattern => cases hexact

/-- a specification is compiled in one way -/
theorem unique {q : CompiledParam} (hp : CompiledFrom ctx.forceLowerCase spec p)
    (hq : CompiledFrom ctx.forceLowerCase spec q) : p = q := by
  cases hp with
  | key hkey hvalue =>
    cases hq with
    | key hkey' hvalue' =>
      rw [hkey] at hkey'
      rw [hvalue] at hvalue'
      rw [Option.some.inj hkey', Except.ok.inj hvalue']
    | pattern hkey' =>
      rw [hkey] at hkey'
      cases hkey'
  | pattern hkey hsource hpattern hvalue =>
    cases hq with
    | key hkey' =>
      rw [hkey] at hkey'
      cases hkey'
    | pattern _ hsource' hpattern' hvalue' =>
      rw [hsource] at hsource'
      obtain rfl := Option.some.inj hsource'
      rw [hpattern] at hpattern'
      rw [hvalue] at hvalue'
      rw [Except.ok.inj hpattern', Except.ok.inj hvalue']

end CompiledFrom

/-! ## First matches -/

section find

variable {α β : Type} {R : α → β → Prop} {f : α → Bool} {g : β → Bool} {l : List α} {k : List β} {a : α} {b : β}

/-- first matches that are related stay so when related elements are appended -/
theorem rel_find?_concat (h : Option.Rel R (l.find? f) (k.find? g)) (hab : R a b) (hfg : f a = g b) :
    Option.Rel R ((l ++ [a]).find? f) ((k ++ [b]).find? g) := by
  rw [List.find?_append, List.find?_append]
  generalize l.find? f = first at h
  generalize k.find? g = second at h
  cases h with
  | some hR => exact .some hR
  | none =>
    rw [Option.none_or, Option.none_or, List.find?_singleton, List.find?_singleton, hfg]
    split_ifs
    · exact .some hab
    · exact .none

/-- what comes after the first match does not matter -/
theorem find?_concat_of_isSome (h : (l.find? f).isSome = true) : (l ++ [a]).find? f = l.find? f := by
  obtain ⟨x, hx⟩ := Option.isSome_iff_exists.1 h
  rw [List.find?_append, hx, Option.some_or]

theorem find?_concat_of_not (h : f a = false) : (l ++ [a]).find? f = l.find? f := by
  rw [List.find?_append, List.find?_singleton, h]
  simp

end find

namespace ParamsMatcher

variable {m m' : ParamsMatcher} {ctx : CompileContext} {specs done : List ParamSpec} {spec : ParamSpec} {key : String}

/-! ## What a matcher looks up -/

/-- the first parameter for a key comes from the first specification for it, for declared keys as for patterns -/
structure Represents (ctx : CompileContext) (done : List ParamSpec) (m : ParamsMatcher) : Prop where
  lowerCase : m.lowerCase = ctx.forceLowerCase
  ignored : m.ignored = (start ctx).ignored
  indexed : m.Indexed
  isFor : ∀ key, Option.Rel (CompiledFrom ctx.forceLowerCase) (done.find? (ParamSpec.isFor ctx key))
    (m.params.find? (CompiledParam.isFor key))
  takesIn : ∀ key, Option.Rel (CompiledFrom ctx.forceLowerCase) (done.find? (ParamSpec.takesIn ctx key))
    (m.params.find? (CompiledParam.takesIn key))

theorem start_represents (ctx : CompileContext) : Represents ctx [] (start ctx) :=
  ⟨rfl, rfl, start_indexed ctx, fun _ => .none, fun _ => .none⟩

theorem Represents.added (h : Represents ctx done m) (hadded : Added m spec m') :
    Represents ctx (done ++ [spec]) m' := by
  have hindexed := h.indexed.added hadded
  cases hadded with
  | @shadowed p hp hexact hbefore =>
    rw [h.lowerCase] at hp
    refine ⟨h.lowerCase, h.ignored, h.indexed, fun key => ?_, fun key => ?_⟩
    · cases hfor : spec.isFor ctx key with
      | false =>
        rw [find?_concat_of_not hfor]
        exact h.isFor key
      | true =>
        -- the key was declared before, so the first specification for it stands before as well
        rw [hp.isFor_eq] at hfor
        obtain ⟨-, rfl⟩ := CompiledParam.isFor_iff.1 hfor
        obtain ⟨i, hi⟩ := Option.isSome_iff_exists.1 hbefore
        obtain ⟨q, hq, hqfor⟩ := (h.indexed.byKey _ _).1 hi
        have hsome : (done.find? (ParamSpec.isFor ctx p.label)).isSome = true := by
          rw [isSome_of_rel (h.isFor p.label), h.indexed.find?_isFor hq hqfor]
          rfl
        rw [find?_concat_of_isSome hsome]
        exact h.isFor p.label
    · have htakes : spec.takesIn ctx key = false := by
        rw [hp.takesIn_eq, CompiledParam.takesIn, hexact]
        rfl
      rw [find?_concat_of_not htakes]
      exact h.takesIn key
  | exact hp | patterned hp =>
    rw [h.lowerCase] at hp
    exact ⟨h.lowerCase, h.ignored, hindexed, fun key => rel_find?_concat (h.isFor key) hp (hp.isFor_eq key),
      fun key => rel_find?_concat (h.takesIn key) hp (hp.takesIn_eq key)⟩

/-- a compiled matcher represents the active specifications -/
theorem compile_represents (h : compile specs ctx = .ok m) : Represents ctx (active specs ctx) m :=
  @compile_invariant _ _ _ (Represents ctx) (start_represents ctx) (fun _ _ _ _ hn hadded => hn.added hadded) h

/-- a key is looked up as the specification that governs it -/
theorem Represents.lookup (h : Represents ctx done m) (key : String) :
    Option.Rel (CompiledFrom ctx.forceLowerCase) (ParamSpec.governor? ctx done key) (m.lookup key) := by
  rw [h.indexed.lookup_eq, ParamSpec.governor?]
  have hfor := h.isFor key
  generalize done.find? (ParamSpec.isFor ctx key) = first at hfor
  generalize m.params.find? (CompiledParam.isFor key) = second at hfor
  cases hfor with
  | some hR => exact .some hR
  | none => exact h.takesIn key

/-! ## What an event is told -/

theorem Represents.ignored_iff (h : Represents ctx done m) (key : String) :
    m.ignored.contains key = true ↔ ctx.Ignores key := by
  rw [h.ignored, start, NameSet.ofList, NameSet.contains_foldl_insert, List.mem_map]
  simp [Dict.contains, CompileContext.Ignores]

theorem Represents.foldToken_eq (h : Represents ctx done m) (t : ParamToken) :
    m.foldToken t = ⟨ctx.fold t.key, ctx.fold t.value⟩ := by
  unfold foldToken CompileContext.fold foldText
  rw [h.lowerCase]
  split_ifs <;> rfl

/-- the parameters that are looked at -/
theorem Represents.mem_relevant (h : Represents ctx done m) (tokens : List ParamToken) (folded : ParamToken) :
    folded ∈ m.relevant tokens ↔
      ¬ ctx.Ignores folded.key ∧ ∃ t ∈ tokens, folded = ⟨ctx.fold t.key, ctx.fold t.value⟩ := by
  simp only [relevant, List.mem_filter, List.mem_map, Bool.not_eq_true', ← Bool.not_eq_true, h.ignored_iff,
    h.foldToken_eq]
  constructor
  · rintro ⟨⟨t, ht, rfl⟩, hrelevant⟩
    exact ⟨hrelevant, t, ht, rfl⟩
  · rintro ⟨hrelevant, t, ht, rfl⟩
    exact ⟨⟨t, ht, rfl⟩, hrelevant⟩

/-- the keys that are looked at -/
theorem Represents.exists_relevant (h : Represents ctx done m) (tokens : List ParamToken) (key : String) :
    (∃ t ∈ m.relevant tokens, t.key = key) ↔ ¬ ctx.Ignores key ∧ ∃ t ∈ tokens, ctx.fold t.key = key := by
  constructor
  · rintro ⟨folded, hfolded, rfl⟩
    obtain ⟨hrelevant, t, ht, rfl⟩ := (h.mem_relevant tokens folded).1 hfolded
    exact ⟨hrelevant, t, ht, rfl⟩
  · rintro ⟨hrelevant, t, ht, rfl⟩
    exact ⟨_, (h.mem_relevant tokens _).2 ⟨hrelevant, t, ht, rfl⟩, rfl⟩

/-- a key is reported as unknown if it is looked at and no specification governs it -/
theorem Represents.unknown_iff (h : Represents ctx done m) (tokens : List ParamToken) (key : String) :
    (∃ sample, ⟨.knownParameter key, sample⟩ ∈ m.check tokens) ↔
      ParamSpec.governor? ctx done key = none ∧ ¬ ctx.Ignores key ∧ ∃ t ∈ tokens, ctx.fold t.key = key := by
  have hnone : ParamSpec.governor? ctx done key = none ↔ m.lookup key = none := by
    rw [← Option.isNone_iff_eq_none, ← Option.isNone_iff_eq_none, ← Option.not_isSome, ← Option.not_isSome,
      isSome_of_rel (h.lookup key)]
  rw [hnone, ← h.exists_relevant]
  constructor
  · rintro ⟨sample, hv⟩
    rcases (m.mem_check tokens _).1 hv with ⟨t, ht, hlookup, heq⟩ | ⟨t, -, p, expected, -, -, heq⟩ | ⟨p, -, -, heq⟩
    · obtain ⟨⟨rfl⟩, -⟩ := Violation.mk.inj heq
      exact ⟨hlookup, t, ht, rfl⟩
    · cases heq
    · cases heq
  · rintro ⟨hlookup, t, ht, rfl⟩
    exact ⟨t.raw, (m.mem_check tokens _).2 (Or.inl ⟨t, ht, hlookup, rfl⟩)⟩

/-- a value is reported as invalid if the specification that governs its key says so -/
theorem Represents.invalid_iff (h : Represents ctx done m) (tokens : List ParamToken) (label sample : String)
    (expected : Expectation) : ⟨.validValue label expected, sample⟩ ∈ m.check tokens ↔
      ∃ t ∈ tokens, ¬ ctx.Ignores (ctx.fold t.key) ∧ ctx.fold t.value = sample ∧
        ∃ spec p, ParamSpec.governor? ctx done (ctx.fold t.key) = some spec ∧
          CompiledFrom ctx.forceLowerCase spec p ∧ p.label = label ∧ p.value.unmet? sample = some expected := by
  constructor
  · intro hv
    rcases (m.mem_check tokens _).1 hv with ⟨t, -, -, heq⟩ | ⟨folded, hfolded, p, expected', hlookup, hunmet, heq⟩ |
      ⟨p, -, -, heq⟩
    · cases heq
    · obtain ⟨⟨rfl, rfl⟩, rfl⟩ := Violation.mk.inj heq
      obtain ⟨hrelevant, t, ht, rfl⟩ := (h.mem_relevant tokens folded).1 hfolded
      obtain ⟨spec, hspec, hfrom⟩ := exists_of_rel_some (h.lookup _) hlookup
      exact ⟨t, ht, hrelevant, rfl, spec, p, hspec, hfrom, rfl, hunmet⟩
    · cases heq
  · rintro ⟨t, ht, hrelevant, rfl, spec, p, hspec, hfrom, rfl, hunmet⟩
    obtain ⟨q, hlookup, hfrom'⟩ := exists_of_rel (h.lookup _) hspec
    obtain rfl := hfrom.unique hfrom'
    have hfolded := (h.mem_relevant tokens ⟨ctx.fold t.key, ctx.fold t.value⟩).2 ⟨hrelevant, t, ht, rfl⟩
    exact (m.mem_check tokens _).2 (Or.inr (Or.inl ⟨_, hfolded, p, expected, hlookup, hunmet, rfl⟩))

/-- a key must be there if the specification for this very key says so and the key is not ignored -/
theorem Represents.mem_requiredParams (h : Represents ctx done m) (key : String) :
    (∃ p ∈ m.requiredParams, p.label = key) ↔
      (∃ spec, done.find? (ParamSpec.isFor ctx key) = some spec ∧ spec.required = true) ∧ ¬ ctx.Ignores key := by
  rw [h.indexed.requiredParams_eq]
  constructor
  · rintro ⟨p, hp, rfl⟩
    obtain ⟨hmem, hdue⟩ := List.mem_filter.1 hp
    obtain ⟨hexact, hrequired, hrelevant⟩ := CompiledParam.isDue_iff.1 hdue
    obtain ⟨i, hi⟩ := List.mem_iff_getElem?.1 hmem
    have hfirst := h.indexed.find?_isFor hi (CompiledParam.isFor_iff.2 ⟨hexact, rfl⟩)
    obtain ⟨spec, hspec, hfrom⟩ := exists_of_rel_some (h.isFor p.label) hfirst
    refine ⟨⟨spec, hspec, ?_⟩, ?_⟩
    · rw [← hfrom.required_eq hexact, hrequired]
    · rw [← h.ignored_iff, hrelevant]
      exact Bool.false_ne_true
  · rintro ⟨⟨spec, hspec, hrequired⟩, hrelevant⟩
    obtain ⟨p, hfirst, hfrom⟩ := exists_of_rel (h.isFor key) hspec
    obtain ⟨hexact, rfl⟩ := CompiledParam.isFor_iff.1 (List.find?_some hfirst)
    refine ⟨p, List.mem_filter.2 ⟨List.mem_of_find?_eq_some hfirst, CompiledParam.isDue_iff.2 ⟨hexact, ?_, ?_⟩⟩, rfl⟩
    · rw [hfrom.required_eq hexact, hrequired]
    · rwa [← Bool.not_eq_true, h.ignored_iff]

/-- a key is reported as missing if it must be there and is not -/
theorem Represents.missing_iff (h : Represents ctx done m) (tokens : List ParamToken) (key : String) :
    (∃ sample, ⟨.requiredParameter key, sample⟩ ∈ m.check tokens) ↔
      ((∃ spec, done.find? (ParamSpec.isFor ctx key) = some spec ∧ spec.required = true) ∧ ¬ ctx.Ignores key) ∧
        ∀ t ∈ tokens, ctx.fold t.key ≠ key := by
  rw [← h.mem_requiredParams]
  constructor
  · rintro ⟨sample, hv⟩
    rcases (m.mem_check tokens _).1 hv with ⟨t, -, -, heq⟩ | ⟨t, -, p, expected, -, -, heq⟩ | ⟨p, hp, habsent, heq⟩
    · cases heq
    · cases heq
    · obtain ⟨⟨rfl⟩, -⟩ := Violation.mk.inj heq
      have hrelevant := ((h.mem_requiredParams p.label).1 ⟨p, hp, rfl⟩).2
      rw [h.exists_relevant] at habsent
      exact ⟨⟨p, hp, rfl⟩, fun t ht hkey => habsent ⟨hrelevant, t, ht, hkey⟩⟩
  · rintro ⟨⟨p, hp, rfl⟩, habsent⟩
    refine ⟨rawTokens tokens, (m.mem_check tokens _).2 (Or.inr (Or.inr ⟨p, hp, ?_, rfl⟩))⟩
    rw [h.exists_relevant]
    rintro ⟨-, t, ht, hkey⟩
    exact habsent t ht hkey

/-- a matcher judges each key by the specification that governs it -/
structure GovernedBy (ctx : CompileContext) (specs : List ParamSpec) (m : ParamsMatcher) : Prop where
  /-- a key is looked up as what its governor is compiled to -/
  lookup : ∀ key, Option.Rel (CompiledFrom ctx.forceLowerCase) (ParamSpec.governor? ctx specs key) (m.lookup key)
  /-- without a governor a key is unknown -/
  unknown : ∀ tokens key, (∃ sample, ⟨.knownParameter key, sample⟩ ∈ m.check tokens) ↔
    ParamSpec.governor? ctx specs key = none ∧ ¬ ctx.Ignores key ∧ ∃ t ∈ tokens, ctx.fold t.key = key
  /-- a value must meet the rules of the governor of its key -/
  invalid : ∀ tokens label sample expected, ⟨.validValue label expected, sample⟩ ∈ m.check tokens ↔
    ∃ t ∈ tokens, ¬ ctx.Ignores (ctx.fold t.key) ∧ ctx.fold t.value = sample ∧
      ∃ spec p, ParamSpec.governor? ctx specs (ctx.fold t.key) = some spec ∧
        CompiledFrom ctx.forceLowerCase spec p ∧ p.label = label ∧ p.value.unmet? sample = some expected
  /-- a key is required if its governor declares this very key as required, and the key is not ignored -/
  missing : ∀ tokens key, (∃ sample, ⟨.requiredParameter key, sample⟩ ∈ m.check tokens) ↔
    ((∃ spec, specs.find? (ParamSpec.isFor ctx key) = some spec ∧ spec.required = true) ∧ ¬ ctx.Ignores key) ∧
      ∀ t ∈ tokens, ctx.fold t.key ≠ key

/-- In a product the active specifications govern, the first for a key before the first whose pattern accepts it, and
the others do not matter: whatever stands among the active ones, the same matcher comes out, or the same fault. -/
theorem compile_governed (product : Product) (ctx : CompileContext) (hctx : ctx.experiments = product.experiments)
    (specs : List ParamSpec) :
    (∀ m, compile specs ctx = .ok m → m.GovernedBy ctx (product.activeOf (specs ++ ctx.commonParams.values))) ∧
      ∀ (specs' : List ParamSpec) (common' : ParamCatalog),
        product.activeOf (specs' ++ common'.values) = product.activeOf (specs ++ ctx.commonParams.values) →
          compile specs' { ctx with commonParams := common' } = compile specs ctx := by
  constructor
  · intro m hcompile
    have hm := compile_represents hcompile
    rw [active, hctx, ← product.activeOf_eq] at hm
    exact ⟨hm.lookup, hm.unknown_iff, hm.invalid_iff, hm.missing_iff⟩
  · intro specs' common' hactive
    have hsame : active specs' { ctx with commonParams := common' } = active specs ctx := by
      simpa only [active, hctx, product.activeOf_eq] using hactive
    rw [compile_eq_foldlM_active, hsame, compile_eq_foldlM_active specs ctx]
    rfl

/-- a product in which one variant of an experiment runs -/
def gatedProduct : Product := { nativeExperiments := Dict.ofList [("wide", ⟨["a"]⟩)] }

def gatedContext : CompileContext := { experiments := gatedProduct.experiments }

/-- a specification for another variant, with a pattern that is not valid, before two of which the key outdoes the
pattern -/
def gatedSpecs : List ParamSpec := [
  { key := some "q", pattern := some "(", experiment := some ⟨"wide", ["b"]⟩ },
  { keyPattern := some "q+" },
  { key := some "q", required := true }]

/-- what stands behind the closed gate neither fails nor shadows -/
theorem compile_governed_gated : ∃ m, compile gatedSpecs gatedContext = .ok m ∧
    m.GovernedBy gatedContext (gatedProduct.activeOf gatedSpecs) ∧
    (∀ tokens, (∃ sample, ⟨.requiredParameter "q", sample⟩ ∈ m.check tokens) ↔
      ∀ t ∈ tokens, gatedContext.fold t.key ≠ "q") ∧
    compile gatedSpecs.tail gatedContext = compile gatedSpecs gatedContext := by
  have hok : (compile gatedSpecs gatedContext).isOk = true := by decide
  have hcommon : gatedSpecs ++ gatedContext.commonParams.values = gatedSpecs := rfl
  have hactive : gatedProduct.activeOf (gatedSpecs.tail ++ Dict.values ∅) = gatedProduct.activeOf gatedSpecs := by
    decide
  have hgoverned := compile_governed gatedProduct gatedContext rfl gatedSpecs
  rw [hcommon] at hgoverned
  cases hcompile : compile gatedSpecs gatedContext with
  | error e =>
    rw [hcompile] at hok
    cases hok
  | ok m =>
    have hm := hgoverned.1 m hcompile
    have hgovernor : ∃ spec, (gatedProduct.activeOf gatedSpecs).find? (ParamSpec.isFor gatedContext "q") = some spec ∧
        spec.required = true := ⟨{ key := some "q", required := true }, by decide, rfl⟩
    refine ⟨m, rfl, hm, fun tokens => ?_, ?_⟩
    · rw [hm.missing]
      have hrelevant : ¬ gatedContext.Ignores "q" := by
        rintro ⟨name, hname, -⟩
        cases hname
      exact and_iff_right ⟨hgovernor, hrelevant⟩
    · rw [← hcompile]
      exact hgoverned.2 gatedSpecs.tail ∅ hactive

end ParamsMatcher

end PixelAudit
