/-
Reading through the indices of a matcher, with a fault where an index leads out of the list of parameters.

A matcher reads its parameters at indices that were noted while it was compiled: the index of a declared key, the
indices of the patterns of keys, one after the other until a pattern accepts the key, and the indices of the parameters
that must be there. `strictLookup` and `strictCheck` read in the same order as `lookup` and `check`, but stop where
there is no parameter at an index. The indices of a compiled matcher are exact, so that this never happens.

Main results: `compile_exact` (what the indices of a compiled matcher are, and that no look-up and no check leads out of
the list).
-/
import PixelAudit.Proofs.Schema.Governing

namespace PixelAudit

namespace ParamsMatcher

/-- an index at which a list of the given length has nothing -/
structure OutOfBounds where
  index : Nat
  length : Nat

/-- the parameter at an index -/
def paramAt (m : ParamsMatcher) (index : Nat) : Except OutOfBounds CompiledParam :=
  match m.params[index]? with
  | some p => .ok p
  | none => .error ⟨index, m.params.length⟩

/-- the first of the parameters at the indices whose pattern accepts the key; what comes after it is not read -/
def firstTaking (m : ParamsMatcher) (key : String) : List Nat → Except OutOfBounds (Option CompiledParam)
  | [] => .ok none
  | index :: rest => do
    let p ← m.paramAt index
    if p.takesIn key then return some p else m.firstTaking key rest

/-- the parameter that rules a key -/
def strictLookup (m : ParamsMatcher) (key : String) : Except OutOfBounds (Option CompiledParam) :=
  match m.byKey.find? key with
  | some index => some <$> m.paramAt index
  | none => m.firstTaking key m.patterned

/-- what is wrong with a parameter, given what rules its key -/
def verdict (t : ParamToken) : Option CompiledParam → Option Violation
  | some p => (p.value.unmet? t.value).map fun expected => ⟨.validValue p.label expected, t.value⟩
  | none => some ⟨.knownParameter t.key, t.raw⟩

/-- those of some parameters that are missing from an event -/
def missingOf (m : ParamsMatcher) (tokens : List ParamToken) (due : List CompiledParam) : List Violation :=
  let present := NameSet.ofList ((m.relevant tokens).map ParamToken.key)
  (due.filter fun p => !present.contains p.label).map fun p => ⟨.requiredParameter p.label, rawTokens tokens⟩

/-- everything that is wrong with an event -/
def strictCheck (m : ParamsMatcher) (tokens : List ParamToken) : Except OutOfBounds (List Violation) := do
  let found ← (m.relevant tokens).mapM fun t => verdict t <$> m.strictLookup t.key
  let due ← m.required.mapM m.paramAt
  return found.filterMap id ++ m.missingOf tokens due

/-- the indices of a matcher that is compiled with a context are those that its list of parameters gives -/
structure Exact (m : ParamsMatcher) (ctx : CompileContext) : Prop where
  byKey_lt : ∀ key i, m.byKey.find? key = some i → i < m.params.length
  patterned_lt : ∀ i ∈ m.patterned, i < m.params.length
  required_lt : ∀ i ∈ m.required, i < m.params.length
  /-- a key has the index of the parameter that is declared for it -/
  byKey : ∀ key i, m.byKey.find? key = some i ↔ ∃ p, m.params[i]? = some p ∧ p.keyPattern = none ∧ p.label = key
  /-- no two parameters are declared for one key -/
  labels : ∀ (i j : Nat) (p q : CompiledParam), m.params[i]? = some p → m.params[j]? = some q → p.keyPattern = none →
    q.keyPattern = none → p.label = q.label → i = j
  patterned : ∀ i, i ∈ m.patterned ↔ ∃ p pattern, m.params[i]? = some p ∧ p.keyPattern = some pattern
  patterned_increasing : m.patterned.Pairwise (· < ·)
  required : ∀ i, i ∈ m.required ↔
    ∃ p, m.params[i]? = some p ∧ p.keyPattern = none ∧ p.required = true ∧ ¬ ctx.Ignores p.label
  required_increasing : m.required.Pairwise (· < ·)

variable {m : ParamsMatcher} {ctx : CompileContext} {i : Nat}

/-! ## What the indices are -/

theorem mem_findIdxs_iff {f : CompiledParam → Bool} {params : List CompiledParam} :
    i ∈ params.findIdxs f ↔ ∃ p, params[i]? = some p ∧ f p = true := by
  simp only [List.mem_findIdxs_iff_exists_getElem_pos, List.getElem?_eq_some_iff]
  constructor
  · rintro ⟨hlt, hf⟩
    exact ⟨_, ⟨hlt, rfl⟩, hf⟩
  · rintro ⟨p, ⟨hlt, rfl⟩, hf⟩
    exact ⟨hlt, hf⟩

theorem Represents.exact {done : List ParamSpec} (h : Represents ctx done m) : m.Exact ctx := by
  have hbyKey : ∀ key i, m.byKey.find? key = some i ↔
      ∃ p, m.params[i]? = some p ∧ p.keyPattern = none ∧ p.label = key := by
    simpa only [CompiledParam.isFor_iff] using h.indexed.byKey
  have hpatterned : ∀ i, i ∈ m.patterned ↔ ∃ p pattern, m.params[i]? = some p ∧ p.keyPattern = some pattern := by
    simp only [h.indexed.patterned, mem_findIdxs_iff, Option.isSome_iff_exists, exists_and_left, implies_true]
  have hrequired : ∀ i, i ∈ m.required ↔
      ∃ p, m.params[i]? = some p ∧ p.keyPattern = none ∧ p.required = true ∧ ¬ ctx.Ignores p.label := by
    simp only [h.indexed.required, mem_findIdxs_iff, CompiledParam.isDue_iff, ← Bool.not_eq_true, h.ignored_iff,
      implies_true]
  refine {
    byKey_lt := fun key i hi => ?_
    patterned_lt := fun i hi => ?_
    required_lt := fun i hi => ?_
    byKey := hbyKey
    labels := fun i j p q hp hq hpexact hqexact hlabel => ?_
    patterned := hpatterned
    patterned_increasing := h.indexed.patterned ▸ List.pairwise_findIdxs
    required := hrequired
    required_increasing := h.indexed.required ▸ List.pairwise_findIdxs }
  · obtain ⟨p, hp, -⟩ := (hbyKey key i).1 hi
    exact (List.getElem?_eq_some_iff.1 hp).1
  · obtain ⟨p, pattern, hp, -⟩ := (hpatterned i).1 hi
    exact (List.getElem?_eq_some_iff.1 hp).1
  · obtain ⟨p, hp, -⟩ := (hrequired i).1 hi
    exact (List.getElem?_eq_some_iff.1 hp).1
  · exact h.indexed.unique hp hq (CompiledParam.isFor_iff.2 ⟨hpexact, rfl⟩)
      (CompiledParam.isFor_iff.2 ⟨hqexact, hlabel.symm⟩)

/-! ## Reading at indices that are within bounds -/

theorem paramAt_of_lt (h : i < m.params.length) : m.paramAt i = .ok m.params[i] := by
  rw [paramAt, List.getElem?_eq_getElem h]

theorem firstTaking_of_lt (key : String) {indices : List Nat} (h : ∀ i ∈ indices, i < m.params.length) :
    m.firstTaking key indices =
      .ok ((indices.filterMap fun i => m.params[i]?).find? (CompiledParam.takesIn key)) := by
  induction indices with
  | nil => rfl
  | cons i rest ih =>
    obtain ⟨hi, hrest⟩ := List.forall_mem_cons.1 h
    rw [List.filterMap_cons_some (List.getElem?_eq_getElem hi), List.find?_cons, firstTaking, paramAt_of_lt hi]
    cases htakes : m.params[i].takesIn key with
    | true =>
      simp only [htakes, bind, Except.bind, if_true]
      rfl
    | false => simpa only [htakes, bind, Except.bind, Bool.false_eq_true, if_false] using ih hrest

theorem mapM_paramAt_of_lt {indices : List Nat} (h : ∀ i ∈ indices, i < m.params.length) :
    indices.mapM m.paramAt = .ok (indices.filterMap fun i => m.params[i]?) := by
  induction indices with
  | nil => rfl
  | cons i rest ih =>
    obtain ⟨hi, hrest⟩ := List.forall_mem_cons.1 h
    rw [List.mapM_cons, paramAt_of_lt hi, ih hrest, List.filterMap_cons_some (List.getElem?_eq_getElem hi)]
    rfl

theorem Exact.strictLookup_eq (h : m.Exact ctx) (key : String) : m.strictLookup key = .ok (m.lookup key) := by
  unfold strictLookup lookup
  cases hkey : m.byKey.find? key with
  | some i =>
    have hi := h.byKey_lt key i hkey
    simp only [paramAt_of_lt hi, List.getElem?_eq_getElem hi]
    rfl
  | none =>
    simp only [firstTaking_of_lt key h.patterned_lt]
    refine congrArg (fun f => Except.ok (List.find? f _)) (funext fun p => ?_)
    cases hpattern : p.keyPattern <;> simp [CompiledParam.takesIn, hpattern]

theorem checkToken_eq_verdict (t : ParamToken) : m.checkToken t = verdict t (m.lookup t.key) := by
  unfold checkToken
  cases m.lookup t.key <;> rfl

theorem Exact.strictCheck_eq (h : m.Exact ctx) (tokens : List ParamToken) :
    m.strictCheck tokens = .ok (m.check tokens) := by
  have hverdict : (fun t => verdict t <$> m.strictLookup t.key) = fun t => pure (m.checkToken t) := by
    funext t
    rw [h.strictLookup_eq, checkToken_eq_verdict]
    rfl
  rw [strictCheck, hverdict, List.mapM_pure, mapM_paramAt_of_lt h.required_lt]
  change Except.ok (((m.relevant tokens).map m.checkToken).filterMap id ++ m.missing tokens) = _
  rw [List.filterMap_map, Function.id_comp, check]

/-- **The indices of a compiled matcher are exact.** Each key has the index of the one parameter that is declared for
it, the patterns of keys are listed in increasing order, and so are the parameters that must be there, each once. So no
look-up and no check of an event leads out of the list of parameters: one that would stop there goes through, with the
same answer. -/
theorem compile_exact (specs : List ParamSpec) (ctx : CompileContext) (m : ParamsMatcher)
    (hcompile : compile specs ctx = .ok m) :
    m.Exact ctx ∧ (∀ key, m.strictLookup key = .ok (m.lookup key)) ∧
      ∀ tokens, m.strictCheck tokens = .ok (m.check tokens) := by
  have hexact := (compile_represents hcompile).exact
  exact ⟨hexact, hexact.strictLookup_eq, hexact.strictCheck_eq⟩

/-- a pattern of keys, a key that must be there, the same key once more, and a key that is to be ignored -/
def mixedSpecs : List ParamSpec := [
  { keyPattern := some "q+" }, { key := some "id", required := true }, { key := some "id" },
  { key := some "debug", required := true }]

def mixedContext : CompileContext := { ignoreParams := NameSet.ofList ["debug"] }

/-- the second declaration of a key takes no index, and the key that is ignored has one but need not be there -/
theorem compile_exact_mixed : ∃ m, compile mixedSpecs mixedContext = .ok m ∧ m.Exact mixedContext ∧
    m.patterned = [0] ∧ m.byKey.entries = [("debug", 2), ("id", 1)] ∧ m.required = [1] ∧
    m.strictLookup "qq" = .ok (m.lookup "qq") ∧
    m.strictCheck [⟨"x", "1"⟩] = .ok (m.check [⟨"x", "1"⟩]) := by
  have hindices : (compile mixedSpecs mixedContext).toOption.map
      (fun m => (m.patterned, m.byKey.entries, m.required)) = some ([0], [("debug", 2), ("id", 1)], [1]) := by
    decide
  obtain ⟨m, hm, heq⟩ := exists_ok_of_map hindices
  obtain ⟨hpatterned, hrest⟩ := Prod.mk.inj heq
  obtain ⟨hbyKey, hrequired⟩ := Prod.mk.inj hrest
  obtain ⟨hexact, hlookup, hcheck⟩ := compile_exact mixedSpecs mixedContext m hm
  exact ⟨m, hm, hexact, hpatterned, hbyKey, hrequired, hlookup "qq", hcheck [⟨"x", "1"⟩]⟩

end ParamsMatcher

end PixelAudit
