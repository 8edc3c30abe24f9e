/-
The indices of a matcher of parameters.

A matcher lists its parameters and keeps three indices into the list: the declared keys, the patterns of keys, the
parameters that must be there. Taking in a declaration keeps the indices in step with the list, so that what is read
through them can be read off the list: a key is ruled by the one parameter that is declared for it, and else by the
first whose pattern accepts it.

Main results: `add_added` (all that taking in a declaration can do), `compile_indexed` (the indices say what the list
says), `lookup_eq` (the look-up, in terms of the list), `requiredParams_eq` (the parameters that must be there, in terms
of the list), `mem_check` (all that an event can be told).
-/
import PixelAudit.Schema.Params
import PixelAudit.Proofs.Tables
import Mathlib.Tactic

namespace PixelAudit

/-- an invariant of the part of a list that is done holds of the whole list, if all of it can be done -/
theorem foldlM_invariant {α σ ε : Type} {step : σ → α → Except ε σ} {Inv : List α → σ → Prop}
    (hstep : ∀ done a s t, Inv done s → step s a = .ok t → Inv (done ++ [a]) t) {done todo : List α} {s t : σ}
    (hs : Inv done s) (h : todo.foldlM step s = .ok t) : Inv (done ++ todo) t := by
  induction todo generalizing done s with
  | nil =>
    obtain rfl : s = t := Except.ok.inj h
    rwa [List.append_nil]
  | cons a rest ih =>
    rw [List.foldlM_cons] at h
    cases hfirst : step s a with
    | error e =>
      rw [hfirst] at h
      cases h
    | ok u =>
      rw [hfirst] at h
      have hrest := ih (hstep done a s u hs hfirst) h
      rwa [List.append_assoc] at hrest

theorem getElem?_concat_eq_some_iff {α : Type} {l : List α} {a b : α} {i : Nat} :
    (l ++ [a])[i]? = some b ↔ l[i]? = some b ∨ i = l.length ∧ a = b := by
  rcases Nat.lt_trichotomy i l.length with hlt | heq | hgt
  · rw [List.getElem?_append_left hlt]
    simp [Nat.ne_of_lt hlt]
  · subst heq
    simp
  · rw [List.getElem?_eq_none (by simp; omega), List.getElem?_eq_none (Nat.le_of_lt hgt)]
    simp [Nat.ne_of_gt hgt]

namespace CompiledParam

/-- the parameter is declared for this very key -/
def isFor (key : String) (p : CompiledParam) : Bool := p.keyPattern.isNone && p.label == key

/-- the parameter has a pattern of keys, which accepts this one -/
def takesIn (key : String) (p : CompiledParam) : Bool := p.keyPattern.any fun pattern => pattern.accepts key

/-- the parameter must be there -/
def isDue (ignored : NameSet) (p : CompiledParam) : Bool :=
  p.keyPattern.isNone && p.required && !ignored.contains p.label

theorem isFor_iff {key : String} {p : CompiledParam} : p.isFor key = true ↔ p.keyPattern = none ∧ p.label = key := by
  simp [isFor]

theorem isDue_iff {ignored : NameSet} {p : CompiledParam} :
    p.isDue ignored = true ↔ p.keyPattern = none ∧ p.required = true ∧ ignored.contains p.label = false := by
  simp [isDue, and_assoc]

end CompiledParam

/-- what a declaration is compiled to -/
inductive CompiledFrom (lowerCase : Bool) (spec : ParamSpec) : CompiledParam → Prop
  | key {key : String} {value : ValueCheck} (hkey : spec.key = some key)
      (hvalue : ValueCheck.compile spec.rules lowerCase = .ok value) :
      CompiledFrom lowerCase spec ⟨foldText lowerCase key, none, spec.required, value⟩
  | pattern {source : String} {pattern : Pattern} {value : ValueCheck} (hkey : spec.key = none)
      (hsource : spec.keyPattern = some source)
      (hpattern : ValueCheck.compilePattern source lowerCase = .ok pattern)
      (hvalue : ValueCheck.compile spec.rules lowerCase = .ok value) :
      CompiledFrom lowerCase spec ⟨source, some pattern, false, value⟩

namespace ParamsMatcher

/-! ## One declaration -/

/-- the newer of a floor and a version, where there are such -/
def newest : Option AppVersion → Option AppVersion → Option AppVersion
  | floor, none => floor
  | none, some v => some v
  | some floor, some v => if floor.older v then some v else some floor

theorem raiseFloor_eq (m : ParamsMatcher) (version : Option AppVersion) :
    m.raiseFloor version = { m with versionFloor := newest m.versionFloor version } := by
  obtain ⟨params, byKey, patterned, required, ignored, lowerCase, floor⟩ := m
  cases version with
  | none => rfl
  | some v =>
    cases floor with
    | none => rfl
    | some floor =>
      simp only [raiseFloor, newest]
      split_ifs <;> rfl

/-- what taking in a declaration, with the gate open, makes of a matcher -/
inductive Added (m : ParamsMatcher) (spec : ParamSpec) : ParamsMatcher → Prop
  /-- its key was declared before -/
  | shadowed {p : CompiledParam} (hp : CompiledFrom m.lowerCase spec p) (hexact : p.keyPattern = none)
      (hbefore : m.byKey.contains p.label = true) : Added m spec m
  /-- its key is new; the floor is raised unless the key is ignored -/
  | exact {p : CompiledParam} (hp : CompiledFrom m.lowerCase spec p) (hexact : p.keyPattern = none)
      (hnew : m.byKey.contains p.label = false) :
      Added m spec {
        m with
        params := m.params ++ [p]
        byKey := m.byKey.insert p.label m.params.length
        required := if p.isDue m.ignored then m.required ++ [m.params.length] else m.required
        versionFloor :=
          if m.ignored.contains p.label then m.versionFloor else newest m.versionFloor spec.minVersion }
  /-- it has a pattern of keys -/
  | patterned {p : CompiledParam} (hp : CompiledFrom m.lowerCase spec p) (hpattern : p.keyPattern.isSome = true) :
      Added m spec {
        m with
        params := m.params ++ [p]
        patterned := m.patterned ++ [m.params.length]
        versionFloor := newest m.versionFloor spec.minVersion }

variable {m m' : ParamsMatcher} {spec : ParamSpec} {value : ValueCheck} {key source : String} {pattern : Pattern}

theorem addKey_added (hkey : spec.key = some key) (hvalue : ValueCheck.compile spec.rules m.lowerCase = .ok value) :
    Added m spec (m.addKey spec key value) := by
  have hp := CompiledFrom.key hkey hvalue
  unfold addKey
  simp only [raiseFloor_eq, push]
  by_cases hbefore : m.byKey.contains (foldText m.lowerCase key) = true
  · rw [if_pos hbefore]
    exact .shadowed hp rfl hbefore
  · have hadded := Added.exact hp rfl (Bool.eq_false_iff.2 hbefore)
    rw [if_neg hbefore]
    split_ifs with hignored hrequired
    · simpa [CompiledParam.isDue, hignored] using hadded
    · simpa [CompiledParam.isDue, hignored, hrequired] using hadded
    · simpa [CompiledParam.isDue, hignored, hrequired] using hadded

theorem addPattern_added (hkey : spec.key = none) (hsource : spec.keyPattern = some source)
    (hpattern : ValueCheck.compilePattern source m.lowerCase = .ok pattern)
    (hvalue : ValueCheck.compile spec.rules m.lowerCase = .ok value) :
    Added m spec (m.addPattern spec source pattern value) := by
  rw [addPattern, raiseFloor_eq]
  exact .patterned (.pattern hkey hsource hpattern hvalue) rfl

/-- a declaration behind a gate that is not open is passed over -/
theorem add_of_not_allows {experiments : Experiments} (h : experiments.allows spec = false) :
    add experiments m spec = .ok m := by
  simp [add, h]

/-- all that taking in a declaration can do, if it succeeds -/
theorem add_added {experiments : Experiments} (hopen : experiments.allows spec = true)
    (h : add experiments m spec = .ok m') : Added m spec m' := by
  simp only [add, hopen, Bool.not_true, Bool.false_eq_true, if_false] at h
  cases hvalue : ValueCheck.compile spec.rules m.lowerCase with
  | error e =>
    rw [hvalue] at h
    cases h
  | ok value =>
    simp only [hvalue, bind, Except.bind] at h
    cases hkey : spec.key with
    | some key =>
      simp only [hkey] at h
      obtain rfl := Except.ok.inj h
      exact addKey_added hkey hvalue
    | none =>
      cases hsource : spec.keyPattern with
      | none => simp [hkey, hsource] at h
      | some source =>
        cases hpattern : ValueCheck.compilePattern source m.lowerCase with
        | error e => simp [hkey, hsource, hpattern] at h
        | ok pattern =>
          simp only [hkey, hsource, hpattern] at h
          obtain rfl := Except.ok.inj h
          exact addPattern_added hkey hsource hpattern hvalue

/-! ## All declarations -/

variable {specs : List ParamSpec} {ctx : CompileContext}

/-- the declarations whose gate is open, in the order in which they are taken in -/
def active (specs : List ParamSpec) (ctx : CompileContext) : List ParamSpec :=
  (specs ++ ctx.commonParams.values).filter ctx.experiments.allows

/-- what is passed over makes no difference, nor can it fail -/
theorem compile_eq_foldlM_active (specs : List ParamSpec) (ctx : CompileContext) :
    compile specs ctx = (active specs ctx).foldlM (add ctx.experiments) (start ctx) := by
  unfold compile active
  generalize specs ++ ctx.commonParams.values = todo
  generalize start ctx = m
  induction todo generalizing m with
  | nil => rfl
  | cons spec rest ih =>
    cases hopen : ctx.experiments.allows spec with
    | false =>
      rw [List.foldlM_cons, add_of_not_allows hopen, List.filter_cons_of_neg (by simp [hopen])]
      exact ih m
    | true =>
      rw [List.foldlM_cons, List.filter_cons_of_pos hopen, List.foldlM_cons]
      exact congrArg _ (funext ih)

/-- an invariant that taking in a declaration preserves holds of a compiled matcher and all active declarations -/
theorem compile_invariant {Inv : List ParamSpec → ParamsMatcher → Prop} (hstart : Inv [] (start ctx))
    (hstep : ∀ done n spec n', Inv done n → Added n spec n' → Inv (done ++ [spec]) n')
    (h : compile specs ctx = .ok m) : Inv (active specs ctx) m := by
  refine @foldlM_invariant _ _ _ _ (fun done n => Inv (done.filter ctx.experiments.allows) n) ?_ [] _ _ _ hstart h
  intro done spec n n' hn hadd
  rw [List.filter_append]
  cases hopen : ctx.experiments.allows spec with
  | false =>
    rw [add_of_not_allows hopen] at hadd
    obtain rfl := Except.ok.inj hadd
    simpa [hopen] using hn
  | true =>
    have hnext := hstep _ n spec n' hn (add_added hopen hadd)
    simpa [hopen] using hnext

/-! ## The indices -/

/-- the indices say what the list of parameters says -/
structure Indexed (m : ParamsMatcher) : Prop where
  byKey : ∀ key i, m.byKey.find? key = some i ↔ ∃ p, m.params[i]? = some p ∧ p.isFor key = true
  patterned : m.patterned = m.params.findIdxs fun p => p.keyPattern.isSome
  required : m.required = m.params.findIdxs fun p => p.isDue m.ignored

theorem start_indexed (ctx : CompileContext) : (start ctx).Indexed where
  byKey key i := by simp [start]
  patterned := rfl
  required := rfl

theorem Indexed.added (h : m.Indexed) (hadded : Added m spec m') : m'.Indexed := by
  cases hadded with
  | shadowed => exact h
  | @exact p hp hexact hnew =>
    refine ⟨fun key i => ?_, ?_, ?_⟩
    · simp only [Dict.find?_insert, getElem?_concat_eq_some_iff]
      split_ifs with hkey
      · -- no parameter before was for this key
        have hnone : m.byKey.find? key = none := by simpa [Dict.contains, hkey] using hnew
        have hbefore : ¬ ∃ q, m.params[i]? = some q ∧ q.isFor key = true := by
          rw [← h.byKey, hnone]
          simp
        constructor
        · intro hi
          obtain rfl := Option.some.inj hi
          exact ⟨p, Or.inr ⟨rfl, rfl⟩, CompiledParam.isFor_iff.2 ⟨hexact, hkey⟩⟩
        · rintro ⟨q, hq | ⟨rfl, -⟩, hfor⟩
          · exact absurd ⟨q, hq, hfor⟩ hbefore
          · rfl
      · rw [h.byKey]
        refine exists_congr fun q => and_congr_left fun hfor => (or_iff_left ?_).symm
        rintro ⟨-, rfl⟩
        exact hkey (CompiledParam.isFor_iff.1 hfor).2
    · simp [List.findIdxs_append, h.patterned, hexact]
    · simp only [List.findIdxs_append, List.findIdxs_singleton, h.required, Nat.zero_add]
      split_ifs <;> simp
  | @patterned p hp hpattern =>
    have hexact : p.keyPattern ≠ none := Option.isSome_iff_ne_none.1 hpattern
    refine ⟨fun key i => ?_, ?_, ?_⟩
    · simp only [getElem?_concat_eq_some_iff]
      rw [h.byKey]
      refine exists_congr fun q => and_congr_left fun hfor => (or_iff_left ?_).symm
      rintro ⟨-, rfl⟩
      exact hexact (CompiledParam.isFor_iff.1 hfor).1
    · simp [List.findIdxs_append, h.patterned, hpattern]
    · have hdue : p.isDue m.ignored = false := by simp [CompiledParam.isDue, hexact]
      simp [List.findIdxs_append, h.required, hdue]

/-- in a compiled matcher the indices say what the list of parameters says -/
theorem compile_indexed (h : compile specs ctx = .ok m) : m.Indexed :=
  @compile_invariant _ _ _ (fun _ n => n.Indexed) (start_indexed ctx) (fun _ _ _ _ hn hadded => hn.added hadded) h

/-! ## Reading through the indices -/

theorem filterMap_findIdxs {α : Type} (f : α → Bool) (l : List α) :
    (l.findIdxs f).filterMap (fun i => l[i]?) = l.filter f := by
  induction l using List.reverseRec with
  | nil => rfl
  | append_singleton l a ih =>
    have hbelow : (l.findIdxs f).filterMap (fun i => (l ++ [a])[i]?) = (l.findIdxs f).filterMap (fun i => l[i]?) := by
      refine List.filterMap_congr fun i hi => ?_
      obtain ⟨hlt, -⟩ := List.mem_findIdxs_iff_exists_getElem_pos.1 hi
      exact List.getElem?_append_left hlt
    rw [List.findIdxs_append, List.filterMap_append, hbelow, ih, List.filter_append, List.findIdxs_singleton]
    split_ifs with ha <;> simp [ha]

/-- no two parameters are for the same key -/
theorem Indexed.unique (h : m.Indexed) {i j : Nat} {p q : CompiledParam} (hp : m.params[i]? = some p)
    (hq : m.params[j]? = some q) (hpkey : p.isFor key = true) (hqkey : q.isFor key = true) : i = j := by
  have hi := (h.byKey key i).2 ⟨p, hp, hpkey⟩
  have hj := (h.byKey key j).2 ⟨q, hq, hqkey⟩
  exact Option.some.inj (hi.symm.trans hj)

/-- a parameter that is for a key is the first such parameter -/
theorem Indexed.find?_isFor (h : m.Indexed) {i : Nat} {p : CompiledParam} (hp : m.params[i]? = some p)
    (hkey : p.isFor key = true) : m.params.find? (CompiledParam.isFor key) = some p := by
  obtain ⟨hlt, hget⟩ := List.getElem?_eq_some_iff.1 hp
  refine List.find?_eq_some_iff_getElem.2 ⟨hkey, i, hlt, hget, fun j hj => ?_⟩
  have hjlt := Nat.lt_trans hj hlt
  by_contra hfor
  exact absurd (h.unique (List.getElem?_eq_getElem hjlt) hp (by simpa using hfor) hkey) (Nat.ne_of_lt hj)

theorem Indexed.find?_isFor_eq_none (h : m.Indexed) (hkey : m.byKey.find? key = none) :
    m.params.find? (CompiledParam.isFor key) = none := by
  refine List.find?_eq_none.2 fun p hp hfor => ?_
  obtain ⟨i, hi⟩ := List.mem_iff_getElem?.1 hp
  have hsome := (h.byKey key i).2 ⟨p, hi, hfor⟩
  rw [hkey] at hsome
  cases hsome

/-- the look-up, in terms of the list of parameters -/
theorem Indexed.lookup_eq (h : m.Indexed) (key : String) :
    m.lookup key = (m.params.find? (CompiledParam.isFor key)).or (m.params.find? (CompiledParam.takesIn key)) := by
  unfold lookup
  cases hkey : m.byKey.find? key with
  | some i =>
    obtain ⟨p, hp, hfor⟩ := (h.byKey key i).1 hkey
    simp only [hp, h.find?_isFor hp hfor, Option.some_or]
  | none =>
    simp only [h.find?_isFor_eq_none hkey, Option.none_or, h.patterned, filterMap_findIdxs, List.find?_filter]
    refine congrArg (fun f => List.find? f m.params) (funext fun p => ?_)
    cases hpattern : p.keyPattern <;> simp [CompiledParam.takesIn, hpattern]

/-- the parameters that must be there, in terms of the list of parameters -/
theorem Indexed.requiredParams_eq (h : m.Indexed) :
    m.requiredParams = m.params.filter fun p => p.isDue m.ignored := by
  rw [requiredParams, h.required, filterMap_findIdxs]

/-! ## What an event is told -/

theorem checkToken_eq_some_iff (m : ParamsMatcher) (t : ParamToken) (v : Violation) : m.checkToken t = some v ↔
    m.lookup t.key = none ∧ v = ⟨.knownParameter t.key, t.raw⟩ ∨
      ∃ p expected, m.lookup t.key = some p ∧ p.value.unmet? t.value = some expected ∧
        v = ⟨.validValue p.label expected, t.value⟩ := by
  unfold checkToken
  cases m.lookup t.key with
  | none => simp [eq_comm]
  | some p => simp [eq_comm]

theorem mem_missing (m : ParamsMatcher) (tokens : List ParamToken) (v : Violation) :
    v ∈ m.missing tokens ↔ ∃ p ∈ m.requiredParams, (¬ ∃ t ∈ m.relevant tokens, t.key = p.label) ∧
      v = ⟨.requiredParameter p.label, rawTokens tokens⟩ := by
  have hpresent : ∀ key, (NameSet.ofList ((m.relevant tokens).map ParamToken.key)).contains key = true ↔
      ∃ t ∈ m.relevant tokens, t.key = key := by
    intro key
    rw [NameSet.ofList, NameSet.contains_foldl_insert, List.mem_map]
    simp [Dict.contains]
  simp only [missing, List.mem_map, List.mem_filter, Bool.not_eq_true', ← Bool.not_eq_true, hpresent, and_assoc]
  exact exists_congr fun p => and_congr_right fun _ => and_congr_right fun _ => eq_comm

/-- an event is told of unknown keys, of values that do not meet the rules, and of what is missing -/
theorem mem_check (m : ParamsMatcher) (tokens : List ParamToken) (v : Violation) : v ∈ m.check tokens ↔
    (∃ t ∈ m.relevant tokens, m.lookup t.key = none ∧ v = ⟨.knownParameter t.key, t.raw⟩) ∨
      (∃ t ∈ m.relevant tokens, ∃ p expected, m.lookup t.key = some p ∧ p.value.unmet? t.value = some expected ∧
        v = ⟨.validValue p.label expected, t.value⟩) ∨
      ∃ p ∈ m.requiredParams, (¬ ∃ t ∈ m.relevant tokens, t.key = p.label) ∧
        v = ⟨.requiredParameter p.label, rawTokens tokens⟩ := by
  rw [check, List.mem_append, List.mem_filterMap, mem_missing]
  simp only [checkToken_eq_some_iff, and_or_left, exists_or, or_assoc]

end ParamsMatcher

end PixelAudit
