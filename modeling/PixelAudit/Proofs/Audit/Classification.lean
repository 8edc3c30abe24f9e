/-
The verdict on an event, and what noting it changes.

The verdict depends on four things: whether the deepest node that the name leads to is declared, whether the version of
the event is below the floor of the family, whether that version can be read, and what the rules of the family say about
the parameters and the suffixes. An event of an old version is not judged at all, even if its parameters are broken.

A failed event changes the faults of its family and nothing else, an undocumented one only the set of the undocumented
names, and the others nothing.

Main results: `judgeInFamily_cases` (the three verdicts of a family), `step_classified` (the verdict and the notes).
-/
import PixelAudit.Proofs.Audit.Faults
import PixelAudit.Proofs.Catalog.Lookup
import Mathlib.Tactic

namespace PixelAudit

namespace FamilySchema

theorem check_eq_nil_iff (s : FamilySchema) (remainder : String) (tokens : List ParamToken) :
    s.check remainder tokens = [] ↔ s.suffixes.check remainder = none ∧ s.params.check tokens = [] := by
  rw [check, List.append_eq_nil_iff, Option.toList_eq_nil_iff]

end FamilySchema

namespace Validator

/-- The version of an event is its own one without the blanks around it. If it has none or a blank one, it is the value
of the first parameter that carries the version. -/
inductive HasVersion (v : Validator) (e : RawEvent) : String → Prop where
  | own {raw : String} (version : e.version = some raw) (nonblank : Text.trim raw ≠ "") : HasVersion v e (Text.trim raw)
  | parameter {wanted : String} {before after : List ParamToken} {t : ParamToken}
      (blank : ∀ raw, e.version = some raw → Text.trim raw = "") (key : v.versionKey = some wanted)
      (parsed : Event.parseParams e.params = .ok (before ++ t :: after))
      (first : ∀ b ∈ before, v.isVersionKey wanted b.key = false) (carries : v.isVersionKey wanted t.key = true) :
      HasVersion v e t.value

/-- the event comes from a version that the family no longer judges -/
def BelowFloor (v : Validator) (family : PixelFamily) (e : RawEvent) : Prop :=
  ∃ floor raw observed, family.minVersion = some floor ∧ v.HasVersion e raw ∧ AppVersion.parse? raw = some observed ∧
    observed.older floor = true

/-- nothing about the event breaks a rule -/
structure Clean (v : Validator) (family : PixelFamily) (remainder : String) (e : RawEvent) : Prop where
  /-- the version is looked at only if there is a floor -/
  version : ∀ floor raw, family.minVersion = some floor → v.HasVersion e raw → (AppVersion.parse? raw).isSome = true
  suffixes : family.schema.suffixes.check remainder = none
  params : ∃ tokens, Event.parseParams e.params = .ok tokens ∧ family.schema.params.check tokens = []

/-! ## The version of an event -/

variable {v : Validator} {e : RawEvent}

theorem explicitVersion_eq_none_iff :
    explicitVersion e = none ↔ ∀ raw, e.version = some raw → Text.trim raw = "" := by
  rw [explicitVersion, Option.filter_eq_none_iff]
  cases e.version <;> simp

theorem explicitVersion_eq_some_iff {raw : String} :
    explicitVersion e = some raw ↔ ∃ shown, e.version = some shown ∧ Text.trim shown = raw ∧ raw ≠ "" := by
  rw [explicitVersion, Option.filter_eq_some_iff]
  cases e.version <;> simp

theorem versionParam_eq_some_iff {tokens : List ParamToken} {raw : String} :
    v.versionParam tokens = some raw ↔ ∃ wanted before t after, v.versionKey = some wanted ∧
      tokens = before ++ t :: after ∧ (∀ b ∈ before, v.isVersionKey wanted b.key = false) ∧
      v.isVersionKey wanted t.key = true ∧ t.value = raw := by
  rw [versionParam, Option.bind_eq_some_iff]
  constructor
  · rintro ⟨wanted, hkey, hfind⟩
    obtain ⟨t, ht, hvalue⟩ := Option.map_eq_some_iff.1 hfind
    obtain ⟨hcarries, before, after, rfl, hfirst⟩ := List.find?_eq_some_iff_append.1 ht
    exact ⟨wanted, before, t, after, hkey, rfl, fun b hb => by simpa using hfirst b hb, hcarries, hvalue⟩
  · rintro ⟨wanted, before, t, after, hkey, rfl, hfirst, hcarries, hvalue⟩
    refine ⟨wanted, hkey, Option.map_eq_some_iff.2 ⟨t, ?_, hvalue⟩⟩
    exact List.find?_eq_some_iff_append.2 ⟨hcarries, before, after, rfl, fun b hb => by simp [hfirst b hb]⟩

/-- the parameters of an event, none if they cannot be read -/
def readParams (e : RawEvent) : List ParamToken :=
  match Event.parseParams e.params with
  | .ok tokens => tokens
  | .error _ => []

theorem versionText_eq_some_iff {raw : String} :
    v.versionText e (readParams e) = some raw ↔ v.HasVersion e raw := by
  rw [versionText]
  constructor
  · intro h
    cases hown : explicitVersion e with
    | some shown =>
      obtain ⟨s, hs, rfl, hne⟩ := explicitVersion_eq_some_iff.1 hown
      obtain rfl : Text.trim s = raw := by simpa [hown] using h
      exact .own hs hne
    | none =>
      rw [hown, Option.none_or] at h
      obtain ⟨wanted, before, t, after, hkey, htokens, hfirst, hcarries, rfl⟩ := versionParam_eq_some_iff.1 h
      have hparsed : Event.parseParams e.params = .ok (before ++ t :: after) := by
        cases hparse : Event.parseParams e.params with
        | ok tokens => rw [← htokens, readParams, hparse]
        | error fault => simp [readParams, hparse] at htokens
      exact .parameter (explicitVersion_eq_none_iff.1 hown) hkey hparsed hfirst hcarries
  · intro h
    cases h with
    | own version nonblank =>
      rw [explicitVersion_eq_some_iff.2 ⟨_, version, rfl, nonblank⟩, Option.some_or]
    | @parameter wanted before after t blank key parsed first carries =>
      rw [explicitVersion_eq_none_iff.2 blank, Option.none_or]
      exact versionParam_eq_some_iff.2 ⟨wanted, before, t, after, key, by rw [readParams, parsed], first, carries, rfl⟩

/-! ## The verdict of a family -/

variable {family : PixelFamily} {remainder : String}

/-- how the version of an event stands to the floor of a family -/
def standingIn (v : Validator) (family : PixelFamily) (e : RawEvent) : VersionStanding :=
  standing family.minVersion (v.versionText e (readParams e))

/-- what is wrong with an event that is judged -/
def violations (v : Validator) (family : PixelFamily) (remainder : String) (e : RawEvent) : List Violation :=
  versionViolations (v.standingIn family e) ++ schemaViolations family remainder (Event.parseParams e.params)

theorem standing_eq_old_iff {floor : Option AppVersion} {version : Option String} :
    standing floor version = .old ↔ ∃ f raw observed, floor = some f ∧ version = some raw ∧
      AppVersion.parse? raw = some observed ∧ observed.older f = true := by
  cases floor with
  | none => simp [standing]
  | some f =>
    cases version with
    | none => simp [standing]
    | some raw =>
      cases hparse : AppVersion.parse? raw with
      | none => simp [standing, hparse]
      | some observed => simp [standing, hparse]

theorem standing_eq_unreadable_iff {floor : Option AppVersion} {version : Option String} {raw : String} :
    standing floor version = .unreadable raw ↔
      (∃ f, floor = some f) ∧ version = some raw ∧ AppVersion.parse? raw = none := by
  cases floor with
  | none => simp [standing]
  | some f =>
    cases version with
    | none => simp [standing]
    | some shown =>
      cases hparse : AppVersion.parse? shown with
      | none =>
        simp only [standing, hparse, VersionStanding.unreadable.injEq, Option.some.injEq]
        exact ⟨fun h => ⟨⟨f, rfl⟩, h, h ▸ hparse⟩, fun h => h.2.1⟩
      | some observed =>
        have hread : ¬ (shown = raw ∧ AppVersion.parse? raw = none) := by
          rintro ⟨rfl, hnone⟩
          rw [hparse] at hnone
          cases hnone
        cases hold : observed.older f <;> simpa [standing, hparse, hold] using hread

theorem standingIn_eq_old_iff : v.standingIn family e = .old ↔ v.BelowFloor family e := by
  rw [standingIn, standing_eq_old_iff]
  simp only [versionText_eq_some_iff, BelowFloor]

theorem versionViolations_eq_nil_iff {s : VersionStanding} :
    versionViolations s = [] ↔ ∀ raw, s ≠ .unreadable raw := by
  cases s <;> simp [versionViolations]

theorem schemaViolations_eq_nil_iff {parsed : Except EventFault (List ParamToken)} :
    schemaViolations family remainder parsed = [] ↔ family.schema.suffixes.check remainder = none ∧
      ∃ tokens, parsed = .ok tokens ∧ family.schema.params.check tokens = [] := by
  cases parsed with
  | error fault => simp [schemaViolations]
  | ok tokens => simp [schemaViolations, FamilySchema.check_eq_nil_iff]

/-- nothing is found wrong with a clean event, and with no other -/
theorem violations_eq_nil_iff : v.violations family remainder e = [] ↔ v.Clean family remainder e := by
  rw [violations, List.append_eq_nil_iff, versionViolations_eq_nil_iff, schemaViolations_eq_nil_iff]
  have hversion : (∀ raw, v.standingIn family e ≠ .unreadable raw) ↔
      ∀ floor raw, family.minVersion = some floor → v.HasVersion e raw → (AppVersion.parse? raw).isSome = true := by
    constructor
    · intro h floor raw hfloor hraw
      by_contra hread
      refine h raw (standing_eq_unreadable_iff.2 ⟨⟨floor, hfloor⟩, versionText_eq_some_iff.2 hraw, ?_⟩)
      simpa using hread
    · intro h raw hraw
      obtain ⟨⟨floor, hfloor⟩, hversion, hnone⟩ := standing_eq_unreadable_iff.1 hraw
      have hsome := h floor raw hfloor (versionText_eq_some_iff.1 hversion)
      rw [hnone] at hsome
      cases hsome
  rw [hversion]
  exact ⟨fun ⟨h, hs, hp⟩ => ⟨h, hs, hp⟩, fun ⟨h, hs, hp⟩ => ⟨h, hs, hp⟩⟩

/-- an old version ends the judgement before the parameters are looked at -/
theorem judgeInFamily_eq_ite (v : Validator) (family : PixelFamily) (remainder : String) (e : RawEvent) :
    v.judgeInFamily family remainder e =
      if v.standingIn family e = .old then ⟨.oldAppVersion, family.name, family.owners, []⟩
      else match v.violations family remainder e with
        | [] => ⟨.passed, family.name, family.owners, []⟩
        | found => ⟨.failed, family.name, family.owners, found.map Finding.ofViolation⟩ := by
  unfold judgeInFamily violations standingIn readParams
  cases Event.parseParams e.params with
  | ok tokens => rfl
  | error fault => rfl

theorem judgeInFamily_old (h : v.standingIn family e = .old) :
    v.judgeInFamily family remainder e = ⟨.oldAppVersion, family.name, family.owners, []⟩ := by
  rw [judgeInFamily_eq_ite, if_pos h]

theorem judgeInFamily_eq (h : v.standingIn family e ≠ .old) : v.judgeInFamily family remainder e =
    match v.violations family remainder e with
    | [] => ⟨.passed, family.name, family.owners, []⟩
    | found => ⟨.failed, family.name, family.owners, found.map Finding.ofViolation⟩ := by
  rw [judgeInFamily_eq_ite, if_neg h]

/-- the three verdicts of a family, each with its condition -/
theorem judgeInFamily_cases (v : Validator) (family : PixelFamily) (remainder : String) (e : RawEvent) :
    v.BelowFloor family e ∧
        v.judgeInFamily family remainder e = ⟨.oldAppVersion, family.name, family.owners, []⟩ ∨
      ¬ v.BelowFloor family e ∧ v.Clean family remainder e ∧
        v.judgeInFamily family remainder e = ⟨.passed, family.name, family.owners, []⟩ ∨
      ¬ v.BelowFloor family e ∧ ¬ v.Clean family remainder e ∧ ∃ findings, findings ≠ [] ∧
        v.judgeInFamily family remainder e = ⟨.failed, family.name, family.owners, findings⟩ := by
  by_cases hold : v.standingIn family e = .old
  · exact Or.inl ⟨standingIn_eq_old_iff.1 hold, judgeInFamily_old hold⟩
  · have hfloor : ¬ v.BelowFloor family e := fun h => hold (standingIn_eq_old_iff.2 h)
    have hjudge := @judgeInFamily_eq v e family remainder hold
    cases hviolations : v.violations family remainder e with
    | nil =>
      rw [hviolations] at hjudge
      exact Or.inr (Or.inl ⟨hfloor, violations_eq_nil_iff.1 hviolations, hjudge⟩)
    | cons first rest =>
      rw [hviolations] at hjudge
      refine Or.inr (Or.inr ⟨hfloor, fun hclean => ?_, _, ?_, hjudge⟩)
      · rw [violations_eq_nil_iff.2 hclean] at hviolations
        cases hviolations
      · exact List.cons_ne_nil _ _

/-! ## The verdict on an event -/

section catalogs

variable {c c' : CompiledCatalog}

/-- of the catalog only the rule for case counts once the family is found -/
theorem judgeInFamily_congr (hcase : c.lowerCase = c'.lowerCase) (versionKey : Option String) (cap : SampleCap) :
    (Validator.mk c versionKey cap).judgeInFamily = (Validator.mk c' versionKey cap).judgeInFamily := by
  have hversion : (Validator.mk c versionKey cap).versionText = (Validator.mk c' versionKey cap).versionText := by
    funext e tokens
    simp only [versionText, versionParam, isVersionKey, hcase]
  funext family remainder e
  rw [judgeInFamily, judgeInFamily, hversion]

/-- catalogs that find the same for an event give the same verdict on it -/
theorem judge_congr (hcase : c.lowerCase = c'.lowerCase) (versionKey : Option String) (cap : SampleCap) {e : RawEvent}
    (hlookup : c.lookup (foldText c.lowerCase e.pixel) = c'.lookup (foldText c'.lowerCase e.pixel)) :
    (Validator.mk c versionKey cap).judge e = (Validator.mk c' versionKey cap).judge e := by
  simp only [judge, eventName, hlookup, judgeInFamily_congr hcase]

end catalogs

/-- what a verdict on an event of a family says -/
structure JudgedIn (v : Validator) (family : PixelFamily) (remainder : String) (e : RawEvent) (o : Outcome) : Prop where
  documented : o.verdict ≠ .undocumented
  named : o.family = family.name ∧ o.owners = family.owners
  oldAppVersion : o.verdict = .oldAppVersion ↔ v.BelowFloor family e
  passed : o.verdict = .passed ↔ ¬ v.BelowFloor family e ∧ v.Clean family remainder e
  failed : o.verdict = .failed ↔ ¬ v.BelowFloor family e ∧ ¬ v.Clean family remainder e
  findings : o.findings ≠ [] ↔ o.verdict = .failed

/-- what a verdict on an event says whose name leads to a node -/
structure Judged (v : Validator) (node : CompiledNode) (remainder : String) (e : RawEvent) (o : Outcome) : Prop where
  undocumented : o.verdict = .undocumented ↔ node.family = none
  bare : o.verdict = .undocumented → o.family = "" ∧ o.owners = ∅ ∧ o.findings = []
  judged : ∀ family, node.family = some family → v.JudgedIn family remainder e o

theorem judgeInFamily_judgedIn (v : Validator) (family : PixelFamily) (remainder : String) (e : RawEvent) :
    v.JudgedIn family remainder e (v.judgeInFamily family remainder e) := by
  rcases v.judgeInFamily_cases family remainder e with ⟨hfloor, h⟩ | ⟨hfloor, hclean, h⟩ |
    ⟨hfloor, hclean, findings, hne, h⟩
  · rw [h]
    constructor <;> simp [hfloor]
  · rw [h]
    constructor <;> simp [hfloor, hclean]
  · rw [h]
    constructor <;> simp [hfloor, hclean, hne]

theorem judge_judged (v : Validator) (e : RawEvent) : ∃ node remainder,
    v.catalog.LeadsTo (v.eventName e) node remainder ∧ v.Judged node remainder e (v.judge e) := by
  obtain ⟨node, hleads, hfamily⟩ := v.catalog.lookup_leadsTo (v.eventName e)
  refine ⟨node, _, hleads, ?_⟩
  simp only [judge, hfamily]
  cases hnode : node.family with
  | none =>
    exact ⟨by simp [hnode], fun _ => ⟨rfl, rfl, rfl⟩, fun family h => by rw [hnode] at h; cases h⟩
  | some family =>
    have hjudged := v.judgeInFamily_judgedIn family (v.catalog.lookup (v.eventName e)).remainder e
    refine ⟨?_, fun h => absurd h hjudged.documented, fun f hf => ?_⟩
    · simp [hnode, hjudged.documented]
    · rw [hnode] at hf
      obtain rfl : family = f := Option.some.inj hf
      exact hjudged

/-! ## The notes -/

/-- what noting a verdict on an event of the given name does to the notes, under a cap -/
structure Confined (cap : SampleCap) (name : String) (o : Outcome) (notes after : Notes) : Prop where
  undocumented : o.verdict = .undocumented → after = { notes with undocumented := notes.undocumented.insert name }
  unchanged : o.verdict = .passed ∨ o.verdict = .oldAppVersion → after = notes
  names : o.verdict = .failed → after.undocumented = notes.undocumented
  others : o.verdict = .failed → ∀ family, family ≠ o.family → after.faults.find? family = notes.faults.find? family
  faults : o.verdict = .failed → ∃ faults, after.faults.find? o.family = some faults ∧
    FaultTable.Gains cap o.findings (notes.faults.getD o.family ∅) faults

theorem note_confined (v : Validator) (notes : Notes) (name : String) (o : Outcome) :
    Confined v.cap name o notes (v.note notes name o) := by
  unfold note
  cases hverdict : o.verdict with
  | undocumented => constructor <;> simp [hverdict]
  | oldAppVersion => constructor <;> simp [hverdict]
  | passed => constructor <;> simp [hverdict]
  | failed =>
    exact {
      undocumented := fun h => by rw [hverdict] at h; cases h
      unchanged := fun h => by rw [hverdict] at h; rcases h with h | h <;> cases h
      names := fun _ => rfl
      others := fun _ family h => FaultTable.find?_record_of_ne notes.faults o.findings h
      faults := fun _ => ⟨_, FaultTable.find?_record notes.faults o.findings, FaultTable.gains_foldl o.findings _⟩ }

/-- The verdict on an event is exactly the one that its name, its version and its parameters call for, and noting it
changes what it says and nothing else: of a failed one the examples come in that are new and that the cap has room for. -/
theorem step_classified (v : Validator) (notes : Notes) (e : RawEvent) :
    (∃ node remainder, v.catalog.LeadsTo (v.eventName e) node remainder ∧ v.Judged node remainder e (v.judge e)) ∧
      Confined v.cap (v.eventName e) (v.judge e) notes (v.step notes e) :=
  ⟨v.judge_judged e, v.note_confined notes (v.eventName e) (v.judge e)⟩

end Validator

end PixelAudit
