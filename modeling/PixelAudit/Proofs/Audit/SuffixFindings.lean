/-
Findings about the suffixes of a name.

What the rules for suffixes find depends on the name of an event alone. It is reported beside an unreadable version and
beside whatever is wrong with the parameters, but only if the parameters can be read: of an event with parameters that
cannot be read the suffixes are not looked at.

Main results: `Rule.aboutSuffix_congr` (a descriptor shows whether it is about a suffix), `mem_findings_iff` (the
findings about suffixes of one event), `suffix_findings_agree_iff` (those of two events that differ in their
parameters), `Catalog.suffix_fault_lost` (one that is not reported).
-/
import PixelAudit.Proofs.Audit.Classification
import Mathlib.Tactic

namespace PixelAudit

/-! ## Descriptors -/

/-- the first letters of a text are those of a front part that is long enough -/
theorem Text.take_append {first : String} {n : ℕ} (h : n ≤ first.toList.length) (rest : String) :
    (first ++ rest).toList.take n = first.toList.take n := by
  rw [String.toList_append, List.take_append_of_le_length h]

namespace Rule

/-- the first nine letters of the descriptor -/
def opening : Rule → String
  | .knownParameter _ => "undocumen"
  | .validValue _ _ => "invalid v"
  | .requiredParameter _ => "missing r"
  | .validSuffix _ _ => "invalid s"
  | .noFurtherSuffix => "unexpecte"
  | .wellFormedEvent => "malformed"

theorem take_descriptor (r : Rule) : r.descriptor.toList.take 9 = r.opening.toList := by
  cases r with
  | knownParameter key =>
    show ("undocumented parameter '" ++ key ++ "'").toList.take 9 = "undocumen".toList
    rw [String.append_assoc, Text.take_append (by decide)]
    decide
  | validValue key expected =>
    show ("invalid value for '" ++ key ++ "': " ++ expected.text).toList.take 9 = "invalid v".toList
    rw [String.append_assoc, String.append_assoc, Text.take_append (by decide)]
    decide
  | requiredParameter key =>
    show ("missing required parameter '" ++ key ++ "'").toList.take 9 = "missing r".toList
    rw [String.append_assoc, Text.take_append (by decide)]
    decide
  | validSuffix position expected =>
    show ("invalid suffix at position " ++ toString position ++ ": expected " ++ expected).toList.take 9 =
      "invalid s".toList
    rw [String.append_assoc, String.append_assoc, Text.take_append (by decide)]
    decide
  | noFurtherSuffix => rfl
  | wellFormedEvent => rfl

theorem aboutSuffix_iff_opening (r : Rule) :
    r.aboutSuffix = true ↔ r.opening = "invalid s" ∨ r.opening = "unexpecte" := by
  cases r <;> simp [aboutSuffix, opening]

/-- of rules under one descriptor both are about suffixes, or neither -/
theorem aboutSuffix_congr {r s : Rule} (h : r.descriptor = s.descriptor) : r.aboutSuffix = s.aboutSuffix := by
  have hopening : r.opening = s.opening := by
    apply String.toList_inj.1
    rw [← take_descriptor, ← take_descriptor, h]
  rw [Bool.eq_iff_iff, aboutSuffix_iff_opening, aboutSuffix_iff_opening, hopening]

end Rule

/-- a finding under the descriptor of a rule about suffixes -/
def Finding.AboutSuffix (f : Finding) : Prop := ∃ r : Rule, r.aboutSuffix = true ∧ f.descriptor = r.descriptor

theorem Finding.ofViolation_aboutSuffix_iff (x : Violation) :
    (Finding.ofViolation x).AboutSuffix ↔ x.rule.aboutSuffix = true := by
  constructor
  · rintro ⟨r, hr, hdescriptor⟩
    rw [← hr]
    exact Rule.aboutSuffix_congr hdescriptor
  · exact fun h => ⟨x.rule, h, rfl⟩

/-! ## The rules for suffixes and those for parameters -/

theorem SuffixesMatcher.aboutSuffix_of_check {m : SuffixesMatcher} {remainder : String} {x : Violation}
    (h : m.check remainder = some x) : x.rule.aboutSuffix = true := by
  cases m with
  | any => cases h
  | positional declared common =>
    simp only [check] at h
    split_ifs at h
    · obtain rfl := Option.some.inj h
      rfl
    · obtain ⟨⟨position, label⟩, -, rfl⟩ := Option.map_eq_some_iff.1 h
      rfl

theorem ParamsMatcher.not_aboutSuffix_of_mem_check {m : ParamsMatcher} {tokens : List ParamToken} {x : Violation}
    (h : x ∈ m.check tokens) : x.rule.aboutSuffix = false := by
  rcases List.mem_append.1 h with h | h
  · obtain ⟨t, -, ht⟩ := List.mem_filterMap.1 h
    rw [checkToken] at ht
    split at ht
    · obtain ⟨expected, -, rfl⟩ := Option.map_eq_some_iff.1 ht
      rfl
    · obtain rfl := Option.some.inj ht
      rfl
  · obtain ⟨p, -, rfl⟩ := List.mem_map.1 h
    rfl

namespace Validator

/-- what the rules for suffixes find about the name of an event -/
def suffixViolation (v : Validator) (pixel : String) : Option Violation :=
  let found := v.catalog.lookup (foldText v.catalog.lowerCase pixel)
  found.family.bind fun family => family.schema.suffixes.check found.remainder

theorem aboutSuffix_of_suffixViolation {v : Validator} {pixel : String} {x : Violation}
    (h : v.suffixViolation pixel = some x) : x.rule.aboutSuffix = true := by
  obtain ⟨family, -, hcheck⟩ := Option.bind_eq_some_iff.1 h
  exact SuffixesMatcher.aboutSuffix_of_check hcheck

/-- the event has a family, and a version that the family judges -/
def Judges (v : Validator) (e : RawEvent) : Prop :=
  (v.judge e).verdict ≠ .undocumented ∧ (v.judge e).verdict ≠ .oldAppVersion

variable {v : Validator} {e : RawEvent} {family : PixelFamily} {remainder : String}

theorem aboutSuffix_of_versionViolations {s : VersionStanding} {x : Violation} (h : x ∈ versionViolations s) :
    x.rule.aboutSuffix = false := by
  cases s with
  | recent => cases h
  | old => cases h
  | unreadable raw =>
    obtain rfl := List.mem_singleton.1 h
    rfl

/-- what is wrong with the suffixes is among what is wrong if the parameters can be read -/
theorem mem_violations_iff {x : Violation} (hsuffix : x.rule.aboutSuffix = true) :
    x ∈ v.violations family remainder e ↔
      (Event.parseParams e.params).isOk = true ∧ family.schema.suffixes.check remainder = some x := by
  have hversion : x ∉ versionViolations (v.standingIn family e) := fun h => by
    rw [aboutSuffix_of_versionViolations h] at hsuffix
    cases hsuffix
  rw [violations, List.mem_append, or_iff_right hversion]
  cases Event.parseParams e.params with
  | error fault =>
    have hnone : x ∉ schemaViolations family remainder (.error fault) := fun h => by
      obtain rfl := List.mem_singleton.1 h
      cases hsuffix
    exact iff_of_false hnone fun h => Bool.false_ne_true h.1
  | ok tokens =>
    have hparams : x ∉ family.schema.params.check tokens := fun h => by
      rw [ParamsMatcher.not_aboutSuffix_of_mem_check h] at hsuffix
      cases hsuffix
    rw [schemaViolations, FamilySchema.check, List.mem_append, or_iff_left hparams, Option.mem_toList]
    exact (and_iff_right rfl).symm

/-- the findings of a family on an event that is not too old -/
theorem findings_judgeInFamily (h : v.standingIn family e ≠ .old) :
    (v.judgeInFamily family remainder e).findings = (v.violations family remainder e).map Finding.ofViolation := by
  rw [judgeInFamily_eq h]
  cases v.violations family remainder e with
  | nil => rfl
  | cons first rest => rfl

/-- an event is judged by the family that is found for its name, and is not too old for it -/
theorem Judges.exists_family (h : v.Judges e) : ∃ family, (v.catalog.lookup (v.eventName e)).family = some family ∧
    v.standingIn family e ≠ .old ∧
    v.judge e = v.judgeInFamily family (v.catalog.lookup (v.eventName e)).remainder e := by
  obtain ⟨hdocumented, hrecent⟩ := h
  rw [judge] at hdocumented hrecent ⊢
  cases hfamily : (v.catalog.lookup (v.eventName e)).family with
  | none =>
    rw [hfamily] at hdocumented
    exact absurd rfl hdocumented
  | some family =>
    rw [hfamily] at hrecent
    exact ⟨family, rfl, fun hold => hrecent (congrArg Outcome.verdict (judgeInFamily_old hold)), rfl⟩

/-- the findings about suffixes are what the rules for suffixes find, if the parameters can be read -/
theorem mem_findings_iff (h : v.Judges e) {f : Finding} (hf : f.AboutSuffix) :
    f ∈ (v.judge e).findings ↔ (Event.parseParams e.params).isOk = true ∧
      (v.suffixViolation e.pixel).map Finding.ofViolation = some f := by
  obtain ⟨family, hfamily, hrecent, hjudge⟩ := h.exists_family
  have hsuffix : v.suffixViolation e.pixel =
      family.schema.suffixes.check (v.catalog.lookup (v.eventName e)).remainder := by
    simp only [suffixViolation, eventName] at hfamily ⊢
    rw [hfamily, Option.bind_some]
  rw [hjudge, findings_judgeInFamily hrecent, hsuffix, List.mem_map, Option.map_eq_some_iff]
  constructor
  · rintro ⟨x, hx, rfl⟩
    obtain ⟨hread, hcheck⟩ := (mem_violations_iff ((Finding.ofViolation_aboutSuffix_iff x).1 hf)).1 hx
    exact ⟨hread, x, hcheck, rfl⟩
  · rintro ⟨hread, x, hcheck, rfl⟩
    exact ⟨x, (mem_violations_iff (SuffixesMatcher.aboutSuffix_of_check hcheck)).2 ⟨hread, hcheck⟩, rfl⟩

/-- Two events of one name and version that differ in their parameters, both judged. A finding about the suffixes is
reported of one of them exactly if the rules for suffixes make it and the parameters can be read. So all of them are
reported of both or of neither if and only if these rules find nothing, or the parameters of both can be read, or of
neither. -/
theorem suffix_findings_agree_iff (v : Validator) (pixel : String) (version : Option String) (params other : String)
    (hparams : v.Judges ⟨pixel, params, version⟩) (hother : v.Judges ⟨pixel, other, version⟩) :
    (∀ f : Finding, f.AboutSuffix → (f ∈ (v.judge ⟨pixel, params, version⟩).findings ↔
      (Event.parseParams params).isOk = true ∧ (v.suffixViolation pixel).map Finding.ofViolation = some f)) ∧
    ((∀ f : Finding, f.AboutSuffix → (f ∈ (v.judge ⟨pixel, params, version⟩).findings ↔
        f ∈ (v.judge ⟨pixel, other, version⟩).findings)) ↔
      v.suffixViolation pixel = none ∨ (Event.parseParams params).isOk = (Event.parseParams other).isOk) := by
  have hfound := fun f hf => mem_findings_iff hparams (f := f) hf
  have hfound' := fun f hf => mem_findings_iff hother (f := f) hf
  refine ⟨hfound, fun hagree => ?_, fun hread f hf => ?_⟩
  · cases hviolation : v.suffixViolation pixel with
    | none => exact Or.inl rfl
    | some x =>
      have hf : (Finding.ofViolation x).AboutSuffix :=
        (Finding.ofViolation_aboutSuffix_iff x).2 (aboutSuffix_of_suffixViolation hviolation)
      have hagree := hagree _ hf
      rw [hfound _ hf, hfound' _ hf, hviolation] at hagree
      rw [Option.map_some, and_iff_left rfl, and_iff_left rfl] at hagree
      exact Or.inr (Bool.eq_iff_iff.2 hagree)
  · rw [hfound f hf, hfound' f hf]
    rcases hread with hnone | hread
    · simp [hnone]
    · rw [hread]

end Validator

namespace Catalog

open CompiledNode (exists_build_of_map)

/-- what is wrong with the name is found beside a parameter that is declared, and beside one that is not -/
theorem suffix_findings_agree_bad : ∃ compiled,
    CompiledCatalog.build ((new ∅ ∅).addSources nestedSources).root {} = .ok compiled ∧
      ∀ f : Finding, f.AboutSuffix → (
        f ∈ ((Validator.mk compiled none default).judge ⟨"app.bad", "x=1", none⟩).findings ↔
          f ∈ ((Validator.mk compiled none default).judge ⟨"app.bad", "y=2", none⟩).findings) := by
  have hverdicts : ((CompiledCatalog.build ((new ∅ ∅).addSources nestedSources).root {}).toOption.map fun c => (
      ((Validator.mk c none default).judge ⟨"app.bad", "x=1", none⟩).verdict,
      ((Validator.mk c none default).judge ⟨"app.bad", "y=2", none⟩).verdict)) = some (.failed, .failed) := by
    decide +kernel
  obtain ⟨compiled, hbuild, h⟩ := exists_build_of_map hverdicts
  obtain ⟨hfirst, hsecond⟩ := Prod.mk.inj h
  refine ⟨compiled, hbuild, (Validator.suffix_findings_agree_iff _ "app.bad" none "x=1" "y=2" ?_ ?_).2.2 ?_⟩
  · constructor <;> rw [hfirst] <;> decide
  · constructor <;> rw [hsecond] <;> decide
  · exact Or.inr (by decide +kernel)

/-- what is wrong with the name is not found beside a parameter that cannot be decoded -/
theorem suffix_fault_lost : ∃ compiled,
    CompiledCatalog.build ((new ∅ ∅).addSources nestedSources).root {} = .ok compiled ∧
      ((Validator.mk compiled none default).judge ⟨"app.bad", "x=1", none⟩).verdict = .failed ∧
      ((Validator.mk compiled none default).judge ⟨"app.bad", "x=1", none⟩).findings =
        [⟨"invalid suffix at position 0: expected first", "bad"⟩] ∧
      ((Validator.mk compiled none default).judge ⟨"app.bad", "x=%ff", none⟩).verdict = .failed ∧
      ((Validator.mk compiled none default).judge ⟨"app.bad", "x=%ff", none⟩).findings.map Finding.descriptor =
        ["malformed event"] := by
  have hanswer : ((CompiledCatalog.build ((new ∅ ∅).addSources nestedSources).root {}).toOption.map fun c => (
      (((Validator.mk c none default).judge ⟨"app.bad", "x=1", none⟩).verdict,
        ((Validator.mk c none default).judge ⟨"app.bad", "x=1", none⟩).findings),
      ((Validator.mk c none default).judge ⟨"app.bad", "x=%ff", none⟩).verdict,
      ((Validator.mk c none default).judge ⟨"app.bad", "x=%ff", none⟩).findings.map Finding.descriptor)) =
      some ((.failed, [⟨"invalid suffix at position 0: expected first", "bad"⟩]), .failed,
        ["malformed event"]) := by
    decide +kernel
  obtain ⟨compiled, hbuild, h⟩ := exists_build_of_map hanswer
  simp only [Prod.mk.injEq] at h
  obtain ⟨⟨hverdict, hfindings⟩, hverdict', hfindings'⟩ := h
  exact ⟨compiled, hbuild, hverdict, hfindings, hverdict', hfindings'⟩

end Catalog

end PixelAudit
