/-
Patterns of values and of keys.

A pattern is asked for by the rules for a value, or stands for the key of a parameter. Either way it is understood
between the tests for start and end, under the rule for case, and the specification is refused if it cannot be.

Main results: `compiles_as_unit` (when a pattern can be used, and what it accepts).
-/
import PixelAudit.Proofs.Pattern.Anchoring
import PixelAudit.Schema.Params

namespace PixelAudit

variable {source : String} {lowerCase : Bool}

namespace ValueCheck

theorem exists_of_checkBounds {least greatest : Option Decimal.Binary64} {fault : DefinitionFault}
    (h : checkBounds least greatest = .error fault) : ∃ low high, fault = .emptyBounds low high := by
  unfold checkBounds at h
  split at h
  · split_ifs at h
    exact ⟨_, _, (Except.error.inj h).symm⟩
  · cases h

theorem compile_eq {rules : ValueRules} (hpattern : rules.pattern = some source) :
    compile rules lowerCase = (compilePattern source lowerCase).bind fun p =>
      (checkBounds rules.minimum rules.maximum).bind fun _ =>
        .ok ⟨allowedSet rules lowerCase, some p, rules.valueType, rules.minimum, rules.maximum⟩ := by
  unfold compile
  rw [hpattern, compilePattern?]
  cases compilePattern source lowerCase <;> rfl

/-- rules with a pattern are refused for it if the pattern cannot be used, and else check it -/
theorem compile_pattern {rules : ValueRules} (hpattern : rules.pattern = some source) :
    (compile rules lowerCase = .error (.badPattern source) ↔ Pattern.compile? source lowerCase = none) ∧
      ∀ check, compile rules lowerCase = .ok check → check.pattern = Pattern.compile? source lowerCase := by
  rw [compile_eq hpattern, compilePattern]
  cases Pattern.compile? source lowerCase with
  | none =>
    refine ⟨⟨fun _ => rfl, fun _ => rfl⟩, fun check hcheck => ?_⟩
    cases hcheck
  | some p =>
    cases hbounds : checkBounds rules.minimum rules.maximum with
    | ok =>
      refine ⟨⟨fun h => ?_, fun h => ?_⟩, fun check hcheck => ?_⟩
      · cases h
      · cases h
      · rw [← Except.ok.inj hcheck]
    | error fault =>
      obtain ⟨low, high, rfl⟩ := exists_of_checkBounds hbounds
      refine ⟨⟨fun h => ?_, fun h => ?_⟩, fun check hcheck => ?_⟩
      · cases h
      · cases h
      · cases hcheck

theorem unmetPattern?_eq_none_iff {check : ValueCheck} {p : Pattern} (hpattern : check.pattern = some p)
    (value : String) : check.unmetPattern? value = none ↔ p.accepts value = true := by
  simp [unmetPattern?, hpattern]

end ValueCheck

/-- a parameter that is found by the pattern of its keys is refused for it if the pattern cannot be used, and else
looked for by it -/
theorem ParamsMatcher.add_keyPattern {experiments : Experiments} {m : ParamsMatcher} {spec : ParamSpec}
    {check : ValueCheck} (hopen : experiments.allows spec = true) (hkey : spec.key = none)
    (hpattern : spec.keyPattern = some source) (hcheck : ValueCheck.compile spec.rules m.lowerCase = .ok check) :
    m.add experiments spec = match Pattern.compile? source m.lowerCase with
      | some p => .ok (m.addPattern spec source p check)
      | none => .error (.badPattern source) := by
  have hadd : m.add experiments spec =
      (ValueCheck.compilePattern source m.lowerCase).bind fun p => .ok (m.addPattern spec source p check) := by
    unfold add
    rw [hopen, hcheck, hkey, hpattern]
    rfl
  rw [hadd, ValueCheck.compilePattern]
  cases Pattern.compile? source m.lowerCase <;> rfl

namespace Pattern

/-- Patterns are taken as units. A pattern that can be read on its own can be used for values and for keys if a closing
bracket behind it ends it and there is room for the tests around it; where there is no comment, the bracket ends it.
Used so, it accepts the texts that it matches from the first to the last character. A pattern that cannot be read on its
own can be used only if there is a closing bracket in it that belongs to no opening one. -/
theorem compiles_as_unit (source : String) (lowerCase : Bool) :
    (∀ node, read? source.toList lowerCase = some node →
      (∀ e, parse? source lowerCase = some e ↔
        (node.depth ≤ nestLimit ∧ node.form.hasRoom = true) ∧ node.form.expr = e) ∧
      ((∃ p, compile? source lowerCase = some p) ↔
        Closed source.toList lowerCase ∧ node.depth + 2 ≤ nestLimit ∧ node.form.anchored.hasRoom = true) ∧
      ('#' ∉ source.toList → Closed source.toList lowerCase) ∧
      ∀ p, compile? source lowerCase = some p →
        ∀ text : String, p.accepts text = true ↔ node.form.expr.Spans text.toList 0 text.toList.length) ∧
    (read? source.toList lowerCase = none → parse? source lowerCase = none ∧
      ∀ p, compile? source lowerCase = some p → ∃ front back, source.toList = front ++ ')' :: back ∧
        (read? front lowerCase).isSome = true ∧ Closed front lowerCase) ∧
    (∀ rules : ValueRules, rules.pattern = some source →
      (ValueCheck.compile rules lowerCase = .error (.badPattern source) ↔ compile? source lowerCase = none) ∧
      ∀ check, ValueCheck.compile rules lowerCase = .ok check → ∃ p, compile? source lowerCase = some p ∧
        ∀ value, check.unmetPattern? value = none ↔ p.accepts value = true) ∧
    ∀ (experiments : Experiments) (m : ParamsMatcher) (spec : ParamSpec) (check : ValueCheck),
      m.lowerCase = lowerCase → experiments.allows spec = true → spec.key = none → spec.keyPattern = some source →
      ValueCheck.compile spec.rules lowerCase = .ok check →
        (m.add experiments spec = .error (.badPattern source) ↔ compile? source lowerCase = none) ∧
        ∀ m', m.add experiments spec = .ok m' → ∃ p, compile? source lowerCase = some p ∧
          m' = m.addPattern spec source p check := by
  refine ⟨fun node hread => ⟨fun e => ?_, exists_compile?_iff hread, closed_of_read? hread, fun p => accepts_iff hread⟩,
    fun hread => ⟨parse?_eq_none hread, fun p => exists_bracket_of_compile? hread⟩, fun rules hpattern => ?_, ?_⟩
  · rw [parse?_eq_some, hread]
    simp [and_assoc]
  · obtain ⟨hrefused, hchecked⟩ := ValueCheck.compile_pattern hpattern
    refine ⟨hrefused, fun check hcheck => ?_⟩
    cases hcompile : compile? source lowerCase with
    | none =>
      rw [hrefused.2 hcompile] at hcheck
      cases hcheck
    | some p =>
      exact ⟨p, rfl, ValueCheck.unmetPattern?_eq_none_iff ((hchecked check hcheck).trans hcompile)⟩
  · rintro experiments m spec check rfl hopen hkey hpattern hcheck
    rw [ParamsMatcher.add_keyPattern hopen hkey hpattern hcheck]
    cases hcompile : compile? source m.lowerCase with
    | none =>
      refine ⟨⟨fun _ => rfl, fun _ => rfl⟩, fun m' hadd => ?_⟩
      cases hadd
    | some p =>
      refine ⟨⟨fun h => ?_, fun h => ?_⟩, fun m' hadd => ⟨p, rfl, (Except.ok.inj hadd).symm⟩⟩
      · cases h
      · cases h

/-- the alternation is taken as one: a value has to be one side or the other, from its start to its end -/
theorem compiles_as_unit_choice : ∃ node check, read? "ab|cd".toList false = some node ∧
    ValueCheck.compile { pattern := some "ab|cd" } false = .ok check ∧
      ∀ value : String, check.unmetPattern? value = none ↔ node.form.expr.Spans value.toList 0 value.toList.length := by
  have hread : (read? "ab|cd".toList false).isSome = true := by decide
  have hok : (ValueCheck.compile { pattern := some "ab|cd" } false).toOption.isSome = true := by decide +kernel
  obtain ⟨node, hnode⟩ := Option.isSome_iff_exists.1 hread
  obtain ⟨check, hcheck⟩ : ∃ check, ValueCheck.compile { pattern := some "ab|cd" } false = .ok check := by
    cases hcompile : ValueCheck.compile { pattern := some "ab|cd" } false with
    | ok check => exact ⟨check, rfl⟩
    | error fault =>
      rw [hcompile] at hok
      cases hok
  obtain ⟨halone, -, hrules, -⟩ := compiles_as_unit "ab|cd" false
  obtain ⟨p, hp, hpattern⟩ := (hrules { pattern := some "ab|cd" } rfl).2 check hcheck
  obtain ⟨-, -, -, haccepts⟩ := halone node hnode
  exact ⟨node, check, hnode, hcheck, fun value => (hpattern value).trans (haccepts p hp value)⟩

/-- A closing bracket that belongs to no opening one ends the group around the pattern before its time, so what is no
pattern is accepted, and as two halves; and a comment at the end takes in the bracket of the group, so a pattern is
refused. -/
theorem compiles_unbalanced :
    (parse? "a)|(?:b" false = none ∧ ∃ p, compile? "a)|(?:b" false = some p ∧ p.accepts "ax" = true) ∧
      (∃ e, parse? "(?x)a #" false = some e) ∧ compile? "(?x)a #" false = none := by
  have halves : (compile? "a)|(?:b" false).any (fun p => p.accepts "ax") = true := by decide
  have hcomment : (parse? "(?x)a #" false).isSome = true := by decide
  obtain ⟨p, hp, haccepts⟩ : ∃ p, compile? "a)|(?:b" false = some p ∧ p.accepts "ax" = true := by
    simpa [Option.any_eq_true] using halves
  exact ⟨⟨Option.isNone_iff_eq_none.1 (by decide), p, hp, haccepts⟩, Option.isSome_iff_exists.1 hcomment,
    Option.isNone_iff_eq_none.1 (by decide +kernel)⟩

end Pattern

end PixelAudit
