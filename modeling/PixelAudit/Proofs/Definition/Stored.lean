/-
Definitions are read back from the objects that they are stored as.

All fields but the bounds of parameters come back as they were. A bound that is not finite is written as a null, and a
null is read as no bound: `storable` is what comes back.

Main results: `ParamSpec.reads_toJson`, `SuffixSpec.reads_toJson` and `PixelDefinition.reads_toJson` (what is stored is
read as what is storable of it), `PixelDefinition.storable_eq_iff` (that is the whole if every bound is finite).
-/
import PixelAudit.Definition.Record
import PixelAudit.Proofs.Definition.VersionText
import PixelAudit.Proofs.Definition.FieldKinds
import PixelAudit.Proofs.Tables
import Mathlib.Tactic

namespace PixelAudit

open Decimal (Binary64)
open Decoder (ReadsBack)

/-! ## Words, gates and lists of values -/

theorem ValueType.reads_text (t : ValueType) : decoder.Reads (.string t.text) t := by
  cases t <;> exact Decoder.Reads.choice rfl

/-- the values of an enumeration are texts, and stay as they are -/
theorem reads_scalarTexts (values : List String) : scalarTexts.Reads (.array (values.map .string)) values := by
  have hlist : (Decoder.list .any).Reads (.array (values.map .string)) (values.map .string) := by
    refine Decoder.Reads.list ?_
    rw [List.forall₂_map_left_iff, List.forall₂_map_right_iff, List.forall₂_same]
    exact fun s _ => Decoder.Reads.any_string s
  refine hlist.refine ?_
  clear hlist
  induction values with
  | nil => rfl
  | cons s values ih => simp only [List.map_cons, List.mapM_cons, ih, scalarText]; rfl

theorem reads_strings (values : List String) : (Decoder.list .string).Reads (Json.strings values) values := by
  have hlist : (Decoder.list .string).Reads (.array (values.map .string)) (values.map id) :=
    Form.reads_map_list fun s _ => Decoder.Reads.string s
  rwa [List.map_id] at hlist

namespace ExperimentGate

theorem reads_toJson (g : ExperimentGate) : decoder.Reads g.toJson g := by
  have hcarries : List.Forall₂ Form.Carries form.fields
      [some (.string g.id, fun g' => { g' with id := g.id }),
        some (Json.strings g.variants, fun g' => { g' with variants := g.variants })] :=
    .cons ((Decoder.Reads.string g.id).map _) (.cons ((reads_strings g.variants).map _) .nil)
  exact Form.reads_written (by decide) hcarries

end ExperimentGate

namespace Form

variable {σ : Type} {name : String}

theorem carries_textValue {put : Option String → σ → σ} (o : Option String) :
    Carries (Field.of name (.optional .string) put) (optionValue .string id put o) :=
  carries_optionValue (fun s _ => Decoder.Reads.string s) fun _ _ => rfl

theorem carries_typeValue {put : Option ValueType → σ → σ} (o : Option ValueType) :
    Carries (Field.of name (.optional ValueType.decoder) put) (optionValue (fun t => .string t.text) id put o) :=
  carries_optionValue (fun t _ => t.reads_text) fun _ _ => rfl

theorem carries_versionValue {put : Option AppVersion → σ → σ} (o : Option AppVersion) :
    Carries (Field.of name (.optional AppVersion.decoder) put) (optionValue AppVersion.toJson id put o) :=
  carries_optionValue (fun v _ => v.reads_toJson) fun _ _ => rfl

theorem carries_scalarValues {put : List String → σ → σ} (values : List String) :
    Carries (Field.of name scalarTexts put) (listValue .string id put values) := by
  cases values with
  | nil => rfl
  | cons s values =>
    have hread : scalarTexts.Reads (.array ((s :: values).map .string)) ((s :: values).map id) := by
      rw [List.map_id]
      exact reads_scalarTexts (s :: values)
    exact hread.map put

theorem carries_gateValue {put : Option ExperimentGate → σ → σ} (o : Option ExperimentGate) :
    Carries (Field.of name (.optional ExperimentGate.decoder) put) (optionValue ExperimentGate.toJson id put o) :=
  carries_optionValue (fun g _ => g.reads_toJson) fun _ _ => rfl

end Form


namespace ParamSpec

/-- the bounds of a parameter -/
def bounds (p : ParamSpec) : List Binary64 := p.minimum.toList ++ p.maximum.toList

/-- what comes back of a stored parameter: a bound that is not finite is lost -/
def storable (p : ParamSpec) : ParamSpec :=
  { p with minimum := p.minimum.filter Binary64.isFinite, maximum := p.maximum.filter Binary64.isFinite }

open Form in
/-- a stored parameter is read as what is storable of it -/
theorem reads_toJson {p : ParamSpec} (h : ∀ x ∈ p.bounds, x.isFinite = true → ReadsBack x) :
    decoder.Reads p.toJson p.storable := by
  have hminimum : ∀ x ∈ p.minimum, x.isFinite = true → ReadsBack x := fun x hx =>
    h x (List.mem_append_left _ (Option.mem_toList.2 hx))
  have hmaximum : ∀ x ∈ p.maximum, x.isFinite = true → ReadsBack x := fun x hx =>
    h x (List.mem_append_right _ (Option.mem_toList.2 hx))
  have hcarries : List.Forall₂ Carries form.fields _ :=
    .cons ((carries_textValue p.key).orNamed _) <| .cons (carries_textValue p.keyPattern) <|
    .cons (carries_textValue p.description) <| .cons (carries_typeValue p.valueType) <|
    .cons (carries_scalarValues p.allowed) <| .cons (carries_textValue p.pattern) <|
    .cons (carries_boundValue hminimum) <| .cons (carries_boundValue hmaximum) <|
    .cons (carries_flagValue p.required) <| .cons (carries_versionValue p.minVersion) <|
    .cons (carries_gateValue p.experiment) .nil
  refine reads_object (by decide) hcarries ?_ ?_
  · simp only [form, written, memberOf_optionValue, memberOf_listValue, memberOf_boundValue, memberOf_flagValue,
      Field.of, Field.orNamed, List.append_assoc, List.append_nil]
  · simp (disch := rfl) only [form, filled, changed_optionValue, changed_listValue, changed_boundValue,
      changed_flagValue, Option.map_id, List.map_id, id]
    rfl

theorem storable_eq_iff (p : ParamSpec) : p.storable = p ↔ ∀ x ∈ p.bounds, x.isFinite = true := by
  have hbound : ∀ o : Option Binary64, o.filter Binary64.isFinite = o ↔ ∀ x ∈ o, x.isFinite = true := by
    intro o
    cases o with
    | none => simp
    | some x => cases hx : x.isFinite <;> simp [Option.filter, hx]
  obtain ⟨key, keyPattern, description, valueType, allowed, pattern, minimum, maximum⟩ := p
  simp only [storable, bounds, mk.injEq, true_and, and_true, hbound, List.mem_append, Option.mem_toList]
  exact ⟨fun h x hx => hx.elim (h.1 x) (h.2 x), fun h => ⟨fun x hx => h x (Or.inl hx), fun x hx => h x (Or.inr hx)⟩⟩

end ParamSpec

namespace SuffixSpec

open Form in
theorem reads_toJson (s : SuffixSpec) : decoder.Reads s.toJson s := by
  have hcarries : List.Forall₂ Carries form.fields _ :=
    .cons (carries_textValue s.key) <| .cons (carries_textValue s.description) <|
    .cons (carries_typeValue s.valueType) <| .cons (carries_scalarValues s.allowed) <|
    .cons (carries_textValue s.pattern) .nil
  refine reads_object (by decide) hcarries ?_ ?_
  · simp only [form, written, memberOf_optionValue, memberOf_listValue, Field.of, List.append_assoc, List.append_nil]
  · simp (disch := rfl) only [form, filled, changed_optionValue, changed_listValue, Option.map_id, List.map_id, id]

end SuffixSpec

namespace PixelDefinition

/-- the bounds of the parameters of a definition -/
def bounds (d : PixelDefinition) : List Binary64 := d.parameters.flatMap ParamSpec.bounds

/-- what comes back of a stored definition -/
def storable (d : PixelDefinition) : PixelDefinition := { d with parameters := d.parameters.map ParamSpec.storable }

theorem reads_names (s : NameSet) : Decoder.names.Reads (Json.strings s.names) s := by
  have hread := (reads_strings s.names).map NameSet.ofList
  rwa [NameSet.ofList_names] at hread

open Form in
/-- a stored definition is read as what is storable of it -/
theorem reads_toJson {d : PixelDefinition} (h : ∀ x ∈ d.bounds, x.isFinite = true → ReadsBack x) :
    decoder.Reads d.toJson d.storable := by
  have hparameters : ∀ p ∈ d.parameters, ParamSpec.decoder.Reads p.toJson p.storable := fun p hp =>
    ParamSpec.reads_toJson fun x hx => h x (List.mem_flatMap.2 ⟨p, hp, hx⟩)
  have htriggers : ∀ s ∈ d.triggers, Decoder.string.Reads (.string s) (id s) := fun s _ => .string s
  have hsuffixes : ∀ s ∈ d.suffixes, SuffixSpec.decoder.Reads s.toJson (id s) := fun s _ => s.reads_toJson
  have hcarries : List.Forall₂ Carries form.fields [some (Json.strings d.owners.names, _), _, _, _, _, _] :=
    .cons ((reads_names d.owners).map _) <| .cons (carries_textValue d.description) <|
    .cons (carries_listValue htriggers) <| .cons (carries_listValue hparameters) <|
    .cons (carries_listValue hsuffixes) <| .cons (carries_versionValue d.minVersion) .nil
  refine reads_object (by decide) hcarries ?_ ?_
  · simp only [form, written, memberOf_some, memberOf_optionValue, memberOf_listValue, Field.of, List.append_assoc,
      List.append_nil]
  · simp (disch := rfl) only [form, filled, changed_some, changed_optionValue, changed_listValue, Option.map_id,
      List.map_id, id]
    rfl

/-- a definition whose bounds are finite is stored as a whole -/
theorem storable_eq_iff (d : PixelDefinition) : d.storable = d ↔ ∀ x ∈ d.bounds, x.isFinite = true := by
  have hparameters : d.storable = d ↔ d.parameters.map ParamSpec.storable = d.parameters.map id := by
    rw [List.map_id]
    exact ⟨fun h => congrArg parameters h, fun h => by rw [storable, h]⟩
  rw [hparameters, List.map_inj_left]
  simp only [id, ParamSpec.storable_eq_iff, bounds, List.mem_flatMap]
  exact ⟨fun h x ⟨p, hp, hx⟩ => h p hp x hx, fun h p hp x hx => h x ⟨p, hp, hx⟩⟩

end PixelDefinition

end PixelAudit
