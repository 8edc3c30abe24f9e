/-
How deeply the stored form of a definition is nested, and that its decoder looks at nothing else.

A stored definition can always be read where there is room for it, whatever its bounds are, as long as they are numbers
of 64 bits. It takes between two and five levels: its owners stand in an array, and the deepest it can hold are the
variants of an experiment, in a gate, in a parameter, in the array of parameters.

Main results: `PixelDefinition.gauges_toJson` (a stored definition is read exactly if there is room for it),
`PixelDefinition.two_le_nesting` and `PixelDefinition.nesting_le_five` (the room it takes).
-/
import PixelAudit.Proofs.Definition.Stored
import PixelAudit.Proofs.Document.Depth
import PixelAudit.Proofs.Json.Numbers
import Mathlib.Tactic

namespace PixelAudit

open Decimal (Binary64)

namespace Form

variable {σ α : Type} {most : Nat} {name : String}

/-! ## The members that are written -/

/-- the value of a list, which is left out if it is empty -/
def listJson (write : α → Json) : List α → Option Json
  | [] => none
  | a :: as => some (.array ((a :: as).map write))

/-- the value of a field that is written only if it holds -/
def flagJson (b : Bool) : Option Json := if b then some (.bool true) else none

theorem membersOf_cons (f : Field σ) (fs : List (Field σ)) (o : Option Json) (os : List (Option Json)) :
    membersOf (f :: fs) (o :: os) = optionalMember f.name id o ++ membersOf fs os := by
  cases o <;> rfl

theorem optionalMember_map (write : α → Json) (o : Option α) :
    optionalMember name id (o.map write) = optionalMember name write o := by
  cases o <;> rfl

theorem optionalMember_listJson (write : α → Json) (as : List α) :
    optionalMember name id (listJson write as) = listMember name write as := by
  cases as <;> rfl

theorem optionalMember_flagJson (b : Bool) :
    optionalMember name id (flagJson b) = if b then [(name, .bool true)] else [] := by
  cases b <;> rfl

/-! ## The kinds of fields -/

section kinds

variable {d : Decoder α}

theorem Gauges.orNamed {f : Field σ} {o : Option Json} (h : Gauges most f o) (name : String) :
    Gauges most (f.orNamed name) o := by
  cases o <;> exact h

theorem gauges_optional {put : Option α → σ → σ} {write : α → Json} {o : Option α}
    (h : ∀ a ∈ o, d.Gauges most (write a)) (hnull : ∀ a ∈ o, (write a).isNullText = false) :
    Gauges most (Field.of name (.optional d) put) (o.map write) := by
  cases o with
  | none => rfl
  | some a => exact ((h a rfl).optional (hnull a rfl)).map put

theorem gauges_mapped {γ : Type} {write : γ → Json} {as : List γ} (h : ∀ a ∈ as, d.Gauges (most - 1) (write a)) :
    d.list.Gauges most (.array (as.map write)) := by
  refine Decoder.Gauges.list ?_
  simpa using h

theorem gauges_list {put : List α → σ → σ} {write : α → Json} {as : List α}
    (h : ∀ a ∈ as, d.Gauges (most - 1) (write a)) :
    Gauges most (Field.of name (.list d) put) (listJson write as) := by
  cases as with
  | nil => rfl
  | cons a as => exact (gauges_mapped h).map put

theorem gauges_flag {put : Bool → σ → σ} (b : Bool) : Gauges most (Field.of name .bool put) (flagJson b) := by
  cases b with
  | false => rfl
  | true => exact ((Decoder.Reads.bool true).gauges rfl).map put

theorem gauges_text {put : Option String → σ → σ} (o : Option String) :
    Gauges most (Field.of name (.optional .string) put) (o.map .string) :=
  gauges_optional (fun s _ => (Decoder.Reads.string s).gauges rfl) fun _ _ => rfl

theorem gauges_type {put : Option ValueType → σ → σ} (o : Option ValueType) :
    Gauges most (Field.of name (.optional ValueType.decoder) put) (o.map fun t => .string t.text) :=
  gauges_optional (fun t _ => t.reads_text.gauges rfl) fun _ _ => rfl

theorem gauges_version {put : Option AppVersion → σ → σ} (o : Option AppVersion) :
    Gauges most (Field.of name (.optional AppVersion.decoder) put) (o.map AppVersion.toJson) :=
  gauges_optional (fun v _ => v.reads_toJson.gauges rfl) fun _ _ => rfl

/-- a bound is read as some number, or as none if it is not finite -/
theorem gauges_bound {put : Option Binary64 → σ → σ} (o : Option Binary64) :
    Gauges most (Field.of name (.optional .binary64) put) (o.map .real) := by
  cases o with
  | none => rfl
  | some x =>
    cases hfinite : x.isFinite with
    | true =>
      obtain ⟨y, hy⟩ := Json.exists_reads_real hfinite
      exact ((hy.gauges rfl).optional (by simp [Json.isNullText, hfinite])).map put
    | false => exact ((Decoder.Reads.optional_null _ (by simp [Json.isNullText, hfinite])).gauges rfl).map put

end kinds

end Form

/-! ## Values of an enumeration, gates and specifications -/

theorem gauges_strings (most : Nat) (values : List String) :
    (Decoder.list .string).Gauges most (Json.strings values) := by
  have hitems : ∀ s ∈ values, Decoder.string.Gauges (most - 1) (.string s) := fun s _ =>
    (Decoder.Reads.string s).gauges rfl
  exact Form.gauges_mapped hitems

theorem gauges_scalarTexts (most : Nat) (values : List String) :
    scalarTexts.Gauges most (.array (values.map .string)) := by
  have hitems : ∀ s ∈ values, Decoder.any.Gauges (most - 1) (.string s) := fun s _ =>
    (Decoder.Reads.any_string s).gauges rfl
  have hlist : (Decoder.list .any).Gauges most (.array (values.map .string)) := Form.gauges_mapped hitems
  exact hlist.refine (f := fun vs => vs.mapM scalarText) (reads_scalarTexts values)

theorem Form.gauges_scalars {σ : Type} {most : Nat} {name : String} {put : List String → σ → σ}
    (values : List String) :
    Form.Gauges most (Field.of name scalarTexts put) (Form.listJson .string values) := by
  cases values with
  | nil => rfl
  | cons s values => exact (gauges_scalarTexts most (s :: values)).map put

theorem ExperimentGate.gauges_toJson (most : Nat) (g : ExperimentGate) : decoder.Gauges most g.toJson := by
  have hfields : List.Forall₂ (Form.Gauges (most - 1)) form.fields
      [some (.string g.id), some (Json.strings g.variants)] :=
    .cons (((Decoder.Reads.string g.id).gauges rfl).map _) (.cons ((gauges_strings _ g.variants).map _) .nil)
  exact Form.gauges_members (by decide) hfields rfl

theorem Form.gauges_gate {σ : Type} {most : Nat} {name : String} {put : Option ExperimentGate → σ → σ}
    (o : Option ExperimentGate) :
    Form.Gauges most (Field.of name (.optional ExperimentGate.decoder) put) (o.map ExperimentGate.toJson) :=
  Form.gauges_optional (fun g _ => g.gauges_toJson most) fun _ _ => rfl

open Form in
theorem ParamSpec.gauges_toJson (most : Nat) (p : ParamSpec) : decoder.Gauges most p.toJson := by
  have hfields : List.Forall₂ (Form.Gauges (most - 1)) form.fields _ :=
    .cons ((gauges_text p.key).orNamed _) <| .cons (gauges_text p.keyPattern) <|
    .cons (gauges_text p.description) <| .cons (gauges_type p.valueType) <|
    .cons (gauges_scalars p.allowed) <| .cons (gauges_text p.pattern) <|
    .cons (gauges_bound p.minimum) <| .cons (gauges_bound p.maximum) <|
    .cons (gauges_flag p.required) <| .cons (gauges_version p.minVersion) <|
    .cons (gauges_gate p.experiment) .nil
  refine gauges_members (by decide) hfields ?_
  simp only [form, membersOf_cons, membersOf, optionalMember_map, optionalMember_listJson, optionalMember_flagJson,
    Field.of, Field.orNamed, List.append_assoc, List.append_nil]

open Form in
theorem SuffixSpec.gauges_toJson (most : Nat) (s : SuffixSpec) : decoder.Gauges most s.toJson := by
  have hfields : List.Forall₂ (Form.Gauges (most - 1)) form.fields _ :=
    .cons (gauges_text s.key) <| .cons (gauges_text s.description) <|
    .cons (gauges_type s.valueType) <| .cons (gauges_scalars s.allowed) <|
    .cons (gauges_text s.pattern) .nil
  refine gauges_members (by decide) hfields ?_
  simp only [form, membersOf_cons, membersOf, optionalMember_map, optionalMember_listJson, Field.of,
    List.append_assoc, List.append_nil]

namespace PixelDefinition

open Form in
/-- a stored definition is read exactly if there is room for it -/
theorem gauges_toJson (most : Nat) (d : PixelDefinition) : decoder.Gauges most d.toJson := by
  have hparameters : ∀ p ∈ d.parameters, ParamSpec.decoder.Gauges (most - 1 - 1) p.toJson := fun p _ =>
    p.gauges_toJson _
  have htriggers : ∀ s ∈ d.triggers, Decoder.string.Gauges (most - 1 - 1) (.string s) := fun s _ =>
    (Decoder.Reads.string s).gauges rfl
  have hsuffixes : ∀ s ∈ d.suffixes, SuffixSpec.decoder.Gauges (most - 1 - 1) s.toJson := fun s _ =>
    s.gauges_toJson _
  have hfields : List.Forall₂ (Form.Gauges (most - 1)) form.fields [some (Json.strings d.owners.names), _, _, _, _, _] :=
    .cons (((gauges_strings _ d.owners.names).map NameSet.ofList).map _) <| .cons (gauges_text d.description) <|
    .cons (gauges_list htriggers) <| .cons (gauges_list hparameters) <|
    .cons (gauges_list hsuffixes) <| .cons (gauges_version d.minVersion) .nil
  refine gauges_members (by decide) hfields ?_
  simp only [form, membersOf_cons, membersOf, optionalMember_map, optionalMember_listJson, Field.of,
    List.append_assoc, List.append_nil]
  rfl

end PixelDefinition

/-! ## The room that definitions take -/

section nesting

variable {α : Type} {name : String} {write : α → Json} {P : String × Json → Prop}

theorem forall_optionalMember {o : Option α} :
    (∀ m ∈ optionalMember name write o, P m) ↔ ∀ a ∈ o, P (name, write a) := by
  cases o <;> simp [optionalMember]

theorem forall_listMember {as : List α} :
    (∀ m ∈ listMember name write as, P m) ↔ (as ≠ [] → P (name, .array (as.map write))) := by
  cases as <;> simp [listMember]

end nesting

/-- items of the same kind make a list that takes one level more -/
theorem nesting_mapped_le {α : Type} {write : α → Json} {as : List α} {n : Nat} (h : ∀ a ∈ as, (write a).nesting ≤ n) :
    (Json.array (as.map write)).nesting ≤ n + 1 := by
  refine Nat.succ_le_succ (Json.nestingItems_le_iff.2 ?_)
  simpa using h

theorem ExperimentGate.nesting_le (g : ExperimentGate) : g.toJson.nesting ≤ 2 := by
  have hvariants : (Json.strings g.variants).nesting ≤ 1 := nesting_mapped_le fun s _ => le_rfl
  refine Nat.succ_le_succ (Json.nestingMembers_le_iff.2 ?_)
  simpa [Json.nesting] using hvariants

theorem ParamSpec.nesting_le (p : ParamSpec) : p.toJson.nesting ≤ 3 := by
  have hallowed : (Json.array (p.allowed.map .string)).nesting ≤ 1 := nesting_mapped_le fun s _ => le_rfl
  have hgate : ∀ g ∈ p.experiment, g.toJson.nesting ≤ 2 := fun g _ => g.nesting_le
  have hrequired : ∀ m ∈ (if p.required then [("required", Json.bool true)] else []), m.2.nesting ≤ 2 := by
    split_ifs <;> simp [Json.nesting]
  refine Nat.succ_le_succ (Json.nestingMembers_le_iff.2 ?_)
  simp only [List.forall_mem_append, forall_optionalMember, forall_listMember]
  simp only [AppVersion.toJson, Json.nesting, Nat.zero_le, implies_true, and_true, true_and]
  exact ⟨⟨fun _ => hallowed.trans one_le_two, hrequired⟩, hgate⟩

theorem SuffixSpec.nesting_le (s : SuffixSpec) : s.toJson.nesting ≤ 2 := by
  have hallowed : (Json.array (s.allowed.map .string)).nesting ≤ 1 := nesting_mapped_le fun s _ => le_rfl
  refine Nat.succ_le_succ (Json.nestingMembers_le_iff.2 ?_)
  simp only [List.forall_mem_append, forall_optionalMember, forall_listMember]
  simp only [Json.nesting, Nat.zero_le, implies_true, and_true, true_and]
  exact fun _ => hallowed

namespace PixelDefinition

/-- the owners stand in an array -/
theorem two_le_nesting (d : PixelDefinition) : 2 ≤ d.toJson.nesting := by
  simp only [toJson, Json.strings, List.cons_append, Json.nesting, Json.nestingMembers]
  omega

theorem nesting_le_five (d : PixelDefinition) : d.toJson.nesting ≤ 5 := by
  have howners : (Json.strings d.owners.names).nesting ≤ 1 := nesting_mapped_le fun s _ => le_rfl
  have htriggers : (Json.array (d.triggers.map .string)).nesting ≤ 1 := nesting_mapped_le fun s _ => le_rfl
  have hparameters : (Json.array (d.parameters.map ParamSpec.toJson)).nesting ≤ 4 :=
    nesting_mapped_le fun p _ => p.nesting_le
  have hsuffixes : (Json.array (d.suffixes.map SuffixSpec.toJson)).nesting ≤ 3 :=
    nesting_mapped_le fun s _ => s.nesting_le
  refine Nat.succ_le_succ (Json.nestingMembers_le_iff.2 ?_)
  simp only [List.forall_mem_append, forall_optionalMember, forall_listMember, List.forall_mem_singleton]
  refine ⟨⟨⟨⟨⟨?_, ?_⟩, fun _ => ?_⟩, fun _ => hparameters⟩, fun _ => ?_⟩, ?_⟩
  · exact howners.trans (by decide)
  · exact fun _ _ => Nat.zero_le _
  · exact htriggers.trans (by decide)
  · exact hsuffixes.trans (by decide)
  · exact fun _ _ => Nat.zero_le _

end PixelDefinition

end PixelAudit
