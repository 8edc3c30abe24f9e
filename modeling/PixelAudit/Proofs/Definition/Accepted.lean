/-
The parameters of a definition that has been accepted.

A parameter has one name, a key or a pattern of keys, and a pattern is never required. This is looked at where a
parameter is written out in a record. A parameter that is named is taken from the catalog of common ones as it stands
there, and the catalog only sees to it that there is a name at all. So an accepted definition has well-shaped parameters
exactly if the common ones that it names are well-shaped. Keys are compared over all parameters: none is there twice.

Main results: `ofRecord_eq_ok` (what the parameters of an accepted definition are read from), `repeatedKey?_eq_none_iff`
(the check for repeated keys), `ofRecord_accepted` (what holds of the parameters of any accepted definition, and when
they are well-shaped).
-/
import PixelAudit.Definition.Record
import PixelAudit.Proofs.Tables
import Mathlib.Tactic

namespace PixelAudit

/-- a computation that goes on succeeds if both parts do -/
theorem except_bind_eq_ok_iff {ε α β : Type} {x : Except ε α} {f : α → Except ε β} {b : β} :
    x >>= f = .ok b ↔ ∃ a, x = .ok a ∧ f a = .ok b := by
  cases x with
  | error e => simp [bind, Except.bind]
  | ok a => simp [bind, Except.bind]

/-- a list is read item by item -/
theorem except_mapM_eq_ok_iff {ε α β : Type} {f : α → Except ε β} {as : List α} {bs : List β} :
    as.mapM f = .ok bs ↔ List.Forall₂ (fun a b => f a = .ok b) as bs := by
  induction as generalizing bs with
  | nil =>
    rw [List.mapM_nil, List.forall₂_nil_left_iff]
    exact ⟨fun h => (Except.ok.inj h).symm, fun h => h ▸ rfl⟩
  | cons a as ih =>
    rw [List.mapM_cons, except_bind_eq_ok_iff, List.forall₂_cons_left_iff]
    simp only [except_bind_eq_ok_iff, ih]
    refine exists_congr fun b => ?_
    constructor
    · rintro ⟨ha, rest, hrest, heq⟩
      exact ⟨rest, ha, hrest, (Except.ok.inj heq).symm⟩
    · rintro ⟨rest, ha, hrest, rfl⟩
      exact ⟨ha, rest, hrest, rfl⟩

/-- a parameter has a key or a pattern of keys, not both, and a pattern is not required -/
structure ParamSpec.WellShaped (p : ParamSpec) : Prop where
  oneName : p.key.isSome = true ↔ p.keyPattern = none
  optional : p.keyPattern.isSome = true → p.required = false

theorem ParamSpec.wellShaped_iff {p : ParamSpec} : p.WellShaped ↔
    (p.key.isSome = true ↔ p.keyPattern = none) ∧ (p.keyPattern.isSome = true → p.required = false) :=
  ⟨fun h => ⟨h.oneName, h.optional⟩, fun h => ⟨h.1, h.2⟩⟩

instance : DecidablePred ParamSpec.WellShaped := fun _ => decidable_of_iff' _ ParamSpec.wellShaped_iff

theorem ParamSpec.WellShaped.named {p : ParamSpec} (h : p.WellShaped) :
    p.key.isSome = true ∨ p.keyPattern.isSome = true := by
  by_cases hkey : p.key.isSome = true
  · exact Or.inl hkey
  · refine Or.inr (Option.isSome_iff_ne_none.2 ?_)
    rwa [Ne, ← h.oneName]

namespace PixelDefinition

/-- the check of a shape returns what is well-shaped, and nothing else -/
theorem checkShape_eq_ok_iff {p q : ParamSpec} : checkShape p = .ok q ↔ p.WellShaped ∧ p = q := by
  rw [ParamSpec.wellShaped_iff, checkShape]
  cases p.key with
  | some key => cases p.keyPattern <;> simp
  | none =>
    cases p.keyPattern with
    | none => simp
    | some pattern => cases p.required <;> simp

/-! ## Entries -/

/-- what an entry of the list of parameters stands for: what is written out, or the common parameter that it names -/
inductive StandsFor (common : ParamCatalog) : Json → ParamSpec → Prop
  | written {members : List (String × Json)} {p : ParamSpec}
      (hread : ParamSpec.decoder.ofValue (.object members) = .ok p) (hshape : p.WellShaped) :
      StandsFor common (.object members) p
  | named {name : String} {p : ParamSpec} (hcommon : common.find? name = some p) : StandsFor common (.string name) p

theorem readParameter_eq_ok_iff {common : ParamCatalog} {v : Json} {p : ParamSpec} :
    readParameter common v = .ok p ↔ StandsFor common v p := by
  rw [readParameter, except_bind_eq_ok_iff]
  constructor
  · rintro ⟨spec, hspec, hrest⟩
    cases v with
    | string name =>
      obtain rfl : spec = p := Except.ok.inj hrest
      simp only [readSpec] at hspec
      split at hspec
      · rename_i found hfound
        exact .named (Except.ok.inj hspec ▸ hfound)
      · cases hspec
    | object members =>
      obtain ⟨hshape, rfl⟩ := checkShape_eq_ok_iff.1 hrest
      simp only [readSpec] at hspec
      split at hspec
      · rename_i read hread
        exact .written (Except.ok.inj hspec ▸ hread) hshape
      · cases hspec
    | _ => cases hspec
  · rintro (⟨hread, hshape⟩ | ⟨hcommon⟩)
    · exact ⟨p, by simp [readSpec, hread], checkShape_eq_ok_iff.2 ⟨hshape, rfl⟩⟩
    · exact ⟨p, by simp [readSpec, hcommon], rfl⟩

/-- the items of a field that may be missing -/
def itemsOf : Option Json → List Json
  | some (.array items) => items
  | _ => []

/-- the entries of the list of parameters of a record -/
def parameterEntries : Json → List Json
  | .object members => itemsOf (Entries.find? "parameters" members)
  | _ => []

/-! ## Repeated keys -/

/-- the keys that are declared outright -/
def keys (ps : List ParamSpec) : List String := ps.filterMap ParamSpec.key

/-- no key is repeated if the keys differ from one another and from those that were seen -/
theorem repeatedKey?_eq_none_iff (seen : List String) (ps : List ParamSpec) :
    repeatedKey? seen ps = none ↔ (keys ps).Nodup ∧ ∀ key ∈ keys ps, key ∉ seen := by
  induction ps generalizing seen with
  | nil => simp [repeatedKey?, keys]
  | cons p rest ih =>
    rw [repeatedKey?, keys, List.filterMap_cons]
    cases hkey : p.key with
    | none => exact ih seen
    | some key =>
      dsimp only
      split_ifs with hseen
      · have hmem : key ∈ seen := by simpa using hseen
        simp [hmem]
      · have hmem : key ∉ seen := by simpa using hseen
        rw [ih, List.nodup_cons]
        simp only [keys, List.mem_cons, not_or, forall_eq_or_imp, hmem, not_false_eq_true, true_and]
        constructor
        · rintro ⟨hnodup, hfresh⟩
          exact ⟨⟨fun h => (hfresh key h).1 rfl, hnodup⟩, fun k hk => (hfresh k hk).2⟩
        · rintro ⟨⟨hhead, hnodup⟩, hfresh⟩
          exact ⟨hnodup, fun k hk => ⟨fun heq => hhead (heq ▸ hk), hfresh k hk⟩⟩

/-! ## Records -/

theorem readList_eq_ok {α : Type} {kind : SpecKind} {read : Json → Except DefinitionFault α} {field : Option Json}
    {specs : List α} (h : readList kind read field = .ok specs) :
    List.Forall₂ (fun v spec => read v = .ok spec) (itemsOf field) specs := by
  unfold readList at h
  split at h
  · obtain rfl := Except.ok.inj h
    exact .nil
  · obtain rfl := Except.ok.inj h
    exact .nil
  · exact except_mapM_eq_ok_iff.1 h
  · cases h

variable {common : ParamCatalog} {commonSuffixes : SuffixCatalog} {record : Json} {d : PixelDefinition}

/-- the parameters of an accepted definition are read from the entries of its record, and no key is repeated -/
theorem ofRecord_eq_ok (h : ofRecord common commonSuffixes record = .ok d) :
    List.Forall₂ (StandsFor common) (parameterEntries record) d.parameters ∧
      repeatedKey? [] d.parameters = none := by
  cases record with
  | object members =>
    unfold ofRecord at h
    dsimp only at h
    split at h
    · cases h
    · obtain ⟨owners, -, h⟩ := except_bind_eq_ok_iff.1 h
      obtain ⟨description, -, h⟩ := except_bind_eq_ok_iff.1 h
      obtain ⟨triggers, -, h⟩ := except_bind_eq_ok_iff.1 h
      obtain ⟨minVersion, -, h⟩ := except_bind_eq_ok_iff.1 h
      obtain ⟨parameters, hparameters, h⟩ := except_bind_eq_ok_iff.1 h
      split at h
      · cases h
      · rename_i hkeys
        obtain ⟨suffixes, -, h⟩ := except_bind_eq_ok_iff.1 h
        obtain rfl := Except.ok.inj h
        exact ⟨(readList_eq_ok hparameters).imp fun v p => readParameter_eq_ok_iff.1,
          Option.eq_none_iff_forall_ne_some.2 hkeys⟩
  | _ => cases h

/-- an entry that is written out has its shape checked, one that is named has that of the common parameter -/
theorem StandsFor.wellShaped_iff {v : Json} {p : ParamSpec} (h : StandsFor common v p) :
    p.WellShaped ↔ ∀ name, v = .string name → ∀ spec, common.find? name = some spec → spec.WellShaped := by
  cases h with
  | written hread hshape =>
    constructor
    · intro _ name heq
      cases heq
    · intro _
      exact hshape
  | named hcommon =>
    constructor
    · intro hshape _ heq spec hspec
      obtain rfl := Json.string.inj heq
      rwa [← Option.some.inj (hcommon.symm.trans hspec)]
    · intro hall
      exact hall _ rfl p hcommon

/-- a common parameter has a name once the catalog is normalized -/
theorem named_of_normalized {name : String} {p : ParamSpec} (h : common.normalize.find? name = some p) :
    p.key.isSome = true ∨ p.keyPattern.isSome = true := by
  rw [ParamCatalog.normalize, Dict.find?_map, Option.map_eq_some_iff] at h
  obtain ⟨entry, -, rfl⟩ := h
  unfold ParamCatalog.normalizeEntry
  cases hkey : entry.key <;> cases hpattern : entry.keyPattern <;> simp [hkey, hpattern]

/-- The parameters of an accepted definition are those that its entries stand for, each has a name, and no two have the
same key. All of them are well-shaped exactly if the common parameters that the record names are. -/
theorem ofRecord_accepted (common : ParamCatalog) (commonSuffixes : SuffixCatalog) (record : Json)
    (d : PixelDefinition) (h : ofRecord common.normalize commonSuffixes record = .ok d) :
    List.Forall₂ (StandsFor common.normalize) (parameterEntries record) d.parameters ∧
      (∀ p ∈ d.parameters, p.key.isSome = true ∨ p.keyPattern.isSome = true) ∧
      (keys d.parameters).Nodup ∧
      ((∀ p ∈ d.parameters, p.WellShaped) ↔
        ∀ name, .string name ∈ parameterEntries record →
          ∀ spec, common.normalize.find? name = some spec → spec.WellShaped) := by
  obtain ⟨hentries, hkeys⟩ := ofRecord_eq_ok h
  refine ⟨hentries, ?_, ((repeatedKey?_eq_none_iff [] _).1 hkeys).1, ?_, ?_⟩
  · intro p hp
    obtain ⟨v, -, hstands⟩ := exists_of_forall₂ hentries.flip hp
    cases hstands with
    | named hcommon => exact named_of_normalized hcommon
    | written _ hshape => exact hshape.named
  · intro hall name hname spec hspec
    obtain ⟨p, hp, hstands⟩ := exists_of_forall₂ hentries hname
    exact hstands.wellShaped_iff.1 (hall p hp) name rfl spec hspec
  · intro hall p hp
    obtain ⟨v, hv, hstands⟩ := exists_of_forall₂ hentries.flip hp
    refine hstands.wellShaped_iff.2 ?_
    rintro name rfl
    exact hall name hv

/-- a record with these parameters -/
def recordWith (parameters : List Json) : Json :=
  .object [("owners", .array [.string "t"]), ("parameters", .array parameters)]

/-- a common parameter without a name of its own next to a pattern that is written out -/
theorem ofRecord_accepted_mixed : ∃ d,
    ofRecord (ParamCatalog.normalize (Dict.ofList [("lang", {})])) ∅
        (recordWith [.string "lang", .object [("keyPattern", .string "x.*")]]) = .ok d ∧
      keys d.parameters = ["lang"] ∧ (∀ p ∈ d.parameters, p.WellShaped) := by
  have hcomputed : (ofRecord (ParamCatalog.normalize (Dict.ofList [("lang", {})])) ∅
      (recordWith [.string "lang", .object [("keyPattern", .string "x.*")]])).toOption.map
        (fun d => keys d.parameters) = some ["lang"] := by
    decide
  obtain ⟨d, hread, hkeys⟩ := exists_ok_of_map hcomputed
  refine ⟨d, hread, hkeys, ?_⟩
  refine (ofRecord_accepted (Dict.ofList [("lang", {})]) ∅ _ d hread).2.2.2.2 ?_
  intro name hname spec hspec
  have hlang : name = "lang" := by simpa [parameterEntries, itemsOf, recordWith, Entries.find?] using hname
  subst hlang
  have hspec' : some { key := some "lang" } = some spec := by rw [← hspec]; decide
  rw [← Option.some.inj hspec']
  decide

/-- common parameters with two names, and with a pattern that is required -/
def misshapen : ParamCatalog :=
  Dict.ofList [
    ("both", { key := some "a", keyPattern := some "b" }),
    ("due", { keyPattern := some "b", required := true })]

/-- they are taken in where they are named, though the same parameters are refused where they are written out -/
theorem ofRecord_takes_misshapen :
    (∃ d, ofRecord misshapen.normalize ∅ (recordWith [.string "both", .string "due"]) = .ok d ∧
      (∃ p ∈ d.parameters, p.key.isSome = true ∧ p.keyPattern.isSome = true) ∧
      (∃ p ∈ d.parameters, p.keyPattern.isSome = true ∧ p.required = true) ∧
      ¬ ∃ p ∈ d.parameters, p.WellShaped) ∧
    ofRecord misshapen.normalize ∅ (recordWith [.object [("key", .string "a"), ("keyPattern", .string "b")]]) =
      .error (.keyAndPattern "a") ∧
    ofRecord misshapen.normalize ∅ (recordWith [.object [("keyPattern", .string "b"), ("required", .bool true)]]) =
      .error (.requiredPattern "b") := by
  refine ⟨⟨{ owners := NameSet.ofList ["t"], parameters := misshapen.values }, ?_⟩, ?_⟩
  · decide
  · decide

end PixelDefinition

end PixelAudit
