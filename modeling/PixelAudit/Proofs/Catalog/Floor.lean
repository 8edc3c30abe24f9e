/-
The version that a family asks for.

A family is asked for by several declarations at once: the product names a version, so may each declared family on the
way to it, itself included, and so may the parameters that count for it. A parameter counts if it is active and has a
pattern of keys instead of a key, or is the first active one for its key and that key is not ignored; it does not matter
which of the families on the way declares it, or whether it is a common one. The floor of the family is the newest of
these versions, and there is none if no version is named.

Main results: `IsNewest.union` (the newest of two floors is the newest of what both ask for), `compile_isNewest` (the
floor of a matcher is the newest version of the parameters that count), `build_floor` (the floor of a family is the
newest of all that bears on it, and of nothing else).
-/
import PixelAudit.Proofs.Catalog.Inheritance
import PixelAudit.Proofs.Schema.Governing
import PixelAudit.Proofs.Schema.Congruence
import PixelAudit.Proofs.VersionOrder
import PixelAudit.Proofs.Audit.LetterCase
import Mathlib.Tactic

namespace PixelAudit

/-! ## The newest of some versions -/

namespace AppVersion

/-- one of the versions asked for, and none of them is newer; there is none only if none is asked for -/
structure IsNewest (asked : Set AppVersion) (floor : Option AppVersion) : Prop where
  absent : floor = none ↔ asked = ∅
  newest : ∀ v, floor = some v → v ∈ asked ∧ ∀ w ∈ asked, v.older w = false

theorem isNewest_empty : IsNewest ∅ none := ⟨by simp, fun v hv => by cases hv⟩

theorem isNewest_self (floor : Option AppVersion) : IsNewest {v | floor = some v} floor where
  absent := by rw [Set.eq_empty_iff_forall_notMem, Option.eq_none_iff_forall_ne_some]; rfl
  newest v hv := by
    refine ⟨hv, fun w hw => older_eq_false_iff.2 (le_of_eq ?_)⟩
    rw [Option.some.inj (hw.symm.trans hv)]

theorem newer_eq_or (a b : AppVersion) : a.newer b = a ∨ a.newer b = b := by
  unfold newer
  split_ifs
  · exact Or.inr rfl
  · exact Or.inl rfl

variable {s t : Set AppVersion} {a b : Option AppVersion}

/-- the newest of two floors is the newest of what both ask for -/
theorem IsNewest.union (hs : IsNewest s a) (ht : IsNewest t b) : IsNewest (s ∪ t) (newer? a b) where
  absent := by
    rw [Set.union_empty_iff, ← hs.absent, ← ht.absent]
    cases a <;> cases b <;> simp [newer?]
  newest v hv := by
    cases a with
    | none =>
      rw [hs.absent.1 rfl, Set.empty_union]
      exact ht.newest v hv
    | some a =>
      cases b with
      | none =>
        rw [ht.absent.1 rfl, Set.union_empty]
        exact hs.newest v hv
      | some b =>
        obtain rfl : a.newer b = v := Option.some.inj hv
        obtain ⟨ha, hsbound⟩ := hs.newest a rfl
        obtain ⟨hb, htbound⟩ := ht.newest b rfl
        constructor
        · rcases newer_eq_or a b with heq | heq
          · rw [heq]
            exact Or.inl ha
          · rw [heq]
            exact Or.inr hb
        · intro w hw
          rw [older_eq_false_iff, rank_newer]
          rcases hw with hw | hw
          · exact le_max_of_le_left (older_eq_false_iff.1 (hsbound w hw))
          · exact le_max_of_le_right (older_eq_false_iff.1 (htbound w hw))

end AppVersion

open AppVersion (IsNewest isNewest_empty isNewest_self)

/-! ## Parameters that count -/

/-- the first match in a list that has grown is the one before, or the new element if there was none -/
theorem find?_concat_eq_some_iff {α : Type} {f : α → Bool} {l : List α} {a b : α} :
    (l ++ [a]).find? f = some b ↔ l.find? f = some b ∨ l.find? f = none ∧ f a = true ∧ b = a := by
  rw [List.find?_append, Option.or_eq_some_iff, List.find?_singleton]
  refine or_congr_right (and_congr_right fun _ => ?_)
  split_ifs with ha
  · simp [ha, eq_comm]
  · simp [ha]

namespace ParamSpec

/-- the specification has a pattern of keys and no key, or is the first for a key that is not ignored -/
inductive Counts (ctx : CompileContext) (specs : List ParamSpec) (spec : ParamSpec) : Prop
  | pattern (hspec : spec ∈ specs) (hkey : spec.key = none) (hpattern : spec.keyPattern.isSome = true)
  | key {key : String} (hfirst : specs.find? (isFor ctx key) = some spec) (hrelevant : ¬ ctx.Ignores key)

variable {ctx : CompileContext} {done : List ParamSpec} {spec s : ParamSpec}

/-- what comes later does not displace what counts -/
theorem Counts.concat (h : Counts ctx done s) (spec : ParamSpec) : Counts ctx (done ++ [spec]) s := by
  cases h with
  | pattern hs hkey hpattern => exact .pattern (List.mem_append_left _ hs) hkey hpattern
  | key hfirst hrelevant => exact .key (by rw [List.find?_append, hfirst, Option.some_or]) hrelevant

/-- a specification with a pattern of keys counts wherever it stands -/
theorem counts_concat_pattern (hkey : spec.key = none) (hpattern : spec.keyPattern.isSome = true) :
    Counts ctx (done ++ [spec]) s ↔ Counts ctx done s ∨ s = spec := by
  have hfor : ∀ key, isFor ctx key spec = false := fun key => by rw [isFor, hkey]; rfl
  constructor
  · rintro (⟨hs, hskey, hspattern⟩ | ⟨hfirst, hrelevant⟩)
    · rcases List.mem_append.1 hs with hs | hs
      · exact Or.inl (.pattern hs hskey hspattern)
      · exact Or.inr (List.mem_singleton.1 hs)
    · rw [find?_concat_of_not (hfor _)] at hfirst
      exact Or.inl (.key hfirst hrelevant)
  · rintro (h | rfl)
    · exact h.concat spec
    · exact .pattern (List.mem_append_right _ (List.mem_singleton_self _)) hkey hpattern

/-- a specification with a key counts if it is the first for it and the key is not ignored -/
theorem counts_concat_key {key : String} (hkey : spec.isFor ctx key = true) :
    Counts ctx (done ++ [spec]) s ↔
      Counts ctx done s ∨ (done.find? (isFor ctx key) = none ∧ ¬ ctx.Ignores key) ∧ s = spec := by
  have hsame : ∀ other, spec.isFor ctx other = true → other = key := fun other hother => by
    cases hown : spec.key with
    | none => simp [isFor, hown] at hkey
    | some own =>
      simp only [isFor, hown, Option.any_some, beq_iff_eq] at hkey hother
      rw [← hkey, hother]
  constructor
  · rintro (⟨hs, hskey, hspattern⟩ | @⟨other, hfirst, hrelevant⟩)
    · rcases List.mem_append.1 hs with hs | hs
      · exact Or.inl (.pattern hs hskey hspattern)
      · rw [isFor, ← List.mem_singleton.1 hs, hskey] at hkey
        cases hkey
    · rcases find?_concat_eq_some_iff.1 hfirst with hfirst | ⟨hnone, hlast, rfl⟩
      · exact Or.inl (.key hfirst hrelevant)
      · obtain rfl := hsame other hlast
        exact Or.inr ⟨⟨hnone, hrelevant⟩, rfl⟩
  · rintro (h | ⟨⟨hnone, hrelevant⟩, rfl⟩)
    · exact h.concat spec
    · exact .key (find?_concat_eq_some_iff.2 (Or.inr ⟨hnone, hkey, rfl⟩)) hrelevant

end ParamSpec

/-- a parameter without a pattern of keys is labelled by the key that its specification is for -/
theorem CompiledFrom.isFor_label {ctx : CompileContext} {spec : ParamSpec} {p : CompiledParam}
    (h : CompiledFrom ctx.forceLowerCase spec p) (hexact : p.keyPattern = none) : spec.isFor ctx p.label = true := by
  rw [h.isFor_eq, CompiledParam.isFor_iff]
  exact ⟨hexact, rfl⟩

namespace ParamsMatcher

variable {m m' : ParamsMatcher} {ctx : CompileContext} {specs done : List ParamSpec} {spec : ParamSpec} {key : String}

/-- a version that a specification that counts asks for -/
def asked (ctx : CompileContext) (specs : List ParamSpec) : Set AppVersion :=
  {v | ∃ spec, ParamSpec.Counts ctx specs spec ∧ spec.minVersion = some v}

/-- a specification that counts adds its version to those asked for -/
theorem asked_concat
    (h : ∀ s, ParamSpec.Counts ctx (done ++ [spec]) s ↔ ParamSpec.Counts ctx done s ∨ s = spec) :
    asked ctx (done ++ [spec]) = asked ctx done ∪ {v | spec.minVersion = some v} := by
  ext v
  constructor
  · rintro ⟨s, hs, hv⟩
    rcases (h s).1 hs with hs | rfl
    · exact Or.inl ⟨s, hs, hv⟩
    · exact Or.inr hv
  · rintro (⟨s, hs, hv⟩ | hv)
    · exact ⟨s, (h s).2 (Or.inl hs), hv⟩
    · exact ⟨spec, (h spec).2 (Or.inr rfl), hv⟩

/-- a specification that does not count changes nothing -/
theorem asked_concat_of_not (h : ∀ s, ParamSpec.Counts ctx (done ++ [spec]) s ↔ ParamSpec.Counts ctx done s) :
    asked ctx (done ++ [spec]) = asked ctx done := by
  ext v
  exact exists_congr fun s => and_congr_left fun _ => h s

/-- a key has been declared before exactly if it is indexed -/
theorem Represents.find?_isFor_eq_none_iff (h : Represents ctx done m) (key : String) :
    done.find? (ParamSpec.isFor ctx key) = none ↔ m.byKey.contains key = false := by
  rw [← Option.not_isSome_iff_eq_none, isSome_of_rel (h.isFor key), Dict.contains, Bool.not_eq_true]
  cases hindex : m.byKey.find? key with
  | none => rw [h.indexed.find?_isFor_eq_none hindex]; rfl
  | some i =>
    obtain ⟨p, hp, hkey⟩ := (h.indexed.byKey key i).1 hindex
    rw [h.indexed.find?_isFor hp hkey]
    rfl

/-- taking in a declaration keeps the floor the newest version that is asked for -/
theorem Represents.isNewest_added (h : Represents ctx done m) (hfloor : IsNewest (asked ctx done) m.versionFloor)
    (hadded : Added m spec m') : IsNewest (asked ctx (done ++ [spec])) m'.versionFloor := by
  have hraised := hfloor.union (isNewest_self spec.minVersion)
  cases hadded with
  | @shadowed p hp hexact hbefore =>
    rw [h.lowerCase] at hp
    have hkey := hp.isFor_label hexact
    have hfirst : done.find? (ParamSpec.isFor ctx p.label) ≠ none := by
      simp [h.find?_isFor_eq_none_iff, hbefore]
    rw [asked_concat_of_not fun s => by simp [ParamSpec.counts_concat_key hkey, hfirst]]
    exact hfloor
  | @exact p hp hexact hnew =>
    rw [h.lowerCase] at hp
    have hkey := hp.isFor_label hexact
    have hfirst := (h.find?_isFor_eq_none_iff p.label).2 hnew
    dsimp only
    split_ifs with hignored
    · have hnot := (h.ignored_iff p.label).1 hignored
      rw [asked_concat_of_not fun s => by simp [ParamSpec.counts_concat_key hkey, hnot]]
      exact hfloor
    · rw [h.ignored_iff] at hignored
      rw [newest_eq, asked_concat fun s => by simp [ParamSpec.counts_concat_key hkey, hfirst, hignored]]
      exact hraised
  | @patterned p hp hpattern =>
    cases hp with
    | key => cases hpattern
    | pattern hkey hsource =>
      have hsome : spec.keyPattern.isSome = true := by rw [hsource]; rfl
      dsimp only
      rw [newest_eq, asked_concat fun s => ParamSpec.counts_concat_pattern hkey hsome]
      exact hraised

/-- the floor of a compiled matcher is the newest version of the specifications that count -/
theorem compile_isNewest (h : compile specs ctx = .ok m) : IsNewest (asked ctx (active specs ctx)) m.versionFloor := by
  have hstart : IsNewest (asked ctx []) none := by
    have hnone : asked ctx [] = ∅ := by
      refine Set.eq_empty_iff_forall_notMem.2 fun v => ?_
      rintro ⟨s, ⟨hs, -, -⟩ | ⟨hfirst, -⟩, -⟩
      · cases hs
      · cases hfirst
    rw [hnone]
    exact isNewest_empty
  exact (@compile_invariant _ _ _ (fun done n => Represents ctx done n ∧ IsNewest (asked ctx done) n.versionFloor)
    ⟨start_represents ctx, hstart⟩
    (fun _ _ _ _ hn hadded => ⟨hn.1.added hadded, hn.1.isNewest_added hn.2 hadded⟩) h).2

end ParamsMatcher

/-! ## Families -/

namespace Node

/-- the definitions on the way to the end of a path, its own included, topmost first -/
def along (n : Node) (path : List String) : List PixelDefinition := path.inits.filterMap n.definition?

theorem along_eq {n : Node} {path : List String} {d : PixelDefinition} (hd : n.definition? path = some d) :
    n.along path = n.above path ++ [d] := by
  have hne : path.inits ≠ [] := List.ne_nil_of_mem ((List.mem_inits path path).2 (List.prefix_refl path))
  have hlast : path.inits.getLast hne = path := by
    rw [List.getLast_eq_getElem, List.getElem_inits]
    simp
  rw [along, ← List.dropLast_append_getLast hne, hlast, List.filterMap_append, List.filterMap_cons, hd]
  rfl

/-- a version that something asks for that bears on the family at a path -/
inductive AsksFor (n : Node) (ctx : CompileContext) (path : List String) (v : AppVersion) : Prop
  | product (hv : ctx.minVersion = some v)
  /-- the family itself, or a declared one above it -/
  | family {d : PixelDefinition} (hd : d ∈ n.along path) (hv : d.minVersion = some v)
  /-- a parameter of one of them, or a common one, that counts -/
  | parameter {spec : ParamSpec}
      (hspec : spec.Counts ctx
        (ParamsMatcher.active ((n.along path).reverse.flatMap fun d => d.parameters) ctx))
      (hv : spec.minVersion = some v)

/-- what asks for a version is the product, a definition on the way, or a parameter that counts -/
theorem setOf_asksFor (n : Node) (ctx : CompileContext) (path : List String) :
    {v | n.AsksFor ctx path v} = {v | ctx.minVersion = some v} ∪ {v | ∃ d ∈ n.along path, d.minVersion = some v} ∪
      ParamsMatcher.asked ctx (ParamsMatcher.active ((n.along path).reverse.flatMap fun d => d.parameters) ctx) := by
  ext v
  constructor
  · rintro (hv | ⟨hd, hv⟩ | ⟨hspec, hv⟩)
    · exact Or.inl (Or.inl hv)
    · exact Or.inl (Or.inr ⟨_, hd, hv⟩)
    · exact Or.inr ⟨_, hspec, hv⟩
  · rintro ((hv | ⟨d, hd, hv⟩) | ⟨spec, hspec, hv⟩)
    · exact .product hv
    · exact .family hd hv
    · exact .parameter hspec hv

end Node

namespace Inherited

/-- the versions that definitions ask for are handed down -/
theorem isNewest_foldl_extend {asked : Set AppVersion} {i : Inherited} (h : IsNewest asked i.minVersion)
    (ds : List PixelDefinition) :
    IsNewest (asked ∪ {v | ∃ d ∈ ds, d.minVersion = some v}) (ds.foldl extend i).minVersion := by
  induction ds generalizing i asked with
  | nil => simpa using h
  | cons d ds ih =>
    have hall : asked ∪ {v | ∃ e ∈ d :: ds, e.minVersion = some v} =
        asked ∪ {v | d.minVersion = some v} ∪ {v | ∃ e ∈ ds, e.minVersion = some v} := by
      ext v
      simp [or_assoc]
    rw [hall]
    exact ih (h.union (isNewest_self d.minVersion))

end Inherited

namespace CompiledNode

/-- a family asks for the newer of what is handed down to it and of the floor of its parameters -/
theorem compileFamily_minVersion {ctx : CompileContext} {path : String} {scope : Inherited} {d : PixelDefinition}
    {family : PixelFamily} (h : compileFamily ctx path scope d = .ok family) :
    family.minVersion = AppVersion.newer? scope.minVersion family.schema.params.versionFloor := by
  unfold compileFamily at h
  split at h
  · cases h
  · obtain rfl := Except.ok.inj h
    rfl

/-- a declared family is compiled with what the definitions on the way to it, its own included, hand down -/
theorem exists_family_along {ctx : CompileContext} {inherited : Inherited} {root : Node} {m : CompiledNode}
    (h : compile ctx "" inherited root = .ok m) {path : List String} {d : PixelDefinition}
    (hd : root.definition? path = some d) :
    ∃ node family, m.find? (path.map ctx.fold) = some node ∧ node.family = some family ∧
      compileFamily ctx (path.foldl childPath "") ((root.along path).foldl Inherited.extend inherited) d =
        .ok family := by
  obtain ⟨k, hk, -⟩ := Option.bind_eq_some_iff.1 hd
  have hnode : (root.find? path).isSome = true := by
    rw [hk]
    rfl
  obtain ⟨node, hfind, hfamily⟩ := exists_nodeFamily_of_find? h hnode
  rw [hd] at hfamily
  obtain ⟨family, hcompiled, hsome⟩ := nodeFamily_some hfamily
  rw [Node.along_eq hd, List.foldl_concat]
  exact ⟨node, family, hfind, hsome, hcompiled⟩

end CompiledNode

namespace CompiledCatalog

open CompiledNode

/-- Every declared family is compiled, and its floor is the newest of the versions that the product, the declared
families on the way to it, itself included, and the parameters that count for it ask for. -/
theorem build_floor (root : Node) (ctx : CompileContext) (compiled : CompiledCatalog)
    (hbuild : build root ctx = .ok compiled) (path : List String) (d : PixelDefinition)
    (hd : root.definition? path = some d) :
    ∃ node family, compiled.root.find? (path.map ctx.fold) = some node ∧ node.family = some family ∧
      family.name = path.foldl childPath "" ∧ IsNewest {v | root.AsksFor ctx path v} family.minVersion := by
  obtain ⟨m, hcompile, rfl⟩ := build_eq_ok hbuild
  obtain ⟨node, family, hfind, hfamily, hcompiled⟩ := exists_family_along hcompile hd
  obtain ⟨hname, -, hschema⟩ := compileFamily_eq_ok hcompiled
  refine ⟨node, family, hfind, hfamily, hname, ?_⟩
  have hstart : IsNewest {v | ctx.minVersion = some v} ({ minVersion := ctx.minVersion } : Inherited).minVersion :=
    isNewest_self ctx.minVersion
  have hhanded := Inherited.isNewest_foldl_extend hstart (root.along path)
  have hparams := ParamsMatcher.compile_isNewest (FamilySchema.compile_params hschema)
  rw [Inherited.params_foldl_extend, List.append_nil] at hparams
  rw [root.setOf_asksFor, compileFamily_minVersion hcompiled]
  exact hhanded.union hparams

/-- a family between two others, whose own parameter shadows the one above; all of them ask for versions, a closed
gate and an ignored parameter too -/
def floorSources : List Source :=
  let record (version : String) (parameters : List Json) : Json :=
    .object [("owners", .array [.string "t"]), ("minVersion", .string version), ("parameters", .array parameters)]
  [⟨"a.json", .object [
    ("app", record "2" [
      .object [("key", .string "a"), ("minVersion", .string "3")],
      .object [("key", .string "b"), ("minVersion", .string "9"),
        ("experiment", .object [("id", .string "wide"), ("variants", .array [.string "on"])])]]),
    ("app.page", record "1" [
      .object [("key", .string "a")],
      .object [("keyPattern", .string "x"), ("minVersion", .string "2.5")],
      .object [("key", .string "c"), ("minVersion", .string "7")]]),
    ("app.page.deep", record "8" [])]⟩]

def floorContext : CompileContext := { ignoreParams := NameSet.ofList ["c"], minVersion := AppVersion.parse? "1" }

/-- only the pattern of keys counts -/
theorem build_floor_shadowed : ∃ compiled d family,
    build ((Catalog.new ∅ ∅).addSources floorSources).root floorContext = .ok compiled ∧
      ((Catalog.new ∅ ∅).addSources floorSources).root.definition? ["app", "page"] = some d ∧
      (compiled.root.find? ["app", "page"]).bind CompiledNode.family = some family ∧
      IsNewest {v | ((Catalog.new ∅ ∅).addSources floorSources).root.AsksFor floorContext ["app", "page"] v}
        family.minVersion ∧
      family.minVersion.map AppVersion.text = some "2.5" := by
  have hcomputed : (build ((Catalog.new ∅ ∅).addSources floorSources).root floorContext).toOption.map (fun c =>
      ((c.root.find? ["app", "page"]).bind CompiledNode.family).bind fun family =>
        family.minVersion.map AppVersion.text) = some (some "2.5") := by
    decide +kernel
  obtain ⟨compiled, hbuild, hversion⟩ := exists_build_of_map hcomputed
  obtain ⟨d, hd⟩ := Option.isSome_iff_exists.1
    (show (((Catalog.new ∅ ∅).addSources floorSources).root.definition? ["app", "page"]).isSome = true by
      decide)
  obtain ⟨node, family, hfind, hfamily, -, hnewest⟩ :=
    build_floor ((Catalog.new ∅ ∅).addSources floorSources).root floorContext compiled hbuild ["app", "page"] d hd
  have hfold : ["app", "page"].map floorContext.fold = ["app", "page"] := rfl
  rw [hfold] at hfind
  have hfound : (compiled.root.find? ["app", "page"]).bind CompiledNode.family = some family := by
    rw [hfind, Option.bind_some, hfamily]
  rw [hfound, Option.bind_some] at hversion
  exact ⟨compiled, d, family, hbuild, hd, hfound, hnewest, hversion⟩

end CompiledCatalog

end PixelAudit
