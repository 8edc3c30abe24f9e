/-
Looking up a declared family by its own name.

The catalog is compiled with its names folded segment by segment, and an event is looked up by its name folded as a
whole. A declared family is found under its own name exactly if the two come to the same segments. Without folding they
always do. With folding they do unless a capital sigma of the name is final in its segment and not in the name, or the
other way round.

Main results: `definition_of_find?` (what a compiled node holds was declared), `lookup_own_name_iff` (when the look-up
finds the family), `judge_own_name_iff` (when an event of that name is judged by it).
-/
import PixelAudit.Proofs.Audit.Classification
import PixelAudit.Proofs.Text.Folding
import Mathlib.Tactic

namespace PixelAudit

open Text (pieces joined)
open CompiledNode

namespace CompileContext

/-- folding a name as a whole and segment by segment come to the same -/
def FoldsBySegment (ctx : CompileContext) (name : String) : Prop :=
  pieces '.' (ctx.fold name) = (pieces '.' name).map ctx.fold

theorem foldsBySegment_iff (ctx : CompileContext) (name : String) :
    ctx.FoldsBySegment name ↔ (ctx.forceLowerCase = true → Text.SigmasAgree name) := by
  cases hcase : ctx.forceLowerCase with
  | false =>
    rw [FoldsBySegment, fold_eq hcase, map_fold hcase]
    simp
  | true =>
    have hfold : ctx.fold = Text.lower := by
      funext s
      simp [fold, foldText, hcase]
    rw [FoldsBySegment, hfold, Text.pieces_lower_iff]
    simp

theorem length_pieces_fold (ctx : CompileContext) (name : String) :
    (pieces '.' (ctx.fold name)).length = (pieces '.' name).length := by
  unfold fold foldText
  split_ifs
  · exact Text.length_pieces_lower name
  · rfl

end CompileContext

section compiled

variable {declared : Dict PixelDefinition} {root : Node} {ctx : CompileContext} {inherited : Inherited}
  {m : CompiledNode} {family : PixelFamily}

/-- a family that is found has the owners of its declaration, and is found under the folded segments of its name -/
theorem Node.Holds.definition_of_find? (hholds : root.Holds declared)
    (hcompile : compile ctx "" inherited root = .ok m) {path : List String} {l : CompiledNode}
    (hl : m.find? path = some l) (hfamily : l.family = some family) :
    ∃ d, declared.find? family.name = some d ∧ family.owners = d.owners ∧
      (pieces '.' family.name).map ctx.fold = path := by
  obtain ⟨segments, k, handed, hk, hfold, hnode⟩ := exists_compile_of_find? hholds.ordered hcompile hl
  have hnodeFamily := (compile_eq_ok hnode).1
  rw [hfamily] at hnodeFamily
  obtain ⟨d, hd⟩ := Option.isSome_iff_exists.1 (isSome_of_nodeFamily hnodeFamily).symm
  rw [hd] at hnodeFamily
  obtain ⟨f, hcompiled, hf⟩ := nodeFamily_some hnodeFamily
  obtain rfl : family = f := Option.some.inj hf
  obtain ⟨hpath, howners, -⟩ := compileFamily_eq_ok hcompiled
  have hdefinition : root.definition? segments = some d := by rw [definition?, hk, Option.bind_some, hd]
  obtain ⟨name, rfl⟩ := hholds.placed segments d hdefinition
  rw [hholds.named] at hdefinition
  have hfull := (hholds.full_of_declared (fun p hp => Text.not_mem_of_mem_pieces '.' hp)
    (by rwa [Text.joined_pieces])).2
  have hname : family.name = name := by rw [hpath, foldl_childPath hfull, Text.joined_pieces]
  rw [hname]
  exact ⟨d, hdefinition, howners, hfold⟩

/-- a family that is found was declared, and is found under the folded segments of its name -/
theorem Node.Holds.family_of_find? (hholds : root.Holds declared) (hcompile : compile ctx "" inherited root = .ok m)
    {path : List String} {l : CompiledNode} (hl : m.find? path = some l) (hfamily : l.family = some family) :
    declared.contains family.name = true ∧ (pieces '.' family.name).map ctx.fold = path := by
  obtain ⟨d, hd, -, hpath⟩ := hholds.definition_of_find? hcompile hl hfamily
  exact ⟨Option.isSome_iff_exists.2 ⟨d, hd⟩, hpath⟩

/-- a declared family is found under the folded segments of its name -/
theorem Node.Holds.find?_family (hholds : root.Holds declared) (hcompile : compile ctx "" inherited root = .ok m)
    {name : String} (hname : declared.contains name = true) :
    ∃ l family, m.find? ((pieces '.' name).map ctx.fold) = some l ∧ l.family = some family ∧ family.name = name := by
  obtain ⟨d, hd⟩ := Option.isSome_iff_exists.1 hname
  have hfree : ∀ p ∈ pieces '.' name, '.' ∉ p.toList := fun p hp => Text.not_mem_of_mem_pieces '.' hp
  have hnode := (hholds.find?_isSome_iff (pieces '.' name)).2 (Or.inr ⟨name, d, hd, List.prefix_refl _⟩)
  obtain ⟨l, hl, hfamily⟩ := hholds.family_at hcompile hfree hnode
  rw [Text.joined_pieces, hd] at hfamily
  obtain ⟨family, hcompiled, hsome⟩ := nodeFamily_some hfamily
  have hfull := (hholds.full_of_declared hfree (by rwa [Text.joined_pieces])).2
  refine ⟨l, family, hl, hsome, ?_⟩
  rw [(compileFamily_eq_ok hcompiled).1, foldl_childPath hfull, Text.joined_pieces]

/-- a family that the look-up finds was declared, and its folded segments lead the name that is looked up -/
theorem Node.Holds.family_of_lookup (hholds : root.Holds declared) (hcompile : compile ctx "" inherited root = .ok m)
    {pixel : String} (hfamily : (CompiledCatalog.lookup ⟨m, ctx.forceLowerCase⟩ pixel).family = some family) :
    declared.contains family.name = true ∧ (pieces '.' family.name).map ctx.fold <+: pieces '.' pixel := by
  obtain ⟨l, ⟨k, -, hl, -⟩, hlookup⟩ := CompiledCatalog.lookup_leadsTo ⟨m, ctx.forceLowerCase⟩ pixel
  rw [hlookup] at hfamily
  obtain ⟨hdeclared, hpath⟩ := hholds.family_of_find? hcompile hl hfamily
  rw [hpath]
  exact ⟨hdeclared, List.take_prefix k _⟩

/-- the family of a declared name is found under that name exactly if the name folds by its segments -/
theorem Node.Holds.lookup_own_name_iff (hholds : root.Holds declared)
    (hcompile : compile ctx "" inherited root = .ok m) {name : String} (hname : declared.contains name = true) :
    (∃ family, (CompiledCatalog.lookup ⟨m, ctx.forceLowerCase⟩ (ctx.fold name)).family = some family ∧
      family.name = name) ↔ ctx.FoldsBySegment name := by
  constructor
  · rintro ⟨family, hfamily, rfl⟩
    -- the walk has used up all segments, since there are as many as in the name
    obtain ⟨-, hlead⟩ := hholds.family_of_lookup hcompile hfamily
    refine (hlead.eq_of_length ?_).symm
    rw [List.length_map, ctx.length_pieces_fold]
  · intro hfolds
    obtain ⟨l, family, hl, hfamily, hfamilyName⟩ := hholds.find?_family hcompile hname
    obtain ⟨l', ⟨k, hgreatest, hl', -⟩, hlookup⟩ :=
      CompiledCatalog.lookup_leadsTo ⟨m, ctx.forceLowerCase⟩ (ctx.fold name)
    rw [← hfolds] at hl
    -- the whole name leads to a node, so the walk ends only there
    have hall : k = (pieces '.' (ctx.fold name)).length := by
      refine le_antisymm hgreatest.1.1 (hgreatest.2 ⟨le_rfl, ?_⟩)
      rw [List.take_length, hl]
      rfl
    rw [hall, List.take_length, hl] at hl'
    obtain rfl : l = l' := Option.some.inj hl'
    exact ⟨family, hlookup.trans hfamily, hfamilyName⟩

end compiled

namespace Validator

/-- an event is judged by the family that is found for its name -/
theorem judge_family_iff (v : Validator) (e : RawEvent) (name : String) :
    ((v.judge e).verdict ≠ .undocumented ∧ (v.judge e).family = name) ↔
      ∃ family, (v.catalog.lookup (v.eventName e)).family = some family ∧ family.name = name := by
  cases hfamily : (v.catalog.lookup (v.eventName e)).family with
  | none => simp only [judge, hfamily, ne_eq, not_true_eq_false, false_and, reduceCtorEq, exists_false]
  | some family =>
    have hjudged := v.judgeInFamily_judgedIn family (v.catalog.lookup (v.eventName e)).remainder e
    simp only [judge, hfamily]
    constructor
    · rintro ⟨-, hname⟩
      exact ⟨family, rfl, hjudged.named.1.symm.trans hname⟩
    · rintro ⟨f, hf, hname⟩
      obtain rfl : family = f := Option.some.inj hf
      exact ⟨hjudged.documented, hjudged.named.1.trans hname⟩

end Validator

namespace Catalog

/-- An event with the name of a declared family, just as it was declared, is judged by that family: always if letters
are not folded, and else exactly if the capital sigmas of the name are final in their segments where they are final in
the name. -/
theorem judge_own_name_iff (commonParams : ParamCatalog) (commonSuffixes : SuffixCatalog) (sources : List Source)
    (ctx : CompileContext) (compiled : CompiledCatalog)
    (hbuild : CompiledCatalog.build ((new commonParams commonSuffixes).addSources sources).root ctx = .ok compiled)
    (versionKey : Option String) (cap : SampleCap) (e : RawEvent)
    (hdeclared : (declared commonParams commonSuffixes sources).contains e.pixel = true) :
    (((Validator.mk compiled versionKey cap).judge e).verdict ≠ .undocumented ∧
        ((Validator.mk compiled versionKey cap).judge e).family = e.pixel) ↔
      (ctx.forceLowerCase = true → Text.SigmasAgree e.pixel) := by
  have hholds := addSources_holds commonParams commonSuffixes sources
  obtain ⟨m, hcompile, rfl⟩ := build_eq_ok hbuild
  rw [Validator.judge_family_iff, ← ctx.foldsBySegment_iff]
  exact hholds.lookup_own_name_iff hcompile hdeclared

/-- a family without capital sigmas is found under its own name, letters folded -/
theorem judge_own_name_iff_nested : ∃ compiled,
    CompiledCatalog.build ((new ∅ ∅).addSources nestedSources).root { forceLowerCase := true } = .ok compiled ∧
      (declared ∅ ∅ nestedSources).contains "app.page.open" = true ∧
      ((Validator.mk compiled none default).judge ⟨"app.page.open", "y=1", none⟩).verdict ≠ .undocumented ∧
      ((Validator.mk compiled none default).judge ⟨"app.page.open", "y=1", none⟩).family = "app.page.open" := by
  obtain ⟨compiled, hbuild⟩ :=
    exists_build ((new ∅ ∅).addSources nestedSources).root { forceLowerCase := true } (by decide +kernel)
  have hdeclared : (declared ∅ ∅ nestedSources).contains "app.page.open" = true := by decide
  have hown := judge_own_name_iff ∅ ∅ nestedSources { forceLowerCase := true } compiled hbuild none default
    ⟨"app.page.open", "y=1", none⟩ hdeclared
  exact ⟨compiled, hbuild, hdeclared, hown.2 fun _ => Text.sigmasAgree_of_not_mem (by decide)⟩

/-- one family, with a capital sigma before a point -/
def sigmaSources : List Source := [⟨"a.json", .object [("aΣ.a", .object [("owners", .array [.string "t"])])]⟩]

/-- with letters folded, an event of that very name is undocumented -/
theorem undocumented_under_own_name : ∃ compiled,
    CompiledCatalog.build ((new ∅ ∅).addSources sigmaSources).root { forceLowerCase := true } = .ok compiled ∧
      (declared ∅ ∅ sigmaSources).contains "aΣ.a" = true ∧
      ((Validator.mk compiled none default).judge ⟨"aΣ.a", "", none⟩).verdict = .undocumented := by
  obtain ⟨compiled, hbuild⟩ :=
    exists_build ((new ∅ ∅).addSources sigmaSources).root { forceLowerCase := true } (by decide)
  have hnames : (declared ∅ ∅ sigmaSources).names = ["aΣ.a"] := by decide
  have hdeclared : (declared ∅ ∅ sigmaSources).contains "aΣ.a" = true := by
    rw [Dict.contains_iff_mem_names, hnames]
    exact List.mem_singleton_self _
  refine ⟨compiled, hbuild, hdeclared, ?_⟩
  have hholds := addSources_holds ∅ ∅ sigmaSources
  obtain ⟨m, hcompile, rfl⟩ := build_eq_ok hbuild
  by_contra hverdict
  -- the only family there is would be found, under its own name
  obtain ⟨family, hfamily, -⟩ := (Validator.judge_family_iff _ _ _).1 ⟨hverdict, rfl⟩
  have hcontains := (hholds.family_of_lookup hcompile hfamily).1
  rw [Dict.contains_iff_mem_names, hnames, List.mem_singleton] at hcontains
  have hfolds := (hholds.lookup_own_name_iff hcompile hdeclared).1 ⟨family, hfamily, hcontains⟩
  exact Text.not_sigmasAgree_across_point ((CompileContext.foldsBySegment_iff _ _).1 hfolds rfl)

end Catalog

end PixelAudit
