/-
What a compiled family has from the families above it.

The tree is compiled from the top, and each declared node hands down what it was handed and its own. Seen from a family,
that is: its own parameters and then those of the declared families above it, nearest first; the suffixes of the
declared families above it, topmost first, and then its own. The declared families above a name are those whose names
are shorter by one or more segments.

Main results: `Catalog.build_inherits` (in a catalog that can be built every declared family, and no other, is compiled
with what its ancestors declare).
-/
import PixelAudit.Proofs.Catalog.Compiled
import PixelAudit.Proofs.Catalog.Declared
import Mathlib.Tactic

namespace PixelAudit

open Text (pieces joined)

namespace Catalog

/-- the declared families above a name, topmost first -/
def ancestors (declared : Dict PixelDefinition) (name : String) : List PixelDefinition :=
  (pieces '.' name).inits.dropLast.filterMap fun path => declared.find? (joined '.' path)

end Catalog

namespace Node.Holds

variable {n : Node} {declared : Dict PixelDefinition}

/-- what is declared at a path is declared under the joined name -/
theorem definition?_eq (hn : n.Holds declared) {path : List String} (hfree : ∀ p ∈ path, '.' ∉ p.toList) :
    n.definition? path = declared.find? (joined '.' path) := by
  by_cases hne : path = []
  · subst hne
    have hroot : n.definition? [] = none := by
      rw [Option.eq_none_iff_forall_ne_some]
      intro d hd
      obtain ⟨name, hname⟩ := hn.placed [] d hd
      exact Text.pieces_ne_nil '.' name hname.symm
    have hempty : declared.find? (joined '.' []) = none := by
      rw [Option.eq_none_iff_forall_ne_some]
      intro d hd
      exact absurd (hn.wellNamed _ d hd) (by decide)
    rw [hroot, hempty]
  · rw [← hn.named, Text.pieces_joined '.' path hfree hne]

/-- the declared nodes above a family are its ancestors -/
theorem above_eq (hn : n.Holds declared) (name : String) :
    n.above (pieces '.' name) = Catalog.ancestors declared name := by
  refine List.filterMap_congr fun path hpath => hn.definition?_eq fun p hp => ?_
  have hpre : path <+: pieces '.' name := (List.mem_inits _ _).1 (List.dropLast_subset _ hpath)
  exact Text.not_mem_of_mem_pieces '.' (hpre.subset hp)

end Node.Holds

/-! ## What is handed down -/

namespace Inherited

/-- parameters come nearest first -/
theorem params_foldl_extend (ds : List PixelDefinition) (i : Inherited) :
    (ds.foldl extend i).params = (ds.reverse.flatMap fun d => d.parameters) ++ i.params := by
  induction ds generalizing i with
  | nil => rfl
  | cons d ds ih => rw [List.foldl_cons, ih, List.reverse_cons, List.flatMap_append]; simp [extend]

/-- suffixes come topmost first -/
theorem suffixes_foldl_extend (ds : List PixelDefinition) (i : Inherited) :
    (ds.foldl extend i).suffixes = i.suffixes ++ ds.flatMap fun d => d.suffixes := by
  induction ds generalizing i with
  | nil => simp
  | cons d ds ih => rw [List.foldl_cons, ih]; simp [extend]

end Inherited

namespace CompiledNode

/-- below a path that is not empty the name is built segment by segment -/
theorem foldl_childPath_cons (path : String) (hpath : path ≠ "") (rest : List String) :
    rest.foldl childPath path = joined '.' (path :: rest) := by
  induction rest generalizing path with
  | nil => simp [joined]
  | cons segment rest ih =>
    have hchild : childPath path segment = path ++ "." ++ segment := if_neg hpath
    have hlonger : path ++ "." ++ segment ≠ "" := by simp [hpath]
    have hpoint : String.singleton '.' = "." := rfl
    rw [List.foldl_cons, hchild, ih _ hlonger, Text.joined_cons '.' path (List.cons_ne_nil segment rest), hpoint]
    by_cases hlast : rest = []
    · subst hlast
      simp [joined]
    · rw [Text.joined_cons '.' _ hlast, Text.joined_cons '.' _ hlast, hpoint]
      simp only [String.append_assoc]

/-- the name of a node is its path, joined -/
theorem foldl_childPath {segments : List String} (hfull : ∀ p ∈ segments, p ≠ "") :
    segments.foldl childPath "" = joined '.' segments := by
  cases segments with
  | nil => rfl
  | cons segment rest =>
    have hchild : childPath "" segment = segment := if_pos rfl
    rw [List.foldl_cons, hchild, foldl_childPath_cons segment (hfull segment List.mem_cons_self)]

end CompiledNode

open CompiledNode

/-- the node at a path is compiled into the family that is declared under the joined path, if there is one -/
theorem Node.Holds.family_at {root : Node} {declared : Dict PixelDefinition} (hn : root.Holds declared)
    {ctx : CompileContext} {inherited : Inherited} {m : CompiledNode} (h : compile ctx "" inherited root = .ok m)
    {path : List String} (hfree : ∀ p ∈ path, '.' ∉ p.toList) (hnode : (root.find? path).isSome) :
    ∃ l, m.find? (path.map ctx.fold) = some l ∧
      nodeFamily ctx (path.foldl childPath "") ((root.above path).foldl Inherited.extend inherited)
        (declared.find? (joined '.' path)) = .ok l.family := by
  rw [← hn.definition?_eq hfree]
  exact exists_nodeFamily_of_find? h hnode

/-- there are the nodes on the ways to declared names, and no others -/
theorem Node.Holds.find?_isSome_iff {n : Node} {declared : Dict PixelDefinition} (hn : n.Holds declared)
    (path : List String) : (n.find? path).isSome ↔
      path = [] ∨ ∃ name d, declared.find? name = some d ∧ path <+: pieces '.' name := by
  constructor
  · intro hfound
    by_cases hne : path = []
    · exact Or.inl hne
    · obtain ⟨rest, d, hd⟩ := hn.reached path hne hfound
      obtain ⟨name, hname⟩ := hn.placed _ d hd
      exact Or.inr ⟨name, d, by rw [← hn.named, ← hname, hd], ⟨rest, hname⟩⟩
  · rintro (rfl | ⟨name, d, hd, rest, hrest⟩)
    · rfl
    · rw [← hn.named, ← hrest, definition?, find?_append] at hd
      cases hfind : n.find? path with
      | some k => rfl
      | none => rw [hfind] at hd; cases hd

/-- a declared path has no empty segment -/
theorem Node.Holds.full_of_declared {n : Node} {declared : Dict PixelDefinition} (hn : n.Holds declared)
    {path : List String} (hfree : ∀ p ∈ path, '.' ∉ p.toList) {d : PixelDefinition}
    (hd : declared.find? (joined '.' path) = some d) : path ≠ [] ∧ ∀ p ∈ path, p ≠ "" := by
  have hname := hn.wellNamed _ d hd
  have hne : path ≠ [] := by
    rintro rfl
    exact absurd hname (by decide)
  rw [Catalog.isWellFormedName, Text.pieces_joined '.' path hfree hne] at hname
  exact ⟨hne, by simpa using hname⟩

namespace Catalog

/-- Every declared family, and no other, is compiled: under the folded segments of its name, with its name and owners,
with its own parameters before those of its ancestors, nearest first, and its own suffixes after those of its ancestors,
topmost first. -/
theorem build_inherits (commonParams : ParamCatalog) (commonSuffixes : SuffixCatalog) (sources : List Source)
    (ctx : CompileContext) (compiled : CompiledCatalog)
    (hbuild : CompiledCatalog.build ((new commonParams commonSuffixes).addSources sources).root ctx = .ok compiled) :
    compiled.familyCount = (declared commonParams commonSuffixes sources).size ∧
      ∀ name d, (declared commonParams commonSuffixes sources).find? name = some d →
        ∃ node family, compiled.root.find? ((pieces '.' name).map ctx.fold) = some node ∧
          node.family = some family ∧ family.name = name ∧ family.owners = d.owners ∧
          FamilySchema.compile
            (d.parameters ++
              (ancestors (declared commonParams commonSuffixes sources) name).reverse.flatMap fun a => a.parameters)
            (((ancestors (declared commonParams commonSuffixes sources) name).flatMap fun a => a.suffixes) ++
              d.suffixes) ctx = .ok family.schema := by
  have hholds := addSources_holds commonParams commonSuffixes sources
  generalize ((new commonParams commonSuffixes).addSources sources).root = root at hbuild hholds
  generalize declared commonParams commonSuffixes sources = declared at hholds ⊢
  obtain ⟨m, hcompile, rfl⟩ := build_eq_ok hbuild
  refine ⟨(familyCount_compile hcompile).trans hholds.counted, fun name d hd => ?_⟩
  have hfree : ∀ p ∈ pieces '.' name, '.' ∉ p.toList := fun p hp => Text.not_mem_of_mem_pieces '.' hp
  have hnode := (hholds.find?_isSome_iff (pieces '.' name)).2 (Or.inr ⟨name, d, hd, List.prefix_refl _⟩)
  obtain ⟨l, hfind, hfamily⟩ := hholds.family_at hcompile hfree hnode
  rw [Text.joined_pieces, hd] at hfamily
  obtain ⟨family, hcompiled, hsome⟩ := nodeFamily_some hfamily
  obtain ⟨hname, howners, hschema⟩ := compileFamily_eq_ok hcompiled
  have hfull := (hholds.full_of_declared hfree (by rwa [Text.joined_pieces])).2
  rw [foldl_childPath hfull, Text.joined_pieces] at hname
  simp only [Inherited.extend, Inherited.params_foldl_extend, Inherited.suffixes_foldl_extend, hholds.above_eq,
    List.append_nil, List.nil_append] at hschema
  exact ⟨l, family, hfind, hsome, hname, howners, hschema⟩

/-- one family under another, each with a parameter and a suffix of its own -/
def nestedSources : List Source :=
  let record (parameter suffix : String) : Json := .object [
    ("owners", .array [.string "t"]), ("parameters", .array [.object [("key", .string parameter)]]),
    ("suffixes", .array [.object [("key", .string suffix)]])]
  [⟨"a.json", .object [("app", record "x" "first"), ("app.page.open", record "y" "second")]⟩]

/-- The lower family is compiled with its own parameter before that of the upper one, and with its own suffix after. -/
theorem build_inherits_nested : ∃ compiled node family,
    CompiledCatalog.build ((new ∅ ∅).addSources nestedSources).root {} = .ok compiled ∧ compiled.familyCount = 2 ∧
      compiled.root.find? ["app", "page", "open"] = some node ∧ node.family = some family ∧
      family.name = "app.page.open" ∧ family.owners = NameSet.ofList ["t"] ∧
      FamilySchema.compile [{ key := some "y" }, { key := some "x" }] [{ key := some "first" }, { key := some "second" }]
        {} = .ok family.schema := by
  obtain ⟨compiled, hbuild⟩ := exists_build ((new ∅ ∅).addSources nestedSources).root {} (by decide +kernel)
  obtain ⟨hcount, hfamilies⟩ := build_inherits ∅ ∅ nestedSources {} compiled hbuild
  have hsize : (declared ∅ ∅ nestedSources).size = 2 := by decide
  have hdeclared : (declared ∅ ∅ nestedSources).find? "app.page.open" = some {
      owners := NameSet.ofList ["t"], parameters := [{ key := some "y" }], suffixes := [{ key := some "second" }] } := by
    decide
  have habove : ancestors (declared ∅ ∅ nestedSources) "app.page.open" = [{
      owners := NameSet.ofList ["t"], parameters := [{ key := some "x" }], suffixes := [{ key := some "first" }] }] := by
    decide
  have hpath : (pieces '.' "app.page.open").map ({} : CompileContext).fold = ["app", "page", "open"] := by
    decide
  obtain ⟨node, family, hnode, hfamily, hname, howners, hschema⟩ := hfamilies "app.page.open" _ hdeclared
  rw [hpath] at hnode
  rw [habove] at hschema
  exact ⟨compiled, node, family, hbuild, hcount.trans hsize, hnode, hfamily, hname, howners, hschema⟩

end Catalog

end PixelAudit
