/-
When a catalog is refused because two names become one.

A compiled node keeps its children under their folded segments, and two children that fold to one segment are a
conflict. So a catalog whose families can all be compiled is refused exactly if two ways into the tree fold to one: two
ways to families, or to the nodes that stand above families. The nodes that become one need not be declared. Two
families that become one are always refused, but so may be two that stay apart, for the sake of a segment above them.

Main results: `injective_of_compile` (in a compiled tree no two ways have become one), `compile_eq_error` (why a tree is
refused), `build_conflict_iff` (a catalog is in conflict exactly if two ways into it fold to one).
-/
import PixelAudit.Proofs.Catalog.Inheritance
import Mathlib.Tactic

namespace PixelAudit

open Text (pieces joined)
open CompiledNode

/-! ## Children -/

namespace CompiledNode

variable {ctx : CompileContext} {path : String} {inherited scope : Inherited} {siblings children : List (String × Node)}
  {done compiled : List (String × CompiledNode)}

/-- children fold to different segments, none of which has been taken -/
structure Apart (ctx : CompileContext) (done : List (String × CompiledNode)) (children : List (String × Node)) :
    Prop where
  distinct : (children.map fun c => ctx.fold c.1).Nodup
  free : ∀ c ∈ children, Entries.find? (ctx.fold c.1) done = none

/-- the first child takes a free segment, and the others are apart from it too -/
theorem apart_cons_iff {c : String × Node} (m : CompiledNode) : Apart ctx done (c :: children) ↔
    Entries.find? (ctx.fold c.1) done = none ∧ Apart ctx (Entries.insert (ctx.fold c.1) m done) children := by
  constructor
  · intro h
    obtain ⟨hfirst, hrest⟩ := List.nodup_cons.1 h.distinct
    refine ⟨h.free c List.mem_cons_self, hrest, ?_⟩
    intro d hd
    rw [Entries.find?_insert, if_neg]
    · exact h.free d (List.mem_cons_of_mem _ hd)
    · intro heq
      exact hfirst (List.mem_map.2 ⟨d, hd, heq.symm⟩)
  · rintro ⟨hfree, hdistinct, hlater⟩
    have hapart : ∀ d ∈ children, ctx.fold c.1 ≠ ctx.fold d.1 ∧ Entries.find? (ctx.fold d.1) done = none := by
      intro d hd
      have hd := hlater d hd
      rw [Entries.find?_insert] at hd
      split_ifs at hd with heq
      exact ⟨heq, hd⟩
    constructor
    · refine List.nodup_cons.2 ⟨?_, hdistinct⟩
      intro hmem
      obtain ⟨d, hd, heq⟩ := List.mem_map.1 hmem
      exact (hapart d hd).1 heq.symm
    · intro d hd
      rcases List.mem_cons.1 hd with rfl | hd
      · exact hfree
      · exact (hapart d hd).2

/-- children that are compiled are apart -/
theorem apart_of_compileChildren (h : compileChildren ctx path scope siblings done children = .ok compiled) :
    Apart ctx done children := by
  induction children generalizing done with
  | nil => exact ⟨List.nodup_nil, fun c hc => by cases hc⟩
  | cons c rest ih =>
    obtain ⟨m, -, hfree, hrest⟩ := compileChildren_cons_eq_ok h
    exact (apart_cons_iff m).2 ⟨hfree, ih hrest⟩

/-- the first child is refused, or is in conflict with what has been taken, or the others are refused after it -/
theorem compileChildren_cons_eq_error {c : String × Node} {e : AuditError}
    (h : compileChildren ctx path scope siblings done (c :: children) = .error e) :
    compile ctx (childPath path c.1) scope c.2 = .error e ∨
      (e = .conflict (childPath path c.1) (((rival? siblings c.1).bind Node.firstOrigin).getD "")
          (c.2.firstOrigin.getD "") ∧
        Entries.find? (ctx.fold c.1) done ≠ none) ∨
      ∃ m, compileChildren ctx path scope siblings (Entries.insert (ctx.fold c.1) m done) children = .error e := by
  obtain ⟨segment, child⟩ := c
  unfold compileChildren at h
  cases hchild : compile ctx (childPath path segment) scope child with
  | error fault =>
    rw [hchild] at h
    exact Or.inl (congrArg Except.error (Except.error.inj h))
  | ok m =>
    rw [hchild] at h
    cases htaken : Entries.find? (ctx.fold segment) done with
    | some k =>
      simp only [bind, Except.bind, htaken] at h
      exact Or.inr (Or.inl ⟨(Except.error.inj h).symm, Option.some_ne_none k⟩)
    | none =>
      simp only [bind, Except.bind, htaken] at h
      exact Or.inr (Or.inr ⟨m, h⟩)

/-- children are refused because one of them is, or because they are not apart -/
theorem compileChildren_eq_error {e : AuditError}
    (h : compileChildren ctx path scope siblings done children = .error e) :
    (∃ c ∈ children, compile ctx (childPath path c.1) scope c.2 = .error e) ∨
      (∃ pixel first second, e = .conflict pixel first second) ∧ ¬ Apart ctx done children := by
  induction children generalizing done with
  | nil => cases h
  | cons c rest ih =>
    rcases compileChildren_cons_eq_error h with hchild | ⟨rfl, htaken⟩ | ⟨m, hrest⟩
    · exact Or.inl ⟨c, List.mem_cons_self, hchild⟩
    · refine Or.inr ⟨⟨_, _, _, rfl⟩, ?_⟩
      intro hapart
      exact htaken (hapart.free c List.mem_cons_self)
    · rcases ih hrest with ⟨d, hd, hchild⟩ | ⟨hconflict, hnot⟩
      · exact Or.inl ⟨d, List.mem_cons_of_mem _ hd, hchild⟩
      · refine Or.inr ⟨hconflict, ?_⟩
        intro hapart
        exact hnot ((apart_cons_iff m).1 hapart).2

end CompiledNode

/-! ## Trees -/

/-- two different ways into a tree that fold to one -/
def Node.Collides (ctx : CompileContext) (n : Node) : Prop :=
  ∃ p q, (n.find? p).isSome = true ∧ (n.find? q).isSome = true ∧ p ≠ q ∧ p.map ctx.fold = q.map ctx.fold

/-- what collides below a child collides below its node -/
theorem Node.Collides.of_child {ctx : CompileContext} {n : Node} (hn : n.Ordered) {c : String × Node}
    (hc : c ∈ n.children) (h : c.2.Collides ctx) : n.Collides ctx := by
  obtain ⟨p, q, hp, hq, hne, hfold⟩ := h
  refine ⟨c.1 :: p, c.1 :: q, ?_, ?_, ?_, ?_⟩
  · rwa [hn.find?_cons_of_mem hc]
  · rwa [hn.find?_cons_of_mem hc]
  · simpa using hne
  · simpa using hfold

/-- every family on or below a node that is called by this name, and is handed this down, can be compiled -/
def Node.FamiliesCompile (ctx : CompileContext) (path : String) (inherited : Inherited) (n : Node) : Prop :=
  ∀ segments, (n.find? segments).isSome = true → ∃ family,
    nodeFamily ctx (segments.foldl childPath path) ((n.above segments).foldl Inherited.extend inherited)
      (n.definition? segments) = .ok family

namespace CompiledNode

variable {ctx : CompileContext} {path : String} {inherited : Inherited} {n : Node} {m : CompiledNode}

/-- a way into the tree goes through a child first -/
theorem exists_of_find?_cons {segment : String} {rest : List String}
    (h : (n.find? (segment :: rest)).isSome = true) :
    ∃ child, (segment, child) ∈ n.children ∧ (child.find? rest).isSome = true := by
  rw [Node.find?_cons] at h
  cases hchild : n.child? segment with
  | none => rw [hchild] at h; cases h
  | some child =>
    rw [hchild] at h
    exact ⟨child, Node.mem_of_child? hchild, h⟩

/-- in a compiled tree no two ways have become one -/
theorem injective_of_compile (h : compile ctx path inherited n = .ok m) {p q : List String}
    (hp : (n.find? p).isSome = true) (hq : (n.find? q).isSome = true) (hfold : p.map ctx.fold = q.map ctx.fold) :
    p = q := by
  induction p generalizing n m path inherited q with
  | nil => exact (List.map_eq_nil_iff.1 hfold.symm).symm
  | cons s p ih =>
    cases q with
    | nil => cases hfold
    | cons t q =>
      obtain ⟨hst, hrest⟩ := List.cons.inj hfold
      obtain ⟨child, hchild, hp⟩ := exists_of_find?_cons hp
      obtain ⟨other, hother, hq⟩ := exists_of_find?_cons hq
      -- the two ways go through children that fold to one segment, so through one child
      have hchildren := (compile_eq_ok h).2
      have hsame : (s, child) = (t, other) :=
        List.inj_on_of_nodup_map (apart_of_compileChildren hchildren).distinct hchild hother hst
      obtain ⟨rfl, rfl⟩ := Prod.mk.inj hsame
      obtain ⟨k, hk, -⟩ := compileChildren_find? hchildren hchild
      rw [ih hk hp hq hrest]

/-- the children of a node that are not apart collide -/
theorem collides_of_not_apart (hn : n.Ordered) (h : ¬ Apart ctx [] n.children) : n.Collides ctx := by
  by_contra hnone
  apply h
  have hinjective : ∀ c ∈ n.children, ∀ d ∈ n.children, ctx.fold c.1 = ctx.fold d.1 → c = d := by
    intro c hc d hd hfold
    have hsegment : c.1 = d.1 := by
      by_contra hne
      refine hnone ⟨[c.1], [d.1], ?_, ?_, ?_, ?_⟩
      · rw [hn.find?_cons_of_mem hc]
        rfl
      · rw [hn.find?_cons_of_mem hd]
        rfl
      · simpa using hne
      · simpa using hfold
    have hnode := hn.child?_of_mem hc
    rw [hsegment, hn.child?_of_mem hd] at hnode
    exact Prod.ext hsegment (Option.some.inj hnode).symm
  have hchildren : n.children.Nodup := hn.sorted.imp fun hlt heq => by
    rw [heq] at hlt
    exact String.lt_irrefl _ hlt
  exact ⟨hchildren.map_on hinjective, fun c _ => rfl⟩

end CompiledNode

/-- what is declared below a child is declared below its node -/
theorem Node.FamiliesCompile.child {ctx : CompileContext} {path : String} {inherited : Inherited} {n : Node}
    (h : n.FamiliesCompile ctx path inherited) (hn : n.Ordered) {c : String × Node} (hc : c ∈ n.children) :
    c.2.FamiliesCompile ctx (childPath path c.1) (inherited.through n.definition) := by
  have hchild := hn.child?_of_mem hc
  intro segments hsegments
  have hbelow := h (c.1 :: segments) (by rwa [hn.find?_cons_of_mem hc])
  rwa [List.foldl_cons, foldl_above_cons hchild, Node.definition?_cons, hchild, Option.bind_some] at hbelow

namespace CompiledNode

variable {ctx : CompileContext} {path : String} {inherited : Inherited} {n : Node}

/-- a tree whose families can all be compiled is refused only for a conflict, and then two ways into it collide -/
theorem compile_eq_error {e : AuditError} (hn : n.Ordered) (hfamilies : n.FamiliesCompile ctx path inherited)
    (h : compile ctx path inherited n = .error e) :
    (∃ pixel first second, e = .conflict pixel first second) ∧ n.Collides ctx := by
  induction n using Node.induct generalizing path inherited with
  | h n ih =>
    -- the node's own family is compiled, so the fault comes from its children
    obtain ⟨family, hfamily⟩ := hfamilies [] rfl
    have hown : nodeFamily ctx path inherited n.definition = .ok family := hfamily
    rw [compile_eq, hown] at h
    cases hchildren : compileChildren ctx path (inherited.through n.definition) n.children [] n.children with
    | ok compiled =>
      simp only [bind, Except.bind, hchildren] at h
      cases h
    | error fault =>
      simp only [bind, Except.bind, hchildren] at h
      obtain rfl := Except.error.inj h
      rcases compileChildren_eq_error hchildren with ⟨c, hc, hchild⟩ | ⟨hconflict, hnot⟩
      · obtain ⟨hconflict, hcollides⟩ := ih c hc (hn.child hc) (hfamilies.child hn hc) hchild
        exact ⟨hconflict, hcollides.of_child hn hc⟩
      · exact ⟨hconflict, collides_of_not_apart hn hnot⟩

end CompiledNode

/-! ## Catalogs -/

namespace CompiledNode

/-- a family is compiled if its parameters and suffixes are -/
theorem exists_nodeFamily {ctx : CompileContext} {path : String} {inherited : Inherited} {d : PixelDefinition}
    (h : (FamilySchema.compile (inherited.extend d).params (inherited.extend d).suffixes ctx).isOk = true) :
    ∃ family, nodeFamily ctx path inherited (some d) = .ok family := by
  rw [nodeFamily, compileFamily]
  cases hschema : FamilySchema.compile (inherited.extend d).params (inherited.extend d).suffixes ctx with
  | error fault => rw [hschema] at h; cases h
  | ok schema => exact ⟨_, rfl⟩

theorem build_eq_error {root : Node} {ctx : CompileContext} {e : AuditError}
    (h : CompiledCatalog.build root ctx = .error e) :
    compile ctx "" { minVersion := ctx.minVersion } root = .error e := by
  unfold CompiledCatalog.build at h
  cases hm : compile ctx "" { minVersion := ctx.minVersion } root with
  | error fault =>
    rw [hm] at h
    exact congrArg Except.error (Except.error.inj h)
  | ok m =>
    rw [hm] at h
    cases h

end CompiledNode

namespace Catalog

/-- the rules of a declared family: its own parameters before those of its ancestors, its own suffixes after theirs -/
def schemaOf (ctx : CompileContext) (declared : Dict PixelDefinition) (name : String) (d : PixelDefinition) :
    Except DefinitionFault FamilySchema :=
  FamilySchema.compile (d.parameters ++ (ancestors declared name).reverse.flatMap fun a => a.parameters)
    (((ancestors declared name).flatMap fun a => a.suffixes) ++ d.suffixes) ctx

/-- two different ways to declared families fold to one; they may end above the families -/
def FoldsTogether (ctx : CompileContext) (declared : Dict PixelDefinition) : Prop :=
  ∃ name other, declared.contains name = true ∧ declared.contains other = true ∧
    ∃ p q, p <+: pieces '.' name ∧ q <+: pieces '.' other ∧ p ≠ q ∧ p.map ctx.fold = q.map ctx.fold

/-- two declared families have names that fold to one -/
def DeclaresTwice (ctx : CompileContext) (declared : Dict PixelDefinition) : Prop :=
  ∃ name other, declared.contains name = true ∧ declared.contains other = true ∧ name ≠ other ∧
    (pieces '.' name).map ctx.fold = (pieces '.' other).map ctx.fold

theorem DeclaresTwice.foldsTogether {ctx : CompileContext} {declared : Dict PixelDefinition}
    (h : DeclaresTwice ctx declared) : FoldsTogether ctx declared := by
  obtain ⟨name, other, hname, hother, hne, hfold⟩ := h
  refine ⟨name, other, hname, hother, _, _, List.prefix_refl _, List.prefix_refl _, ?_, hfold⟩
  intro heq
  exact hne (Text.pieces_injective '.' heq)

end Catalog

namespace Node.Holds

variable {n : Node} {declared : Dict PixelDefinition} {ctx : CompileContext}

/-- a way into the tree is the root or leads to a declared family -/
theorem exists_declared (hn : n.Holds declared) {p : List String} (hp : (n.find? p).isSome = true) (hne : p ≠ []) :
    ∃ name, declared.contains name = true ∧ p <+: pieces '.' name := by
  rcases (hn.find?_isSome_iff p).1 hp with hroot | ⟨name, d, hd, hprefix⟩
  · exact absurd hroot hne
  · exact ⟨name, by rw [Dict.contains, hd]; rfl, hprefix⟩

theorem isSome_of_declared (hn : n.Holds declared) {p : List String} {name : String}
    (hname : declared.contains name = true) (hp : p <+: pieces '.' name) : (n.find? p).isSome = true := by
  obtain ⟨d, hd⟩ := Option.isSome_iff_exists.1 hname
  exact (hn.find?_isSome_iff p).2 (Or.inr ⟨name, d, hd, hp⟩)

/-- ways into the tree collide if ways to declared families do -/
theorem collides_iff (hn : n.Holds declared) : n.Collides ctx ↔ Catalog.FoldsTogether ctx declared := by
  constructor
  · rintro ⟨p, q, hp, hq, hne, hfold⟩
    have hpne : p ≠ [] := by
      rintro rfl
      exact hne (List.map_eq_nil_iff.1 hfold.symm).symm
    have hqne : q ≠ [] := by
      rintro rfl
      exact hne (List.map_eq_nil_iff.1 hfold)
    obtain ⟨name, hname, hpname⟩ := hn.exists_declared hp hpne
    obtain ⟨other, hother, hqother⟩ := hn.exists_declared hq hqne
    exact ⟨name, other, hname, hother, p, q, hpname, hqother, hne, hfold⟩
  · rintro ⟨name, other, hname, hother, p, q, hpname, hqother, hne, hfold⟩
    exact ⟨p, q, hn.isSome_of_declared hname hpname, hn.isSome_of_declared hother hqother, hne, hfold⟩

/-- the families of a tree can be compiled if the declared ones can -/
theorem familiesCompile (hn : n.Holds declared)
    (h : ∀ name d, declared.find? name = some d → (Catalog.schemaOf ctx declared name d).isOk = true) :
    n.FamiliesCompile ctx "" { minVersion := ctx.minVersion } := by
  intro segments _
  cases hd : n.definition? segments with
  | none => exact ⟨none, rfl⟩
  | some d =>
    obtain ⟨name, rfl⟩ := hn.placed segments d hd
    rw [hn.named] at hd
    have hschema := h name d hd
    apply exists_nodeFamily
    simp only [Inherited.extend, Inherited.params_foldl_extend, Inherited.suffixes_foldl_extend, hn.above_eq,
      List.append_nil, List.nil_append]
    exact hschema

end Node.Holds

namespace Catalog

/-- A catalog whose families can all be compiled is in conflict exactly if two different ways to declared families fold
to one, and is compiled otherwise. So two families whose names fold to one are in conflict. -/
theorem build_conflict_iff (commonParams : ParamCatalog) (commonSuffixes : SuffixCatalog) (sources : List Source)
    (ctx : CompileContext)
    (hfamilies : ∀ name d, (declared commonParams commonSuffixes sources).find? name = some d →
      (schemaOf ctx (declared commonParams commonSuffixes sources) name d).isOk = true) :
    ((∃ pixel first second, CompiledCatalog.build ((new commonParams commonSuffixes).addSources sources).root ctx =
        .error (.conflict pixel first second)) ↔
      FoldsTogether ctx (declared commonParams commonSuffixes sources)) ∧
    ((∃ compiled, CompiledCatalog.build ((new commonParams commonSuffixes).addSources sources).root ctx =
        .ok compiled) ↔
      ¬ FoldsTogether ctx (declared commonParams commonSuffixes sources)) ∧
    (DeclaresTwice ctx (declared commonParams commonSuffixes sources) →
      ∃ pixel first second, CompiledCatalog.build ((new commonParams commonSuffixes).addSources sources).root ctx =
        .error (.conflict pixel first second)) := by
  have hholds := addSources_holds commonParams commonSuffixes sources
  generalize ((new commonParams commonSuffixes).addSources sources).root = root at hholds ⊢
  generalize declared commonParams commonSuffixes sources = declared at hfamilies hholds ⊢
  cases hbuild : CompiledCatalog.build root ctx with
  | ok compiled =>
    obtain ⟨m, hcompile, -⟩ := build_eq_ok hbuild
    have hapart : ¬ FoldsTogether ctx declared := by
      rw [← hholds.collides_iff]
      rintro ⟨p, q, hp, hq, hne, hfold⟩
      exact hne (injective_of_compile hcompile hp hq hfold)
    have honce : ¬ DeclaresTwice ctx declared := mt DeclaresTwice.foldsTogether hapart
    simp [hapart, honce]
  | error e =>
    obtain ⟨⟨pixel, first, second, rfl⟩, hcollides⟩ :=
      compile_eq_error hholds.ordered (hholds.familiesCompile hfamilies) (build_eq_error hbuild)
    rw [hholds.collides_iff] at hcollides
    simp [hcollides]

/-- one family, declared by two files in two spellings -/
def spelledTwice : List Source :=
  let record : Json := .object [("owners", .array [.string "t"])]
  [⟨"a.json", .object [("App.click", record)]⟩, ⟨"b.json", .object [("app.click", record)]⟩]

theorem build_conflict_click :
    (∀ name d, (declared ∅ ∅ spelledTwice).find? name = some d →
      (schemaOf { forceLowerCase := true } (declared ∅ ∅ spelledTwice) name d).isOk = true) ∧
    ∃ pixel first second, CompiledCatalog.build ((new ∅ ∅).addSources spelledTwice).root { forceLowerCase := true } =
      .error (.conflict pixel first second) := by
  have hfamilies : ∀ name d, (declared ∅ ∅ spelledTwice).find? name = some d →
      (schemaOf { forceLowerCase := true } (declared ∅ ∅ spelledTwice) name d).isOk = true := by
    apply Dict.forall_of_all
    decide
  have hconflict := (build_conflict_iff ∅ ∅ spelledTwice { forceLowerCase := true } hfamilies).2.2
  refine ⟨hfamilies, hconflict ⟨"App.click", "app.click", ?_⟩⟩
  decide

/-- two families that stay apart, under two spellings of a segment that is not declared -/
def spelledApart : List Source :=
  let record : Json := .object [("owners", .array [.string "t"])]
  [⟨"defs.json", .object [("A.y", record), ("a.x", record)]⟩]

/-- they are refused, for a family that nobody has declared -/
theorem build_conflict_undeclared :
    (∀ name d, (declared ∅ ∅ spelledApart).find? name = some d →
      (schemaOf { forceLowerCase := true } (declared ∅ ∅ spelledApart) name d).isOk = true) ∧
    ¬ DeclaresTwice { forceLowerCase := true } (declared ∅ ∅ spelledApart) ∧
    CompiledCatalog.build ((new ∅ ∅).addSources spelledApart).root { forceLowerCase := true } =
      .error (.conflict "a" "defs.json" "defs.json") ∧
    (declared ∅ ∅ spelledApart).contains "a" = false := by
  refine ⟨?_, ?_, ?_, by decide⟩
  · apply Dict.forall_of_all
    decide
  · rintro ⟨name, other, hname, hother, hne, hfold⟩
    have hnames : ∀ name ∈ (declared ∅ ∅ spelledApart).names, ∀ other ∈ (declared ∅ ∅ spelledApart).names,
        (pieces '.' name).map (CompileContext.fold { forceLowerCase := true }) =
          (pieces '.' other).map (CompileContext.fold { forceLowerCase := true }) → name = other := by
      decide
    rw [Dict.contains_iff_mem_names] at hname hother
    exact hne (hnames name hname other hother hfold)
  · have hcomputed : (match CompiledCatalog.build ((new ∅ ∅).addSources spelledApart).root
        { forceLowerCase := true } with | .error e => some e | .ok _ => none) =
        some (.conflict "a" "defs.json" "defs.json") := by
      decide
    cases hbuild : CompiledCatalog.build ((new ∅ ∅).addSources spelledApart).root { forceLowerCase := true } with
    | ok compiled => rw [hbuild] at hcomputed; cases hcomputed
    | error e => rw [hbuild] at hcomputed; rw [Option.some.inj hcomputed]

end Catalog

end PixelAudit
