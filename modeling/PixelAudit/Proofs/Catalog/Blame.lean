/-
Which sources a conflict of two spellings is laid to.

Children are compiled in the order of their segments, so the one that is in conflict comes after a sibling that folds to
the same segment. The report calls it by its path and looks its sibling up again: the first of all the siblings that
is spelled otherwise and folds to the same. Since one of them came before, so did the first of them. A source is then
looked for at and below both. Every node of a tree that was built from sources leads to a declared family, so both
searches end at one.

Main results: `exists_rival` (the sibling that is found came before), `exists_rivals_of_compile` (what a conflict is
about), `build_conflict_blames` (the sources that a conflict names, in any catalog).
-/
import PixelAudit.Proofs.Catalog.Collision
import PixelAudit.Proofs.Catalog.Refusal
import Mathlib.Tactic

namespace PixelAudit

open Text (pieces joined)

/-! ## Sources at and below a node -/

namespace Node

/-- a family at or below the node was declared by this source -/
def HasSource (n : Node) (origin : String) : Prop :=
  ∃ path m, n.find? path = some m ∧ m.isTerminal = true ∧ m.origin = some origin

theorem firstOriginList_eq (children : List (String × Node)) :
    firstOriginList children = children.findSome? fun c => c.2.firstOrigin := by
  induction children with
  | nil => rfl
  | cons c rest ih =>
    obtain ⟨segment, child⟩ := c
    rw [firstOriginList, ih, List.findSome?_cons]
    cases child.firstOrigin <;> rfl

theorem firstOrigin_eq (n : Node) :
    n.firstOrigin = n.origin.or (n.children.findSome? fun c => c.2.firstOrigin) := by
  obtain ⟨children, definition, origin⟩ := n
  rw [firstOrigin, firstOriginList_eq]

/-- the source that is found is written at the node or below it -/
theorem exists_of_firstOrigin {n : Node} (hn : n.Ordered) {origin : String} (h : n.firstOrigin = some origin) :
    ∃ path m, n.find? path = some m ∧ m.origin = some origin := by
  induction n using Node.induct with
  | h n ih =>
    rw [firstOrigin_eq, Option.or_eq_some_iff] at h
    rcases h with hown | ⟨-, hbelow⟩
    · exact ⟨[], n, rfl, hown⟩
    · obtain ⟨c, hc, hsource⟩ := List.exists_of_findSome?_eq_some hbelow
      obtain ⟨path, m, hm, horigin⟩ := ih c hc (hn.child hc) hsource
      exact ⟨c.1 :: path, m, by rw [hn.find?_cons_of_mem hc, hm], horigin⟩

/-- where a source is written at or below the node, one is found -/
theorem exists_firstOrigin {n m : Node} {path : List String} (hm : n.find? path = some m)
    (hsource : m.origin.isSome = true) : ∃ origin, n.firstOrigin = some origin := by
  rw [← Option.isSome_iff_exists]
  induction path generalizing n with
  | nil =>
    obtain rfl : n = m := by simpa [find?] using hm
    rw [firstOrigin_eq, Option.isSome_or, hsource, Bool.true_or]
  | cons segment rest ih =>
    rw [find?_cons] at hm
    obtain ⟨child, hchild, hm⟩ := Option.bind_eq_some_iff.1 hm
    have hbelow : (n.children.findSome? fun c => c.2.firstOrigin).isSome = true :=
      List.findSome?_isSome_iff.2 ⟨_, mem_of_child? hchild, ih hm⟩
    rw [firstOrigin_eq, Option.isSome_or, hbelow, Bool.or_true]

/-- what is below a tree in order is in order -/
theorem Ordered.of_find? {n m : Node} {path : List String} (hn : n.Ordered) (hm : n.find? path = some m) :
    m.Ordered := by
  induction path generalizing n with
  | nil =>
    obtain rfl : n = m := by simpa [find?] using hm
    exact hn
  | cons segment rest ih =>
    rw [find?_cons] at hm
    obtain ⟨child, hchild, hm⟩ := Option.bind_eq_some_iff.1 hm
    exact ih (hn.child (mem_of_child? hchild)) hm

/-- two children of the node at the end of a path: their segments are the same but for the case of letters, and the
sibling comes first -/
structure Rivals (root : Node) (above : List String) (earlier later : String) (sibling node : Node) : Prop where
  sibling : root.find? (above ++ [earlier]) = some sibling
  node : root.find? (above ++ [later]) = some node
  before : earlier < later
  alike : Text.lower earlier = Text.lower later

end Node

/-! ## Compiling -/

namespace CompiledNode

variable {ctx : CompileContext} {path : String} {inherited scope : Inherited}
  {siblings before children : List (String × Node)}
  {done : List (String × CompiledNode)} {pixel first second : String}

/-- without folding two segments are never confused -/
theorem lower_eq_of_fold_eq {s t : String} (hne : s ≠ t) (h : ctx.fold s = ctx.fold t) :
    Text.lower s = Text.lower t := by
  unfold CompileContext.fold foldText at h
  split_ifs at h
  · exact h
  · exact absurd h hne

/-- the rival of a segment is found among the siblings before it, if one of these is confused with it -/
theorem exists_rival {c d : String × Node} (hsorted : Entries.Sorted (before ++ c :: children)) (hd : d ∈ before)
    (hfold : ctx.fold d.1 = ctx.fold c.1) :
    ∃ sibling ∈ before, rival? (before ++ c :: children) c.1 = some sibling.2 ∧ sibling.1 < c.1 ∧
      Text.lower sibling.1 = Text.lower c.1 := by
  have hlt : ∀ s ∈ before, s.1 < c.1 := fun s hs => (List.pairwise_append.1 hsorted).2.2 s hs c List.mem_cons_self
  have hne : d.1 ≠ c.1 := by
    intro heq
    exact String.lt_irrefl c.1 (heq ▸ hlt d hd)
  have hconfused : ∃ s ∈ before, (decide (s.1 ≠ c.1) && Text.lower s.1 == Text.lower c.1) = true := by
    refine ⟨d, hd, ?_⟩
    rw [Bool.and_eq_true, decide_eq_true_eq, beq_iff_eq]
    exact ⟨hne, lower_eq_of_fold_eq hne hfold⟩
  obtain ⟨sibling, hsibling⟩ := Option.isSome_iff_exists.1 (List.find?_isSome.2 hconfused)
  have hmem := List.mem_of_find?_eq_some hsibling
  have hsame := List.find?_some hsibling
  rw [Bool.and_eq_true, decide_eq_true_eq, beq_iff_eq] at hsame
  refine ⟨sibling, hmem, ?_, hlt sibling hmem, hsame.2⟩
  rw [rival?, List.find?_append, hsibling, Option.some_or, Option.map_some]

/-- Children are refused because one of them is, or one is in conflict with a sibling before it. The segments that have
been taken are those of the children before. -/
theorem exists_rivals_of_compileChildren (hsorted : Entries.Sorted (before ++ children))
    (htaken : ∀ key, Entries.find? key done ≠ none → ∃ d ∈ before, ctx.fold d.1 = key)
    (h : compileChildren ctx path scope (before ++ children) done children = .error (.conflict pixel first second)) :
    (∃ c ∈ children, compile ctx (childPath path c.1) scope c.2 = .error (.conflict pixel first second)) ∨
      ∃ c ∈ children, ∃ sibling ∈ before ++ children, sibling.1 < c.1 ∧ Text.lower sibling.1 = Text.lower c.1 ∧
        pixel = childPath path c.1 ∧ first = sibling.2.firstOrigin.getD "" ∧ second = c.2.firstOrigin.getD "" := by
  induction children generalizing before done with
  | nil => cases h
  | cons c rest ih =>
    rcases compileChildren_cons_eq_error h with hchild | ⟨hconflict, hfull⟩ | ⟨m, hrest⟩
    · exact Or.inl ⟨c, List.mem_cons_self, hchild⟩
    · obtain ⟨d, hd, hfold⟩ := htaken _ hfull
      obtain ⟨sibling, hsibling, hrival, hlt, hlower⟩ := exists_rival hsorted hd hfold
      rw [hrival, Option.bind_some, AuditError.conflict.injEq] at hconflict
      obtain ⟨hpixel, hfirst, hsecond⟩ := hconflict
      exact Or.inr
        ⟨c, List.mem_cons_self, sibling, List.mem_append_left _ hsibling, hlt, hlower, hpixel, hfirst, hsecond⟩
    · have hshift : before ++ c :: rest = before ++ [c] ++ rest := by rw [List.append_assoc, List.singleton_append]
      rw [hshift] at hsorted hrest ⊢
      have htaken' : ∀ key, Entries.find? key (Entries.insert (ctx.fold c.1) m done) ≠ none →
          ∃ d ∈ before ++ [c], ctx.fold d.1 = key := by
        intro key hkey
        rw [Entries.find?_insert] at hkey
        split_ifs at hkey with hown
        · exact ⟨c, List.mem_append_right _ List.mem_cons_self, hown⟩
        · obtain ⟨d, hd, hfold⟩ := htaken key hkey
          exact ⟨d, List.mem_append_left _ hd, hfold⟩
      rcases ih hsorted htaken' hrest with ⟨d, hd, hchild⟩ | ⟨d, hd, hrivals⟩
      · exact Or.inl ⟨d, List.mem_cons_of_mem _ hd, hchild⟩
      · exact Or.inr ⟨d, List.mem_cons_of_mem _ hd, hrivals⟩

/-- a family that is not compiled is no conflict -/
theorem nodeFamily_ne_conflict (o : Option PixelDefinition) :
    nodeFamily ctx path inherited o ≠ .error (.conflict pixel first second) := by
  cases o with
  | none =>
    intro h
    cases h
  | some d =>
    rw [nodeFamily, compileFamily]
    cases FamilySchema.compile (inherited.extend d).params (inherited.extend d).suffixes ctx with
    | ok schema =>
      intro h
      cases h
    | error fault =>
      intro h
      cases Except.error.inj h

/-- a conflict is about two children of some node; it names the later one, and what is found at and below both -/
theorem exists_rivals_of_compile {n : Node} (hn : n.Ordered)
    (h : compile ctx path inherited n = .error (.conflict pixel first second)) :
    ∃ above earlier later sibling node, n.Rivals above earlier later sibling node ∧
      pixel = (above ++ [later]).foldl childPath path ∧ first = sibling.firstOrigin.getD "" ∧
      second = node.firstOrigin.getD "" := by
  induction n using Node.induct generalizing path inherited with
  | h n ih =>
    rw [compile_eq] at h
    cases hfamily : nodeFamily ctx path inherited n.definition with
    | error e =>
      rw [hfamily] at h
      obtain rfl := Except.error.inj h
      exact absurd hfamily (nodeFamily_ne_conflict n.definition)
    | ok family =>
      rw [hfamily] at h
      cases hchildren : compileChildren ctx path (inherited.through n.definition) n.children [] n.children with
      | ok compiled =>
        simp only [bind, Except.bind, hchildren] at h
        cases h
      | error e =>
        simp only [bind, Except.bind, hchildren] at h
        obtain rfl := Except.error.inj h
        have hnone : ∀ key, Entries.find? key ([] : List (String × CompiledNode)) ≠ none →
            ∃ d ∈ ([] : List (String × Node)), ctx.fold d.1 = key := fun key hkey => absurd rfl hkey
        have hsorted : Entries.Sorted ([] ++ n.children) := hn.sorted
        rcases exists_rivals_of_compileChildren hsorted hnone hchildren with
          ⟨c, hc, hchild⟩ | ⟨c, hc, sibling, hsibling, hlt, hlower, hpixel, hfirst, hsecond⟩
        · obtain ⟨above, earlier, later, sibling, node, hrivals, hpixel, hfirst, hsecond⟩ :=
            ih c hc (hn.child hc) hchild
          refine ⟨c.1 :: above, earlier, later, sibling, node, ?_, hpixel, hfirst, hsecond⟩
          exact ⟨by rw [List.cons_append, hn.find?_cons_of_mem hc, hrivals.sibling],
            by rw [List.cons_append, hn.find?_cons_of_mem hc, hrivals.node], hrivals.before, hrivals.alike⟩
        · refine ⟨[], sibling.1, c.1, sibling.2, c.2, ?_, hpixel, hfirst, hsecond⟩
          refine ⟨?_, ?_, hlt, hlower⟩
          · rw [List.nil_append, hn.find?_cons_of_mem hsibling]
            rfl
          · rw [List.nil_append, hn.find?_cons_of_mem hc]
            rfl

end CompiledNode

/-! ## Catalogs -/

namespace Catalog

/-- what is entered in the log has the source that it came from -/
theorem exists_source_of_mem_log {c : Catalog} {sources : List Source} {a : Acceptance} (h : a ∈ c.log sources) :
    ∃ s ∈ sources, a.origin = s.origin := by
  induction sources generalizing c with
  | nil => cases h
  | cons source rest ih =>
    rw [log, List.mem_append] at h
    rcases h with h | h
    · refine ⟨source, List.mem_cons_self, ?_⟩
      rw [takenFrom] at h
      split at h
      · exact origin_of_mem_taken h
      · cases h
    · obtain ⟨s, hs, horigin⟩ := ih h
      exact ⟨s, List.mem_cons_of_mem _ hs, horigin⟩

variable {c : Catalog} {log : List Acceptance} {path : List String} {n : Node}

/-- the path of a node is read back from its name -/
theorem Shaped.pieces_joined (h : c.Shaped log) (hne : path ≠ []) (hn : c.root.find? path = some n) :
    pieces '.' (joined '.' path) = path :=
  Text.pieces_joined '.' path (fun segment hsegment => (h.labels path n hn segment hsegment).2) hne

/-- a source that is written at a node is that of an entry of the log, and the node is declared -/
theorem Shaped.exists_entry (h : c.Shaped log) {origin : String} (hn : c.root.find? path = some n)
    (horigin : n.origin = some origin) : n.isTerminal = true ∧ ∃ a ∈ log, a.origin = origin := by
  have hterminal : n.isTerminal = true := (h.sourced path n hn).2 (by rw [horigin]; rfl)
  have hne : path ≠ [] := by
    rintro rfl
    obtain rfl : c.root = n := by simpa [Node.find?] using hn
    rw [h.rootOpen] at hterminal
    cases hterminal
  have hname : c.root.get? (joined '.' path) = some n := by rw [Node.get?, h.pieces_joined hne hn, hn]
  have hfirst := (h.declared _).1 ⟨n, hname, hterminal⟩
  rw [← firstOf_isSome_iff] at hfirst
  obtain ⟨a, ha⟩ := Option.isSome_iff_exists.1 hfirst
  obtain ⟨m, hm, -, hsource⟩ := h.first _ a ha
  obtain rfl : n = m := Option.some.inj (hname.symm.trans hm)
  exact ⟨hterminal, a, List.mem_of_find?_eq_some ha, Option.some.inj (hsource.symm.trans horigin)⟩

/-- what is found at and below a node that is not the root is the source of a family there -/
theorem Shaped.hasSource_firstOrigin (h : c.Shaped log) (hne : path ≠ []) (hn : c.root.find? path = some n) :
    n.HasSource (n.firstOrigin.getD "") ∧ ∃ a ∈ log, a.origin = n.firstOrigin.getD "" := by
  obtain ⟨rest, m, hm, hterminal⟩ := h.leads path n hne hn
  have hbelow : ∀ {rest m}, n.find? rest = some m → c.root.find? (path ++ rest) = some m := by
    intro rest m hm
    rw [Node.find?_append, hn, Option.bind_some, hm]
  have hsource : m.origin.isSome = true := (h.sourced _ m (hbelow hm)).1 hterminal
  obtain ⟨origin, horigin⟩ := Node.exists_firstOrigin hm hsource
  obtain ⟨found, k, hk, hkorigin⟩ := Node.exists_of_firstOrigin (h.ordered.of_find? hn) horigin
  obtain ⟨hkterminal, a, ha, haorigin⟩ := h.exists_entry (hbelow hk) hkorigin
  rw [horigin, Option.getD_some]
  exact ⟨⟨found, k, hk, hkterminal, hkorigin⟩, a, ha, haorigin⟩

/-- A conflict of a catalog names a node by its path, which has a sibling before it that is spelled the same but for the
case of letters. It names a source of the sibling, and a source of the node, in this order; neither is left out if every
source has a name. -/
theorem build_conflict_blames (commonParams : ParamCatalog) (commonSuffixes : SuffixCatalog) (sources : List Source)
    (ctx : CompileContext) (pixel first second : String) (hsources : ∀ s ∈ sources, s.origin ≠ "")
    (h : CompiledCatalog.build ((new commonParams commonSuffixes).addSources sources).root ctx =
      .error (.conflict pixel first second)) :
    first ≠ "" ∧ second ≠ "" ∧
    ∃ above earlier later sibling node,
      ((new commonParams commonSuffixes).addSources sources).root.Rivals above earlier later sibling node ∧
      pixel = joined '.' (above ++ [later]) ∧
      ((new commonParams commonSuffixes).addSources sources).root.get? pixel = some node ∧
      node.HasSource second ∧ sibling.HasSource first := by
  have hlog : ∀ a ∈ (new commonParams commonSuffixes).log sources, a.origin ≠ "" := by
    intro a ha
    obtain ⟨s, hs, horigin⟩ := exists_source_of_mem_log ha
    rw [horigin]
    exact hsources s hs
  have htraces := (traces_new commonParams commonSuffixes).addSources sources
  rw [List.nil_append] at htraces
  have hshaped := htraces.shaped
  generalize (new commonParams commonSuffixes).log sources = log at hlog hshaped
  generalize ((new commonParams commonSuffixes).addSources sources) = c at h hshaped ⊢
  obtain ⟨above, earlier, later, sibling, node, hrivals, hpixel, hfirst, hsecond⟩ :=
    CompiledNode.exists_rivals_of_compile hshaped.ordered (CompiledNode.build_eq_error h)
  have hne : ∀ segment, above ++ [segment] ≠ [] := fun segment => List.append_ne_nil_of_right_ne_nil _ (by simp)
  have hfull : ∀ segment ∈ above ++ [later], segment ≠ "" := fun segment hsegment =>
    (hshaped.labels _ node hrivals.node segment hsegment).1
  rw [CompiledNode.foldl_childPath hfull] at hpixel
  obtain ⟨hnode, a, ha, haorigin⟩ := hshaped.hasSource_firstOrigin (hne later) hrivals.node
  obtain ⟨hsibling, b, hb, hborigin⟩ := hshaped.hasSource_firstOrigin (hne earlier) hrivals.sibling
  rw [← hsecond] at hnode haorigin
  rw [← hfirst] at hsibling hborigin
  refine ⟨hborigin ▸ hlog b hb, haorigin ▸ hlog a ha, above, earlier, later, sibling, node, hrivals, hpixel, ?_, hnode,
    hsibling⟩
  rw [hpixel, Node.get?, hshaped.pieces_joined (hne later) hrivals.node, hrivals.node]

/-- three spellings of a segment that is not declared, each from a source of its own -/
def spelledThrice : List Source :=
  let record : Json := .object [("owners", .array [.string "t"])]
  [⟨"c.json", .object [("app.x.z", record)]⟩, ⟨"b.json", .object [("App.y", record)]⟩,
    ⟨"a.json", .object [("APP.w", record)]⟩]

/-- the second spelling is in conflict with the first; the sources are those of families below -/
theorem build_conflict_blames_thrice :
    (∀ s ∈ spelledThrice, s.origin ≠ "") ∧
    CompiledCatalog.build ((new ∅ ∅).addSources spelledThrice).root { forceLowerCase := true } =
      .error (.conflict "App" "a.json" "b.json") ∧
    ∃ above earlier later sibling node,
      ((new ∅ ∅).addSources spelledThrice).root.Rivals above earlier later sibling node ∧
      "App" = joined '.' (above ++ [later]) ∧ ((new ∅ ∅).addSources spelledThrice).root.get? "App" = some node ∧
      node.HasSource "b.json" ∧ sibling.HasSource "a.json" := by
  have hsources : ∀ s ∈ spelledThrice, s.origin ≠ "" := by decide
  have hbuild : CompiledCatalog.build ((new ∅ ∅).addSources spelledThrice).root { forceLowerCase := true } =
      .error (.conflict "App" "a.json" "b.json") := by
    have hcomputed : (match CompiledCatalog.build ((new ∅ ∅).addSources spelledThrice).root
        { forceLowerCase := true } with | .error e => some e | .ok _ => none) =
        some (.conflict "App" "a.json" "b.json") := by
      decide
    cases hbuild : CompiledCatalog.build ((new ∅ ∅).addSources spelledThrice).root { forceLowerCase := true } with
    | ok compiled => rw [hbuild] at hcomputed; cases hcomputed
    | error e => rw [hbuild] at hcomputed; rw [Option.some.inj hcomputed]
  exact ⟨hsources, hbuild, (build_conflict_blames ∅ ∅ spelledThrice _ _ _ _ hsources hbuild).2.2⟩

end Catalog

end PixelAudit
