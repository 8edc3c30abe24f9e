/-
What compiling a tree of families comes to, if it succeeds.

Every node is compiled once, with what the declared nodes above it hand down, and is found under the folded segments of
its path. Children do not overwrite one another: two that fold to one segment are a conflict, and then there is no
compiled tree.

Main results: `compile_eq_ok` (what a compiled node consists of), `compileChildren_find?` (each child is compiled and
found), `find?_compile` (each node below is compiled and found), `exists_compile_of_find?` (no other is found),
`exists_nodeFamily_of_find?` (what the family at a path is compiled from), `familyCount_compile` (as many families as
declared nodes).
-/
import PixelAudit.Catalog.Compiled
import PixelAudit.Proofs.Catalog.Tree
import Mathlib.Tactic

namespace PixelAudit

/-- the definitions on the way to the end of a path, its own aside, topmost first -/
def Node.above (n : Node) (path : List String) : List PixelDefinition := path.inits.dropLast.filterMap n.definition?

theorem Node.above_cons (n : Node) (segment : String) (rest : List String) :
    n.above (segment :: rest) =
      n.definition.toList ++ ((n.child? segment).elim [] fun child => child.above rest) := by
  have hinits : rest.inits.map (fun t => segment :: t) ≠ [] := by
    rw [Ne, List.map_eq_nil_iff]
    exact List.ne_nil_of_mem ((List.mem_inits [] rest).2 (List.nil_prefix))
  have hroot : n.definition? [] = n.definition := rfl
  rw [above, List.inits_cons, List.dropLast_cons_of_ne_nil hinits, ← List.map_dropLast, List.filterMap_cons, hroot,
    List.filterMap_map]
  have hbelow : rest.inits.dropLast.filterMap (n.definition? ∘ fun t => segment :: t) =
      (n.child? segment).elim [] fun child => child.above rest := by
    cases hchild : n.child? segment with
    | none =>
      refine List.filterMap_eq_nil_iff.2 fun t _ => ?_
      rw [Function.comp_apply, definition?_cons, hchild, Option.bind_none]
    | some child =>
      refine List.filterMap_congr fun t _ => ?_
      rw [Function.comp_apply, definition?_cons, hchild, Option.bind_some]
  rw [hbelow]
  cases n.definition <;> rfl

namespace CompiledNode

/-- the node at the end of a path -/
def find? (n : CompiledNode) : List String → Option CompiledNode
  | [] => some n
  | segment :: rest => (Entries.find? segment n.children).bind fun child => child.find? rest

variable {ctx : CompileContext} {path : String} {inherited scope : Inherited}

/-- the family of a node, if it is declared -/
def nodeFamily (ctx : CompileContext) (path : String) (inherited : Inherited) :
    Option PixelDefinition → Except AuditError (Option PixelFamily)
  | some d => (compileFamily ctx path (inherited.extend d) d).map some
  | none => .ok none

theorem nodeFamily_some {d : PixelDefinition} {family : Option PixelFamily}
    (h : nodeFamily ctx path inherited (some d) = .ok family) :
    ∃ f, compileFamily ctx path (inherited.extend d) d = .ok f ∧ family = some f := by
  simp only [nodeFamily] at h
  cases hfamily : compileFamily ctx path (inherited.extend d) d with
  | error e => rw [hfamily] at h; cases h
  | ok f =>
    rw [hfamily] at h
    exact ⟨f, rfl, (Except.ok.inj h).symm⟩

theorem isSome_of_nodeFamily {o : Option PixelDefinition} {family : Option PixelFamily}
    (h : nodeFamily ctx path inherited o = .ok family) : family.isSome = o.isSome := by
  cases o with
  | none =>
    obtain rfl : none = family := by simpa [nodeFamily] using h
    rfl
  | some d =>
    obtain ⟨f, -, rfl⟩ := nodeFamily_some h
    rfl

/-- the family of a declared node -/
theorem compileFamily_eq_ok {ctx : CompileContext} {path : String} {scope : Inherited} {d : PixelDefinition}
    {family : PixelFamily} (h : compileFamily ctx path scope d = .ok family) :
    family.name = path ∧ family.owners = d.owners ∧
      FamilySchema.compile scope.params scope.suffixes ctx = .ok family.schema := by
  unfold compileFamily at h
  split at h
  · cases h
  · rename_i schema hschema
    obtain rfl : _ = family := Except.ok.inj h
    exact ⟨rfl, rfl, hschema⟩

theorem compile_eq (ctx : CompileContext) (path : String) (inherited : Inherited) (n : Node) :
    compile ctx path inherited n = (do
      let family ← nodeFamily ctx path inherited n.definition
      let compiled ← compileChildren ctx path (inherited.through n.definition) n.children [] n.children
      return ⟨compiled, family⟩) := by
  obtain ⟨children, definition, origin⟩ := n
  cases definition <;> rfl

/-- a compiled node has its own family and its compiled children -/
theorem compile_eq_ok {n : Node} {m : CompiledNode} (h : compile ctx path inherited n = .ok m) :
    nodeFamily ctx path inherited n.definition = .ok m.family ∧
      compileChildren ctx path (inherited.through n.definition) n.children [] n.children = .ok m.children := by
  obtain ⟨children, definition, origin⟩ := n
  rw [compile_eq] at h
  dsimp only at h ⊢
  cases hfamily : nodeFamily ctx path inherited definition with
  | error e => rw [hfamily] at h; cases h
  | ok family =>
    rw [hfamily] at h
    cases hchildren : compileChildren ctx path (inherited.through definition) children [] children with
    | error e => rw [hchildren] at h; cases h
    | ok compiled =>
      rw [hchildren] at h
      obtain rfl : (⟨compiled, family⟩ : CompiledNode) = m := by
        simpa [bind, Except.bind, pure, Except.pure] using h
      exact ⟨rfl, rfl⟩

theorem build_eq_ok {root : Node} {ctx : CompileContext} {compiled : CompiledCatalog}
    (h : CompiledCatalog.build root ctx = .ok compiled) :
    ∃ m, compile ctx "" { minVersion := ctx.minVersion } root = .ok m ∧ compiled = ⟨m, ctx.forceLowerCase⟩ := by
  unfold CompiledCatalog.build at h
  cases hm : compile ctx "" { minVersion := ctx.minVersion } root with
  | error e => rw [hm] at h; cases h
  | ok m =>
    rw [hm] at h
    exact ⟨m, rfl, (Except.ok.inj h).symm⟩

theorem exists_build (root : Node) (ctx : CompileContext) (h : (CompiledCatalog.build root ctx).isOk = true) :
    ∃ compiled, CompiledCatalog.build root ctx = .ok compiled := by
  cases hbuild : CompiledCatalog.build root ctx with
  | error e => rw [hbuild] at h; cases h
  | ok compiled => exact ⟨compiled, rfl⟩

/-- what is computed from a compiled tree shows that there is one -/
theorem exists_build_of_map {α : Type} {root : Node} {ctx : CompileContext} {f : CompiledCatalog → α} {answer : α}
    (h : (CompiledCatalog.build root ctx).toOption.map f = some answer) :
    ∃ compiled, CompiledCatalog.build root ctx = .ok compiled ∧ f compiled = answer :=
  exists_ok_of_map h

/-! ## Children -/

section children

variable {siblings : List (String × Node)} {done compiled : List (String × CompiledNode)}
  {children : List (String × Node)}

/-- a child is compiled, no child before it folds to its segment, and the rest follows -/
theorem compileChildren_cons_eq_ok {segment : String} {child : Node} {rest : List (String × Node)}
    (h : compileChildren ctx path scope siblings done ((segment, child) :: rest) = .ok compiled) :
    ∃ m, compile ctx (childPath path segment) scope child = .ok m ∧ Entries.find? (ctx.fold segment) done = none ∧
      compileChildren ctx path scope siblings (Entries.insert (ctx.fold segment) m done) rest = .ok compiled := by
  unfold compileChildren at h
  cases hchild : compile ctx (childPath path segment) scope child with
  | error e => rw [hchild] at h; cases h
  | ok m =>
    rw [hchild] at h
    cases hfree : Entries.find? (ctx.fold segment) done with
    | some k => simp [bind, Except.bind, hfree, throw, throwThe, MonadExceptOf.throw] at h
    | none => exact ⟨m, rfl, rfl, by simpa [bind, Except.bind, hfree, pure, Except.pure] using h⟩

/-- what has been compiled stays -/
theorem find?_of_done (h : compileChildren ctx path scope siblings done children = .ok compiled) {key : String}
    {m : CompiledNode} (hm : Entries.find? key done = some m) : Entries.find? key compiled = some m := by
  induction children generalizing done with
  | nil =>
    obtain rfl : done = compiled := by simpa [compileChildren] using h
    exact hm
  | cons c rest ih =>
    obtain ⟨segment, child⟩ := c
    obtain ⟨k, -, hfree, hrest⟩ := compileChildren_cons_eq_ok h
    refine ih hrest ?_
    rw [Entries.find?_insert, if_neg, hm]
    rintro rfl
    rw [hfree] at hm
    cases hm

/-- each child is compiled, and is found under its folded segment -/
theorem compileChildren_find? (h : compileChildren ctx path scope siblings done children = .ok compiled)
    {c : String × Node} (hc : c ∈ children) :
    ∃ m, compile ctx (childPath path c.1) scope c.2 = .ok m ∧ Entries.find? (ctx.fold c.1) compiled = some m := by
  induction children generalizing done with
  | nil => cases hc
  | cons head rest ih =>
    obtain ⟨segment, child⟩ := head
    obtain ⟨m, hm, -, hrest⟩ := compileChildren_cons_eq_ok h
    rcases List.mem_cons.1 hc with rfl | hc
    · exact ⟨m, hm, find?_of_done hrest (by rw [Entries.find?_insert, if_pos rfl])⟩
    · exact ih hrest hc

/-- and nothing else is found -/
theorem exists_child_of_find? (h : compileChildren ctx path scope siblings done children = .ok compiled) {key : String}
    {m : CompiledNode} (hm : Entries.find? key compiled = some m) :
    Entries.find? key done = some m ∨
      ∃ c ∈ children, ctx.fold c.1 = key ∧ compile ctx (childPath path c.1) scope c.2 = .ok m := by
  induction children generalizing done with
  | nil =>
    obtain rfl : done = compiled := by simpa [compileChildren] using h
    exact Or.inl hm
  | cons c rest ih =>
    obtain ⟨segment, child⟩ := c
    obtain ⟨k, hk, -, hrest⟩ := compileChildren_cons_eq_ok h
    rcases ih hrest with hdone | ⟨d, hd, hfold, hcompile⟩
    · rw [Entries.find?_insert] at hdone
      split_ifs at hdone with hkey
      · obtain rfl : k = m := by simpa using hdone
        exact Or.inr ⟨_, List.mem_cons_self, hkey, hk⟩
      · exact Or.inl hdone
    · exact Or.inr ⟨d, List.mem_cons_of_mem _ hd, hfold, hcompile⟩

/-- the compiled children add their families to those that have been compiled -/
theorem sum_compileChildren (h : compileChildren ctx path scope siblings done children = .ok compiled)
    (hdone : Entries.Sorted done)
    (hcount : ∀ c ∈ children, ∀ p m, compile ctx p scope c.2 = .ok m → m.familyCount = c.2.terminalCount) :
    (compiled.map fun e => e.2.familyCount).sum =
      (done.map fun e => e.2.familyCount).sum + (children.map fun c => c.2.terminalCount).sum := by
  induction children generalizing done with
  | nil =>
    obtain rfl : done = compiled := by simpa [compileChildren] using h
    simp
  | cons c rest ih =>
    obtain ⟨segment, child⟩ := c
    obtain ⟨m, hm, hfree, hrest⟩ := compileChildren_cons_eq_ok h
    have hsum := @Entries.sum_insert CompiledNode familyCount (ctx.fold segment) m done hdone
    have htail := ih hrest (Entries.sorted_insert hdone) fun c hc => hcount c (List.mem_cons_of_mem _ hc)
    have hm := hcount _ List.mem_cons_self _ m hm
    rw [hfree] at hsum
    simp only [Option.elim_none, Nat.add_zero, List.map_cons, List.sum_cons] at hsum hm ⊢
    omega

end children

/-! ## Nodes below -/

theorem familyCountList_eq (children : List (String × CompiledNode)) :
    familyCountList children = (children.map fun c => c.2.familyCount).sum := by
  induction children with
  | nil => rfl
  | cons c cs ih => simp [familyCountList, ih]

/-- there are as many families as declared nodes -/
theorem familyCount_compile {n : Node} {m : CompiledNode} (h : compile ctx path inherited n = .ok m) :
    m.familyCount = n.terminalCount := by
  induction n using Node.induct generalizing path inherited m with
  | h n ih =>
    obtain ⟨hfamily, hchildren⟩ := compile_eq_ok h
    have hsum := sum_compileChildren hchildren List.Pairwise.nil fun c hc p k hk => ih c hc hk
    have hsome := isSome_of_nodeFamily hfamily
    obtain ⟨compiled, family⟩ := m
    rw [familyCount, familyCountList_eq, Node.terminalCount_eq, hsum]
    simp_all

/-- what is handed down on a path through a child has passed through the node first -/
theorem foldl_above_cons {n child : Node} {segment : String} (hchild : n.child? segment = some child)
    {rest : List String} : (n.above (segment :: rest)).foldl Inherited.extend inherited =
      (child.above rest).foldl Inherited.extend (inherited.through n.definition) := by
  rw [Node.above_cons, hchild, List.foldl_append]
  cases n.definition <;> rfl

/-- a node is compiled with what the declared nodes above it hand down, and is found under its folded path -/
theorem find?_compile {n k : Node} {m : CompiledNode} {segments : List String}
    (h : compile ctx path inherited n = .ok m) (hk : n.find? segments = some k) :
    ∃ l, compile ctx (segments.foldl childPath path) ((n.above segments).foldl Inherited.extend inherited) k =
        .ok l ∧ m.find? (segments.map ctx.fold) = some l := by
  -- along the path the name grows, and what is handed down grows at every declared node
  induction segments generalizing n m path inherited with
  | nil =>
    obtain rfl : n = k := by simpa [Node.find?] using hk
    exact ⟨m, h, rfl⟩
  | cons segment rest ih =>
    obtain ⟨-, hchildren⟩ := compile_eq_ok h
    rw [Node.find?_cons] at hk
    obtain ⟨child, hchild, hk⟩ := Option.bind_eq_some_iff.1 hk
    obtain ⟨compiled, hcompiled, hfind⟩ := compileChildren_find? hchildren (Node.mem_of_child? hchild)
    obtain ⟨l, hl, hlfind⟩ := ih hcompiled hk
    refine ⟨l, by rwa [foldl_above_cons hchild, List.foldl_cons], ?_⟩
    rw [List.map_cons, find?, hfind, Option.bind_some, hlfind]

/-- a compiled node was compiled from a node whose path folds to its own -/
theorem exists_compile_of_find? {n : Node} {m l : CompiledNode} {segments : List String} (hn : n.Ordered)
    (h : compile ctx path inherited n = .ok m) (hl : m.find? segments = some l) :
    ∃ declared k handed, n.find? declared = some k ∧ declared.map ctx.fold = segments ∧
      compile ctx (declared.foldl childPath path) handed k = .ok l := by
  induction segments generalizing n m path inherited with
  | nil =>
    obtain rfl : m = l := by simpa [find?] using hl
    exact ⟨[], n, inherited, rfl, rfl, h⟩
  | cons segment rest ih =>
    obtain ⟨-, hchildren⟩ := compile_eq_ok h
    obtain ⟨compiled, hcompiled, hbelow⟩ := Option.bind_eq_some_iff.1 hl
    rcases exists_child_of_find? hchildren hcompiled with hdone | ⟨c, hc, hfold, hcompile⟩
    · cases hdone
    · obtain ⟨declared, k, handed, hk, hrest, hcompile⟩ := ih (hn.child hc) hcompile hbelow
      refine ⟨c.1 :: declared, k, handed, ?_, by rw [List.map_cons, hfold, hrest], hcompile⟩
      rw [hn.find?_cons_of_mem hc, hk]

/-- the family at a path is compiled from the definition there and from those above it -/
theorem exists_nodeFamily_of_find? {n : Node} {m : CompiledNode} {segments : List String}
    (h : compile ctx path inherited n = .ok m) (hnode : (n.find? segments).isSome) :
    ∃ l, m.find? (segments.map ctx.fold) = some l ∧
      nodeFamily ctx (segments.foldl childPath path) ((n.above segments).foldl Inherited.extend inherited)
        (n.definition? segments) = .ok l.family := by
  obtain ⟨k, hk⟩ := Option.isSome_iff_exists.1 hnode
  obtain ⟨l, hcompile, hl⟩ := find?_compile h hk
  refine ⟨l, hl, ?_⟩
  rw [Node.definition?, hk, Option.bind_some]
  exact (compile_eq_ok hcompile).1

/-- a family of a compiled tree was compiled from a definition -/
theorem exists_compileFamily_of_find? {n : Node} {m l : CompiledNode} {segments : List String}
    (h : compile ctx path inherited n = .ok m) (hl : m.find? segments = some l) {family : PixelFamily}
    (hfamily : l.family = some family) : ∃ path scope d, compileFamily ctx path scope d = .ok family := by
  induction segments generalizing n m path inherited with
  | nil =>
    obtain rfl : m = l := by simpa [find?] using hl
    have hnode := (compile_eq_ok h).1
    rw [hfamily] at hnode
    obtain ⟨d, hd⟩ := Option.isSome_iff_exists.1 (isSome_of_nodeFamily hnode).symm
    rw [hd] at hnode
    obtain ⟨f, hcompiled, hf⟩ := nodeFamily_some hnode
    obtain rfl := Option.some.inj hf
    exact ⟨_, _, d, hcompiled⟩
  | cons segment rest ih =>
    obtain ⟨child, hchild, hbelow⟩ := Option.bind_eq_some_iff.1 hl
    rcases exists_child_of_find? (compile_eq_ok h).2 hchild with hdone | ⟨c, -, -, hcompile⟩
    · cases hdone
    · exact ih hcompile hbelow

theorem fold_eq (hcase : ctx.forceLowerCase = false) (s : String) : ctx.fold s = s := by
  simp [CompileContext.fold, foldText, hcase]

theorem map_fold (hcase : ctx.forceLowerCase = false) (segments : List String) : segments.map ctx.fold = segments := by
  rw [List.map_congr_left fun s _ => fold_eq hcase s, List.map_id']

/-- without folding, a compiled node stands only where a node stood -/
theorem exists_of_find?_compile (hcase : ctx.forceLowerCase = false) {n : Node} {m l : CompiledNode}
    {segments : List String} (hn : n.Ordered) (h : compile ctx path inherited n = .ok m)
    (hl : m.find? segments = some l) : ∃ k, n.find? segments = some k := by
  obtain ⟨declared, k, -, hk, rfl, -⟩ := exists_compile_of_find? hn h hl
  rw [map_fold hcase]
  exact ⟨k, hk⟩

end CompiledNode

end PixelAudit
