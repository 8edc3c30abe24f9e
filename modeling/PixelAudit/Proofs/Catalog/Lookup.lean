/-
Looking up the family of an event by the name of the event.

The walk down the compiled tree goes as far as the segments of the name are the leading segments of some declared name,
and no farther. The family is the one declared under just these segments, if there is one; a family with a shorter name
does not count. What is left of the name is the other segments: the walk counts bytes, and these are the bytes of the
segments and of the points after them.

Main results: `CompiledNode.walk_trail` and `prefix_trail` (how far the walk goes, and the bytes it counts),
`CompiledCatalog.lookup_leadsTo` (what the look-up finds), `Catalog.lookup_longest` (the look-up, over the declared
names).
-/
import PixelAudit.Proofs.Catalog.Inheritance
import Mathlib.Tactic
import Mathlib.Order.Bounds.Basic

namespace PixelAudit

open Text (pieces joined segmentBytes)

namespace CompiledNode

/-- the leading segments that the walk uses -/
def trail (n : CompiledNode) : List String → List String
  | [] => []
  | segment :: rest =>
    match Entries.find? segment n.children with
    | some child => segment :: child.trail rest
    | none => []

/-- the walk ends at the node under its trail, with the bytes of it -/
theorem walk_trail (n : CompiledNode) (used : Nat) (segments : List String) :
    n.find? (n.trail segments) = some (n.walk used segments).1 ∧
      (n.walk used segments).2 = used + segmentBytes (n.trail segments) := by
  induction segments generalizing n used with
  | nil => exact ⟨rfl, rfl⟩
  | cons segment rest ih =>
    cases hchild : Entries.find? segment n.children with
    | none => simp [trail, walk, hchild, find?, segmentBytes]
    | some child =>
      obtain ⟨hfind, hbytes⟩ := ih child (used + segment.utf8ByteSize + 1)
      constructor
      · simp only [trail, walk, hchild, find?, Option.bind_some, hfind]
      · simp only [trail, walk, hchild, hbytes, segmentBytes, List.map_cons, List.sum_cons]
        omega

theorem trail_prefix (n : CompiledNode) (segments : List String) : n.trail segments <+: segments := by
  induction segments generalizing n with
  | nil => exact List.prefix_refl []
  | cons segment rest ih =>
    cases hchild : Entries.find? segment n.children with
    | none => simp [trail, hchild]
    | some child => simpa [trail, hchild] using ih child

/-- leading segments under which there is a node are used -/
theorem prefix_trail {n : CompiledNode} {segments path : List String} (hpath : path <+: segments)
    (hfound : (n.find? path).isSome) : path <+: n.trail segments := by
  induction segments generalizing n path with
  | nil =>
    rw [List.prefix_nil.1 hpath]
    exact List.nil_prefix
  | cons segment rest ih =>
    cases path with
    | nil => exact List.nil_prefix
    | cons first path =>
      obtain ⟨rfl, hrest⟩ := List.cons_prefix_cons.1 hpath
      obtain ⟨node, hnode⟩ := Option.isSome_iff_exists.1 hfound
      obtain ⟨child, hchild, hbelow⟩ := Option.bind_eq_some_iff.1 hnode
      have htail := @ih child path hrest (by rw [hbelow]; rfl)
      simpa [trail, hchild] using htail

/-- without folding, the compiled tree has the nodes of the tree -/
theorem find?_isSome_iff {ctx : CompileContext} {path : String} {inherited : Inherited} {n : Node} {m : CompiledNode}
    (hcase : ctx.forceLowerCase = false) (hn : n.Ordered) (h : compile ctx path inherited n = .ok m)
    (segments : List String) : (m.find? segments).isSome ↔ (n.find? segments).isSome := by
  constructor
  · intro hfound
    obtain ⟨l, hl⟩ := Option.isSome_iff_exists.1 hfound
    obtain ⟨k, hk⟩ := exists_of_find?_compile hcase hn h hl
    rw [hk]
    rfl
  · intro hfound
    obtain ⟨k, hk⟩ := Option.isSome_iff_exists.1 hfound
    obtain ⟨l, -, hl⟩ := find?_compile h hk
    rw [map_fold hcase] at hl
    rw [hl]
    rfl

end CompiledNode

/-- the deepest node under leading segments of a name, and the segments after these, joined again -/
def CompiledCatalog.LeadsTo (c : CompiledCatalog) (name : String) (node : CompiledNode) (remainder : String) : Prop :=
  ∃ k, IsGreatest {j | j ≤ (pieces '.' name).length ∧ (c.root.find? ((pieces '.' name).take j)).isSome} k ∧
    c.root.find? ((pieces '.' name).take k) = some node ∧ remainder = joined '.' ((pieces '.' name).drop k)

/-- the look-up finds what the deepest node holds -/
theorem CompiledCatalog.lookup_leadsTo (c : CompiledCatalog) (name : String) :
    ∃ node, c.LeadsTo name node (c.lookup name).remainder ∧ (c.lookup name).family = node.family := by
  obtain ⟨hfind, hbytes⟩ := c.root.walk_trail 0 (pieces '.' name)
  have hprefix := c.root.trail_prefix (pieces '.' name)
  have htake := List.prefix_iff_eq_take.1 hprefix
  generalize hk : (c.root.trail (pieces '.' name)).length = k at htake
  rw [htake] at hfind hbytes
  have hgreatest : IsGreatest {j | j ≤ (pieces '.' name).length ∧
      (c.root.find? ((pieces '.' name).take j)).isSome} k := by
    refine ⟨⟨hk ▸ hprefix.length_le, by rw [hfind]; rfl⟩, ?_⟩
    rintro j ⟨hj, hfound⟩
    have hused := (CompiledNode.prefix_trail (List.take_prefix j _) hfound).length_le
    rwa [List.length_take, min_eq_left hj, hk] at hused
  have hrest := Text.fromByte?_joined '.' (by decide) ((pieces '.' name).take k) ((pieces '.' name).drop k)
  rw [List.take_append_drop, Text.joined_pieces] at hrest
  have hremainder : (c.lookup name).remainder =
      String.ofList ((Text.fromByte? (c.root.walk 0 (pieces '.' name)).2 name.toList).getD []) := rfl
  rw [hbytes, Nat.zero_add, hrest, String.ofList_toList] at hremainder
  exact ⟨_, ⟨k, hgreatest, hfind, hremainder⟩, rfl⟩

/-- what the look-up finds, from the longest row of leading segments that has a node -/
theorem CompiledCatalog.lookup_eq_of_longest (c : CompiledCatalog) (name : String) {path : List String}
    {node : CompiledNode} (hpath : path <+: pieces '.' name) (hnode : c.root.find? path = some node)
    (hmost : ∀ longer, longer <+: pieces '.' name → (c.root.find? longer).isSome → longer.length ≤ path.length) :
    c.lookup name = ⟨node.family, joined '.' ((pieces '.' name).drop path.length)⟩ := by
  obtain ⟨l, ⟨k, hk, hl, hremainder⟩, hfamily⟩ := c.lookup_leadsTo name
  have htake := List.prefix_iff_eq_take.1 hpath
  -- the path is the longest, so it has as many segments as the walk used
  have hlength : k = path.length := by
    apply le_antisymm
    · have hmost := hmost _ (List.take_prefix k _) hk.1.2
      rwa [List.length_take, min_eq_left hk.1.1] at hmost
    · exact hk.2 ⟨hpath.length_le, by rw [← htake, hnode]; rfl⟩
  rw [hlength, ← htake, hnode] at hl
  obtain rfl := Option.some.inj hl
  rw [← hfamily, ← hlength, ← hremainder]

namespace Catalog

open CompiledNode

/-- so many leading segments are also the leading segments of a declared name -/
def Shared (declared : Dict PixelDefinition) (segments : List String) (j : Nat) : Prop :=
  j ≤ segments.length ∧ (j = 0 ∨ ∃ name d, declared.find? name = some d ∧ segments.take j <+: pieces '.' name)

section compiled

variable {declared : Dict PixelDefinition} {root : Node} {ctx : CompileContext} {inherited : Inherited}
  {m : CompiledNode}

/-- the shared leading segments are those that the compiled tree has nodes for -/
theorem shared_iff (hholds : root.Holds declared) (hcase : ctx.forceLowerCase = false)
    (hcompile : compile ctx "" inherited root = .ok m) {segments : List String} (hne : segments ≠ []) (j : Nat) :
    Shared declared segments j ↔ j ≤ segments.length ∧ (m.find? (segments.take j)).isSome := by
  rw [find?_isSome_iff hcase hholds.ordered hcompile, hholds.find?_isSome_iff, List.take_eq_nil_iff,
    or_iff_left hne, Shared]

/-- the name of the family at a path is the path, joined, and it is declared -/
theorem name_of_nodeFamily (hholds : root.Holds declared) {path : List String}
    (hfree : ∀ p ∈ path, '.' ∉ p.toList) {family : PixelFamily}
    (h : nodeFamily ctx (path.foldl childPath "") inherited (declared.find? (joined '.' path)) = .ok (some family)) :
    family.name = joined '.' path := by
  obtain ⟨d, hd⟩ := Option.isSome_iff_exists.1 (isSome_of_nodeFamily h).symm
  rw [hd] at h
  obtain ⟨f, hcompiled, hf⟩ := nodeFamily_some h
  obtain rfl : family = f := Option.some.inj hf
  rw [(compileFamily_eq_ok hcompiled).1, foldl_childPath (hholds.full_of_declared hfree hd).2]

end compiled

/-- An event has a family exactly if the longest row of its leading segments that some declared name shares is itself a
declared name. That is then its family, and the other segments are what remains of its name. -/
theorem lookup_longest (commonParams : ParamCatalog) (commonSuffixes : SuffixCatalog) (sources : List Source)
    (ctx : CompileContext) (compiled : CompiledCatalog) (hcase : ctx.forceLowerCase = false)
    (hbuild : CompiledCatalog.build ((new commonParams commonSuffixes).addSources sources).root ctx = .ok compiled)
    (pixel : String) :
    ∃ k, IsGreatest {j | Shared (declared commonParams commonSuffixes sources) (pieces '.' pixel) j} k ∧
      ((compiled.lookup pixel).family.isSome = true ↔ 1 ≤ k ∧
        (declared commonParams commonSuffixes sources).contains (joined '.' ((pieces '.' pixel).take k)) = true) ∧
      (∀ family, (compiled.lookup pixel).family = some family →
        family.name = joined '.' ((pieces '.' pixel).take k)) ∧
      (compiled.lookup pixel).remainder = joined '.' ((pieces '.' pixel).drop k) := by
  have hholds := addSources_holds commonParams commonSuffixes sources
  generalize ((new commonParams commonSuffixes).addSources sources).root = root at hbuild hholds
  generalize declared commonParams commonSuffixes sources = declared at hholds ⊢
  obtain ⟨m, hcompile, rfl⟩ := build_eq_ok hbuild
  obtain ⟨l, ⟨k, hgreatest, hfind, hremainder⟩, hlookup⟩ :=
    CompiledCatalog.lookup_leadsTo ⟨m, ctx.forceLowerCase⟩ pixel
  have hshared : {j | Shared declared (pieces '.' pixel) j} =
      {j | j ≤ (pieces '.' pixel).length ∧ (m.find? ((pieces '.' pixel).take j)).isSome} :=
    Set.ext fun j => shared_iff hholds hcase hcompile (Text.pieces_ne_nil '.' pixel) j
  refine ⟨k, hshared ▸ hgreatest, ?_⟩
  have hfree : ∀ p ∈ (pieces '.' pixel).take k, '.' ∉ p.toList := fun p hp =>
    Text.not_mem_of_mem_pieces '.' (List.mem_of_mem_take hp)
  -- the node that the walk ends at was compiled from the node under the same segments
  have hnode := (find?_isSome_iff hcase hholds.ordered hcompile _).1 hgreatest.1.2
  obtain ⟨l', hl, hfamily⟩ := hholds.family_at hcompile hfree hnode
  rw [map_fold hcase, hfind] at hl
  obtain rfl : l = l' := Option.some.inj hl
  rw [← hlookup] at hfamily
  refine ⟨?_, fun family hsome => ?_, hremainder⟩
  · have hdeclared : (CompiledCatalog.lookup ⟨m, ctx.forceLowerCase⟩ pixel).family.isSome =
        declared.contains (joined '.' ((pieces '.' pixel).take k)) := isSome_of_nodeFamily hfamily
    rw [hdeclared]
    refine ⟨fun hcontains => ⟨?_, hcontains⟩, fun h => h.2⟩
    obtain ⟨d, hd⟩ := Option.isSome_iff_exists.1 hcontains
    have hne := (hholds.full_of_declared hfree hd).1
    exact Nat.one_le_iff_ne_zero.2 fun hzero => hne (by rw [hzero, List.take_zero])
  · rw [hsome] at hfamily
    exact name_of_nodeFamily hholds hfree hfamily

theorem lookup_longest_nested : ∃ compiled,
    CompiledCatalog.build ((new ∅ ∅).addSources nestedSources).root {} = .ok compiled ∧
      ∃ k, IsGreatest {j | Shared (declared ∅ ∅ nestedSources) (pieces '.' "app.page.close") j} k ∧
        (compiled.lookup "app.page.close").remainder = joined '.' ((pieces '.' "app.page.close").drop k) := by
  obtain ⟨compiled, hbuild⟩ := exists_build ((new ∅ ∅).addSources nestedSources).root {} (by decide +kernel)
  obtain ⟨k, hk, -, -, hremainder⟩ := lookup_longest ∅ ∅ nestedSources {} compiled rfl hbuild "app.page.close"
  exact ⟨compiled, hbuild, k, hk, hremainder⟩

end Catalog

end PixelAudit
