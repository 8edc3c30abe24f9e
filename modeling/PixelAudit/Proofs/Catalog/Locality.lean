/-
What another family changes for events of other names.

A family that is declared later makes nodes on its own path and a definition at the end of it. So a look-up goes farther
than before only if the name has more segments of that path than it had nodes for, and what it finds has another
definition, or one more above it, only if the path of the new family leads to it. An event of any other name is judged
as it was. The rule for folding is left out: with it two names may fold to one, and then the catalogs are in conflict.

Main results: `nodeFamily_of_find?` (what a family is compiled from), `lookup_insert` (look-ups before and after an
insertion), `judge_addSource` (the verdicts).
-/
import PixelAudit.Proofs.Audit.Classification
import Mathlib.Tactic

namespace PixelAudit

open Text (pieces)

/-! ## Insertions -/

namespace CompiledNode

variable {ctx : CompileContext} {inherited : Inherited} {root grown : Node} {m m' : CompiledNode}
  {definition : PixelDefinition} {origin : String} {declared path : List String} {added : Bool}

/-- without folding, a family is compiled from the definition at its path and from those above it -/
theorem nodeFamily_of_find? (hcase : ctx.forceLowerCase = false) (hroot : root.Ordered)
    (h : compile ctx "" inherited root = .ok m) {l : CompiledNode} (hl : m.find? path = some l) :
    nodeFamily ctx (path.foldl childPath "") ((root.above path).foldl Inherited.extend inherited)
      (root.definition? path) = .ok l.family := by
  obtain ⟨k, hk⟩ := exists_of_find?_compile hcase hroot h hl
  obtain ⟨l', hl', hfamily⟩ := exists_nodeFamily_of_find? h (by rw [hk]; rfl)
  rw [map_fold hcase, hl] at hl'
  obtain rfl := Option.some.inj hl'
  exact hfamily

/-- a family stays what it was if a definition is put under a path that does not lead to it -/
theorem family_insert (hcase : ctx.forceLowerCase = false) (hroot : root.Ordered)
    (hinsert : Node.insert definition origin declared root = .ok (grown, added)) (hapart : ¬ declared <+: path)
    (h : compile ctx "" inherited root = .ok m) (h' : compile ctx "" inherited grown = .ok m') {l l' : CompiledNode}
    (hl : m.find? path = some l) (hl' : m'.find? path = some l') : l'.family = l.family := by
  have hsame : ∀ q, q <+: path → grown.definition? q = root.definition? q := by
    intro q hq
    rw [Node.definition?_insert hinsert, if_neg]
    rintro rfl
    exact hapart hq
  have habove : grown.above path = root.above path := by
    apply List.filterMap_congr
    intro q hq
    exact hsame q ((List.mem_inits _ _).1 (List.dropLast_subset _ hq))
  have hfamily := nodeFamily_of_find? hcase hroot h hl
  have hfamily' := nodeFamily_of_find? hcase (hroot.insert hinsert) h' hl'
  rw [habove, hsame path (List.prefix_refl path), hfamily] at hfamily'
  exact (Except.ok.inj hfamily').symm

end CompiledNode

open CompiledNode

/-- A look-up finds what it found if the name does not go farther along the path of the new definition than the walk
went, and that path does not lead to where the walk ended. -/
theorem CompiledCatalog.lookup_insert {ctx : CompileContext} (hcase : ctx.forceLowerCase = false) {root grown : Node}
    (hroot : root.Ordered) {definition : PixelDefinition} {origin : String} {declared : List String} {added : Bool}
    (hinsert : Node.insert definition origin declared root = .ok (grown, added)) {c c' : CompiledCatalog}
    (hbuild : build root ctx = .ok c) (hbuild' : build grown ctx = .ok c') {name : String}
    (hshared : ∀ shared, shared <+: pieces '.' name → shared <+: declared →
      shared.length ≤ (c.root.trail (pieces '.' name)).length)
    (hapart : ¬ declared <+: c.root.trail (pieces '.' name)) : c'.lookup name = c.lookup name := by
  obtain ⟨m, hcompile, rfl⟩ := build_eq_ok hbuild
  obtain ⟨m', hcompile', rfl⟩ := build_eq_ok hbuild'
  have hfind := (m.walk_trail 0 (pieces '.' name)).1
  have htrail := m.trail_prefix (pieces '.' name)
  -- the nodes of the grown tree are the old ones and those on the new path
  have hnodes : ∀ q, (m'.find? q).isSome ↔ (m.find? q).isSome ∨ q <+: declared := by
    intro q
    rw [find?_isSome_iff hcase (hroot.insert hinsert) hcompile', find?_isSome_iff hcase hroot hcompile,
      Node.find?_insert_isSome hinsert]
  obtain ⟨l', hl'⟩ := Option.isSome_iff_exists.1 ((hnodes _).2 (Or.inl (by rw [hfind]; rfl)))
  have hbefore := lookup_eq_of_longest ⟨m, ctx.forceLowerCase⟩ name htrail hfind
    fun longer hlonger hfound => (prefix_trail hlonger hfound).length_le
  have hafter := lookup_eq_of_longest ⟨m', ctx.forceLowerCase⟩ name htrail hl' fun longer hlonger hfound => by
    rcases (hnodes longer).1 hfound with hold | hnew
    · exact (prefix_trail hlonger hold).length_le
    · exact hshared longer hlonger hnew
  rw [hbefore, hafter, family_insert hcase hroot hinsert hapart hcompile hcompile' hfind hl']

/-! ## Verdicts -/

namespace Catalog

/-- a source of one record that is accepted is one insertion -/
theorem addSource_singleton_eq_ok {c grown : Catalog} {origin name : String} {record : Json} {added : Nat}
    (h : c.addSource origin (.object [(name, record)]) = (grown, .ok added)) :
    ∃ definition isNew, Node.insert definition origin (pieces '.' name) c.root = .ok (grown.root, isNew) := by
  rw [addSource] at h
  obtain ⟨next, isNew, hrecord, hrest⟩ := addRecords_cons_eq_ok h
  obtain rfl : next = grown := (Prod.mk.inj hrest).1
  obtain ⟨-, definition, -, hinsert, -⟩ := addRecord_eq_ok hrecord
  exact ⟨definition, isNew, hinsert⟩

/-- Another family is declared. An event is judged as before if its name does not have more segments in common with the
new family than the walk used of it, and if the new family is neither the one that the walk came to nor above it. -/
theorem judge_addSource (c : Catalog) (hc : c.Reachable) (origin name : String) (record : Json) (grown : Catalog)
    (added : Nat) (hadd : c.addSource origin (.object [(name, record)]) = (grown, .ok added)) (ctx : CompileContext)
    (hcase : ctx.forceLowerCase = false) (compiled compiled' : CompiledCatalog)
    (hbuild : CompiledCatalog.build c.root ctx = .ok compiled)
    (hbuild' : CompiledCatalog.build grown.root ctx = .ok compiled') (versionKey : Option String) (cap : SampleCap)
    (e : RawEvent)
    (hshared : ∀ shared, shared <+: pieces '.' e.pixel → shared <+: pieces '.' name →
      shared.length ≤ (compiled.root.trail (pieces '.' e.pixel)).length)
    (hapart : ¬ pieces '.' name <+: compiled.root.trail (pieces '.' e.pixel)) :
    (Validator.mk compiled' versionKey cap).judge e = (Validator.mk compiled versionKey cap).judge e := by
  obtain ⟨definition, isNew, hinsert⟩ := addSource_singleton_eq_ok hadd
  have hlookup := CompiledCatalog.lookup_insert hcase hc.ordered hinsert hbuild hbuild' hshared hapart
  obtain ⟨m, -, rfl⟩ := build_eq_ok hbuild
  obtain ⟨m', -, rfl⟩ := build_eq_ok hbuild'
  refine @Validator.judge_congr ⟨m', ctx.forceLowerCase⟩ ⟨m, ctx.forceLowerCase⟩ rfl versionKey cap e ?_
  simp only [hcase, foldText] at hlookup ⊢
  exact hlookup

/-- a family with a parameter that has to be there -/
def strictRecord : Json := .object [
  ("owners", .array [.string "t"]), ("parameters", .array [.object [("key", .string "z"), ("required", .bool true)]])]

/-- A family with a stricter rule is declared beside the family of the event, under the same parent. -/
theorem judge_addSource_nested : ∃ grown compiled compiled',
    ((new ∅ ∅).addSources nestedSources).addSource "b.json" (.object [("app.page.close", strictRecord)]) =
        (grown, .ok 1) ∧
      CompiledCatalog.build ((new ∅ ∅).addSources nestedSources).root {} = .ok compiled ∧
      CompiledCatalog.build grown.root {} = .ok compiled' ∧
      (Validator.mk compiled' none default).judge ⟨"app.page.open", "y=1", none⟩ =
        (Validator.mk compiled none default).judge ⟨"app.page.open", "y=1", none⟩ := by
  have hanswer : (((new ∅ ∅).addSources nestedSources).addSource "b.json"
      (.object [("app.page.close", strictRecord)])).2.toOption = some 1 := by decide +kernel
  have hbuilds : (CompiledCatalog.build (((new ∅ ∅).addSources nestedSources).addSource "b.json"
      (.object [("app.page.close", strictRecord)])).1.root {}).isOk = true := by decide +kernel
  obtain ⟨grown, hadd⟩ : ∃ grown, ((new ∅ ∅).addSources nestedSources).addSource "b.json"
      (.object [("app.page.close", strictRecord)]) = (grown, .ok 1) := by
    rcases hsource : ((new ∅ ∅).addSources nestedSources).addSource "b.json"
      (.object [("app.page.close", strictRecord)]) with ⟨grown, fault | count⟩
    · rw [hsource] at hanswer
      cases hanswer
    · rw [hsource] at hanswer
      obtain rfl : count = 1 := Option.some.inj hanswer
      exact ⟨grown, rfl⟩
  rw [hadd] at hbuilds
  obtain ⟨compiled', hbuild'⟩ := exists_build grown.root {} hbuilds
  -- the walk uses the whole name of the event
  have hused : ((CompiledCatalog.build ((new ∅ ∅).addSources nestedSources).root {}).toOption.map fun c =>
      c.root.trail (pieces '.' "app.page.open")) = some ["app", "page", "open"] := by decide +kernel
  obtain ⟨compiled, hbuild, htrail⟩ := exists_build_of_map hused
  have hapart : ¬ pieces '.' "app.page.close" <+: compiled.root.trail (pieces '.' "app.page.open") := by
    rw [htrail]
    decide
  refine ⟨grown, compiled, compiled', hadd, hbuild, hbuild', ?_⟩
  refine judge_addSource _ ⟨∅, ∅, nestedSources, rfl⟩ "b.json" "app.page.close" strictRecord grown 1 hadd {} rfl
    compiled compiled' hbuild hbuild' none default _ ?_ hapart
  intro shared _ hshared
  rw [htrail]
  exact hshared.length_le

end Catalog

end PixelAudit
