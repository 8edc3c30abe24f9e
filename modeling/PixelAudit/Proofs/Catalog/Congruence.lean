/-
Alike trees are compiled alike.

Two trees are alike if they have the same nodes, and alike definitions in the same places; where the definitions come
from does not count. Since children stand in order, alike trees have the same children one by one, and so they are
compiled side by side: they are refused together, or every family of one has its like in the other.

Main results: `Entries.related_of_find?` (tables that give related answers), `CompiledNode.compile_paired` (trees whose
families are related, node by node), `CompiledCatalog.build_agree` (alike trees are compiled alike).
-/
import PixelAudit.Proofs.Catalog.Compiled
import PixelAudit.Proofs.Schema.Congruence
import Mathlib.Tactic

namespace PixelAudit

open AppVersion (SameFloor)

/-! ## Tables -/

/-- what is related may be told where it comes from -/
theorem rel_of_mem {α β : Type} {R S : α → β → Prop} {a : Option α} {b : Option β} (h : Option.Rel R a b)
    (hRS : ∀ x y, a = some x → b = some y → R x y → S x y) : Option.Rel S a b := by
  cases h with
  | none => exact .none
  | some h => exact .some (hRS _ _ rfl rfl h)

namespace Entries

variable {α β : Type} {R : α → β → Prop} {es : List (String × α)} {fs : List (String × β)}

/-- the same names, with related values -/
def Related (R : α → β → Prop) (es : List (String × α)) (fs : List (String × β)) : Prop :=
  List.Forall₂ (fun e f => e.1 = f.1 ∧ R e.2 f.2) es fs

theorem Related.find? (h : Related R es fs) (key : String) :
    Option.Rel R (Entries.find? key es) (Entries.find? key fs) := by
  induction h with
  | nil => exact .none
  | cons hhead _ ih =>
    simp only [Entries.find?, hhead.1]
    split_ifs
    · exact .some hhead.2
    · exact ih

theorem Related.insert {a : α} {b : β} (h : Related R es fs) (name : String) (hab : R a b) :
    Related R (Entries.insert name a es) (Entries.insert name b fs) := by
  induction h with
  | nil => exact .cons ⟨rfl, hab⟩ .nil
  | @cons e f es fs hhead hrest ih =>
    obtain ⟨key, x⟩ := e
    obtain ⟨key', y⟩ := f
    obtain ⟨rfl, hxy⟩ := hhead
    simp only [Entries.insert]
    split_ifs
    · exact .cons ⟨rfl, hab⟩ (.cons ⟨rfl, hxy⟩ hrest)
    · exact .cons ⟨rfl, hab⟩ hrest
    · exact .cons ⟨rfl, hxy⟩ ih

/-- tables in order that give related answers have related entries -/
theorem related_of_find? (he : Sorted es) (hf : Sorted fs)
    (h : ∀ key, Option.Rel R (Entries.find? key es) (Entries.find? key fs)) : Related R es fs := by
  induction es generalizing fs with
  | nil =>
    cases fs with
    | nil => exact .nil
    | cons f fs => simpa [Entries.find?] using isSome_of_rel (h f.1)
  | cons e es ih =>
    cases fs with
    | nil => simpa [Entries.find?] using isSome_of_rel (h e.1)
    | cons f fs =>
      obtain ⟨key, a⟩ := e
      obtain ⟨key', b⟩ := f
      obtain ⟨hes, hetail⟩ := List.pairwise_cons.1 he
      obtain ⟨hfs, hftail⟩ := List.pairwise_cons.1 hf
      -- of two different first names the smaller one would have no counterpart
      have hkey : key = key' := by
        have h1 := isSome_of_rel (h key)
        have h2 := isSome_of_rel (h key')
        have n1 := @find?_eq_none_of_lt β key fs
        have n2 := @find?_eq_none_of_lt α key' es
        grind [Entries.find?]
      subst hkey
      have hfirst := h key
      simp only [Entries.find?, if_pos] at hfirst
      cases hfirst with
      | some hab =>
        refine .cons ⟨rfl, hab⟩ (ih hetail hftail fun name => ?_)
        by_cases hname : key = name
        · subst hname
          rw [find?_eq_none_of_lt hes, find?_eq_none_of_lt hfs]
          exact .none
        · have hrest := h name
          simpa only [Entries.find?, if_neg hname] using hrest

end Entries

/-! ## Trees -/

/-- the same nodes, with alike definitions -/
structure Node.Alike (n m : Node) : Prop where
  paths : ∀ path, (n.find? path).isSome ↔ (m.find? path).isSome
  definitions : ∀ path, Option.Rel PixelDefinition.Alike (n.definition? path) (m.definition? path)

theorem Node.Alike.child? {n m : Node} (h : n.Alike m) (segment : String) :
    Option.Rel Node.Alike (n.child? segment) (m.child? segment) := by
  have hpaths := fun rest => h.paths (segment :: rest)
  have hdefinitions := fun rest => h.definitions (segment :: rest)
  simp only [find?_cons, definition?_cons] at hpaths hdefinitions
  cases hn : n.child? segment with
  | none =>
    cases hm : m.child? segment with
    | none => exact .none
    | some k => simpa [hn, hm, find?] using hpaths []
  | some c =>
    cases hm : m.child? segment with
    | none => simpa [hn, hm, find?] using hpaths []
    | some k =>
      simp only [hn, hm, Option.bind_some] at hpaths hdefinitions
      exact .some ⟨hpaths, hdefinitions⟩

/-- alike things are handed down -/
structure Inherited.Alike (i j : Inherited) : Prop where
  params : List.Forall₂ ParamSpec.Alike i.params j.params
  suffixes : i.suffixes = j.suffixes
  minVersion : SameFloor i.minVersion j.minVersion

theorem Inherited.Alike.extend {i j : Inherited} (h : i.Alike j) {d e : PixelDefinition} (hd : d.Alike e) :
    (i.extend d).Alike (j.extend e) where
  params := List.rel_append hd.parameters h.params
  suffixes := by
    have hplain := hd.plain
    rw [PixelDefinition.mk.injEq] at hplain
    rw [Inherited.extend, Inherited.extend, h.suffixes, hplain.2.2.2.2.1]
  minVersion := AppVersion.newer?_congr h.minVersion hd.minVersion

theorem Inherited.Alike.through {i j : Inherited} (h : i.Alike j) {d e : Option PixelDefinition}
    (hd : Option.Rel PixelDefinition.Alike d e) : (i.through d).Alike (j.through e) := by
  cases hd with
  | none => exact h
  | some hd => exact h.extend hd

/-- the same name and owners, the same floor, and alike rules -/
structure PixelFamily.Alike (f g : PixelFamily) : Prop where
  name : f.name = g.name
  owners : f.owners = g.owners
  minVersion : sameOption AppVersion.same f.minVersion g.minVersion = true
  schema : f.schema.Alike g.schema

namespace CompiledNode

/-- the same nodes, with related families -/
def Paired (R : PixelFamily → PixelFamily → Prop) (m n : CompiledNode) : Prop :=
  ∀ path, Option.Rel (fun k l => Option.Rel R k.family l.family) (m.find? path) (n.find? path)

/-- the same nodes, with alike families -/
def Alike (m n : CompiledNode) : Prop :=
  ∀ path, Option.Rel (fun k l => Option.Rel PixelFamily.Alike k.family l.family) (m.find? path) (n.find? path)

variable {ctx ctx' : CompileContext} {i j : Inherited} {d e : PixelDefinition} {m n : CompiledNode}

section paired

variable {R : PixelFamily → PixelFamily → Prop}

theorem paired_of_children (hfamily : Option.Rel R m.family n.family)
    (hchildren : Entries.Related (Paired R) m.children n.children) : m.Paired R n := by
  intro path
  cases path with
  | nil => exact .some hfamily
  | cons segment rest =>
    have hchild := hchildren.find? segment
    rw [find?, find?]
    generalize Entries.find? segment m.children = a, Entries.find? segment n.children = b at hchild
    cases hchild with
    | none => exact .none
    | some h => exact h rest

/-- children whose compiled nodes are paired, one by one -/
theorem compileChildren_paired (hfold : ctx.fold = ctx'.fold) {path : String}
    {siblings siblings' children children' : List (String × Node)} {done done' : List (String × CompiledNode)}
    (hchildren : Entries.Related (fun c c' => ∀ p, Agree (Paired R) (compile ctx p i c) (compile ctx' p j c')) children
      children') (hdone : Entries.Related (Paired R) done done') :
    Agree (Entries.Related (Paired R)) (compileChildren ctx path i siblings done children)
      (compileChildren ctx' path j siblings' done' children') := by
  induction hchildren generalizing done done' with
  | nil => exact .ok hdone
  | @cons c c' rest rest' hhead _ ih =>
    obtain ⟨segment, child⟩ := c
    obtain ⟨segment', child'⟩ := c'
    obtain ⟨rfl, hchild⟩ := hhead
    simp only [compileChildren]
    refine (hchild _).bind fun m n hmn => ?_
    rw [← hfold, isSome_of_rel (hdone.find? (ctx.fold segment))]
    split_ifs
    · exact .error _ _
    · exact ih (hdone.insert _ hmn)

/-- nodes are compiled to paired ones if their families are related and their children are paired -/
theorem compile_paired (hfold : ctx.fold = ctx'.fold) {n m : Node} {path : String}
    (hfamily : Agree (Option.Rel R) (nodeFamily ctx path i n.definition) (nodeFamily ctx' path j m.definition))
    (hchildren : Entries.Related (fun c c' => ∀ p, Agree (Paired R) (compile ctx p (i.through n.definition) c)
      (compile ctx' p (j.through m.definition) c')) n.children m.children) :
    Agree (Paired R) (compile ctx path i n) (compile ctx' path j m) := by
  rw [compile_eq, compile_eq]
  refine hfamily.bind fun family family' hrelated => ?_
  refine (compileChildren_paired hfold hchildren .nil).bind fun compiled compiled' hcompiled => ?_
  exact .ok (paired_of_children hrelated hcompiled)

end paired

theorem compileFamily_agree (path : String) (h : i.Alike j) (hd : d.Alike e) :
    Agree PixelFamily.Alike (compileFamily ctx path i d) (compileFamily ctx path j e) := by
  have howners : d.owners = e.owners := by
    have hplain := hd.plain
    rw [PixelDefinition.mk.injEq] at hplain
    exact hplain.1
  have hschema := FamilySchema.compile_agree h.params j.suffixes ctx
  unfold compileFamily
  rw [h.suffixes]
  generalize FamilySchema.compile i.params j.suffixes ctx = x, FamilySchema.compile j.params j.suffixes ctx = y
    at hschema
  cases hschema with
  | error fault fault' => exact .error _ _
  | ok hst =>
    refine .ok ⟨rfl, howners, ?_, hst⟩
    exact AppVersion.sameFloor_iff.2 (AppVersion.newer?_congr h.minVersion hst.params.versionFloor)

theorem nodeFamily_agree (path : String) (h : i.Alike j) {d e : Option PixelDefinition}
    (hd : Option.Rel PixelDefinition.Alike d e) :
    Agree (Option.Rel PixelFamily.Alike) (nodeFamily ctx path i d) (nodeFamily ctx path j e) := by
  cases hd with
  | none => exact .ok .none
  | some hd => exact (compileFamily_agree path (h.extend hd) hd).map fun _ _ hfamily => .some hfamily

/-- alike trees are compiled alike, whatever alike things are handed down to them -/
theorem compile_agree {n m : Node} (hn : n.Ordered) (hm : m.Ordered) (h : n.Alike m) (path : String) (hij : i.Alike j) :
    Agree Alike (compile ctx path i n) (compile ctx path j m) := by
  induction n using Node.induct generalizing m path i j with
  | h n ih =>
    have hdefinition : Option.Rel PixelDefinition.Alike n.definition m.definition := h.definitions []
    have hscope := hij.through hdefinition
    refine compile_paired rfl (nodeFamily_agree path hij hdefinition) ?_
    refine Entries.related_of_find? hn.sorted hm.sorted fun segment => rel_of_mem (h.child? segment) ?_
    intro c c' hc hc' hchild p
    have hmem := Node.mem_of_child? hc
    exact ih _ hmem (hn.child hmem) (hm.child (Node.mem_of_child? hc')) hchild p hscope

end CompiledNode

/-- alike trees are refused together, or compiled to alike families -/
theorem CompiledCatalog.build_agree {n m : Node} (hn : n.Ordered) (hm : m.Ordered) (h : n.Alike m)
    (ctx : CompileContext) :
    Agree (fun c c' => c.root.Alike c'.root ∧ c.lowerCase = c'.lowerCase) (build n ctx) (build m ctx) :=
  (CompiledNode.compile_agree hn hm h "" ⟨.nil, rfl, rfl⟩).bind fun _ _ hroot => .ok ⟨hroot, rfl⟩

end PixelAudit
