/-
The declarations in definition files, and a catalog that takes them in.

Of the members of a file that have one name only the last stands, as the others are lost when the file is read. What
stands is entered in the log of the catalog, file by file. From the log it can be told what the catalog keeps: what
stands in the files, up to equality. So a declaration is lost exactly if it differs from the last one of its name in its
own file. A file is refused if for one of its families a different definition stands in an earlier one.

Main results: `Entered.stands_iff` (what is entered of a file), `Filed.addFile` (one file more), `Filed.conflict` (why a
file is refused), `Filed.keepsLast` (what the catalog keeps).
-/
import PixelAudit.Config.Root
import PixelAudit.Proofs.Catalog.Conflict
import PixelAudit.Proofs.Document.Members
import Mathlib.Tactic

namespace PixelAudit

open Text (pieces)
open Catalog (Acceptance Declares Enters firstOf)

/-- what holds between the items of one list holds between those that are related to them -/
theorem pairwise_of_forall₂ {α β : Type} {R : α → β → Prop} {S : β → β → Prop} {T : α → α → Prop} {as : List α}
    {bs : List β} (h : List.Forall₂ R as bs) (hbs : bs.Pairwise S)
    (hstep : ∀ a b a' b', R a b → R a' b' → S b b' → T a a') : as.Pairwise T := by
  induction h with
  | nil => exact .nil
  | cons hab hrest ih =>
    obtain ⟨hfirst, hlater⟩ := List.pairwise_cons.1 hbs
    refine .cons (fun a' ha' => ?_) (ih hlater)
    obtain ⟨b', hb', hr⟩ := exists_of_forall₂ hrest ha'
    exact hstep _ _ a' b' hab hr (hfirst b' hb')

/-- a definition file: the names that lead to it, and the members of its object as they are written -/
structure DefinitionFile where
  names : List FileName
  members : List (String × Json)

namespace DefinitionFile

/-- the file as it is named in a catalog -/
def origin (f : DefinitionFile) : String := DefinitionsRoot.origin f.names

/-- the members that are left when the file is read -/
def records (f : DefinitionFile) : List (String × Json) := Entries.ofList f.members

/-- a member of the file declares the family with this definition, which is accepted on its own -/
def Writes (ctx : CompileContext) (f : DefinitionFile) (name : String) (d : PixelDefinition) : Prop :=
  ∃ record, (name, record) ∈ f.members ∧
    Declares ctx.commonParams.normalize ctx.commonSuffixes (name, record) (name, d)

/-- the last member of the name does -/
def Stands (ctx : CompileContext) (f : DefinitionFile) (name : String) (d : PixelDefinition) : Prop :=
  ∃ record, Entries.find? name f.members.reverse = some record ∧
    Declares ctx.commonParams.normalize ctx.commonSuffixes (name, record) (name, d)

/-- the last member of each name is accepted on its own -/
def Accepted (ctx : CompileContext) (f : DefinitionFile) : Prop :=
  ∀ name record, Entries.find? name f.members.reverse = some record → ∃ d, f.Stands ctx name d

/-- what stands for a family in both files is equal -/
def Agree (ctx : CompileContext) (f g : DefinitionFile) : Prop :=
  ∀ name d e, f.Stands ctx name d → g.Stands ctx name e → d.same e = true

/-- what is entered of a file -/
def Entered (ctx : CompileContext) (f : DefinitionFile) (as : List Acceptance) : Prop :=
  List.Forall₂ (Enters ctx.commonParams.normalize ctx.commonSuffixes f.origin) f.records as

variable {ctx : CompileContext} {f : DefinitionFile} {as : List Acceptance} {name : String} {d : PixelDefinition}
  {record : Json}

theorem mem_records_iff : (name, record) ∈ f.records ↔ Entries.find? name f.members.reverse = some record := by
  rw [← Entries.find?_ofList, Entries.find?_eq_some_iff (Entries.sorted_ofList _), records]

/-- each name that is written in a file has a last member -/
theorem exists_mem_records_iff : (∃ record, (name, record) ∈ f.records) ↔ ∃ record, (name, record) ∈ f.members := by
  simp only [mem_records_iff]
  constructor
  · rintro ⟨record, hrecord⟩
    exact ⟨record, List.mem_reverse.1 (Entries.mem_of_find? hrecord)⟩
  · rintro ⟨record, hrecord⟩
    exact Entries.exists_find?_of_mem (List.mem_reverse.2 hrecord)

/-- what stands in a file is what is entered of it -/
theorem Entered.stands_iff (h : f.Entered ctx as) : f.Stands ctx name d ↔ ⟨name, d, f.origin⟩ ∈ as := by
  constructor
  · rintro ⟨record, hrecord, hd⟩
    obtain ⟨a, ha, horigin, ha'⟩ := exists_of_forall₂ h (mem_records_iff.2 hrecord)
    obtain ⟨hname, hdefinition⟩ := Prod.mk.inj (hd.unique ha')
    rw [hname, hdefinition, ← horigin]
    exact ha
  · intro ha
    obtain ⟨⟨key, record⟩, hrecord, -, hd⟩ := exists_of_forall₂ h.flip ha
    obtain rfl : name = key := hd.name
    exact ⟨record, mem_records_iff.1 hrecord, hd⟩

/-- the file is the source of all that is entered of it -/
theorem Entered.eq_of_mem (h : f.Entered ctx as) {a : Acceptance} (ha : a ∈ as) :
    a = ⟨a.name, a.definition, f.origin⟩ := by
  obtain ⟨record, -, horigin, -⟩ := exists_of_forall₂ h.flip ha
  rw [← horigin]

theorem Entered.accepted (h : f.Entered ctx as) : f.Accepted ctx := by
  intro name record hrecord
  obtain ⟨a, -, -, hd⟩ := exists_of_forall₂ h (mem_records_iff.2 hrecord)
  obtain rfl : a.name = name := hd.name
  exact ⟨a.definition, record, hrecord, hd⟩

end DefinitionFile

/-! ## Files that are taken in -/

/-- a catalog of what stands in files, which is entered file by file -/
structure Filed (ctx : CompileContext) (files : List DefinitionFile) (c : Catalog) (logs : List (List Acceptance)) :
    Prop where
  params : c.commonParams = ctx.commonParams.normalize
  suffixes : c.commonSuffixes = ctx.commonSuffixes
  entered : List.Forall₂ (DefinitionFile.Entered ctx) files logs
  traces : c.Traces logs.flatten

namespace Filed

variable {ctx : CompileContext} {files : List DefinitionFile} {f : DefinitionFile} {c next : Catalog}
  {logs : List (List Acceptance)} {count : Nat} {e : AuditError} {name : String} {d : PixelDefinition}

theorem new (ctx : CompileContext) : Filed ctx [] (.new ctx.commonParams ctx.commonSuffixes) [] :=
  ⟨rfl, rfl, .nil, Catalog.traces_new ctx.commonParams ctx.commonSuffixes⟩

/-- one file more that is accepted -/
theorem addFile (h : Filed ctx files c logs) (hanswer : c.addRecords f.origin 0 f.records = (next, .ok count)) :
    Filed ctx (files ++ [f]) next (logs ++ [c.taken f.origin f.records]) := by
  obtain ⟨hparams, hsuffixes, hentered⟩ := Catalog.taken_enters hanswer
  have htraces := h.traces.addRecords f.origin 0 f.records
  rw [hanswer] at htraces
  refine ⟨hparams.trans h.params, hsuffixes.trans h.suffixes, ?_, ?_⟩
  · rw [h.params, h.suffixes] at hentered
    exact List.rel_append h.entered (.cons hentered .nil)
  · rwa [List.flatten_append, List.flatten_singleton]

/-- what is entered stands in one of the files -/
theorem exists_stands (h : Filed ctx files c logs) {a : Acceptance} (ha : a ∈ logs.flatten) :
    ∃ f ∈ files, a.origin = f.origin ∧ f.Stands ctx a.name a.definition := by
  obtain ⟨as, has, ha⟩ := List.mem_flatten.1 ha
  obtain ⟨f, hf, hentered⟩ : ∃ f ∈ files, f.Entered ctx as := exists_of_forall₂ h.entered.flip has
  have heq := hentered.eq_of_mem ha
  exact ⟨f, hf, congrArg Acceptance.origin heq, hentered.stands_iff.2 (heq ▸ ha)⟩

/-- and what stands in one of them is entered -/
theorem mem_of_stands (h : Filed ctx files c logs) (hf : f ∈ files) (hd : f.Stands ctx name d) :
    ⟨name, d, f.origin⟩ ∈ logs.flatten := by
  obtain ⟨as, has, hentered⟩ := exists_of_forall₂ h.entered hf
  exact List.mem_flatten.2 ⟨as, has, hentered.stands_iff.1 hd⟩

/-- a file of which all that stands is accepted is refused for what stands in an earlier one -/
theorem conflict (h : Filed ctx files c logs) (haccepted : f.Accepted ctx)
    (hanswer : c.addRecords f.origin 0 f.records = (next, .error e)) :
    ∃ g ∈ files, ∃ name d d', g.Stands ctx name d ∧ f.Stands ctx name d' ∧ d.same d' = false ∧
      e = .conflict name g.origin f.origin := by
  have hrecords : ∀ r ∈ f.records, ∃ d, Declares c.commonParams c.commonSuffixes r (r.1, d) := by
    rintro ⟨name, record⟩ hr
    have hlast := DefinitionFile.mem_records_iff.1 hr
    obtain ⟨d, record', hlast', hd⟩ := haccepted name record hlast
    obtain rfl : record' = record := Option.some.inj (hlast'.symm.trans hlast)
    exact ⟨d, by rwa [h.params, h.suffixes]⟩
  obtain ⟨name, record, d', a, hr, hd', ha, hdiffer, he⟩ :=
    h.traces.addRecords_conflict (Entries.sorted_ofList f.members) hrecords hanswer
  obtain ⟨g, hg, horigin, hstands⟩ := h.exists_stands (List.mem_of_find?_eq_some ha)
  obtain rfl : a.name = name := by simpa using List.find?_some ha
  rw [h.params, h.suffixes] at hd'
  exact ⟨g, hg, a.name, a.definition, d', hstands, ⟨record, DefinitionFile.mem_records_iff.1 hr, hd'⟩, hdiffer,
    by rw [he, horigin]⟩

end Filed

/-- a catalog that keeps what stands in files, up to equality -/
structure KeepsLast (ctx : CompileContext) (files : List DefinitionFile) (c : Catalog) : Prop where
  families : ∀ name, c.HasFamily name ↔ ∃ f ∈ files, ∃ record, (name, record) ∈ f.members
  accepted : ∀ f ∈ files, f.Accepted ctx
  agree : files.Pairwise (DefinitionFile.Agree ctx)
  /-- a declaration equals what is kept exactly if it equals the last one of its name in its own file -/
  last : ∀ f ∈ files, ∀ name d, f.Stands ctx name d → ∃ kept, c.root.definition? (pieces '.' name) = some kept ∧
    (kept = d ∨ kept.same d = true) ∧ ∀ e, f.Writes ctx name e → (kept.same e = true ↔ d.same e = true)

namespace Filed

variable {ctx : CompileContext} {files : List DefinitionFile} {c : Catalog} {logs : List (List Acceptance)}

theorem families (h : Filed ctx files c logs) (name : String) :
    c.HasFamily name ↔ ∃ f ∈ files, ∃ record, (name, record) ∈ f.members := by
  rw [h.traces.hasFamily_iff, List.mem_map]
  simp only [← DefinitionFile.exists_mem_records_iff]
  constructor
  · rintro ⟨a, ha, rfl⟩
    obtain ⟨f, hf, -, record, hrecord, -⟩ := h.exists_stands ha
    exact ⟨f, hf, record, DefinitionFile.mem_records_iff.2 hrecord⟩
  · rintro ⟨f, hf, record, hrecord⟩
    obtain ⟨as, has, hentered⟩ := exists_of_forall₂ h.entered hf
    obtain ⟨a, ha, -, hd⟩ := exists_of_forall₂ hentered hrecord
    exact ⟨a, List.mem_flatten.2 ⟨as, has, ha⟩, hd.name⟩

theorem accepted (h : Filed ctx files c logs) (f : DefinitionFile) (hf : f ∈ files) : f.Accepted ctx := by
  obtain ⟨as, -, hentered⟩ := exists_of_forall₂ h.entered hf
  exact DefinitionFile.Entered.accepted hentered

theorem agree (h : Filed ctx files c logs) : files.Pairwise (DefinitionFile.Agree ctx) := by
  have hpairs := h.traces.tells.agree
  rw [List.pairwise_map, List.pairwise_flatten] at hpairs
  refine pairwise_of_forall₂ h.entered hpairs.2 fun f as g bs hf hg hbetween name d e hd he => ?_
  exact hbetween _ (hf.stands_iff.1 hd) _ (hg.stands_iff.1 he) rfl

theorem last (h : Filed ctx files c logs) {f : DefinitionFile} (hf : f ∈ files) {name : String} {d : PixelDefinition}
    (hd : f.Stands ctx name d) : ∃ kept, c.root.definition? (pieces '.' name) = some kept ∧
      (kept = d ∨ kept.same d = true) ∧ ∀ e, kept.same e = true ↔ d.same e = true := by
  have hmem := h.mem_of_stands hf hd
  obtain ⟨a, ha⟩ := Option.isSome_iff_exists.1
    ((Catalog.firstOf_isSome_iff name logs.flatten).2 (List.mem_map.2 ⟨_, hmem, rfl⟩))
  have hname : a.name = name := by simpa using List.find?_some ha
  refine ⟨a.definition, by rw [h.traces.definitions, ha]; rfl, ?_⟩
  by_cases heq : a.declaration = (name, d)
  · obtain ⟨-, rfl⟩ := Prod.mk.inj heq
    exact ⟨.inl rfl, fun e => Iff.rfl⟩
  · have hsame : a.definition.same d = true := by
      have hagree := h.traces.tells.agree.forall (List.mem_map_of_mem (List.mem_of_find?_eq_some ha))
        (List.mem_map_of_mem hmem) heq
      exact hagree hname
    exact ⟨.inr hsame, fun e => ⟨PixelDefinition.same_trans (PixelDefinition.same_symm hsame),
      PixelDefinition.same_trans hsame⟩⟩

/-- a catalog in which files are entered keeps what stands in them -/
theorem keepsLast (h : Filed ctx files c logs) : KeepsLast ctx files c where
  families := h.families
  accepted := h.accepted
  agree := h.agree
  last f hf name d hd := by
    obtain ⟨kept, hkept, hsame, hothers⟩ := h.last hf hd
    exact ⟨kept, hkept, hsame, fun e _ => hothers e⟩

end Filed

end PixelAudit
