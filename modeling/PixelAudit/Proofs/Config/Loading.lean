/-
Loading a definitions root, and the declarations that it keeps.

The files of a root are read one by one, each as an object, and are taken in as they are read. Two files may declare a
family only if the definitions are equal: otherwise the root is refused, and the answer names both files. In one file a
family may be declared many times, and a root that loads has kept the last of these declarations only.

Main results: `addFiles_filed` (what is taken in of files), `addFiles_conflict` (why files are refused), `load_keeps`
(what a root keeps, and when it is refused).
-/
import PixelAudit.Proofs.Config.Declarations
import Mathlib.Tactic

namespace PixelAudit

open Catalog (Acceptance Declares)

/-- what is read of the files, and what it is compiled with -/
structure DefinitionsRoot.Spelled (r : DefinitionsRoot) (tree : FileTree) (alsoIgnore : Option String)
    (ctx : CompileContext) (files : List DefinitionFile) : Prop where
  directory : tree.isDirectoryAt r.path = true
  context : ∃ product, r.context tree alsoIgnore = .ok (product, ctx)
  names : r.definitionNames tree = .ok (files.map DefinitionFile.names)
  members : ∀ f ∈ files, tree.written? (r.filePath f.names) = some f.members

/-- two files in which different definitions stand for one family, and the failure that names them -/
inductive DefinitionsRoot.Conflict (r : DefinitionsRoot) (ctx : CompileContext) (files : List DefinitionFile) :
    Failure → Prop
  | between {before after : List DefinitionFile} {f g : DefinitionFile} {name : String} {d e : PixelDefinition}
      (order : files = before ++ g :: after) (earlier : f ∈ before) (first : f.Stands ctx name d)
      (second : g.Stands ctx name e) (differ : d.same e = false) :
      Conflict r ctx files ⟨.audit (.conflict name f.origin g.origin), [.tokenizing (r.filePath g.names).shown]⟩

theorem DefinitionsRoot.Conflict.not_agree {r : DefinitionsRoot} {ctx : CompileContext} {files : List DefinitionFile}
    {failure : Failure} (h : r.Conflict ctx files failure) : ¬ files.Pairwise (DefinitionFile.Agree ctx) := by
  intro hagree
  obtain ⟨rfl, hearlier, hfirst, hsecond, hdiffer⟩ := h
  have hsame := (List.pairwise_append.1 hagree).2.2 _ hearlier _ List.mem_cons_self _ _ _ hfirst hsecond
  exact Bool.false_ne_true (hdiffer.symm.trans hsame)

namespace DefinitionsRoot

variable {r : DefinitionsRoot} {tree : FileTree} {ctx : CompileContext} {f : DefinitionFile} {c next : Catalog}
  {files done : List DefinitionFile} {logs : List (List Acceptance)}

/-- taking in a file whose members are read -/
theorem addFile_of_written (hf : tree.written? (r.filePath f.names) = some f.members) (c : Catalog) :
    r.addFile tree c f.names = match c.addRecords f.origin 0 f.records with
      | (next, .ok _) => .ok next
      | (_, .error e) => .error ⟨.audit e, [.tokenizing (r.filePath f.names).shown]⟩ := by
  have hread := FileTree.readDocument_eq_object_iff.2 ⟨_, hf, rfl⟩
  have hsource : c.addSource (origin f.names) (.object (Entries.ofList f.members)) =
      c.addRecords f.origin 0 f.records := rfl
  unfold addFile
  dsimp only
  rw [hread]
  simp only [bind, Except.bind, hsource]
  obtain ⟨next, _ | _⟩ := c.addRecords f.origin 0 f.records <;> rfl

/-- a file that is taken in holds an object -/
theorem addFile_eq_ok {names : List FileName} (h : r.addFile tree c names = .ok next) :
    ∃ (f : DefinitionFile) (count : Nat), f.names = names ∧ tree.written? (r.filePath names) = some f.members ∧
      c.addRecords f.origin 0 f.records = (next, .ok count) := by
  cases hread : tree.readDocument .any (r.filePath names) with
  | error failure =>
    simp [addFile, hread, bind, Except.bind] at h
  | ok records =>
    cases records with
    | object es =>
      obtain ⟨ms, hms, -⟩ := FileTree.readDocument_eq_object_iff.1 hread
      have hadd := @addFile_of_written r tree ⟨names, ms⟩ hms c
      rw [h] at hadd
      refine ⟨⟨names, ms⟩, ?_⟩
      generalize c.addRecords _ 0 _ = answer at hadd
      obtain ⟨grown, count | count⟩ := answer
      · cases hadd
      · cases hadd
        exact ⟨count, rfl, hms, rfl⟩
    | _ => simp [addFile, hread, bind, Except.bind, Catalog.addSource, failWith] at h

/-- Files that are all taken in, after others. -/
theorem addFiles_filed {names : List (List FileName)} (hc : Filed ctx done c logs)
    (h : names.foldlM (r.addFile tree) c = .ok next) :
    ∃ files logs', names = files.map DefinitionFile.names ∧
      (∀ f ∈ files, tree.written? (r.filePath f.names) = some f.members) ∧ Filed ctx (done ++ files) next logs' := by
  induction names generalizing c done logs with
  | nil =>
    cases h
    exact ⟨[], logs, rfl, List.forall_mem_nil _, by rwa [List.append_nil]⟩
  | cons name rest ih =>
    rw [List.foldlM_cons] at h
    cases hfirst : r.addFile tree c name with
    | error failure =>
      rw [hfirst] at h
      cases h
    | ok grown =>
      rw [hfirst] at h
      obtain ⟨f, count, rfl, hwritten, hanswer⟩ := addFile_eq_ok hfirst
      obtain ⟨files, logs', rfl, hrest, hfiled⟩ := ih (hc.addFile hanswer) h
      rw [List.append_assoc] at hfiled
      exact ⟨f :: files, logs', rfl, List.forall_mem_cons.2 ⟨hwritten, hrest⟩, hfiled⟩

/-- Files of which all that stands is accepted are taken in, or two of them are in conflict. -/
theorem addFiles_conflict (hc : Filed ctx done c logs)
    (hwritten : ∀ f ∈ files, tree.written? (r.filePath f.names) = some f.members)
    (haccepted : ∀ f ∈ files, f.Accepted ctx) :
    (∃ next logs', (files.map DefinitionFile.names).foldlM (r.addFile tree) c = .ok next ∧
        Filed ctx (done ++ files) next logs') ∨
      ∃ failure, (files.map DefinitionFile.names).foldlM (r.addFile tree) c = .error failure ∧
        r.Conflict ctx (done ++ files) failure := by
  induction files generalizing c done logs with
  | nil => exact .inl ⟨c, logs, rfl, by rwa [List.append_nil]⟩
  | cons f rest ih =>
    obtain ⟨hf, hrest⟩ := List.forall_mem_cons.1 hwritten
    obtain ⟨hfaccepted, hrestaccepted⟩ := List.forall_mem_cons.1 haccepted
    have hadd := addFile_of_written hf c
    rw [List.map_cons, List.foldlM_cons, hadd]
    cases hanswer : c.addRecords f.origin 0 f.records with
    | mk next answer =>
      cases answer with
      | error e =>
        obtain ⟨g, hg, name, d, d', hd, hd', hdiffer, rfl⟩ := hc.conflict hfaccepted hanswer
        exact .inr ⟨_, rfl, .between rfl hg hd hd' hdiffer⟩
      | ok count =>
        have hnext := ih (hc.addFile hanswer) hrest hrestaccepted
        rwa [List.append_assoc] at hnext

/-- what a root that loads has read -/
theorem exists_of_load {alsoIgnore : Option String} {loaded : LoadedDefinitions}
    (h : r.load tree alsoIgnore = .ok loaded) : tree.isDirectoryAt r.path = true ∧
      r.context tree alsoIgnore = .ok (loaded.product, loaded.context) ∧
      ∃ names, r.definitionNames tree = .ok names ∧
        names.foldlM (r.addFile tree) (.new loaded.context.commonParams loaded.context.commonSuffixes) =
          .ok loaded.catalog := by
  unfold load at h
  cases hdirectory : tree.isDirectoryAt r.path with
  | false =>
    rw [hdirectory] at h
    cases h
  | true =>
    cases hcontext : r.context tree alsoIgnore with
    | error failure =>
      rw [hdirectory, hcontext] at h
      cases h
    | ok answer =>
      obtain ⟨product, ctx⟩ := answer
      cases hnames : r.definitionNames tree with
      | error failure =>
        rw [hdirectory, hcontext, hnames] at h
        cases h
      | ok names =>
        rw [hdirectory, hcontext, hnames] at h
        change (names.foldlM (r.addFile tree) (.new ctx.commonParams ctx.commonSuffixes) >>= fun catalog =>
          pure ⟨product, ctx, catalog, names.map fun n => (r.filePath n).shown⟩) = Except.ok loaded at h
        cases hcatalog : names.foldlM (r.addFile tree) (.new ctx.commonParams ctx.commonSuffixes) with
        | error failure =>
          rw [hcatalog] at h
          cases h
        | ok catalog =>
          rw [hcatalog] at h
          cases h
          exact ⟨rfl, rfl, names, rfl, hcatalog⟩

/-- a root whose files are read loads if these are all taken in -/
theorem load_of_spelled {alsoIgnore : Option String} (h : r.Spelled tree alsoIgnore ctx files) :
    ∃ product, r.load tree alsoIgnore =
      ((files.map DefinitionFile.names).foldlM (r.addFile tree) (.new ctx.commonParams ctx.commonSuffixes)).map
        fun catalog =>
          ⟨product, ctx, catalog, (files.map DefinitionFile.names).map fun names => (r.filePath names).shown⟩ := by
  obtain ⟨product, hcontext⟩ := h.context
  refine ⟨product, ?_⟩
  unfold load
  rw [h.directory, hcontext, h.names]
  rfl

/-! ## Roots with a family that is declared twice -/

theorem written?_of_read (path : FilePath) (text : String) {ms : List (String × Json)}
    (hread : (tree.read path).toOption = some text) (hjson : FileTree.isYaml path = false)
    (hwritten : Json.written text = .ok ms) : tree.written? path = some ms := by
  rw [FileTree.written?, hread, Option.bind_some, hjson, hwritten]
  rfl

/-- a root with nothing in it but definition files -/
def defs : DefinitionsRoot := ⟨"defs"⟩

/-- files by name, with their texts -/
def definitionEntries (texts : List (String × String)) : List (FileName × FileTree) :=
  texts.map fun t => (t.1, .file (Text.Utf8.encode t.2))

def definitionTree (texts : List (String × String)) : FileTree :=
  .directory [("defs", .directory [("definitions", .directory (definitionEntries texts))])]

theorem pathsAmong_definitionEntries {texts : List (String × String)}
    (hnames : ∀ t ∈ texts, isDefinitionName t.1 = true) (path : FilePath) :
    pathsAmong path (definitionEntries texts) = texts.map fun t => [(t.1 : FileName)] := by
  induction texts with
  | nil => rw [definitionEntries, List.map_nil, pathsAmong, List.map_nil]
  | cons t rest ih =>
    obtain ⟨hname, hrest⟩ := List.forall_mem_cons.1 hnames
    have hrest := ih hrest
    unfold definitionEntries at hrest ⊢
    rw [List.map_cons, pathsAmong, hrest, pathNamed, if_pos hname, List.map_cons, List.singleton_append]

theorem definitionNames_definitionTree {texts : List (String × String)}
    (hnames : ∀ t ∈ texts, isDefinitionName t.1 = true)
    (hsorted : (texts.map fun t => [(t.1 : FileName)]).Pairwise fun p q => (!decide (pathKey q < pathKey p)) = true) :
    defs.definitionNames (definitionTree texts) = .ok (texts.map fun t => [(t.1 : FileName)]) := by
  have hget : (definitionTree texts).get defs.definitionsPath = .ok (.directory (definitionEntries texts)) := rfl
  simp only [definitionNames, hget, pathsAmong_definitionEntries hnames]
  exact congrArg Except.ok (List.mergeSort_of_pairwise hsorted)

def ownedDefinition (owner : String) : PixelDefinition := { owners := NameSet.ofList [owner] }

theorem declares_ownedBy (owner : String) :
    Declares (ParamCatalog.normalize ∅) ∅ ("app", Catalog.ownedBy owner) ("app", ownedDefinition owner) where
  name := rfl
  wellNamed := show Catalog.isWellFormedName "app" = true by decide
  definition := rfl

theorem ownedDefinition_differ : (ownedDefinition "t").same (ownedDefinition "u") = false := by decide

/-- a file that declares one family -/
def ownedFile (name owner : String) : DefinitionFile := ⟨[(name : FileName)], [("app", Catalog.ownedBy owner)]⟩

theorem ownedFile_stands (name owner : String) : (ownedFile name owner).Stands {} "app" (ownedDefinition owner) :=
  ⟨_, rfl, declares_ownedBy owner⟩

theorem ownedFile_accepted (name owner : String) : (ownedFile name owner).Accepted {} := by
  intro family record hrecord
  obtain ⟨rfl, rfl⟩ := Prod.mk.inj (List.mem_singleton.1 (Entries.mem_of_find? hrecord))
  exact ⟨_, ownedFile_stands name owner⟩

/-- one family, declared differently by two files -/
def twoTree : FileTree := definitionTree [
  ("a.json", "\x7b\"app\":\x7b\"owners\":[\"t\"]\x7d\x7d"), ("b.json", "\x7b\"app\":\x7b\"owners\":[\"u\"]\x7d\x7d")]

def twoFiles : List DefinitionFile := [ownedFile "a.json" "t", ownedFile "b.json" "u"]

theorem spelled_two : defs.Spelled twoTree none {} twoFiles where
  directory := by decide
  context := ⟨{}, rfl⟩
  names := definitionNames_definitionTree (by decide +kernel) (by decide)
  members := by
    have hfirst : twoTree.written? (defs.filePath ["a.json"]) = some (ownedFile "a.json" "t").members :=
      written?_of_read _ "\x7b\"app\":\x7b\"owners\":[\"t\"]\x7d\x7d" (by decide +kernel) (by decide +kernel) rfl
    have hsecond : twoTree.written? (defs.filePath ["b.json"]) = some (ownedFile "b.json" "u").members :=
      written?_of_read _ "\x7b\"app\":\x7b\"owners\":[\"u\"]\x7d\x7d" (by decide +kernel) (by decide +kernel) rfl
    exact List.forall_mem_cons.2 ⟨hfirst, List.forall_mem_singleton.2 hsecond⟩

/-- one family, declared differently by two members of a file -/
def twiceTree : FileTree := definitionTree [
  ("a.json", "\x7b\"app\":\x7b\"owners\":[\"t\"]\x7d,\"app\":\x7b\"owners\":[\"u\"]\x7d\x7d")]

def twiceFile : DefinitionFile :=
  ⟨[("a.json" : FileName)], [("app", Catalog.ownedBy "t"), ("app", Catalog.ownedBy "u")]⟩

theorem spelled_twice : defs.Spelled twiceTree none {} [twiceFile] where
  directory := by decide
  context := ⟨{}, rfl⟩
  names := definitionNames_definitionTree (by decide +kernel) (by decide)
  members := by
    have hmembers : twiceTree.written? (defs.filePath ["a.json"]) = some twiceFile.members :=
      written?_of_read _ "\x7b\"app\":\x7b\"owners\":[\"t\"]\x7d,\"app\":\x7b\"owners\":[\"u\"]\x7d\x7d"
        (by decide +kernel) (by decide +kernel) rfl
    exact List.forall_mem_singleton.2 hmembers

theorem load_twice : ∃ loaded, defs.load twiceTree none = .ok loaded ∧ loaded.context = {} ∧
    loaded.catalog.root.definition? ["app"] = some (ownedDefinition "u") := by
  obtain ⟨product, hload⟩ := load_of_spelled spelled_twice
  have hfold : (([twiceFile].map DefinitionFile.names).foldlM (defs.addFile twiceTree) (.new ∅ ∅)).toOption.map
      (fun c => c.root.definition? ["app"]) = some (some (ownedDefinition "u")) := by decide +kernel
  obtain ⟨catalog, hcatalog, hkept⟩ := Option.map_eq_some_iff.1 hfold
  exact ⟨_, hload.trans (congrArg (Except.map _) (FileTree.toOption_eq_some_iff.1 hcatalog)), rfl, hkept⟩

/-! ## What a root keeps -/

/-- **What a root keeps of its declarations.** A root that loads keeps what stands in its files: no two of them declare
a family differently, and of a file a declaration is lost exactly if it differs from the last one of its name in it. Of
a root whose files are read, and where all that stands is accepted, this is all that can go wrong: it loads if no two
files differ, and else is refused for two that do. -/
theorem load_keeps (r : DefinitionsRoot) (tree : FileTree) (alsoIgnore : Option String) :
    (∀ loaded, r.load tree alsoIgnore = .ok loaded → ∃ files, r.Spelled tree alsoIgnore loaded.context files ∧
      KeepsLast loaded.context files loaded.catalog) ∧
    ∀ ctx files, r.Spelled tree alsoIgnore ctx files → (∀ f ∈ files, f.Accepted ctx) →
      (files.Pairwise (DefinitionFile.Agree ctx) → ∃ loaded, r.load tree alsoIgnore = .ok loaded) ∧
      (¬ files.Pairwise (DefinitionFile.Agree ctx) → ∃ failure, r.load tree alsoIgnore = .error failure ∧
        r.Conflict ctx files failure) := by
  refine ⟨fun loaded hload => ?_, fun ctx files hspelled haccepted => ?_⟩
  · obtain ⟨hdirectory, hcontext, names, hnames, hcatalog⟩ := exists_of_load hload
    obtain ⟨files, logs, rfl, hwritten, hfiled⟩ := addFiles_filed (Filed.new loaded.context) hcatalog
    exact ⟨files, ⟨hdirectory, ⟨_, hcontext⟩, hnames, hwritten⟩, hfiled.keepsLast⟩
  · obtain ⟨product, hload⟩ := load_of_spelled hspelled
    rw [hload]
    rcases addFiles_conflict (Filed.new ctx) hspelled.members haccepted with
      ⟨next, logs, hnext, hfiled⟩ | ⟨failure, hfailure, hconflict⟩
    · rw [hnext]
      exact ⟨fun _ => ⟨_, rfl⟩, fun hdiffer => absurd hfiled.agree hdiffer⟩
    · rw [hfailure]
      exact ⟨fun hagree => absurd hagree hconflict.not_agree, fun _ => ⟨failure, rfl, hconflict⟩⟩

/-- Two files that declare a family differently are refused, and the failure names them. A file that does so itself is
not, and what stands in it is kept. -/
theorem load_keeps_two :
    (∃ failure, defs.load twoTree none = .error failure ∧ defs.Conflict {} twoFiles failure) ∧
      ∃ loaded files, defs.load twiceTree none = .ok loaded ∧ KeepsLast loaded.context files loaded.catalog := by
  have haccepted : ∀ f ∈ twoFiles, f.Accepted {} :=
    List.forall_mem_cons.2 ⟨ownedFile_accepted _ _, List.forall_mem_singleton.2 (ownedFile_accepted _ _)⟩
  have hdiffer : ¬ twoFiles.Pairwise (DefinitionFile.Agree {}) := by
    intro hagree
    have hsame := List.rel_of_pairwise_cons hagree (List.mem_singleton_self _) "app" _ _
      (ownedFile_stands "a.json" "t") (ownedFile_stands "b.json" "u")
    exact Bool.false_ne_true (ownedDefinition_differ.symm.trans hsame)
  obtain ⟨loaded, hload, -, -⟩ := load_twice
  obtain ⟨files, -, hkeeps⟩ := (load_keeps defs twiceTree none).1 loaded hload
  exact ⟨((load_keeps defs twoTree none).2 {} twoFiles spelled_two haccepted).2 hdiffer, loaded, files, hload, hkeeps⟩

/-- A file declares a family twice, and both declarations are accepted. They differ, and the root loads and keeps the
second one. -/
theorem load_drops_first : ∃ loaded, defs.load twiceTree none = .ok loaded ∧
    defs.Spelled twiceTree none loaded.context [twiceFile] ∧
    twiceFile.Writes loaded.context "app" (ownedDefinition "t") ∧
    twiceFile.Writes loaded.context "app" (ownedDefinition "u") ∧
    (ownedDefinition "t").same (ownedDefinition "u") = false ∧
    loaded.catalog.root.definition? ["app"] = some (ownedDefinition "u") := by
  obtain ⟨loaded, hload, hcontext, hkept⟩ := load_twice
  have hfirst : ("app", Catalog.ownedBy "t") ∈ twiceFile.members := List.mem_cons_self
  have hsecond : ("app", Catalog.ownedBy "u") ∈ twiceFile.members := List.mem_cons_of_mem _ List.mem_cons_self
  refine ⟨loaded, hload, ?_⟩
  rw [hcontext]
  exact ⟨spelled_twice, ⟨_, hfirst, declares_ownedBy "t"⟩, ⟨_, hsecond, declares_ownedBy "u"⟩, ownedDefinition_differ,
    hkept⟩

end DefinitionsRoot

end PixelAudit
