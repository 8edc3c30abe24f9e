/-
The definition files of a root.

A directory lists its entries in any order, and what is found among them is put into order at the end. What is looked
for are the files, at any depth, with the extension of a document and a name that does not begin as that of a template.
What is found are these, but for four kinds of entries. A name that is no text is not seen to begin as that of a
template. What is neither a file nor a directory counts by its name as a file does. A directory whose own path is too
long counts so, too, as it is not known as a directory, and what stands below it is missed. Nothing else can go wrong,
so that a root without such entries has exactly the definition files that are looked for.

Main results: `pathsBelow_reordered` (what is found does not depend on the order of entries), `mem_pathsBelow_iff` (what
is found), `taken_iff_intended_iff` (where this is what is looked for), `definitionPaths_exact` (all of it, for a root).
-/
import PixelAudit.Config.Root
import PixelAudit.Proofs.Files.Listing
import PixelAudit.Proofs.Text.Segments
import Mathlib.Tactic

namespace PixelAudit

namespace DefinitionsRoot

open FileTree (Reordered Listed)
open Text.Utf8 (encode)

/-! ## Names -/

/-- something, a point and the extension of a document -/
def NamesDocument (name : FileName) : Prop :=
  ∃ stem extension, stem ≠ [] ∧ extension ∈ extensions ∧ name.bytes = stem ++ FileName.point :: encode extension

/-- the name begins as that of a template -/
def NamesTemplate (name : FileName) : Prop := encode templatePrefix <+: name.bytes

variable {name : FileName}

theorem isDocumentName_iff : isDocumentName name = true ↔ NamesDocument name := by
  have hpoint : ∀ extension ∈ extensions, FileName.point ∉ encode extension := by decide
  simp only [isDocumentName, NamesDocument, Option.any_eq_true, List.contains_iff_mem,
    FileName.extension?_eq_some_iff]
  constructor
  · rintro ⟨extension, ⟨stem, hstem, -, hname⟩, hmem⟩
    exact ⟨stem, extension, hstem, hmem, hname⟩
  · rintro ⟨stem, extension, hstem, hmem, hname⟩
    exact ⟨extension, ⟨stem, hstem, hpoint extension hmem, hname⟩, hmem⟩

/-- only a name that is text is seen to begin as that of a template -/
theorem isTemplateName_iff : isTemplateName name = true ↔ NamesTemplate name ∧ name.text? ≠ none := by
  unfold isTemplateName NamesTemplate
  cases htext : name.text? with
  | none => simp
  | some text =>
    have hdecode := Text.Utf8.decode_eq_ok_iff.2 (FileName.text?_eq_some_iff.1 htext)
    rw [Text.Utf8.isPrefix_encode_iff hdecode]
    simp

theorem isDefinitionName_iff :
    isDefinitionName name = true ↔ NamesDocument name ∧ (NamesTemplate name → name.text? = none) := by
  rw [isDefinitionName, Bool.and_eq_true, Bool.not_eq_true', ← Bool.not_eq_true, isTemplateName_iff,
    isDocumentName_iff, not_and, not_not, and_comm]

/-! ## What is found among entries -/

/-- the definition files below a tree -/
def pathsBelow (path : FilePath) : FileTree → List (List FileName)
  | .directory entries => pathsAmong path entries
  | _ => []

/-- the definition files that an entry is or holds -/
def pathsAt (path : FilePath) (name : FileName) : FileTree → List (List FileName)
  | .directory inner =>
    if (path.enter name).fault? = none then (pathsAmong (path.enter name) inner).map (name :: ·) else pathNamed name
  | _ => pathNamed name

variable {path : FilePath} {entries es fs : List (FileName × FileTree)} {s t : FileTree} {names : List FileName}

theorem pathsAmong_eq_flatMap (path : FilePath) (entries : List (FileName × FileTree)) :
    pathsAmong path entries = entries.flatMap fun e => pathsAt path e.1 e.2 := by
  induction entries with
  | nil => rw [pathsAmong, List.flatMap_nil]
  | cons entry rest ih =>
    obtain ⟨name, _ | inner | _⟩ := entry
    · rw [pathsAmong, List.flatMap_cons, ih, pathsAt]
      exact fun _ h => by cases h
    · rw [pathsAmong, List.flatMap_cons, ih, pathsAt]
    · rw [pathsAmong, List.flatMap_cons, ih, pathsAt]
      exact fun _ h => by cases h

theorem pathsAt_perm (h : ∀ path, (pathsAmong path es).Perm (pathsAmong path fs)) (path : FilePath)
    (name : FileName) : (pathsAt path name (.directory es)).Perm (pathsAt path name (.directory fs)) := by
  simp only [pathsAt]
  split_ifs
  · exact (h _).map _
  · exact List.Perm.refl _

/-- what is found does not depend on the order of entries -/
theorem pathsBelow_reordered (h : Reordered s t) : (∀ path, (pathsBelow path s).Perm (pathsBelow path t)) ∧
    ∀ path name, (pathsAt path name s).Perm (pathsAt path name t) := by
  -- what an entry holds depends on its tree in both ways, so both are carried along
  induction h with
  | refl tree => exact ⟨fun _ => List.Perm.refl _, fun _ _ => List.Perm.refl _⟩
  | @list es fs hperm =>
    have hamong : ∀ path, (pathsAmong path es).Perm (pathsAmong path fs) := by
      intro path
      rw [pathsAmong_eq_flatMap, pathsAmong_eq_flatMap]
      exact hperm.flatMap_right _
    exact ⟨hamong, pathsAt_perm hamong⟩
  | @entry s t before name after hentry ih =>
    have hamong : ∀ path, (pathsAmong path (before ++ (name, s) :: after)).Perm
        (pathsAmong path (before ++ (name, t) :: after)) := by
      intro path
      simp only [pathsAmong_eq_flatMap, List.flatMap_append, List.flatMap_cons]
      exact ((ih.2 path name).append_right _).append_left _
    exact ⟨hamong, pathsAt_perm hamong⟩
  | trans hfirst hsecond ihFirst ihSecond =>
    exact ⟨fun path => (ihFirst.1 path).trans (ihSecond.1 path),
      fun path name => (ihFirst.2 path name).trans (ihSecond.2 path name)⟩

/-- an entry of a tree below the path, in a directory that can be listed; a directory only if its own path is too long -/
structure Counts (path : FilePath) (tree : FileTree) (front : List FileName) (name : FileName) (found : FileTree) :
    Prop where
  stands : tree.find (front ++ [name]) = .ok found
  listed : (path.below front).fault? = none
  unknown : ∀ inner, found = .directory inner → (path.below (front ++ [name])).fault? ≠ none

/-- what is found below a tree: the entries that count, by their own names -/
def Taken (path : FilePath) (tree : FileTree) (names : List FileName) : Prop :=
  ∃ front name found, names = front ++ [name] ∧ Counts path tree front name found ∧ isDefinitionName name = true

theorem mem_pathNamed_iff : names ∈ pathNamed name ↔ names = [name] ∧ isDefinitionName name = true := by
  unfold pathNamed
  split_ifs with hname
  · simp [hname]
  · simp [hname]

/-- what is found at an entry is found under its name -/
theorem exists_of_mem_pathsAt (h : names ∈ pathsAt path name t) : ∃ rest, names = name :: rest := by
  unfold pathsAt at h
  split at h
  · split_ifs at h
    · obtain ⟨rest, -, rfl⟩ := List.mem_map.1 h
      exact ⟨rest, rfl⟩
    · exact ⟨[], (mem_pathNamed_iff.1 h).1⟩
  · exact ⟨[], (mem_pathNamed_iff.1 h).1⟩

/-- what is found at an entry is the entry or stands below it -/
theorem mem_pathsAt_iff : names ∈ pathsAt path name t ↔
    ((∀ inner, t = .directory inner → (path.enter name).fault? ≠ none) ∧ names = [name] ∧
        isDefinitionName name = true) ∨
      ∃ rest, names = name :: rest ∧ (path.enter name).fault? = none ∧ rest ∈ pathsBelow (path.enter name) t := by
  cases t with
  | directory inner =>
    rw [pathsAt, pathsBelow]
    split_ifs with hpath
    · simp only [List.mem_map, hpath, ne_eq, not_true_eq_false, FileTree.directory.injEq, forall_eq', false_and,
        false_or, true_and]
      exact exists_congr fun rest => and_comm.trans (and_congr_left' eq_comm)
    · simp [hpath, mem_pathNamed_iff]
  | _ => simp [pathsAt, pathsBelow, mem_pathNamed_iff]

/-- what is found below a tree -/
theorem mem_pathsBelow_iff (h : Listed t) (hpath : path.fault? = none) :
    names ∈ pathsBelow path t ↔ Taken path t names := by
  induction h generalizing path names with
  | @directory entries hdistinct hnames hentries ih =>
    rw [pathsBelow, pathsAmong_eq_flatMap, List.mem_flatMap]
    simp only [mem_pathsAt_iff]
    constructor
    · rintro ⟨⟨name, child⟩, hmem, hentry⟩
      have hchild := (lookup_iff_of_nodup hdistinct).2 hmem
      rcases hentry with ⟨hunknown, rfl, hname⟩ | ⟨rest, rfl, henter, hrest⟩
      · exact ⟨[], name, child, rfl, ⟨FileTree.find_cons hchild, by simpa using hpath, hunknown⟩, hname⟩
      · obtain ⟨front, last, found, rfl, hcounts, hlast⟩ := (ih _ hmem henter).1 hrest
        refine ⟨name :: front, last, found, rfl, ⟨?_, ?_, ?_⟩, hlast⟩
        · exact (FileTree.find_cons hchild).trans hcounts.stands
        · simpa using hcounts.listed
        · simpa using hcounts.unknown
    · rintro ⟨front, last, found, rfl, ⟨hfind, hlisted, hunknown⟩, hlast⟩
      cases front with
      | nil =>
        obtain ⟨_, child, heq, hchild, hfound⟩ := FileTree.exists_entry_of_find hfind
        cases heq
        obtain rfl := Except.ok.inj hfound
        exact ⟨(last, child), (lookup_iff_of_nodup hdistinct).1 hchild, .inl ⟨hunknown, rfl, hlast⟩⟩
      | cons name front =>
        obtain ⟨_, child, heq, hchild, hfound⟩ := FileTree.exists_entry_of_find hfind
        cases heq
        have hmem := (lookup_iff_of_nodup hdistinct).1 hchild
        rw [← FilePath.enter_below] at hlisted
        have henter := FilePath.fault?_of_below hlisted
        refine ⟨(name, child), hmem, .inr ⟨front ++ [last], rfl, henter, (ih _ hmem henter).2 ?_⟩⟩
        exact ⟨front, last, found, rfl, ⟨hfound, hlisted, by simpa using hunknown⟩, hlast⟩
  | _ =>
    simp only [pathsBelow, List.not_mem_nil, false_iff]
    rintro ⟨front, last, found, -, ⟨hfind, -, -⟩, -⟩
    cases front <;> cases hfind

theorem nodup_pathNamed (name : FileName) : (pathNamed name).Nodup := by
  unfold pathNamed
  split_ifs
  · exact List.nodup_singleton _
  · exact List.nodup_nil

/-- each file is found once -/
theorem nodup_pathsBelow (h : Listed t) (path : FilePath) : (pathsBelow path t).Nodup := by
  induction h generalizing path with
  | @directory entries hdistinct hnames hentries ih =>
    rw [pathsBelow, pathsAmong_eq_flatMap, List.nodup_flatMap]
    constructor
    · rintro ⟨name, child⟩ hmem
      have hbelow := ih _ hmem (path.enter name)
      cases child with
      | directory inner =>
        rw [pathsAt]
        split_ifs
        · exact hbelow.map fun p q heq => (List.cons.inj heq).2
        · exact nodup_pathNamed name
      | _ => exact nodup_pathNamed name
    · -- what two entries hold differs in the first name
      refine (List.pairwise_map.1 hdistinct).imp fun {d e} hne p hp hq => ?_
      obtain ⟨rest, rfl⟩ := exists_of_mem_pathsAt hp
      obtain ⟨rest', heq⟩ := exists_of_mem_pathsAt hq
      exact hne (List.cons.inj heq).1
  | _ => exact List.nodup_nil

/-! ## The order of paths -/

theorem pathKey_injective : Function.Injective pathKey :=
  Function.Injective.list_map fun m n h => by
    cases m
    cases n
    exact congrArg FileName.mk h

theorem pairwise_sortPaths (paths : List (List FileName)) :
    (sortPaths paths).Pairwise fun p q => pathKey p ≤ pathKey q := by
  have hle : ∀ p q, (!decide (pathKey q < pathKey p)) = true ↔ pathKey p ≤ pathKey q := by
    intro p q
    rw [Bool.not_eq_true', decide_eq_false_iff_not]
    rfl
  have hsorted : (sortPaths paths).Pairwise fun p q => (!decide (pathKey q < pathKey p)) = true := by
    apply List.pairwise_mergeSort
    · intro p q u hpq hqu
      exact (hle p u).2 (List.le_trans ((hle p q).1 hpq) ((hle q u).1 hqu))
    · intro p q
      rw [Bool.or_eq_true, hle, hle]
      exact List.le_total _ _
  exact hsorted.imp (hle _ _).1

theorem sortPaths_perm (paths : List (List FileName)) : (sortPaths paths).Perm paths :=
  List.mergeSort_perm paths _

/-- what is put into order does not depend on the order before -/
theorem sortPaths_eq_of_perm {paths others : List (List FileName)} (h : paths.Perm others) :
    sortPaths paths = sortPaths others := by
  have hperm := ((sortPaths_perm paths).trans h).trans (sortPaths_perm others).symm
  refine List.Perm.eq_of_pairwise (fun p q _ _ hpq hqp => ?_) (pairwise_sortPaths paths) (pairwise_sortPaths others)
    hperm
  exact pathKey_injective (List.le_antisymm hpq hqp)

theorem sortPaths_increasing {paths : List (List FileName)} (h : paths.Nodup) :
    (sortPaths paths).Pairwise fun p q => pathKey p < pathKey q := by
  have hnodup : (sortPaths paths).Nodup := (sortPaths_perm paths).nodup_iff.2 h
  refine ((pairwise_sortPaths paths).and hnodup).imp fun hle => ?_
  exact Std.lt_of_le_of_ne hle.1 fun heq => hle.2 (pathKey_injective heq)

/-! ## What is looked for -/

/-- what is looked for below a tree: the files, by their own names -/
def Intended (tree : FileTree) (names : List FileName) : Prop :=
  ∃ front name bytes, names = front ++ [name] ∧ tree.find names = .ok (.file bytes) ∧ NamesDocument name ∧
    ¬ NamesTemplate name

/-- what is found and not looked for, or looked for and not found -/
inductive Misfit (path : FilePath) (tree : FileTree) (front : List FileName) (name : FileName) : Prop
  /-- a template whose name is no text -/
  | template (bytes : List UInt8) (counts : Counts path tree front name (.file bytes)) (named : NamesDocument name)
      (begins : NamesTemplate name) (noText : name.text? = none)
  /-- what is neither a file nor a directory, by its name -/
  | special (answer : Except FileFault (List UInt8)) (counts : Counts path tree front name (.special answer))
      (named : isDefinitionName name = true)
  /-- a directory whose path is too long, by its name -/
  | directory (inner : List (FileName × FileTree)) (counts : Counts path tree front name (.directory inner))
      (named : isDefinitionName name = true)
  /-- a file below such a directory -/
  | missed (bytes : List UInt8) (found : tree.find (front ++ [name]) = .ok (.file bytes))
      (unlisted : (path.below front).fault? ≠ none) (named : NamesDocument name) (noTemplate : ¬ NamesTemplate name)

variable {front : List FileName}

/-- a list of names has one last name -/
theorem exists_concat_iff {P : List FileName → FileName → Prop} :
    (∃ before last, front ++ [name] = before ++ [last] ∧ P before last) ↔ P front name := by
  constructor
  · rintro ⟨before, last, heq, h⟩
    obtain ⟨rfl, hlast⟩ := List.append_inj' heq rfl
    obtain rfl := List.singleton_inj.1 hlast
    exact h
  · exact fun h => ⟨front, name, rfl, h⟩

theorem taken_concat_iff : Taken path t (front ++ [name]) ↔
    ∃ found, Counts path t front name found ∧ isDefinitionName name = true := by
  simp only [Taken, exists_and_left]
  exact exists_concat_iff

theorem intended_concat_iff : Intended t (front ++ [name]) ↔
    ∃ bytes, t.find (front ++ [name]) = .ok (.file bytes) ∧ NamesDocument name ∧ ¬ NamesTemplate name := by
  simp only [Intended, exists_and_left]
  exact exists_concat_iff

/-- an entry is found where it is looked for, and only there, unless it is a misfit -/
theorem taken_iff_intended_iff : (Taken path t (front ++ [name]) ↔ Intended t (front ++ [name])) ↔
    ¬ Misfit path t front name := by
  rw [taken_concat_iff, intended_concat_iff]
  constructor
  · intro h hmisfit
    cases hmisfit with
    | template bytes counts named begins noText =>
      obtain ⟨-, -, -, hnone⟩ := h.1 ⟨_, counts, isDefinitionName_iff.2 ⟨named, fun _ => noText⟩⟩
      exact hnone begins
    | special answer counts named =>
      obtain ⟨bytes, hfile, -⟩ := h.1 ⟨_, counts, named⟩
      cases counts.stands.symm.trans hfile
    | directory inner counts named =>
      obtain ⟨bytes, hfile, -⟩ := h.1 ⟨_, counts, named⟩
      cases counts.stands.symm.trans hfile
    | missed bytes found unlisted named noTemplate =>
      obtain ⟨_, counts, -⟩ := h.2 ⟨bytes, found, named, noTemplate⟩
      exact unlisted counts.listed
  · intro hfits
    constructor
    · rintro ⟨found, counts, hname⟩
      cases found with
      | file bytes =>
        obtain ⟨named, htemplate⟩ := isDefinitionName_iff.1 hname
        exact ⟨bytes, counts.stands, named, fun begins => hfits (.template bytes counts named begins (htemplate begins))⟩
      | directory inner => exact absurd (.directory inner counts hname) hfits
      | special answer => exact absurd (.special answer counts hname) hfits
    · rintro ⟨bytes, hfile, named, noTemplate⟩
      have hlisted : (path.below front).fault? = none :=
        not_not.1 fun unlisted => hfits (.missed bytes hfile unlisted named noTemplate)
      exact ⟨_, ⟨hfile, hlisted, fun _ h => by cases h⟩, isDefinitionName_iff.2 ⟨named, fun h => absurd h noTemplate⟩⟩

/-- what is found is what is looked for exactly if there is no misfit -/
theorem taken_exact_iff :
    (∀ names, Taken path t names ↔ Intended t names) ↔ ∀ front name, ¬ Misfit path t front name := by
  simp only [← taken_iff_intended_iff]
  refine ⟨fun h front name => h _, fun h names => ⟨fun htaken => ?_, fun hintended => ?_⟩⟩
  · obtain ⟨front, name, -, rfl, -⟩ := id htaken
    exact (h front name).1 htaken
  · obtain ⟨front, name, -, rfl, -⟩ := id hintended
    exact (h front name).2 hintended

/-! ## The definition files of a root -/

/-- what the definition files of a root are, given the entries of its directory of definitions -/
structure Discovers (r : DefinitionsRoot) (tree : FileTree) (entries : List (FileName × FileTree))
    (paths : List FilePath) : Prop where
  /-- the entries that count, at any depth and whatever the directories around them are called -/
  mem : ∀ path, path ∈ paths ↔ ∃ names, path = r.filePath names ∧ Taken r.definitionsPath (.directory entries) names
  /-- in the order of the paths, name by name -/
  increasing : paths.Pairwise fun p q => pathKey p.names < pathKey q.names
  once : paths.Nodup
  /-- each path leads to its entry, if it is not too long -/
  leads : ∀ names found, r.filePath names ∈ paths → (FileTree.directory entries).find names = .ok found →
    (r.filePath names).fault? = none → tree.get (r.filePath names) = .ok found
  /-- they are what is looked for exactly if there is no misfit -/
  exact_iff : (∀ path, path ∈ paths ↔ ∃ names, path = r.filePath names ∧ Intended (.directory entries) names) ↔
    ∀ front name, ¬ Misfit r.definitionsPath (.directory entries) front name

variable {r : DefinitionsRoot} {tree : FileTree}

theorem definitionPaths_eq (hget : tree.get r.definitionsPath = .ok (.directory entries)) :
    r.definitionPaths tree = .ok ((sortPaths (pathsAmong r.definitionsPath entries)).map r.filePath) := by
  rw [definitionPaths, definitionNames, hget]
  rfl

theorem filePath_injective (r : DefinitionsRoot) : Function.Injective r.filePath :=
  fun _ _ h => (FilePath.mk.inj h).2

theorem filePath_eq_below (r : DefinitionsRoot) (names : List FileName) :
    r.filePath names = FilePath.below r.definitionsPath names := rfl

/-- paths are what is looked for exactly if their names are, for all names -/
theorem paths_exact_iff {paths : List FilePath} {P Q : List FileName → Prop}
    (hmem : ∀ path, path ∈ paths ↔ ∃ names, path = r.filePath names ∧ P names) :
    (∀ path, path ∈ paths ↔ ∃ names, path = r.filePath names ∧ Q names) ↔ ∀ names, P names ↔ Q names := by
  simp only [hmem]
  constructor
  · intro h names
    simpa only [r.filePath_injective.eq_iff, exists_eq_left'] using h (r.filePath names)
  · exact fun h path => exists_congr fun names => and_congr_right fun _ => h names

theorem discovers_sortPaths (hget : tree.get r.definitionsPath = .ok (.directory entries))
    (hlisted : Listed (.directory entries)) :
    r.Discovers tree entries ((sortPaths (pathsAmong r.definitionsPath entries)).map r.filePath) := by
  obtain ⟨⟨done, hlocate, -⟩, -⟩ := FileTree.get_eq_ok_iff.1 hget
  obtain ⟨hpath, -, -⟩ := FileTree.locate_eq_ok_iff.1 hlocate
  have hmem : ∀ path, path ∈ (sortPaths (pathsAmong r.definitionsPath entries)).map r.filePath ↔
      ∃ names, path = r.filePath names ∧ Taken r.definitionsPath (.directory entries) names := by
    intro path
    rw [List.mem_map]
    refine exists_congr fun names => ?_
    rw [(sortPaths_perm _).mem_iff, ← mem_pathsBelow_iff hlisted hpath, and_comm, eq_comm]
    rfl
  have hincreasing : ((sortPaths (pathsAmong r.definitionsPath entries)).map r.filePath).Pairwise
      fun p q => pathKey p.names < pathKey q.names := by
    rw [List.pairwise_map]
    refine (sortPaths_increasing (nodup_pathsBelow hlisted r.definitionsPath)).imp fun {p q} hlt => ?_
    simp only [filePath_eq_below, FilePath.names_below, pathKey, List.map_append]
    exact List.append_left_lt hlt
  refine ⟨hmem, hincreasing, hincreasing.imp fun hlt heq => ?_, fun names found _ hfind hfault => ?_, ?_⟩
  · rw [heq] at hlt
    exact List.lt_irrefl _ hlt
  · rw [filePath_eq_below] at hfault ⊢
    exact FileTree.get_below hget (hlisted.ne_up hfind) hfault hfind
  · exact (paths_exact_iff hmem).trans taken_exact_iff

/-- **The definition files of a root.** They do not depend on the order in which directories list their entries. Where
these are listed under different names, each of the files is there once, in order, and leads to its entry; and the files
are those that are looked for exactly if no entry is a misfit. -/
theorem definitionPaths_exact (r : DefinitionsRoot) (tree : FileTree) (entries : List (FileName × FileTree))
    (hget : tree.get r.definitionsPath = .ok (.directory entries)) :
    ∃ paths, r.definitionPaths tree = .ok paths ∧
      (∀ other others, other.get r.definitionsPath = .ok (.directory others) →
        Reordered (.directory entries) (.directory others) → r.definitionPaths other = .ok paths) ∧
      (Listed (.directory entries) → r.Discovers tree entries paths) := by
  refine ⟨_, definitionPaths_eq hget, fun other others hother hreordered => ?_, discovers_sortPaths hget⟩
  have hperm : (pathsAmong r.definitionsPath entries).Perm (pathsAmong r.definitionsPath others) :=
    (pathsBelow_reordered hreordered).1 r.definitionsPath
  rw [definitionPaths_eq hother, sortPaths_eq_of_perm hperm]

/-! ## Roots with entries that fit, and with others -/

def scatteredRoot : DefinitionsRoot := ⟨"defs"⟩

def treeOf (entries : List (FileName × FileTree)) : FileTree :=
  .directory [("defs", .directory [("definitions", .directory entries)])]

/-- files at two depths, some of them templates or no documents, and a directory that is called as a template is -/
def scattered : List (FileName × FileTree) := [
  ("b.json", .file []), ("notes.md", .file []), ("a-b.json", .file []),
  ("TEMPLATE.json", .directory [("c.yml", .file [])]),
  ("a", .directory [("TEMPLATE_y.json", .file []), ("x.yaml", .file [])])]

/-- the same in another order, at both depths -/
def rescattered : List (FileName × FileTree) := [
  ("a", .directory [("x.yaml", .file []), ("TEMPLATE_y.json", .file [])]),
  ("TEMPLATE.json", .directory [("c.yml", .file [])]),
  ("a-b.json", .file []), ("notes.md", .file []), ("b.json", .file [])]

theorem reordered_scattered : Reordered (.directory scattered) (.directory rescattered) :=
  .trans (.list (List.reverse_perm scattered).symm) (.entry [] "a" _ (.list (List.Perm.swap _ _ _)))

theorem listed_scattered : Listed (.directory scattered) := by
  refine .directory (by decide) (by decide) fun e he => ?_
  simp only [scattered, List.mem_cons, List.not_mem_nil, or_false] at he
  rcases he with rfl | rfl | rfl | rfl | rfl
  · exact .file _
  · exact .file _
  · exact .file _
  · refine .directory (by decide) (by decide) fun e he => ?_
    obtain rfl := List.mem_singleton.1 he
    exact .file _
  · refine .directory (by decide) (by decide) fun e he => ?_
    simp only [List.mem_cons, List.not_mem_nil, or_false] at he
    rcases he with rfl | rfl
    · exact .file _
    · exact .file _

/-- Both orders give one list. A directory that is named as a template is gone into, and so is one whose name stands in
front of that of a file. -/
theorem definitionPaths_exact_scattered : ∃ paths,
    scatteredRoot.definitionPaths (treeOf scattered) = .ok paths ∧
    scatteredRoot.definitionPaths (treeOf rescattered) = .ok paths ∧
    scatteredRoot.Discovers (treeOf scattered) scattered paths ∧
    scatteredRoot.filePath ["TEMPLATE.json", "c.yml"] ∈ paths ∧ scatteredRoot.filePath ["a", "x.yaml"] ∈ paths := by
  obtain ⟨paths, hpaths, hsame, hdiscovers⟩ :=
    definitionPaths_exact scatteredRoot (treeOf scattered) scattered rfl
  have hd := hdiscovers listed_scattered
  refine ⟨paths, hpaths, hsame (treeOf rescattered) rescattered rfl reordered_scattered, hd, ?_, ?_⟩
  · exact (hd.mem _).2 ⟨_, rfl, ["TEMPLATE.json"], "c.yml", .file [], rfl, ⟨rfl, rfl, by simp⟩,
      by decide⟩
  · exact (hd.mem _).2 ⟨_, rfl, ["a"], "x.yaml", .file [], rfl, ⟨rfl, rfl, by simp⟩, by decide +kernel⟩

/-- begins as a template is named, and is no text -/
def noTextName : FileName := ⟨encode "TEMPLATE" ++ [0xFF] ++ encode ".json"⟩

/-- such a template, and what is no file -/
def strange : List (FileName × FileTree) := [(noTextName, .file []), ("pipe.json", .special (.ok []))]

/-- the directory `defs`, with so many steps in front that lead nowhere else -/
def stepped : Nat → String
  | 0 => "defs"
  | n + 1 => "." ++ String.singleton '/' ++ stepped n

def steppedRoot (steps : Nat) : DefinitionsRoot := ⟨stepped steps⟩

/-- a file in a directory that is called as a file is -/
def deep : List (FileName × FileTree) := [("d.json", .directory [("a.json", .file [])])]

theorem definitionsPath_stepped (n : Nat) :
    (steppedRoot n).definitionsPath = stepped n ++ String.singleton '/' ++ "definitions" := by
  have hlast : ∃ front, stepped n = front ++ "defs" := by
    induction n with
    | zero => exact ⟨"", rfl⟩
    | succ n ih =>
      obtain ⟨front, hfront⟩ := ih
      exact ⟨"." ++ String.singleton '/' ++ front, by simp only [stepped, hfront, String.append_assoc]⟩
  obtain ⟨front, hfront⟩ := hlast
  have hslash : (stepped n).toList.getLast? ≠ some '/' := by simp [hfront]
  rw [definitionsPath, steppedRoot, FilePath.join, if_neg (by simp [hfront]), if_neg hslash]
  rfl

theorem pieces_stepped (n : Nat) :
    FilePath.pieces (stepped n ++ String.singleton '/' ++ "definitions") = ["defs", "definitions"] := by
  have hpieces : (Text.pieces '/' (stepped n)).filter (fun p => p ≠ "" && p ≠ ".") = ["defs"] := by
    induction n with
    | zero => decide
    | succ n ih =>
      rw [stepped, Text.pieces_append, List.filter_append, ih]
      decide
  have habsolute : FilePath.isAbsolute (stepped n ++ String.singleton '/' ++ "definitions") = false := by
    cases n <;> simp [FilePath.isAbsolute, stepped]
  rw [FilePath.pieces, habsolute, Text.pieces_append, List.filter_append, hpieces]
  decide

/-- none of the bytes is zero, and each step takes two -/
theorem encode_stepped (n : Nat) : 0 ∉ encode (stepped n) ∧ (encode (stepped n)).length = 2 * n + 4 := by
  induction n with
  | zero => decide
  | succ n ih =>
    have hstep : encode ("." ++ String.singleton '/') = [0x2E, 0x2F] := by decide
    rw [stepped, Text.Utf8.encode_append, hstep]
    constructor
    · simpa using ih.1
    · rw [List.length_append, ih.2, List.length_cons, List.length_singleton]
      omega

section deep

variable {n : Nat}

theorem encode_definitionsPath_stepped (n : Nat) :
    encode (steppedRoot n).definitionsPath = encode (stepped n) ++ encode "/definitions" := by
  have hbehind : String.singleton '/' ++ "definitions" = "/definitions" := by decide
  rw [definitionsPath_stepped, String.append_assoc, Text.Utf8.encode_append, hbehind]

/-- the directory of definitions can be listed, and the path of the directory in it is too long -/
theorem fault?_stepped (hleast : 2037 ≤ n) (hmost : n ≤ 2039) :
    FilePath.fault? (steppedRoot n).definitionsPath = none ∧
      (FilePath.below (steppedRoot n).definitionsPath ["d.json"]).fault? ≠ none := by
  have hbytes : FilePath.bytes (steppedRoot n).definitionsPath = encode (stepped n) ++ encode "/definitions" :=
    encode_definitionsPath_stepped n
  have hbehind : 0 ∉ encode "/definitions" ∧ (encode "/definitions").length = 12 := by decide
  obtain ⟨hzero, hlength⟩ := encode_stepped n
  have hlimit : FilePath.limit = 4095 := rfl
  constructor
  · rw [FilePath.fault?_eq_none_iff, hbytes, List.mem_append, List.length_append, hlength, hbehind.2, hlimit]
    exact ⟨not_or.2 ⟨hzero, hbehind.1⟩, by omega⟩
  · intro hfault
    obtain ⟨-, hlong⟩ := FilePath.fault?_eq_none_iff.1 hfault
    have hname : (FileName.ofText "d.json").bytes.length = 6 := by decide
    have hbelow : (FilePath.bytes (steppedRoot n).definitionsPath).length + (FileName.ofText "d.json").bytes.length ≤
        (FilePath.below (steppedRoot n).definitionsPath ["d.json"]).bytes.length := by
      simp only [FilePath.bytes, FilePath.below, List.nil_append, List.foldl_cons, List.foldl_nil, List.length_append]
      omega
    rw [hbytes, List.length_append, hlength, hbehind.2, hname] at hbelow
    omega

theorem get_stepped (hleast : 2037 ≤ n) (hmost : n ≤ 2039) :
    (treeOf deep).get (steppedRoot n).definitionsPath = .ok (.directory deep) := by
  have hnames : FilePath.names (steppedRoot n).definitionsPath = ["defs", "definitions"] := by
    rw [FilePath.names, definitionsPath_stepped, pieces_stepped]
    rfl
  have hempty : ((steppedRoot n).definitionsPath : FilePath) ≠ "" := by
    intro hempty
    have htext : (steppedRoot n).definitionsPath = "" := congrArg FilePath.text hempty
    rw [definitionsPath_stepped] at htext
    simp at htext
  refine FileTree.get_eq_ok_iff.2 ⟨⟨["defs", "definitions"], ?_, rfl⟩, fun _ => ⟨deep, rfl⟩⟩
  refine FileTree.locate_eq_ok_iff.2 ⟨(fault?_stepped hleast hmost).1, hempty, ?_⟩
  rw [hnames]
  exact FileTree.resolve_names (by decide)

end deep

theorem listed_strange : Listed (.directory strange) := by
  refine .directory (by decide) (by decide) fun e he => ?_
  simp only [strange, List.mem_cons, List.not_mem_nil, or_false] at he
  rcases he with rfl | rfl
  · exact .file _
  · exact .special _

theorem listed_deep : Listed (.directory deep) := by
  refine .directory (by decide) (by decide) fun e he => ?_
  obtain rfl := List.mem_singleton.1 he
  refine .directory (by decide) (by decide) fun e he => ?_
  obtain rfl := List.mem_singleton.1 he
  exact .file _

/-- A template whose name is no text is a definition file, and so is a pipe, and a directory whose path is too long. A
file in this directory is none. -/
theorem definitionPaths_misfits :
    (∃ paths, scatteredRoot.definitionPaths (treeOf strange) = .ok paths ∧
      (scatteredRoot.filePath [noTextName] ∈ paths ∧ ¬ Intended (.directory strange) [noTextName]) ∧
      scatteredRoot.filePath ["pipe.json"] ∈ paths ∧ ¬ Intended (.directory strange) ["pipe.json"]) ∧
    ∃ paths, (steppedRoot 2038).definitionPaths (treeOf deep) = .ok paths ∧
      ((steppedRoot 2038).filePath ["d.json"] ∈ paths ∧ ¬ Intended (.directory deep) ["d.json"]) ∧
      (steppedRoot 2038).filePath ["d.json", "a.json"] ∉ paths ∧ Intended (.directory deep) ["d.json", "a.json"] := by
  constructor
  · have hd := @discovers_sortPaths strange scatteredRoot (treeOf strange) rfl listed_strange
    refine ⟨_, definitionPaths_eq rfl, ⟨?_, fun h => ?_⟩, ?_, fun h => ?_⟩
    · exact (hd.mem _).2 ⟨_, rfl, [], noTextName, .file [], rfl, ⟨rfl, rfl, by simp⟩, by decide +kernel⟩
    · obtain ⟨-, -, -, hnone⟩ := (@intended_concat_iff _ _ []).1 h
      exact hnone (List.isPrefixOf_iff_prefix.1 (by decide))
    · exact (hd.mem _).2 ⟨_, rfl, [], "pipe.json", .special (.ok []), rfl, ⟨rfl, rfl, by simp⟩,
        by decide +kernel⟩
    · obtain ⟨bytes, hfile, -⟩ := (@intended_concat_iff _ _ []).1 h
      cases hfile
  · obtain ⟨hlisted, hunknown⟩ := @fault?_stepped 2038 (by decide) (by decide)
    have hget := @get_stepped 2038 (by decide) (by decide)
    generalize steppedRoot 2038 = r at *
    have hd := discovers_sortPaths hget listed_deep
    refine ⟨_, definitionPaths_eq hget, ⟨?_, fun h => ?_⟩, fun h => ?_, ?_⟩
    · exact (hd.mem _).2 ⟨_, rfl, [], "d.json", _, rfl, ⟨rfl, hlisted, fun _ _ => hunknown⟩, by decide +kernel⟩
    · obtain ⟨bytes, hfile, -⟩ := (@intended_concat_iff _ _ []).1 h
      cases hfile
    · obtain ⟨names, heq, htaken⟩ := (hd.mem _).1 h
      obtain rfl := r.filePath_injective heq
      obtain ⟨found, hcounts, -⟩ := (@taken_concat_iff _ _ _ ["d.json"]).1 htaken
      exact hunknown hcounts.listed
    · refine ⟨["d.json"], "a.json", [], rfl, rfl, isDocumentName_iff.1 (by decide +kernel), fun h => ?_⟩
      exact absurd (List.isPrefixOf_iff_prefix.2 h) (by decide)

end DefinitionsRoot

end PixelAudit
