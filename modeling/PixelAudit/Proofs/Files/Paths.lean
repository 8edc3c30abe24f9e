/-
Paths that go on with the names of entries.

A path below a directory has the names of that of the directory and then those that lead on from there, and it leads to
what these lead to. All it takes is that the path is not too long, and that no name is that for the directory above. The
names need not be text: what a name begins with, and what its extension is, can be told from its bytes.

Main results: `FileName.extension?_eq_some_iff` (what the extension of a name is), `FilePath.fault?_of_below` (a path
that can lead somewhere begins with such a path), `FileTree.get_below` (what stands under a path below that of a
directory).
-/
import PixelAudit.Files.Tree
import PixelAudit.Proofs.Text.Utf8
import Mathlib.Data.List.TakeWhile
import Mathlib.Tactic

namespace PixelAudit

namespace FileName

variable {name : FileName}

theorem text?_eq_some_iff {text : String} : name.text? = some text ↔ name.bytes = Text.Utf8.encode text := by
  rw [← Text.Utf8.decode_eq_ok_iff, text?]
  cases Text.Utf8.decode name.bytes <;> simp [Except.toOption]

/-- what the extension of a name is -/
theorem extension?_eq_some_iff {extension : String} : name.extension? = some extension ↔
    ∃ stem, stem ≠ [] ∧ point ∉ Text.Utf8.encode extension ∧
      name.bytes = stem ++ point :: Text.Utf8.encode extension := by
  have hspan := List.span_eq_takeWhile_dropWhile (· != point) name.bytes.reverse
  constructor
  · intro h
    unfold extension? at h
    rw [hspan] at h
    split at h
    · rename_i after first c stem heq
      obtain ⟨hafter, hrest⟩ := Prod.mk.inj heq
      have hpoint : first = point := by
        have hstop := List.head?_dropWhile_not (· != point) name.bytes.reverse
        rw [hrest] at hstop
        simpa using hstop
      have hbytes : name.bytes.reverse = after ++ first :: c :: stem := by
        rw [← hafter, ← hrest, List.takeWhile_append_dropWhile]
      have hextension : after.reverse = Text.Utf8.encode extension := text?_eq_some_iff.1 h
      refine ⟨(c :: stem).reverse, by simp, ?_, ?_⟩
      · rw [← hextension, List.mem_reverse, ← hafter]
        intro hmem
        simpa using List.mem_takeWhile_imp hmem
      · rw [← hextension, ← hpoint, ← List.reverse_reverse name.bytes, hbytes]
        simp
    · cases h
  · rintro ⟨stem, hstem, hpoint, hbytes⟩
    obtain ⟨c, front, hfront⟩ := List.exists_cons_of_ne_nil (l := stem.reverse) (by simpa using hstem)
    have hreverse : name.bytes.reverse = (Text.Utf8.encode extension).reverse ++ point :: c :: front := by
      rw [hbytes, ← hfront]
      simp
    have hafter : ∀ d ∈ (Text.Utf8.encode extension).reverse, (d != point) = true := by
      intro d hd
      simpa using fun heq : d = point => hpoint (heq ▸ List.mem_reverse.1 hd)
    rw [extension?, List.span_eq_takeWhile_dropWhile, hreverse, List.takeWhile_append_of_pos hafter,
      List.dropWhile_append_of_pos hafter]
    simp [text?_eq_some_iff]

end FileName

namespace FilePath

/-- the path that goes on with names -/
def below (path : FilePath) (names : List FileName) : FilePath := { path with found := path.found ++ names }

variable (path : FilePath) (names : List FileName) (name : FileName)

@[simp] theorem below_nil : path.below [] = path := by rw [below, List.append_nil]

@[simp] theorem enter_below : (path.enter name).below names = path.below (name :: names) := by
  simp [below, enter, List.append_assoc]

theorem names_below : (path.below names).names = path.names ++ names := by
  simp only [FilePath.names, below, List.append_assoc]

theorem endsWithSlash_below (h : names ≠ []) : (path.below names).endsWithSlash = false := by
  simp [endsWithSlash, below, h]

theorem below_ne_empty (h : names ≠ []) : path.below names ≠ "" := by
  intro hempty
  have hfound : path.found ++ names = [] := congrArg FilePath.found hempty
  exact h (List.append_eq_nil_iff.1 hfound).2

theorem bytes_isPrefix_below : path.bytes <+: (path.below names).bytes := by
  have hfold : ∀ done : List UInt8, done <+: names.foldl (fun done name =>
      done ++ (if done.isEmpty || done.getLast? == some slash then [] else [slash]) ++ name.bytes) done := by
    induction names with
    | nil => exact List.prefix_refl
    | cons name rest ih =>
      intro done
      rw [List.foldl_cons, List.append_assoc]
      exact (List.prefix_append _ _).trans (ih _)
  rw [bytes, bytes, below, List.foldl_append]
  exact hfold _

theorem fault?_eq_none_iff {path : FilePath} :
    path.fault? = none ↔ 0 ∉ path.bytes ∧ path.bytes.length ≤ limit := by
  unfold fault?
  split_ifs with hzero hlength
  · simp_all
  · simp_all
  · simp_all

/-- a path that can lead somewhere begins with such a path -/
theorem fault?_of_below {path : FilePath} {names : List FileName} (h : (path.below names).fault? = none) :
    path.fault? = none := by
  obtain ⟨hzero, hlength⟩ := fault?_eq_none_iff.1 h
  have hbegins := path.bytes_isPrefix_below names
  exact fault?_eq_none_iff.2 ⟨fun hmem => hzero (hbegins.subset hmem), hbegins.length_le.trans hlength⟩

end FilePath

namespace FileTree

variable {tree found : FileTree} {entries : List (FileName × FileTree)} {path : FilePath}
  {below done reached : List FileName} {name : FileName}

theorem find_cons {child : FileTree} (hchild : entries.lookup name = some child) :
    (directory entries).find (name :: below) = child.find below := by
  simp only [find, hchild]

/-- names that lead on begin with that of an entry, and the others lead on from there -/
theorem exists_entry_of_find (hfind : tree.find (name :: below) = .ok found) :
    ∃ entries child, tree = .directory entries ∧ entries.lookup name = some child ∧ child.find below = .ok found := by
  cases tree with
  | directory entries =>
    cases hchild : entries.lookup name with
    | none =>
      simp only [find, hchild] at hfind
      cases hfind
    | some child =>
      rw [find_cons hchild] at hfind
      exact ⟨entries, child, rfl, hchild, hfind⟩
  | _ => cases hfind

/-- what stands under names that lead on from others -/
theorem find_append (hfind : tree.find done = .ok found) : tree.find (done ++ below) = found.find below := by
  induction done generalizing tree with
  | nil =>
    obtain rfl := Except.ok.inj hfind
    rfl
  | cons name rest ih =>
    obtain ⟨entries, child, rfl, hchild, hrest⟩ := exists_entry_of_find hfind
    rw [List.cons_append, find_cons hchild]
    exact ih hrest

/-- names lead on as they stand, unless one is for the directory above -/
theorem resolve_names (hnames : ∀ n ∈ below, n ≠ FilePath.up) : tree.resolve done below = .ok (done ++ below) := by
  induction below generalizing done with
  | nil => rw [resolve, List.append_nil]
  | cons name rest ih =>
    obtain ⟨hname, hrest⟩ := List.forall_mem_cons.1 hnames
    rw [resolve, if_neg hname, ih hrest, List.append_assoc, List.singleton_append]

theorem resolve_append {front : List FileName} (hfront : tree.resolve done front = .ok reached)
    (hnames : ∀ n ∈ below, n ≠ FilePath.up) : tree.resolve done (front ++ below) = .ok (reached ++ below) := by
  induction front generalizing done with
  | nil =>
    obtain rfl := Except.ok.inj hfront
    exact resolve_names hnames
  | cons name rest ih =>
    rw [List.cons_append]
    by_cases hname : name = FilePath.up
    · rw [resolve, if_pos hname] at hfront ⊢
      cases hfind : tree.find done with
      | error fault =>
        rw [hfind] at hfront
        cases hfront
      | ok t =>
        rw [hfind] at hfront
        cases t with
        | directory entries => exact ih hfront
        | _ => cases hfront
    · rw [resolve, if_neg hname] at hfront ⊢
      exact ih hfront

theorem locate_eq_ok_iff : tree.locate path = .ok done ↔
    path.fault? = none ∧ path ≠ "" ∧ tree.resolve [] path.names = .ok done := by
  unfold locate FilePath.checked
  cases hfault : path.fault? with
  | some fault => simp [bind, Except.bind]
  | none =>
    by_cases hempty : path = ""
    · simp [hempty, bind, Except.bind]
    · simp [hempty, bind, Except.bind]

/-- what stands under a path: a path that ends as that of a directory leads to nothing else -/
theorem get_eq_ok_iff : tree.get path = .ok found ↔
    (∃ done, tree.locate path = .ok done ∧ tree.find done = .ok found) ∧
      (path.endsWithSlash = true → ∃ entries, found = .directory entries) := by
  unfold FileTree.get
  cases hlocate : tree.locate path with
  | error fault => simp [bind, Except.bind]
  | ok done =>
    cases hfind : tree.find done with
    | error fault => simp [hfind, bind, Except.bind]
    | ok t =>
      have hother : (∀ entries, t ≠ .directory entries) →
          ((if path.endsWithSlash then .error .notDirectory else pure t : Except FileFault FileTree) = .ok found ↔
            t = found ∧ (path.endsWithSlash = true → ∃ entries, found = .directory entries)) := by
        intro hnone
        split_ifs with hslash
        · simp only [hslash, true_imp_iff, false_iff, not_and]
          rintro rfl ⟨entries, hentries⟩
          exact hnone entries hentries
        · simp [hslash, pure, Except.pure]
      cases t with
      | directory inner =>
        simp only [bind, Except.bind, hfind, pure, Except.pure, Except.ok.injEq, exists_eq_left']
        constructor
        · rintro rfl
          exact ⟨rfl, fun _ => ⟨inner, rfl⟩⟩
        · exact fun h => h.1
      | file bytes =>
        simp only [bind, Except.bind, hfind, Except.ok.injEq, exists_eq_left']
        exact hother fun _ h => by cases h
      | special answer =>
        simp only [bind, Except.bind, hfind, Except.ok.injEq, exists_eq_left']
        exact hother fun _ h => by cases h

/-- what stands under a path below that of a directory -/
theorem get_below (hget : tree.get path = .ok (.directory entries)) (hnames : ∀ n ∈ below, n ≠ FilePath.up)
    (hpath : (path.below below).fault? = none) (hfind : (directory entries).find below = .ok found) :
    tree.get (path.below below) = .ok found := by
  rcases eq_or_ne below [] with rfl | hbelow
  · obtain rfl := Except.ok.inj hfind
    rwa [FilePath.below_nil]
  obtain ⟨⟨done, hlocate, hdirectory⟩, -⟩ := get_eq_ok_iff.1 hget
  obtain ⟨-, -, hresolve⟩ := locate_eq_ok_iff.1 hlocate
  refine get_eq_ok_iff.2 ⟨⟨done ++ below, locate_eq_ok_iff.2 ⟨hpath, path.below_ne_empty below hbelow, ?_⟩, ?_⟩, ?_⟩
  · rw [FilePath.names_below]
    exact resolve_append hresolve hnames
  · rw [find_append hdirectory]
    exact hfind
  · rw [path.endsWithSlash_below below hbelow]
    exact fun hslash => absurd hslash Bool.false_ne_true

end FileTree

end PixelAudit
