/-
What directories list.

A directory lists its entries in some order that nothing depends on, and under different names. None of these is the
name for the directory above.

Main results: `lookup_iff_of_nodup` (an entry is found under its name), `FileTree.Listed.ne_up` (names that lead on from
a tree are those of entries).
-/
import PixelAudit.Proofs.Files.Paths

namespace PixelAudit

/-- where names are different, an entry is found under its name -/
theorem lookup_iff_of_nodup {α β : Type} [DecidableEq α] {es : List (α × β)} (h : (es.map Prod.fst).Nodup) {key : α}
    {value : β} : es.lookup key = some value ↔ (key, value) ∈ es := by
  rw [List.lookup_eq_some_iff]
  constructor
  · rintro ⟨before, after, rfl, -⟩
    exact List.mem_append_right _ List.mem_cons_self
  · intro hmem
    obtain ⟨before, after, rfl⟩ := List.append_of_mem hmem
    refine ⟨before, after, rfl, fun e he => ?_⟩
    rw [List.map_append, List.map_cons, List.nodup_append] at h
    exact bne_iff_ne.2 (h.2.2 _ (List.mem_map_of_mem he) _ List.mem_cons_self).symm

namespace FileTree

/-- the same files, where directories may list their entries in another order -/
inductive Reordered : FileTree → FileTree → Prop
  | refl (tree : FileTree) : Reordered tree tree
  /-- a directory lists its entries in another order -/
  | list {es fs : List (FileName × FileTree)} (hperm : es.Perm fs) : Reordered (.directory es) (.directory fs)
  /-- an entry of a directory does so, or one below it -/
  | entry {s t : FileTree} (before : List (FileName × FileTree)) (name : FileName)
      (after : List (FileName × FileTree)) (hentry : Reordered s t) :
      Reordered (.directory (before ++ (name, s) :: after)) (.directory (before ++ (name, t) :: after))
  | trans {s t u : FileTree} (hfirst : Reordered s t) (hsecond : Reordered t u) : Reordered s u

/-- what directories list: different names, none of which is that for the directory above -/
inductive Listed : FileTree → Prop
  | file (bytes : List UInt8) : Listed (.file bytes)
  | special (answer : Except FileFault (List UInt8)) : Listed (.special answer)
  | directory {entries : List (FileName × FileTree)} (hdistinct : (entries.map Prod.fst).Nodup)
      (hnames : ∀ e ∈ entries, e.1 ≠ FilePath.up) (hentries : ∀ e ∈ entries, Listed e.2) : Listed (.directory entries)

theorem Listed.ne_up {tree found : FileTree} {names : List FileName} (h : Listed tree)
    (hfind : tree.find names = .ok found) : ∀ n ∈ names, n ≠ FilePath.up := by
  induction names generalizing tree with
  | nil => exact List.forall_mem_nil _
  | cons name rest ih =>
    obtain ⟨entries, child, rfl, hchild, hrest⟩ := exists_entry_of_find hfind
    cases h with
    | directory hdistinct hnames hentries =>
      have hmem := (lookup_iff_of_nodup hdistinct).1 hchild
      exact List.forall_mem_cons.2 ⟨hnames _ hmem, ih (hentries _ hmem) hrest⟩

end FileTree

end PixelAudit
