/-
Which kinds of faults are listed after the notes of a worker have been taken over.

Merging goes example by example, so it brings over the kinds that have an example. A worker whose cap is zero lists the
kinds of its faults without any: noting a fault lists its kind before the cap is asked. What such a worker found is lost
in a merge, unless the receiver had found the same, while every other worker has an example of each kind that it lists.

The invariant is that a kind has an example if and only if it is listed and the cap admits one (`Exemplified`). It holds
of every table that validators can reach, whatever they judged and merged before (`Reached.exemplified`).

Main results: `lists_merge` (the kinds of merged notes), `merge_lists_iff` (when no kind is lost).
-/
import PixelAudit.Proofs.Audit.FanOut
import Mathlib.Tactic

namespace PixelAudit

namespace FaultTable

variable {cap : SampleCap} {table other : FaultTable}

/-- the table lists the kind of fault -/
def Lists (table : FaultTable) (family descriptor : String) : Prop :=
  (table.getD family ∅).contains descriptor = true

/-- an example is kept of the kind of fault -/
def HasSample (table : FaultTable) (family descriptor : String) : Prop :=
  ∃ sample, (table.kept family descriptor).contains sample = true

/-- a kind has an example exactly if it is listed and the cap admits one -/
def Exemplified (cap : SampleCap) (table : FaultTable) : Prop :=
  ∀ family descriptor, table.HasSample family descriptor ↔ cap.admits 0 = true ∧ table.Lists family descriptor

theorem exemplified_empty (cap : SampleCap) : Exemplified cap ∅ := by
  intro family descriptor
  constructor
  · rintro ⟨sample, hsample⟩
    cases hsample
  · rintro ⟨-, hlists⟩
    cases hlists

theorem lists_add (table : FaultTable) (x : Fault) (family descriptor : String) :
    (add cap table x).Lists family descriptor ↔
      table.Lists family descriptor ∨ (x.family = family ∧ x.descriptor = descriptor) := by
  rw [Lists, getD_add]
  by_cases hfamily : x.family = family
  · rw [if_pos hfamily, addFinding, Dict.contains_insert, or_comm]
    simp only [hfamily, true_and]
    rfl
  · rw [if_neg hfamily]
    simp only [hfamily, false_and, or_false]
    rfl

theorem lists_foldl_add (table : FaultTable) (xs : List Fault) (family descriptor : String) :
    (xs.foldl (add cap) table).Lists family descriptor ↔
      table.Lists family descriptor ∨ ∃ x ∈ xs, x.family = family ∧ x.descriptor = descriptor := by
  induction xs generalizing table with
  | nil => simp
  | cons x rest ih =>
    rw [List.foldl_cons, ih, lists_add, or_assoc]
    simp only [List.mem_cons, or_and_right, exists_or, exists_eq_left]

/-- a set that takes in an example is not empty afterwards, if the cap admits any -/
theorem exists_contains_keep (hcap : cap.admits 0 = true) (samples : NameSet) (sample : String) :
    ∃ s, (cap.keep samples sample).contains s = true := by
  rcases cap.contains_keep_or_full samples sample with hs | hfull
  · exact ⟨sample, hs⟩
  · exact SampleCap.exists_contains_of_full hcap hfull

theorem Exemplified.add (h : Exemplified cap table) (x : Fault) : Exemplified cap (add cap table x) := by
  intro family descriptor
  rw [lists_add, HasSample]
  by_cases hkind : x.family = family ∧ x.descriptor = descriptor
  · obtain ⟨rfl, rfl⟩ := hkind
    rw [kept_add_self]
    by_cases hcap : cap.admits 0 = true
    · exact iff_of_true (exists_contains_keep hcap _ x.sample) ⟨hcap, Or.inr ⟨rfl, rfl⟩⟩
    · -- without room for one example the set stays as it was, and that was empty
      have hfull : cap.admits (table.kept x.family x.descriptor).size = false :=
        SampleCap.not_admits_of_le (Nat.zero_le _) (Bool.not_eq_true _ ▸ hcap)
      rw [SampleCap.keep_of_full hfull]
      exact iff_of_false (fun hs => hcap ((h _ _).1 hs).1) fun hs => hcap hs.1
  · rw [kept_add_of_ne table x hkind]
    have hbefore := h family descriptor
    simp only [hkind, or_false]
    exact hbefore

theorem Exemplified.foldl (h : Exemplified cap table) (xs : List Fault) :
    Exemplified cap (xs.foldl (FaultTable.add cap) table) := by
  induction xs generalizing table with
  | nil => exact h
  | cons x rest ih => exact ih (h.add x)

theorem hasSample_iff_mem_faults (table : FaultTable) (family descriptor : String) :
    table.HasSample family descriptor ↔ ∃ x ∈ table.faults, x.family = family ∧ x.descriptor = descriptor := by
  constructor
  · rintro ⟨sample, hsample⟩
    exact ⟨⟨family, descriptor, sample⟩, (mem_faults_iff table _).2 hsample, rfl, rfl⟩
  · rintro ⟨x, hx, rfl, rfl⟩
    exact ⟨x.sample, (mem_faults_iff table x).1 hx⟩

/-! ## Tables up to families without kinds -/

/-- the same kinds of faults with the same examples -/
def SameKinds (table other : FaultTable) : Prop := ∀ family, table.getD family ∅ = other.getD family ∅

theorem SameKinds.lists (h : SameKinds table other) (family descriptor : String) :
    table.Lists family descriptor ↔ other.Lists family descriptor := by
  rw [Lists, Lists, h family]

theorem SameKinds.exemplified (h : SameKinds table other) (hother : Exemplified cap other) :
    Exemplified cap table := by
  intro family descriptor
  have hsample : table.HasSample family descriptor ↔ other.HasSample family descriptor := by
    rw [HasSample, HasSample, kept, kept, h family]
  rw [hsample, h.lists, hother]

theorem SameKinds.add (h : SameKinds table other) (x : Fault) : SameKinds (add cap table x) (add cap other x) := by
  intro family
  rw [getD_add, getD_add, h family]

theorem SameKinds.foldl (h : SameKinds table other) (xs : List Fault) :
    SameKinds (xs.foldl (FaultTable.add cap) table) (xs.foldl (FaultTable.add cap) other) := by
  induction xs generalizing table other with
  | nil => exact h
  | cons x rest ih => exact ih (h.add x)

/-- to note no findings lists the family, but no kind of fault -/
theorem sameKinds_record (h : SameKinds table other) (family : String) (findings : List Finding) :
    SameKinds (table.record cap family findings)
      ((findings.map fun f => (⟨family, f.descriptor, f.sample⟩ : Fault)).foldl (FaultTable.add cap) other) := by
  by_cases hnone : findings = []
  · subst hnone
    intro key
    rw [record, Dict.getD_insert]
    split_ifs with hkey
    · subst hkey
      exact h family
    · exact h key
  · rw [record_eq_foldl table family hnone]
    exact h.foldl _

instance (table : FaultTable) (family descriptor : String) : Decidable (table.Lists family descriptor) :=
  inferInstanceAs (Decidable (_ = true))

end FaultTable

/-- the notes that a validator can reach: it starts without any, judges events, and takes over those of others -/
inductive Reached : Validator → Notes → Prop
  | fresh (v : Validator) : Reached v {}
  | judged {v : Validator} {notes : Notes} (h : Reached v notes) (e : RawEvent) : Reached v (v.step notes e)
  | merged {v w : Validator} {notes other : Notes} (h : Reached v notes) (hw : Reached w other) :
      Reached v (v.merge notes other)

theorem Reached.run {v : Validator} {notes : Notes} (h : Reached v notes) (events : List RawEvent) :
    Reached v (v.run notes events) := by
  induction events generalizing notes with
  | nil => exact h
  | cons e rest ih => exact ih (h.judged e)

namespace Validator

open FaultTable

variable {v w : Validator} {notes other : Notes}

/-- but for families that are listed without a fault, a merge notes the examples of the other one by one -/
theorem sameKinds_merge (v : Validator) (notes other : Notes) :
    SameKinds (v.merge notes other).faults (other.faults.faults.foldl (FaultTable.add v.cap) notes.faults) := by
  simp only [merge, FaultTable.faults, List.foldl_flatMap]
  refine List.foldl_rel (fun family => rfl) fun entry _ table table' htable => ?_
  refine List.foldl_rel htable fun kind _ table table' htable => ?_
  have hrecord := @sameKinds_record v.cap _ _ htable entry.1 (findingsOf kind.1 kind.2)
  rwa [findingsOf, List.map_map] at hrecord

/-- merged notes list the kinds of the receiver, and of the other those that have an example -/
theorem lists_merge (v : Validator) (notes other : Notes) (family descriptor : String) :
    (v.merge notes other).faults.Lists family descriptor ↔
      notes.faults.Lists family descriptor ∨ other.faults.HasSample family descriptor := by
  rw [(v.sameKinds_merge notes other).lists, lists_foldl_add, hasSample_iff_mem_faults]

end Validator

open FaultTable Validator

/-- of what a validator can reach, a kind of fault has an example exactly if it is listed and the cap admits one -/
theorem Reached.exemplified {v : Validator} {notes : Notes} (h : Reached v notes) : Exemplified v.cap notes.faults := by
  induction h with
  | fresh v => exact exemplified_empty v.cap
  | judged _ e ih =>
    rw [step_faults]
    exact ih.foldl _
  | merged _ _ ih _ => exact (sameKinds_merge _ _ _).exemplified (ih.foldl _)

namespace Validator

theorem admits_zero_iff (cap : SampleCap) : cap.admits 0 = true ↔ cap ≠ .limit 0 := by
  cases cap with
  | keepAll => simp [SampleCap.admits]
  | limit most => simp [SampleCap.admits, Nat.pos_iff_ne_zero]

/-- Merged notes list the kinds of faults that the receiver listed and, unless the cap of the other worker is zero, those
that it listed. So no kind is lost if and only if that cap is not zero or the receiver lists all that the other does. -/
theorem merge_lists_iff (v : Validator) (notes : Notes) {w : Validator} {other : Notes} (hw : Reached w other) :
    (∀ family descriptor, (v.merge notes other).faults.Lists family descriptor ↔
        notes.faults.Lists family descriptor ∨ (w.cap ≠ .limit 0 ∧ other.faults.Lists family descriptor)) ∧
      ((∀ family descriptor, (v.merge notes other).faults.Lists family descriptor ↔
          notes.faults.Lists family descriptor ∨ other.faults.Lists family descriptor) ↔
        (w.cap = .limit 0 → ∀ family descriptor, other.faults.Lists family descriptor →
          notes.faults.Lists family descriptor)) := by
  have hlists : ∀ family descriptor, (v.merge notes other).faults.Lists family descriptor ↔
      notes.faults.Lists family descriptor ∨ (w.cap ≠ .limit 0 ∧ other.faults.Lists family descriptor) := by
    intro family descriptor
    rw [lists_merge, hw.exemplified, admits_zero_iff]
  refine ⟨hlists, fun hunion hcap family descriptor hother => ?_, fun hzero family descriptor => ?_⟩
  · have hmerged := (hlists family descriptor).1 ((hunion family descriptor).2 (Or.inr hother))
    exact hmerged.resolve_right fun hsecond => hsecond.1 hcap
  · rw [hlists]
    refine ⟨fun hmerged => hmerged.imp_right And.right, ?_⟩
    rintro (hfirst | hother)
    · exact Or.inl hfirst
    · by_cases hcap : w.cap = .limit 0
      · exact Or.inl (hzero hcap family descriptor hother)
      · exact Or.inr ⟨hcap, hother⟩

/-- one family without parameters -/
def bareSources : List Source := [⟨"defs.json", .object [("app", .object [("owners", .array [.string "t"])])]⟩]

def bareCatalog : CompiledCatalog :=
  { root := { children := [("app", { family := some {
      name := "app"
      owners := NameSet.ofList ["t"]
      minVersion := none
      schema := { params := {}, suffixes := .any } } })] } }

theorem build_bareSources :
    CompiledCatalog.build ((Catalog.new ∅ ∅).addSources bareSources).root {} = .ok bareCatalog := by
  rfl

/-- a worker for that family, with a cap -/
def bareWorker (cap : SampleCap) : Validator := { catalog := bareCatalog, cap }

/-- a worker with a cap of one brings over the kind of fault that it found -/
theorem merge_lists_iff_bare :
    CompiledCatalog.build ((Catalog.new ∅ ∅).addSources bareSources).root {} = .ok bareCatalog ∧
      ((bareWorker (.limit 0)).merge {} ((bareWorker (.limit 1)).run {} [⟨"app", "p=1", none⟩])).faults.Lists
        "app" "undocumented parameter 'p'" := by
  have hlists := merge_lists_iff (bareWorker (.limit 0)) {}
    ((Reached.fresh (bareWorker (.limit 1))).run [⟨"app", "p=1", none⟩])
  exact ⟨build_bareSources, (hlists.1 _ _).2 (Or.inr ⟨by decide, by decide +kernel⟩)⟩

/-- a worker with a cap of zero lists the kind of fault that it found, and the merge loses it -/
theorem merge_loses_kind :
    CompiledCatalog.build ((Catalog.new ∅ ∅).addSources bareSources).root {} = .ok bareCatalog ∧
      Reached (bareWorker (.limit 5)) {} ∧
      Reached (bareWorker (.limit 0)) ((bareWorker (.limit 0)).run {} [⟨"app", "p=1", none⟩]) ∧
      ((bareWorker (.limit 0)).run {} [⟨"app", "p=1", none⟩]).faults.Lists "app" "undocumented parameter 'p'" ∧
      ¬ ((bareWorker (.limit 5)).merge {} ((bareWorker (.limit 0)).run {} [⟨"app", "p=1", none⟩])).faults.Lists
        "app" "undocumented parameter 'p'" := by
  refine ⟨build_bareSources, Reached.fresh _, (Reached.fresh _).run _, ?_, ?_⟩
  · decide +kernel
  · decide +kernel

end Validator

end PixelAudit
