/-
What is left of a source that is refused.

The records of a source are taken in one by one, and nothing is taken back at a fault. So the tree is then what the
records before the fault alone would have made of it: their families are declared, with the refused source for their
source. Only if none of these records is new, or if the source is no mapping at all, is the tree as it was.

Main results: `exists_fault` (the record at which a source is refused), `addRecords_eq_ok` (the tree is as it was
exactly if no record is new), `refusal_of_addSource` (what is left of any source that is refused).
-/
import PixelAudit.Proofs.Catalog.Shape
import Mathlib.Tactic

namespace PixelAudit

namespace Catalog

/-- what records leave in the tree of which none is refused -/
structure Leaves (c next : Catalog) (origin : String) (records : List (String × Json)) (count : Nat) : Prop where
  accepted : c.addSource origin (.object records) = (next, .ok count)
  counted : next.root.terminalCount = c.root.terminalCount + count
  declared : ∀ name, next.HasFamily name ↔ c.HasFamily name ∨ name ∈ records.map Prod.fst
  unchanged : next.root = c.root ↔ ∀ name ∈ records.map Prod.fst, c.HasFamily name
  kept : c.Keeps next
  /-- a family that was not there before has this source -/
  sourced : ∀ name n, next.root.get? name = some n → n.isTerminal = true → ¬ c.HasFamily name → n.origin = some origin

/-- how a source is refused, and what is left of it -/
inductive Refusal (c next : Catalog) (origin : String) : Json → AuditError → Prop where
  | form {records : Json} (form : ∀ entries, records ≠ .object entries) (unchanged : next = c) :
    Refusal c next origin records (.definition origin .sourceNotMapping)
  | record {before after : List (String × Json)} {name : String} {record : Json} {e : AuditError} {count : Nat}
    (refused : next.addRecord origin name record = .error e) (left : c.Leaves next origin before count) :
    Refusal c next origin (.object (before ++ (name, record) :: after)) e

variable {c next : Catalog} {origin : String} {records : List (String × Json)} {added count : Nat}

/-- a source is refused at one of its records, and those before it are all taken in -/
theorem exists_fault {e : AuditError} (h : c.addRecords origin added records = (next, .error e)) :
    ∃ before name record after count, records = before ++ (name, record) :: after ∧
      c.addRecords origin added before = (next, .ok count) ∧ next.addRecord origin name record = .error e := by
  induction records generalizing c added with
  | nil => cases h
  | cons entry rest ih =>
    obtain ⟨name, record⟩ := entry
    rw [Catalog.addRecords] at h
    cases hanswer : c.addRecord origin name record with
    | error fault =>
      rw [hanswer] at h
      obtain ⟨rfl, rfl⟩ : c = next ∧ fault = e := by simpa using h
      exact ⟨[], name, record, rest, added, rfl, rfl, hanswer⟩
    | ok r =>
      obtain ⟨grown, isNew⟩ := r
      rw [hanswer] at h
      obtain ⟨before, name', record', after, count, rfl, hbefore, hfault⟩ := ih h
      refine ⟨(name, record) :: before, name', record', after, count, rfl, ?_, hfault⟩
      rw [Catalog.addRecords, hanswer]
      exact hbefore

/-- of records that are taken in, each new one counts, and if none is new the tree is as it was -/
theorem addRecords_eq_ok (hc : c.root.Ordered) (h : c.addRecords origin added records = (next, .ok count)) :
    added ≤ count ∧ count + c.root.terminalCount = added + next.root.terminalCount ∧ (count = added → next = c) := by
  induction records generalizing c added with
  | nil =>
    obtain ⟨rfl, rfl⟩ : c = next ∧ added = count := by simpa [Catalog.addRecords] using h
    exact ⟨le_rfl, rfl, fun _ => rfl⟩
  | cons entry rest ih =>
    obtain ⟨grown, isNew, hanswer, hrest⟩ := addRecords_cons_eq_ok h
    obtain ⟨-, definition, -, hinsert, hgrown⟩ := addRecord_eq_ok hanswer
    obtain ⟨hle, hcount, hsame⟩ := ih (hc.insert hinsert) hrest
    have hterminal := terminalCount_addRecord hc hanswer
    cases isNew with
    | true =>
      simp only [if_true] at hle hcount hterminal
      exact ⟨by omega, by omega, by omega⟩
    | false =>
      simp only [Bool.false_eq_true, if_false] at hle hcount hsame hterminal
      refine ⟨hle, by omega, fun hnone => ?_⟩
      rw [hsame hnone, hgrown, Node.insert_eq_self hc hinsert]

/-- records that are all taken in are all in the log -/
theorem names_taken (h : c.addRecords origin added records = (next, .ok count)) :
    (c.taken origin records).map Acceptance.name = records.map Prod.fst := by
  induction records generalizing c added with
  | nil => rfl
  | cons entry rest ih =>
    obtain ⟨grown, isNew, hanswer, hrest⟩ := addRecords_cons_eq_ok h
    obtain ⟨-, definition, hread, -, -⟩ := addRecord_eq_ok hanswer
    rw [taken, hanswer, hread]
    exact congrArg (entry.1 :: ·) (ih hrest)

/-- each record that is taken in is entered with its source -/
theorem origin_of_mem_taken {a : Acceptance} (h : a ∈ c.taken origin records) : a.origin = origin := by
  induction records generalizing c with
  | nil => cases h
  | cons entry rest ih =>
    obtain ⟨name, record⟩ := entry
    rw [taken] at h
    split at h
    · rcases List.mem_cons.1 h with rfl | h
      · rfl
      · exact ih h
    · cases h

theorem Reachable.exists_traces (hc : c.Reachable) : ∃ log, c.Traces log := by
  obtain ⟨commonParams, commonSuffixes, sources, rfl⟩ := hc
  exact ⟨_, (traces_new commonParams commonSuffixes).addSources sources⟩

/-- the tree has grown by the names of the records that were not there before -/
theorem Reachable.leaves (hc : c.Reachable) (h : c.addRecords origin 0 records = (next, .ok count)) :
    c.Leaves next origin records count := by
  obtain ⟨-, hcount, hsame⟩ := addRecords_eq_ok hc.ordered h
  obtain ⟨log, hlog⟩ := hc.exists_traces
  have hnext : next.Traces (log ++ c.taken origin records) := by
    have hrecords := hlog.addRecords origin 0 records
    rwa [h] at hrecords
  have hdeclared : ∀ name, next.HasFamily name ↔ c.HasFamily name ∨ name ∈ records.map Prod.fst := by
    intro name
    rw [hnext.hasFamily_iff, hlog.hasFamily_iff, ← names_taken h, List.map_append, List.mem_append]
  refine ⟨h, by omega, hdeclared, ⟨?_, ?_⟩, hlog.keeps hnext, ?_⟩
  · intro hroot name hname
    have hfamily := (hdeclared name).2 (Or.inr hname)
    rwa [HasFamily, hroot] at hfamily
  · intro hold
    -- there are as many names as before, so no record counts
    have hnames : ((log ++ c.taken origin records).map Acceptance.name).toFinset =
        (log.map Acceptance.name).toFinset := by
      ext name
      rw [List.mem_toFinset, List.mem_toFinset, ← hnext.hasFamily_iff, ← hlog.hasFamily_iff, hdeclared]
      exact or_iff_left_of_imp (hold name)
    have hterminal := hnext.counted
    rw [hnames, ← hlog.counted] at hterminal
    rw [hsame (by omega)]
  · intro name n hn hterminal hnew
    obtain ⟨a, ha⟩ := hnext.exists_first hn hterminal
    obtain ⟨m, hm, -, horigin⟩ := hnext.exists_node ha
    obtain rfl : n = m := Option.some.inj (hn.symm.trans hm)
    -- the log of before has no entry of this name
    rw [hlog.hasFamily_iff, ← firstOf_isSome_iff, Option.not_isSome_iff_eq_none] at hnew
    rw [firstOf_append, hnew, Option.none_or] at ha
    rw [horigin, origin_of_mem_taken (List.mem_of_find?_eq_some ha)]

/-- A source that is no mapping leaves the tree as it was. Of any other source that is refused, the records before the
fault stay in the tree: it is as it was exactly if none of them declares a new family. -/
theorem refusal_of_addSource (c : Catalog) (hc : c.Reachable) (origin : String) (records : Json) (next : Catalog)
    (e : AuditError) (h : c.addSource origin records = (next, .error e)) : c.Refusal next origin records e := by
  cases records with
  | object entries =>
    obtain ⟨before, name, record, after, count, rfl, hbefore, hfault⟩ := exists_fault h
    exact .record hfault (hc.leaves hbefore)
  | _ =>
    obtain ⟨rfl, rfl⟩ : c = next ∧ AuditError.definition origin .sourceNotMapping = e := by
      simpa [Catalog.addSource] using h
    exact .form (fun entries heq => nomatch heq) rfl

/-- a record of a family with one owner -/
def ownedBy (owner : String) : Json := .object [("owners", .array [.string owner])]

/-- one family -/
def appSource : Source := ⟨"a.json", .object [("app", ownedBy "t")]⟩

/-- two families, and a record that is no definition -/
def halfSource : Json := .object [("app", ownedBy "t"), ("app.page", ownedBy "t"), ("b", .string "t")]

/-- a source is refused at its last record, after one that declares a family once more and one that is new -/
theorem refusal_half : ∃ next,
    ((new ∅ ∅).addSources [appSource]).addSource "b.json" halfSource = (next, .error (.definition "b" .notObject)) ∧
      ((new ∅ ∅).addSources [appSource]).Refusal next "b.json" halfSource (.definition "b" .notObject) := by
  refine ⟨_, rfl, ?_⟩
  exact refusal_of_addSource _ ⟨∅, ∅, [appSource], rfl⟩ "b.json" halfSource _ _ rfl

/-- Of a source that is refused a family stays: it is in the tree and is compiled, and a source that declares it
otherwise is in conflict with the one that was refused. -/
theorem refused_source_leaves_family :
    ((new ∅ ∅).addSource "a.json" halfSource).2 = .error (.definition "b" .notObject) ∧
      ((new ∅ ∅).addSource "a.json" halfSource).1.root ≠ (new ∅ ∅).root ∧
      ((CompiledCatalog.build ((new ∅ ∅).addSource "a.json" halfSource).1.root {}).toOption.map fun compiled =>
        (compiled.lookup "app").family.isSome) = some true ∧
      (((new ∅ ∅).addSource "a.json" halfSource).1.addSource "b.json" (.object [("app", ownedBy "u")])).2 =
        .error (.conflict "app" "a.json" "b.json") := by
  refine ⟨rfl, ?_, ?_, rfl⟩
  · intro hroot
    have hcount := congrArg Node.terminalCount hroot
    revert hcount
    decide +kernel
  · decide +kernel

end Catalog

end PixelAudit
