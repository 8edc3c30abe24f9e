/-
The rows of an export, each of them accounted for once.

A row is an event or malformed. What a run has come to is told by the rows that it has handled (`Leaves`): they are
counted, the malformed ones among them are counted, the notes are those of the events, and the report is the one on the
outcomes of the events. One row keeps this (`step_leaves`), and so does a run, at whatever row it is told to stop
(`loop_leaves`).

The notes, the report and the counters of the rows are kept apart. As all three tell the same events they agree
(`Leaves.balanced`): no row is counted twice or lost on the way through one of them.

Main results: `loop_leaves` (which rows a run handles, and what they leave), `run_balanced` (the accounts of a whole
export).
-/
import PixelAudit.Audit.Results
import PixelAudit.Proofs.Audit.Aggregation
import PixelAudit.Proofs.Audit.History
import PixelAudit.Proofs.Audit.Merging
import Mathlib.Tactic

namespace PixelAudit

namespace LiveRun

variable {v : Validator} {places : ColumnPlaces} {stopped : Nat → Bool} {handled rows : List Csv.Record} {s : RunState}

/-- the events among rows -/
def eventsOf (places : ColumnPlaces) (rows : List Csv.Record) : List RawEvent := rows.filterMap (event? places)

/-! ## What rows leave -/

/-- a run that has handled these rows, starting with nothing noted, has come to this -/
structure Leaves (v : Validator) (places : ColumnPlaces) (handled : List Csv.Record) (s : RunState) : Prop where
  rows : s.stats.rows = handled.length
  malformed : s.stats.malformedRows = handled.countP fun row => (event? places row).isNone
  notes : s.notes = v.run {} (eventsOf places handled)
  report : s.report = .foldAll {} ((eventsOf places handled).map v.judge)

theorem leaves_nil (v : Validator) (places : ColumnPlaces) : Leaves v places [] {} :=
  ⟨rfl, rfl, rfl, rfl⟩

/-- to be told to stop changes nothing of it -/
theorem Leaves.aborted (h : Leaves v places handled s) (aborted : Bool) :
    Leaves v places handled { s with stats := { s.stats with aborted } } :=
  ⟨h.rows, h.malformed, h.notes, h.report⟩

theorem eventsOf_concat (handled : List Csv.Record) (row : Csv.Record) :
    eventsOf places (handled ++ [row]) = eventsOf places handled ++ (event? places row).toList := by
  rw [eventsOf, List.filterMap_append]
  cases h : event? places row <;> simp [eventsOf, h]

/-- one row more -/
theorem step_leaves (h : Leaves v places handled s) (row : Csv.Record) :
    Leaves v places (handled ++ [row]) (step v places s row) := by
  unfold step
  cases hrow : event? places row with
  | none =>
    have hevents : eventsOf places (handled ++ [row]) = eventsOf places handled := by
      rw [eventsOf_concat, hrow, Option.toList_none, List.append_nil]
    refine ⟨?_, ?_, ?_, ?_⟩
    · simp [h.rows]
    · simp [h.malformed, hrow]
    · rw [hevents]
      exact h.notes
    · rw [hevents]
      exact h.report
  | some e =>
    have hevents : eventsOf places (handled ++ [row]) = eventsOf places handled ++ [e] := by
      rw [eventsOf_concat, hrow, Option.toList_some]
    refine ⟨?_, ?_, ?_, ?_⟩
    · simp [h.rows]
    · simp [h.malformed, hrow]
    · rw [hevents, Validator.run_append, ← h.notes]
      rfl
    · rw [hevents, List.map_append, Report.foldAll_append, ← h.report]
      rfl

theorem step_aborted (v : Validator) (places : ColumnPlaces) (s : RunState) (row : Csv.Record) :
    (step v places s row).stats.aborted = s.stats.aborted := by
  unfold step
  cases event? places row <;> rfl

/-- Of these rows a run handles a front part: it goes on as long as it is not told to stop, and stops if it is. -/
structure Handles (stopped : Nat → Bool) (rows handled : List Csv.Record) (aborted : Bool) : Prop where
  front : handled <+: rows
  going : ∀ k < handled.length, stopped k = false
  stopping : aborted = stopped handled.length
  whole : aborted = false → handled = rows

/-- which rows a run handles, and what they leave, after those that it has handled already -/
theorem loop_leaves (h : Leaves v places handled s) (hgoing : ∀ k < handled.length, stopped k = false)
    (haborted : s.stats.aborted = false) (rows : List Csv.Record) :
    ∃ all, Leaves v places all (loop v places stopped s rows) ∧
      Handles stopped (handled ++ rows) all (loop v places stopped s rows).stats.aborted := by
  induction rows generalizing s handled with
  | nil =>
    refine ⟨handled, ?_⟩
    rw [loop, List.append_nil]
    split_ifs with hstop
    · rw [h.rows] at hstop
      exact ⟨h.aborted true, List.prefix_refl handled, hgoing, hstop.symm, fun hfalse => Bool.noConfusion hfalse⟩
    · rw [h.rows, Bool.not_eq_true] at hstop
      exact ⟨h, List.prefix_refl handled, hgoing, haborted.trans hstop.symm, fun _ => rfl⟩
  | cons row rest ih =>
    rw [loop]
    split_ifs with hstop
    · rw [h.rows] at hstop
      exact ⟨handled, h.aborted true, List.prefix_append handled _, hgoing, hstop.symm,
        fun hfalse => Bool.noConfusion hfalse⟩
    · rw [h.rows, Bool.not_eq_true] at hstop
      have hnext : ∀ k < (handled ++ [row]).length, stopped k = false := by
        intro k hk
        rw [List.length_append, List.length_singleton, Nat.lt_succ_iff_lt_or_eq] at hk
        rcases hk with hk | rfl
        · exact hgoing k hk
        · exact hstop
      obtain ⟨all, hleaves, hhandles⟩ :=
        ih (step_leaves h row) hnext ((step_aborted v places s row).trans haborted)
      rw [List.append_assoc, List.singleton_append] at hhandles
      exact ⟨all, hleaves, hhandles⟩

end LiveRun

/-! ## Accounts that agree -/

/-- what a run has come to, with its summary, agrees with itself -/
structure RunState.Balanced (s : RunState) (declared : Node) : Prop where
  /-- a row is malformed or counts as one event -/
  rows : s.stats.rows = s.stats.malformedRows + s.report.totalEvents
  /-- the totals of the summary are the counts of the four verdicts -/
  counts : ∀ verdict : Verdict, (s.summary declared).totals.find? verdict.text = some (s.report.count verdict)
  totals : (s.summary declared).totals.values.sum = s.report.totalEvents
  failing : ∀ family, s.notes.faults.contains family = true ↔
    ∃ counts, s.report.families.find? family = some counts ∧ 0 < counts.failed
  undocumented : s.notes.undocumented = ∅ ↔ s.report.undocumented = 0
  undocumented_le : s.notes.undocumented.size ≤ s.report.undocumented

namespace Summary

theorem entries_totalsOf (report : Report) : (totalsOf report).entries = [
    ("OLD_APP_VERSION", report.count .oldAppVersion), ("UNDOCUMENTED", report.count .undocumented),
    ("VALIDATION_FAILED", report.count .failed), ("VALIDATION_PASSED", report.count .passed)] := by
  simp only [totalsOf, Verdict.all, Verdict.text, Dict.ofList, Entries.ofList, Entries.insert, List.map_cons,
    List.map_nil, List.foldl_cons, List.foldl_nil, String.reduceLT, String.reduceEq, if_true, if_false]

theorem find?_totalsOf (report : Report) (verdict : Verdict) :
    (totalsOf report).find? verdict.text = some (report.count verdict) := by
  rw [Dict.find?, entries_totalsOf]
  cases verdict <;> simp [Entries.find?, Verdict.text]

theorem sum_totalsOf (report : Report) :
    (totalsOf report).values.sum = report.undocumented + report.tally FamilyCounts.total := by
  rw [Dict.values, entries_totalsOf, Report.tally_total]
  simp only [List.map_cons, List.map_nil, List.sum_cons, List.sum_nil, Report.count]
  omega

end Summary

namespace Validator

/-- a family has notes on its faults exactly if an event of it failed -/
theorem contains_run_faults_iff (v : Validator) (events : List RawEvent) (family : String) :
    (v.run {} events).faults.contains family = true ↔
      ∃ e ∈ events, (v.judge e).verdict = .failed ∧ (v.judge e).family = family := by
  have hrecorded := v.run_recorded events
  rw [hrecorded.families]
  constructor
  · rintro ⟨descriptor, hdescriptor⟩
    obtain ⟨e, he, hverdict, hfamily, -⟩ := (hrecorded.kinds family descriptor).1 hdescriptor
    exact ⟨e, he, hverdict, hfamily⟩
  · rintro ⟨e, he, hverdict, hfamily⟩
    obtain ⟨f, hf⟩ := List.exists_mem_of_ne_nil _ ((v.findings_judge_ne_nil_iff e).2 hverdict)
    exact ⟨f.descriptor, (hrecorded.kinds family f.descriptor).2 ⟨e, he, hverdict, hfamily, f, hf, rfl⟩⟩

end Validator

/-- a report counts failed events of a family exactly if there is one -/
theorem Report.Describes.failed_iff {r : Report} {outcomes : List Outcome} (h : r.Describes outcomes)
    (family : String) : (∃ counts, r.families.find? family = some counts ∧ 0 < counts.failed) ↔
      ∃ o ∈ outcomes, o.verdict = .failed ∧ o.family = family := by
  have hfailed : (r.families.getD family {}).failed =
      outcomes.countP fun o => o.verdict = .failed ∧ o.family = family := h.counts .failed family Verdict.noConfusion
  have hfound : (∃ counts, r.families.find? family = some counts ∧ 0 < counts.failed) ↔
      0 < (r.families.getD family {}).failed := by
    rw [Dict.getD]
    cases r.families.find? family with
    | none => simp
    | some counts => simp
  rw [hfound, hfailed, List.countP_pos_iff]
  simp only [decide_eq_true_eq]

namespace LiveRun

variable {v : Validator} {places : ColumnPlaces} {stopped : Nat → Bool} {handled rows : List Csv.Record} {s : RunState}

theorem length_eq_malformed_add (places : ColumnPlaces) (rows : List Csv.Record) :
    rows.length = (rows.countP fun row => (event? places row).isNone) + (eventsOf places rows).length := by
  have hevent : ∀ row, (decide ¬(event? places row).isNone = true) = (event? places row).isSome := by
    intro row
    cases event? places row <;> rfl
  rw [eventsOf, List.length_filterMap_eq_countP, List.length_eq_countP_add_countP fun row => (event? places row).isNone]
  simp only [hevent]

/-- what rows leave agrees with itself -/
theorem Leaves.balanced (h : Leaves v places handled s) (declared : Node) : s.Balanced declared := by
  have hdescribes := Report.foldAll_describes ((eventsOf places handled).map v.judge)
  have htotal := Report.totalEvents_eq ((eventsOf places handled).map v.judge)
  have hnames := (v.run_recorded (eventsOf places handled)).undocumented
  rw [← h.report] at hdescribes htotal
  rw [← h.notes] at hnames
  have hundocumented : s.report.undocumented =
      (((eventsOf places handled).filter fun e => (v.judge e).verdict = .undocumented).map v.eventName).length := by
    rw [hdescribes.undocumented, List.countP_map, List.length_map, List.countP_eq_length_filter]
    rfl
  refine ⟨?_, Summary.find?_totalsOf s.report, ?_, ?_, ?_, ?_⟩
  · rw [h.rows, h.malformed, hdescribes.events, List.length_map]
    exact length_eq_malformed_add places handled
  · exact (Summary.sum_totalsOf s.report).trans htotal.symm
  · intro family
    rw [hdescribes.failed_iff, h.notes, v.contains_run_faults_iff]
    simp only [List.mem_map, exists_exists_and_eq_and]
  · rw [hnames, NameSet.ofList_eq_empty_iff, hundocumented, List.length_eq_zero_iff]
  · rw [hnames, hundocumented]
    exact NameSet.size_ofList_le _

/-- A run over a whole export handles its rows up to the one at which it is told to stop, and all of them if it is not.
Each row that it handles is malformed or one event, and is accounted for once: by the counters of the rows, the totals
of the summary, the report, and the notes. -/
theorem run_balanced (v : Validator) (columns : LiveColumns) (source : Csv.Source) (stopped : Nat → Bool) {s : RunState}
    (h : run v columns source stopped {} {} = (s, none)) :
    (∃ headers rows places handled, header source = .ok (headers, rows) ∧
        LiveRun.places columns headers = .ok places ∧ Handles stopped rows handled s.stats.aborted ∧
        Leaves v places handled s) ∧
      ∀ declared, s.Balanced declared := by
  have haccounts : ∃ headers rows places handled, header source = .ok (headers, rows) ∧
      LiveRun.places columns headers = .ok places ∧ Handles stopped rows handled s.stats.aborted ∧
      Leaves v places handled s := by
    unfold run at h
    split at h
    · cases h
    · rename_i headers rows hheader
      split at h
      · cases h
      · rename_i found hplaces
        have hstate : loop v found stopped {} rows = s := by
          dsimp only at h
          split at h
          · split_ifs at h
            · exact (Prod.mk.inj h).1
            · cases (Prod.mk.inj h).2
          · exact (Prod.mk.inj h).1
        obtain ⟨handled, hleaves, hhandles⟩ :=
          @loop_leaves v found stopped [] {} (leaves_nil v found) (fun k hk => absurd hk (Nat.not_lt_zero k)) rfl rows
        rw [hstate] at hleaves hhandles
        exact ⟨headers, rows, found, handled, hheader, hplaces, hhandles, hleaves⟩
  obtain ⟨headers, rows, found, handled, hheader, hplaces, hhandles, hleaves⟩ := haccounts
  exact ⟨⟨headers, rows, found, handled, hheader, hplaces, hhandles, hleaves⟩, hleaves.balanced⟩

/-- four rows: a failed event twice, one without a family, and one without a name -/
def mixedExport : Csv.Source := { bytes := "pixel,params\napp,p=1\nother,\n ,p=2\napp,p=3\n".toUTF8.toList }

/-- told to stop before the fourth row, a run has handled three, one of them malformed -/
theorem run_balanced_mixed :
    CompiledCatalog.build ((Catalog.new ∅ ∅).addSources Validator.bareSources).root {} = .ok Validator.bareCatalog ∧
      ∃ s, run (Validator.bareWorker (.limit 0)) {} mixedExport (· == 3) {} {} = (s, none) ∧
        s.stats = ⟨3, 1, true⟩ ∧ ∀ declared, s.Balanced declared := by
  have hanswer : (run (Validator.bareWorker (.limit 0)) {} mixedExport (· == 3) {} {}).2 = none := by decide +kernel
  have hstats : (run (Validator.bareWorker (.limit 0)) {} mixedExport (· == 3) {} {}).1.stats = ⟨3, 1, true⟩ := by
    decide +kernel
  have hrun := run_balanced (Validator.bareWorker (.limit 0)) {} mixedExport (· == 3) (Prod.ext rfl hanswer)
  exact ⟨Validator.build_bareSources, _, Prod.ext rfl hanswer, hstats, hrun.2⟩

end LiveRun

end PixelAudit
