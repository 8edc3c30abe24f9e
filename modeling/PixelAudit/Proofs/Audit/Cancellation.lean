/-
A run that is told to stop, and the rows on both sides of where it stopped.

Before each row the run may be told to stop. What it has come to then is what a run that is never told to stop comes to
over the rows before. A row reads the notes and the report only and adds to the counters, so that a run over the other
rows may start where it stopped, with counters of its own: notes and report come out as if there had been no stop, and
the counters of both runs add up.

Main results: `loop_handles` (which rows a run handles, and what it has come to), `step_onto` (a row adds to the
counters), `run_cancelled` (a run that is told to stop, against runs over the rows before and after).
-/
import PixelAudit.Proofs.Audit.RowAccounts
import PixelAudit.Proofs.Csv.Written
import Mathlib.Tactic

namespace PixelAudit

namespace RunState

/-- told to stop or not -/
def marked (s : RunState) (aborted : Bool) : RunState := { s with stats := { s.stats with aborted } }

/-- with the rows counted on from those of an earlier run -/
def onto (earlier : RunStats) (s : RunState) : RunState :=
  { s with stats := {
      rows := earlier.rows + s.stats.rows
      malformedRows := earlier.malformedRows + s.stats.malformedRows
      aborted := s.stats.aborted } }

end RunState

namespace LiveRun

variable {v : Validator} {places : ColumnPlaces} {columns : LiveColumns} {stopped : Nat → Bool} {source : Csv.Source}
  {head : Csv.Record} {headers : List String} {rows : List Csv.Record} {notes : Notes} {report : Report} {s : RunState}

/-! ## One row, and some -/

theorem step_rows (v : Validator) (places : ColumnPlaces) (s : RunState) (row : Csv.Record) :
    (step v places s row).stats.rows = s.stats.rows + 1 := by
  unfold step
  cases event? places row <;> rfl

/-- a row adds to the counters, whatever they count already -/
theorem step_onto (earlier : RunStats) (s : RunState) (row : Csv.Record) :
    step v places (s.onto earlier) row = (step v places s row).onto earlier := by
  unfold step
  cases event? places row <;> rfl

theorem foldl_step_onto (earlier : RunStats) (s : RunState) (rows : List Csv.Record) :
    rows.foldl (step v places) (s.onto earlier) = (rows.foldl (step v places) s).onto earlier :=
  List.foldl_hom (RunState.onto earlier) fun s row => step_onto earlier s row

theorem foldl_step_stats (v : Validator) (places : ColumnPlaces) (s : RunState) (rows : List Csv.Record) :
    (rows.foldl (step v places) s).stats.rows = s.stats.rows + rows.length ∧
      (rows.foldl (step v places) s).stats.aborted = s.stats.aborted := by
  induction rows generalizing s with
  | nil => exact ⟨rfl, rfl⟩
  | cons row rest ih =>
    obtain ⟨hrows, haborted⟩ := ih (step v places s row)
    rw [List.foldl_cons, hrows, haborted, step_rows, step_aborted, List.length_cons]
    exact ⟨by omega, rfl⟩

theorem handles_nil {aborted : Bool} (hstop : aborted = stopped 0) (hwhole : aborted = false → rows = []) :
    Handles stopped rows [] aborted where
  front := List.nil_prefix
  going := fun k hk => absurd hk (Nat.not_lt_zero k)
  stopping := hstop
  whole := fun h => (hwhole h).symm

/-- one row more in front -/
theorem Handles.cons {row : Csv.Record} {handled : List Csv.Record} {aborted : Bool}
    (h : Handles (fun k => stopped (k + 1)) rows handled aborted) (hgo : stopped 0 = false) :
    Handles stopped (row :: rows) (row :: handled) aborted where
  front := (List.cons_prefix_cons).2 ⟨rfl, h.front⟩
  going := by
    intro k hk
    cases k with
    | zero => exact hgo
    | succ k => exact h.going k (Nat.lt_of_succ_lt_succ hk)
  stopping := h.stopping
  whole := fun hfalse => congrArg (row :: ·) (h.whole hfalse)

/-- A run handles a front part of the rows, one by one, and then it is told to stop or they end. -/
theorem loop_handles (haborted : s.stats.aborted = false) (rows : List Csv.Record) :
    ∃ handled aborted, loop v places stopped s rows = (handled.foldl (step v places) s).marked aborted ∧
      Handles (fun k => stopped (s.stats.rows + k)) rows handled aborted := by
  have hstay : s = s.marked false := by rw [← haborted]; rfl
  induction rows generalizing s with
  | nil =>
    refine ⟨[], stopped s.stats.rows, ?_, handles_nil rfl fun _ => rfl⟩
    rw [loop]
    split_ifs with hstop
    · rw [hstop]
      rfl
    · rw [Bool.not_eq_true] at hstop
      rw [hstop]
      exact hstay
  | cons row rest ih =>
    rw [loop]
    split_ifs with hstop
    · exact ⟨[], true, rfl, handles_nil hstop.symm fun hfalse => Bool.noConfusion hfalse⟩
    · have hgoes := (step_aborted v places s row).trans haborted
      obtain ⟨handled, aborted, hloop, hhandles⟩ := ih hgoes (by rw [← hgoes]; rfl)
      rw [step_rows] at hhandles
      simp only [Nat.add_right_comm _ 1] at hhandles
      exact ⟨row :: handled, aborted, hloop, hhandles.cons (Bool.not_eq_true _ ▸ hstop)⟩

/-- a run that is told to stop has come to what the rows before come to -/
theorem loop_front (haborted : s.stats.aborted = true) (h : loop v places stopped { notes, report } rows = s) :
    s.stats.rows ≤ rows.length ∧ (∀ k < s.stats.rows, stopped k = false) ∧ stopped s.stats.rows = true ∧
      (rows.take s.stats.rows).foldl (step v places) { notes, report } = s.marked false := by
  obtain ⟨handled, aborted, hloop, hhandles⟩ := @loop_handles v places stopped { notes, report } rfl rows
  obtain ⟨hcount, hgoes⟩ := foldl_step_stats v places { notes, report } handled
  obtain rfl : aborted = true := by rw [← haborted, ← h, hloop]; rfl
  have hrows : s.stats.rows = handled.length := by
    rw [← h, hloop]
    exact hcount.trans (Nat.zero_add _)
  have hhandled : rows.take s.stats.rows = handled := by
    rw [hrows]
    exact (List.prefix_iff_eq_take.1 hhandles.front).symm
  have hgoing := hhandles.going
  have hstopping := hhandles.stopping
  simp only [Nat.zero_add] at hgoing hstopping
  rw [← hrows] at hgoing hstopping
  refine ⟨hrows ▸ hhandles.front.length_le, hgoing, hstopping.symm, ?_⟩
  rw [hhandled, ← h, hloop]
  exact congrArg (RunState.marked _) hgoes

/-- from there the other rows lead to what all rows lead to -/
theorem foldl_back {start : RunState} {n : Nat} (h : (rows.take n).foldl (step v places) start = s.marked false) :
    rows.foldl (step v places) start =
      ((rows.drop n).foldl (step v places) { notes := s.notes, report := s.report }).onto s.stats := by
  rw [← foldl_step_onto, ← List.take_append_drop n rows, List.foldl_append, List.take_append_drop, h]
  rfl

/-! ## Whole exports -/

theorem header_eq (hrecords : source.records = head :: rows) (hheaders : Csv.Record.texts? head = some headers) :
    header source = .ok (headers, rows) := by
  rw [header, hrecords]
  simp only [hheaders]

/-- a run over an export whose first record names the columns -/
theorem run_eq (hrecords : source.records = head :: rows) (hheaders : Csv.Record.texts? head = some headers)
    (hplaces : LiveRun.places columns headers = .ok places) (notes : Notes) (report : Report) :
    run v columns source stopped notes report = (loop v places stopped { notes, report } rows,
      if (loop v places stopped { notes, report } rows).stats.aborted then none
      else source.failure.map fun message => ⟨.file (.other message),
        [.readingRow ((loop v places stopped { notes, report } rows).stats.rows + 1)]⟩) := by
  rw [run, header_eq hrecords hheaders]
  simp only [hplaces]
  cases source.failure with
  | none => simp
  | some message =>
    simp only [Option.map_some]
    split_ifs <;> rfl

/-- a run over such an export that is never told to stop -/
theorem run_never (hrecords : source.records = head :: rows) (hheaders : Csv.Record.texts? head = some headers)
    (hplaces : LiveRun.places columns headers = .ok places) (notes : Notes) (report : Report) :
    (run v columns source (fun _ => false) notes report).1 = rows.foldl (step v places) { notes, report } := by
  rw [run_eq hrecords hheaders hplaces, loop_never]

theorem run_holds (h : source.Holds (head :: rows)) (hheaders : Csv.Record.texts? head = some headers)
    (hplaces : LiveRun.places columns headers = .ok places) (notes : Notes) (report : Report) :
    run v columns source (fun _ => false) notes report = (rows.foldl (step v places) { notes, report }, none) := by
  rw [run_eq h.records hheaders hplaces, loop_never, h.ends, Option.map_none, ite_self]

/-- only a run over such an export is told to stop -/
theorem exists_of_aborted (h : (run v columns source stopped notes report).1.stats.aborted = true) :
    ∃ head rows headers places, source.records = head :: rows ∧ Csv.Record.texts? head = some headers ∧
      LiveRun.places columns headers = .ok places := by
  unfold run at h
  cases hheader : header source with
  | error f =>
    rw [hheader] at h
    cases h
  | ok table =>
    obtain ⟨headers, rows⟩ := table
    rw [hheader] at h
    cases hplaces : LiveRun.places columns headers with
    | error cause =>
      simp only [hplaces] at h
      cases h
    | ok places =>
      unfold header at hheader
      split at hheader
      · cases hheader
      · obtain ⟨rfl, rfl⟩ := Prod.mk.inj (Except.ok.inj hheader)
        cases hplaces
      · rename_i head rest hrecords
        split at hheader
        · rename_i found hheaders
          obtain ⟨rfl, rfl⟩ := Prod.mk.inj (Except.ok.inj hheader)
          exact ⟨head, rest, found, places, hrecords, hheaders, hplaces⟩
        · cases hheader

/-- what a run that is told to stop has come to, against runs over the rows before and after that are not -/
structure CutShort (v : Validator) (columns : LiveColumns) (source : Csv.Source) (stopped : Nat → Bool)
    (notes : Notes) (report : Report) (s : RunState) (head : Csv.Record) (rows : List Csv.Record) : Prop where
  records : source.records = head :: rows
  handled : s.stats.rows ≤ rows.length
  going : ∀ k < s.stats.rows, stopped k = false
  stopping : stopped s.stats.rows = true
  /-- the rows before -/
  front : ∀ first : Csv.Source, first.Holds (head :: rows.take s.stats.rows) →
    run v columns first (fun _ => false) notes report = (s.marked false, none)
  /-- the rows after, against all rows -/
  back : ∀ rest : Csv.Source, rest.Holds (head :: rows.drop s.stats.rows) → ∃ t,
    run v columns rest (fun _ => false) s.notes s.report = (t, none) ∧
      (run v columns source (fun _ => false) notes report).1 = t.onto s.stats
  /-- exports of these rows -/
  parts : (∃ first : Csv.Source, first.Holds (head :: rows.take s.stats.rows)) ∧
    ∃ rest : Csv.Source, rest.Holds (head :: rows.drop s.stats.rows)

/-- **A run that is told to stop is a run over the rows before.** It has come to what a run over an export of these rows
only comes to; and a run over an export of the other rows that goes on from there comes to what a run over all rows
comes to, the rows of both counted together. -/
theorem run_cancelled (v : Validator) (columns : LiveColumns) (source : Csv.Source) (stopped : Nat → Bool)
    (notes : Notes) (report : Report) {s : RunState} {failure : Option Failure}
    (h : run v columns source stopped notes report = (s, failure)) (haborted : s.stats.aborted = true) :
    failure = none ∧ ∃ head rows, CutShort v columns source stopped notes report s head rows := by
  have hstopped : (run v columns source stopped notes report).1.stats.aborted = true := by
    rw [h]
    exact haborted
  obtain ⟨head, rows, headers, places, hrecords, hheaders, hplaces⟩ := exists_of_aborted hstopped
  rw [run_eq hrecords hheaders hplaces] at h
  obtain ⟨hloop, rfl⟩ := Prod.mk.inj h
  obtain ⟨hhandled, hgoing, hstopping, hfront⟩ := loop_front haborted hloop
  have hback := foldl_back hfront
  have hpart : ∀ part ⊆ rows, ∃ t : Csv.Source, t.Holds (head :: part) := fun part hpart =>
    Csv.Source.exists_holds (s := source) (by rw [hrecords]; exact List.cons_subset_cons head hpart)
  refine ⟨if_pos (by rw [hloop]; exact haborted), head, rows, ?_⟩
  exact {
    records := hrecords
    handled := hhandled
    going := hgoing
    stopping := hstopping
    front := fun first hfirst => by rw [run_holds hfirst hheaders hplaces, hfront]
    back := fun rest hrest =>
      ⟨_, run_holds hrest hheaders hplaces _ _, by rw [run_never hrecords hheaders hplaces, hback]⟩
    parts := ⟨hpart _ (List.take_subset _ _), hpart _ (List.drop_subset _ _)⟩ }

/-- told to stop before the fourth row, a run has come to what the first three rows come to, one of them malformed -/
theorem run_cancelled_mixed :
    ∃ s head rows, run (Validator.bareWorker (.limit 0)) {} mixedExport (· == 3) {} {} = (s, none) ∧
      s.stats = ⟨3, 1, true⟩ ∧
      CutShort (Validator.bareWorker (.limit 0)) {} mixedExport (· == 3) {} {} s head rows := by
  have hstats : (run (Validator.bareWorker (.limit 0)) {} mixedExport (· == 3) {} {}).1.stats = ⟨3, 1, true⟩ := by
    decide +kernel
  obtain ⟨hanswer, head, rows, hcut⟩ :=
    run_cancelled (Validator.bareWorker (.limit 0)) {} mixedExport (· == 3) {} {} rfl (congrArg RunStats.aborted hstats)
  exact ⟨_, head, rows, Prod.ext rfl hanswer, hstats, hcut⟩

end LiveRun

end PixelAudit
