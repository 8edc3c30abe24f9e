/-
Records that are written and read back.

Any records that have fields can be written so that they are read back as they were: each field between quotes, the
quotes in it doubled. What is read from a source has fields, so the records of a source, or any of them in their order,
are the records of a source again.

Main results: `records_written` (written records are read back), `ne_nil_of_mem_records` (a record that is read has
fields), `exists_holds` (some of the records of a source are the records of another).
-/
import PixelAudit.Csv.Table
import Mathlib.Tactic

namespace PixelAudit.Csv

/-- the source is read to its end, and has these records -/
structure Source.Holds (s : Source) (records : List Record) : Prop where
  ends : s.failure = none
  records : s.records = records

/-! ## Writing -/

/-- the bytes of a field, each quote twice -/
def escaped (f : Field) : List UInt8 := f.flatMap fun b => if b = quote then [quote, quote] else [b]

/-- a field between quotes -/
def writtenField (f : Field) : List UInt8 := quote :: (escaped f ++ [quote])

/-- a record on a line of its own -/
def writtenRecord : Record → List UInt8
  | [] => []
  | [f] => writtenField f ++ [0x0A]
  | f :: fs => writtenField f ++ comma :: writtenRecord fs

def written (records : List Record) : List UInt8 := records.flatMap writtenRecord

/-! ## Reading back -/

variable {fields : List Field} {records : List Record} {mode : Mode}

theorem scan_escaped (f : Field) (read : List UInt8) :
    scan ⟨.inQuotes, read, fields, records⟩ (escaped f) = ⟨.inQuotes, f.reverse ++ read, fields, records⟩ := by
  induction f generalizing read with
  | nil => rfl
  | cons b f ih =>
    have hbyte : scan ⟨.inQuotes, read, fields, records⟩ (if b = quote then [quote, quote] else [b]) =
        ⟨.inQuotes, b :: read, fields, records⟩ := by
      split_ifs with hb
      · subst hb
        rfl
      · simp [scan, State.step, State.push, hb]
    rw [escaped, List.flatMap_cons, scan_append, hbyte, ← escaped, ih, List.reverse_cons, List.append_assoc,
      List.singleton_append]

/-- where a field may start, one between quotes is read -/
theorem scan_writtenField (hmode : mode = .recordStart ∨ mode = .fieldStart) (f : Field) :
    scan ⟨mode, [], fields, records⟩ (writtenField f) = ⟨.afterQuote, f.reverse, fields, records⟩ := by
  have hopen : State.step ⟨mode, [], fields, records⟩ quote = ⟨.inQuotes, [], fields, records⟩ := by
    rcases hmode with rfl | rfl <;> rfl
  have hscan : scan ⟨mode, [], fields, records⟩ (writtenField f) =
      scan (State.step ⟨mode, [], fields, records⟩ quote) (escaped f ++ [quote]) := rfl
  rw [hscan, hopen, scan_append, scan_escaped, List.append_nil]
  rfl

theorem scan_writtenRecord (hmode : mode = .recordStart ∨ mode = .fieldStart) {r : Record} (hr : r ≠ []) :
    scan ⟨mode, [], fields, records⟩ (writtenRecord r) =
      ⟨.recordStart, [], [], (fields.reverse ++ r) :: records⟩ := by
  induction r using writtenRecord.induct generalizing mode fields with
  | case1 => exact absurd rfl hr
  | case2 f =>
    rw [writtenRecord, scan_append, scan_writtenField hmode]
    simp [scan, State.step, State.plain, State.endRecord, quote, comma, isLineEnd]
  | case3 f fs hfs ih =>
    have hcomma : scan ⟨.afterQuote, f.reverse, fields, records⟩ (comma :: writtenRecord fs) =
        scan ⟨.fieldStart, [], f :: fields, records⟩ (writtenRecord fs) := by
      simp [scan, State.step, State.plain, State.endField, quote, comma]
    rw [writtenRecord, scan_append, scan_writtenField hmode, hcomma, ih (.inr rfl) hfs, List.reverse_cons,
      List.append_assoc, List.singleton_append]
    exact hfs

theorem scan_written {toRead : List Record} (h : ∀ r ∈ toRead, r ≠ []) :
    scan ⟨.recordStart, [], [], records⟩ (written toRead) = ⟨.recordStart, [], [], toRead.reverse ++ records⟩ := by
  induction toRead generalizing records with
  | nil => rfl
  | cons r rest ih =>
    have hfirst := @scan_writtenRecord [] records .recordStart (.inl rfl) r (h r List.mem_cons_self)
    rw [written, List.flatMap_cons, scan_append, hfirst, ← written, ih fun r' hr' => h r' (List.mem_cons_of_mem r hr'),
      List.reverse_cons, List.append_assoc]
    rfl

/-- what is written starts with a quote, so that there is no mark to skip -/
theorem withoutMark_written {toRead : List Record} (h : ∀ r ∈ toRead, r ≠ []) :
    withoutMark (written toRead) = written toRead := by
  cases toRead with
  | nil => rfl
  | cons r rest =>
    obtain ⟨f, fs, rfl⟩ := List.exists_cons_of_ne_nil (h r List.mem_cons_self)
    cases fs <;> rfl

/-- Records that have fields are read back as they were written. -/
theorem records_written {toRead : List Record} (h : ∀ r ∈ toRead, r ≠ []) :
    Source.Holds { bytes := written toRead } toRead := by
  refine ⟨rfl, ?_⟩
  have hscan := @scan_written [] toRead h
  rw [List.append_nil] at hscan
  simp [Source.records, withoutMark_written h, hscan, State.complete, State.unfinished]

/-! ## What is read -/

/-- a byte ends no record, or one that has fields -/
theorem State.records_step (s : State) (b : UInt8) :
    (s.step b).records = s.records ∨ ∃ r ≠ [], (s.step b).records = r :: s.records := by
  have hplain : (s.plain b).records = s.records ∨ ∃ r ≠ [], (s.plain b).records = r :: s.records := by
    unfold State.plain
    split_ifs
    · exact .inl rfl
    · exact .inr ⟨_, by simp, rfl⟩
    · exact .inl rfl
  unfold State.step
  split
  · split_ifs
    · exact .inl rfl
    · exact .inl rfl
    · exact hplain
  · split_ifs
    · exact .inl rfl
    · exact hplain
  · exact hplain
  · split_ifs <;> exact .inl rfl
  · split_ifs
    · exact .inl rfl
    · exact hplain

theorem ne_nil_of_mem_scan {s : State} (h : ∀ r ∈ s.records, r ≠ []) (bytes : List UInt8) :
    ∀ r ∈ (scan s bytes).records, r ≠ [] := by
  induction bytes generalizing s with
  | nil => exact h
  | cons b bytes ih =>
    apply ih
    rcases s.records_step b with hsame | ⟨r, hr, hmore⟩
    · rwa [hsame]
    · rw [hmore]
      exact List.forall_mem_cons.2 ⟨hr, h⟩

/-- a record that is read has fields -/
theorem Source.ne_nil_of_mem_records {s : Source} : ∀ r ∈ s.records, r ≠ [] := by
  have hcomplete : ∀ r ∈ (scan {} (withoutMark s.bytes)).complete, r ≠ [] := by
    intro r hr
    exact ne_nil_of_mem_scan (by simp) _ r (List.mem_reverse.1 hr)
  intro r hr
  unfold Source.records at hr
  dsimp only at hr
  split at hr
  · rcases List.mem_append.1 hr with hr | hr
    · exact hcomplete r hr
    · rw [Option.mem_toList, State.unfinished, Option.ite_none_left_eq_some] at hr
      obtain ⟨-, hr⟩ := hr
      rw [← Option.some.inj hr]
      simp
  · exact hcomplete r hr

/-- Some of the records of a source are the records of another. -/
theorem Source.exists_holds {s : Source} {part : List Record} (h : part ⊆ s.records) :
    ∃ t : Source, t.Holds part :=
  ⟨_, records_written fun r hr => s.ne_nil_of_mem_records r (h hr)⟩

end PixelAudit.Csv
