/-
What is noted of the faults of events.

Findings change the table in the entry of their family only, and there under their own descriptors only. Each of these
is listed, and the examples that were kept of it stay. Of the examples in its findings those are new that were not kept
before, each of them once, and of the new ones the first are kept, in the order of the findings, as many as the cap has
room for.

Main results: `SampleCap.contains_foldl_keep` (which examples are kept of those that come in), `gains_foldl` (the family
of the findings), `find?_record_of_ne` (the other families).
-/
import PixelAudit.Audit.Validator
import PixelAudit.Proofs.Tables
import Mathlib.Tactic

namespace PixelAudit

theorem Dict.getD_insert {α : Type} (d : Dict α) (name key : String) (value fallback : α) :
    (d.insert name value).getD key fallback = if name = key then value else d.getD key fallback := by
  rw [getD, find?_insert]
  split_ifs
  · rfl
  · rfl

namespace SampleCap

/-- take in an example, if it is new and there is room -/
def keep (cap : SampleCap) (samples : NameSet) (sample : String) : NameSet :=
  if !samples.contains sample && cap.admits samples.size then samples.insert sample else samples

variable {cap : SampleCap} {samples : NameSet} {sample other : String}

theorem keep_of_room (hnew : samples.contains sample = false) (hroom : cap.admits samples.size = true) :
    cap.keep samples sample = samples.insert sample := by
  rw [keep, hnew, hroom]
  rfl

theorem keep_of_contains (h : samples.contains sample = true) : cap.keep samples sample = samples := by
  rw [keep, h]
  rfl

theorem keep_of_full (h : cap.admits samples.size = false) : cap.keep samples sample = samples := by
  rw [keep, h, Bool.and_false]
  rfl

/-- the front part of a list that there is room for beside so many -/
def further (cap : SampleCap) (present : Nat) (samples : List String) : List String :=
  match cap with
  | .limit most => samples.take (most - present)
  | .keepAll => samples

theorem further_cons_of_room {present : Nat} (h : cap.admits present = true) (sample : String) (rest : List String) :
    cap.further present (sample :: rest) = sample :: cap.further (present + 1) rest := by
  cases cap with
  | limit most =>
    have hroom : present < most := of_decide_eq_true h
    obtain ⟨left, hleft⟩ : ∃ left, most - present = left + 1 := ⟨most - present - 1, by omega⟩
    rw [further, further, hleft, List.take_succ_cons, show most - (present + 1) = left by omega]
  | keepAll => rfl

theorem further_of_full {present : Nat} (h : cap.admits present = false) (samples : List String) :
    cap.further present samples = [] := by
  cases cap with
  | limit most =>
    have hfull : most ≤ present := Nat.le_of_not_lt (of_decide_eq_false h)
    rw [further, Nat.sub_eq_zero_of_le hfull, List.take_zero]
  | keepAll => cases h

theorem further_subset (cap : SampleCap) (present : Nat) (samples : List String) :
    cap.further present samples ⊆ samples := by
  cases cap with
  | limit most => exact List.take_subset _ _
  | keepAll => exact List.Subset.refl _

/-- the distinct examples that are not kept yet, in their order -/
def newOf (kept : NameSet) (samples : List String) : List String :=
  (samples.filter fun sample => !kept.contains sample).eraseDups

theorem newOf_cons_of_contains {kept : NameSet} (h : kept.contains sample = true) (rest : List String) :
    newOf kept (sample :: rest) = newOf kept rest := by
  rw [newOf, List.filter_cons_of_neg (by simpa using h)]
  rfl

/-- an example is new once -/
theorem newOf_cons_of_new {kept : NameSet} (h : kept.contains sample = false) (rest : List String) :
    newOf kept (sample :: rest) = sample :: newOf (kept.insert sample) rest := by
  rw [newOf, List.filter_cons_of_pos (by simpa using h), List.eraseDups_cons, List.filter_filter, newOf]
  congr 2
  refine List.filter_congr fun other _ => ?_
  have hne : (!other == sample) = !decide (sample = other) := by
    rw [BEq.comm, beq_eq_decide]
  rw [NameSet.contains_insert, Bool.not_or, hne]

/-- Of examples that come in one by one the first new ones are kept, as many as there is room for. -/
theorem foldl_keep (cap : SampleCap) (kept : NameSet) (samples : List String) :
    samples.foldl cap.keep kept = (cap.further kept.size (newOf kept samples)).foldl NameSet.insert kept := by
  induction samples generalizing kept with
  | nil => cases cap <;> simp [newOf, further]
  | cons sample rest ih =>
    rw [List.foldl_cons]
    cases hnew : kept.contains sample with
    | true => rw [keep_of_contains hnew, ih, newOf_cons_of_contains hnew]
    | false =>
      cases hroom : cap.admits kept.size with
      | true =>
        rw [keep_of_room hnew hroom, ih, NameSet.size_insert hnew, newOf_cons_of_new hnew,
          further_cons_of_room hroom, List.foldl_cons]
      | false => rw [keep_of_full hroom, ih, further_of_full hroom, further_of_full hroom]

theorem contains_foldl_keep (cap : SampleCap) (kept : NameSet) (samples : List String) (sample : String) :
    (samples.foldl cap.keep kept).contains sample = true ↔
      kept.contains sample = true ∨ sample ∈ cap.further kept.size (newOf kept samples) := by
  rw [foldl_keep, NameSet.contains_foldl_insert, or_comm]

end SampleCap

/-- the examples of one descriptor among findings, in their order -/
def Finding.samplesOf (findings : List Finding) (descriptor : String) : List String :=
  (findings.filter fun f => f.descriptor = descriptor).map Finding.sample

namespace FaultTable

variable {cap : SampleCap}

/-- the faults of a family after findings were noted, and what these had to do with it -/
structure Gains (cap : SampleCap) (findings : List Finding) (before after : Dict NameSet) : Prop where
  /-- what no finding is about stays as it was -/
  same : ∀ descriptor, (∀ f ∈ findings, f.descriptor ≠ descriptor) → after.find? descriptor = before.find? descriptor
  listed : ∀ descriptor, after.contains descriptor = true ↔
    before.contains descriptor = true ∨ ∃ f ∈ findings, f.descriptor = descriptor
  kept : ∀ descriptor sample, (before.getD descriptor ∅).contains sample = true →
    (after.getD descriptor ∅).contains sample = true
  found : ∀ descriptor sample, (after.getD descriptor ∅).contains sample = true →
    (before.getD descriptor ∅).contains sample = true ∨ ⟨descriptor, sample⟩ ∈ findings
  /-- the first new examples come in, as many as the cap has room for beside those that were kept -/
  samples : ∀ descriptor sample, (after.getD descriptor ∅).contains sample = true ↔
    (before.getD descriptor ∅).contains sample = true ∨ sample ∈ cap.further (before.getD descriptor ∅).size
      (SampleCap.newOf (before.getD descriptor ∅) (Finding.samplesOf findings descriptor))

theorem getD_addFinding (faults : Dict NameSet) (f : Finding) (descriptor : String) :
    (addFinding cap faults f).getD descriptor ∅ =
      if f.descriptor = descriptor then cap.keep (faults.getD descriptor ∅) f.sample
      else faults.getD descriptor ∅ := by
  by_cases h : f.descriptor = descriptor
  · subst h
    rw [if_pos rfl, addFinding, Dict.getD_insert, if_pos rfl]
    rfl
  · rw [if_neg h, addFinding, Dict.getD_insert, if_neg h]

/-- each descriptor takes in the examples of its own findings -/
theorem getD_foldl_addFinding (findings : List Finding) (faults : Dict NameSet) (descriptor : String) :
    (findings.foldl (addFinding cap) faults).getD descriptor ∅ =
      (Finding.samplesOf findings descriptor).foldl cap.keep (faults.getD descriptor ∅) := by
  induction findings generalizing faults with
  | nil => rfl
  | cons f rest ih =>
    rw [List.foldl_cons, ih, getD_addFinding, Finding.samplesOf, Finding.samplesOf]
    by_cases h : f.descriptor = descriptor
    · rw [if_pos h, List.filter_cons_of_pos (by simpa using h), List.map_cons, List.foldl_cons]
    · rw [if_neg h, List.filter_cons_of_neg (by simpa using h)]

theorem find?_foldl_addFinding_of_ne {findings : List Finding} {descriptor : String}
    (h : ∀ f ∈ findings, f.descriptor ≠ descriptor) (faults : Dict NameSet) :
    (findings.foldl (addFinding cap) faults).find? descriptor = faults.find? descriptor := by
  induction findings generalizing faults with
  | nil => rfl
  | cons f rest ih =>
    obtain ⟨hf, hrest⟩ := List.forall_mem_cons.1 h
    rw [List.foldl_cons, ih hrest, addFinding, Dict.find?_insert, if_neg hf]

theorem contains_foldl_addFinding (findings : List Finding) (faults : Dict NameSet) (descriptor : String) :
    (findings.foldl (addFinding cap) faults).contains descriptor = true ↔
      faults.contains descriptor = true ∨ ∃ f ∈ findings, f.descriptor = descriptor := by
  induction findings generalizing faults with
  | nil => simp
  | cons f rest ih =>
    rw [List.foldl_cons, ih, addFinding, Dict.contains_insert]
    simp only [List.exists_mem_cons_iff]
    tauto

/-- all findings, one by one -/
theorem gains_foldl (findings : List Finding) (faults : Dict NameSet) :
    Gains cap findings faults (findings.foldl (addFinding cap) faults) := by
  have hsamples : ∀ descriptor sample,
      ((findings.foldl (addFinding cap) faults).getD descriptor ∅).contains sample = true ↔
        (faults.getD descriptor ∅).contains sample = true ∨ sample ∈ cap.further (faults.getD descriptor ∅).size
          (SampleCap.newOf (faults.getD descriptor ∅) (Finding.samplesOf findings descriptor)) := by
    intro descriptor sample
    rw [getD_foldl_addFinding, SampleCap.contains_foldl_keep]
  refine ⟨fun descriptor h => find?_foldl_addFinding_of_ne h faults, contains_foldl_addFinding findings faults,
    fun descriptor sample h => (hsamples descriptor sample).2 (Or.inl h), fun descriptor sample h => ?_, hsamples⟩
  refine ((hsamples descriptor sample).1 h).imp_right fun hnew => ?_
  have hmem := List.mem_filter.1 (List.mem_eraseDups.1 (SampleCap.further_subset _ _ _ hnew))
  obtain ⟨f, hf, rfl⟩ := List.mem_map.1 hmem.1
  obtain ⟨hf, hdescriptor⟩ := List.mem_filter.1 hf
  rw [← of_decide_eq_true hdescriptor]
  exact hf

variable (table : FaultTable) {family other : String} (findings : List Finding)

/-- the other families keep their faults -/
theorem find?_record_of_ne (h : other ≠ family) :
    (table.record cap family findings).find? other = table.find? other := by
  rw [record, Dict.find?_insert, if_neg h.symm]

theorem find?_record : (table.record cap family findings).find? family =
    some (findings.foldl (addFinding cap) (table.getD family ∅)) := by
  rw [record, Dict.find?_insert, if_pos rfl]

end FaultTable

end PixelAudit
