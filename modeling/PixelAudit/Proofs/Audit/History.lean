/-
What a run has noted, told from its events alone.

A verdict looks at no notes, so no event changes the verdict on another one. What is noted is a function of the events:
the names of the undocumented ones; the kinds of faults that the failed ones have; and of each kind the first distinct
examples, event by event and in the order in which a verdict lists them, as many as the cap has room for.

The examples of a kind come into its set one by one, and what is kept of examples that do is known for any set that they
come into (`SampleCap.foldl_keep`); here it is the empty one.

Main results: `SampleCap.foldl_keep_empty` (which examples are kept in a run), `run_history` (the outcomes and the notes
of a run).
-/
import PixelAudit.Proofs.Audit.FanOut
import Mathlib.Tactic

namespace PixelAudit

/-! ## The first distinct examples -/

/-- what has been seen before does not count again -/
theorem eraseDups_append_again (done more : List String) :
    (done ++ (more ++ more)).eraseDups = (done ++ more).eraseDups := by
  have hnone : more.removeAll (done ++ more) = [] := by
    rw [List.removeAll, List.filter_eq_nil_iff]
    intro sample hsample
    simp [hsample]
  rw [← List.append_assoc, List.eraseDups_append, hnone, List.eraseDups_nil, List.append_nil]

namespace SampleCap

/-- the front part of a list that there is room for -/
def front : SampleCap → List String → List String
  | .limit most, samples => samples.take most
  | .keepAll, samples => samples

/-- of examples that come into an empty set one by one, the first distinct ones are kept -/
theorem foldl_keep_empty (cap : SampleCap) (samples : List String) :
    samples.foldl cap.keep ∅ = NameSet.ofList (cap.front samples.eraseDups) := by
  have hnew : ∀ sample ∈ samples, (!(∅ : NameSet).contains sample) = true := fun _ _ => rfl
  rw [foldl_keep, newOf, List.filter_eq_self.2 hnew]
  cases cap <;> rfl

/-- there are no more of them than the cap has room for -/
theorem size_front_le (most : Nat) (samples : List String) :
    (NameSet.ofList ((limit most).front samples.eraseDups)).size ≤ most :=
  (NameSet.size_ofList_le _).trans (List.length_take_le most _)

end SampleCap

namespace FaultTable

variable {cap : SampleCap}

/-- the examples of one kind of fault, in their order -/
def samplesOf (xs : List Fault) (family descriptor : String) : List String :=
  (xs.filter fun x => x.family = family ∧ x.descriptor = descriptor).map Fault.sample

theorem samplesOf_append (xs ys : List Fault) (family descriptor : String) :
    samplesOf (xs ++ ys) family descriptor = samplesOf xs family descriptor ++ samplesOf ys family descriptor := by
  rw [samplesOf, List.filter_append, List.map_append]
  rfl

/-- faults that are noted one by one come to their own kinds -/
theorem kept_foldl_add (table : FaultTable) (xs : List Fault) (family descriptor : String) :
    (xs.foldl (add cap) table).kept family descriptor =
      (samplesOf xs family descriptor).foldl cap.keep (table.kept family descriptor) := by
  induction xs generalizing table with
  | nil => rfl
  | cons x rest ih =>
    rw [List.foldl_cons, ih]
    by_cases hkind : x.family = family ∧ x.descriptor = descriptor
    · have hone : samplesOf (x :: rest) family descriptor = x.sample :: samplesOf rest family descriptor := by
        simp [samplesOf, hkind]
      obtain ⟨rfl, rfl⟩ := hkind
      rw [hone, kept_add_self, List.foldl_cons]
    · have hnone : samplesOf (x :: rest) family descriptor = samplesOf rest family descriptor := by
        rw [samplesOf, List.filter_cons_of_neg (by simpa using hkind)]
        rfl
      rw [hnone, kept_add_of_ne table x hkind]

end FaultTable

namespace Validator

variable {v : Validator}

/-- judge an event: the outcome, and the notes afterwards -/
def validate (v : Validator) (e : RawEvent) : StateM Notes Outcome := fun notes => (v.judge e, v.step notes e)

/-- events that are judged one after the other have the outcomes that each has on its own -/
theorem mapM_validate (notes : Notes) (events : List RawEvent) :
    (events.mapM v.validate).run notes = (events.map v.judge, v.run notes events) := by
  induction events generalizing notes with
  | nil => rfl
  | cons e rest ih =>
    rw [List.mapM_cons]
    have hrest := ih (v.step notes e)
    simp only [StateT.run_bind, StateT.run_pure, List.map_cons]
    change (do
      let p ← (pure (v.judge e, v.step notes e) : Id (Outcome × Notes))
      let q ← (rest.mapM v.validate).run p.2
      pure (p.1 :: q.1, q.2)) = _
    rw [pure_bind, hrest]
    rfl

theorem run_faults (notes : Notes) (events : List RawEvent) :
    (v.run notes events).faults = (v.faultsOf events).foldl (FaultTable.add v.cap) notes.faults := by
  induction events generalizing notes with
  | nil => rfl
  | cons e rest ih =>
    have hrest := ih (v.step notes e)
    rw [step_faults, ← List.foldl_append] at hrest
    exact hrest

theorem faultsOf_append (events more : List RawEvent) :
    v.faultsOf (events ++ more) = v.faultsOf events ++ v.faultsOf more :=
  List.flatMap_append

/-- the notes that events leave -/
structure Recorded (v : Validator) (events : List RawEvent) (notes : Notes) : Prop where
  undocumented : notes.undocumented =
    NameSet.ofList ((events.filter fun e => (v.judge e).verdict = .undocumented).map v.eventName)
  kinds : ∀ family descriptor, (notes.faults.getD family ∅).contains descriptor = true ↔
    ∃ e ∈ events, (v.judge e).verdict = .failed ∧ (v.judge e).family = family ∧
      ∃ f ∈ (v.judge e).findings, f.descriptor = descriptor
  families : ∀ family, notes.faults.contains family = true ↔
    ∃ descriptor, (notes.faults.getD family ∅).contains descriptor = true
  /-- the first distinct examples of each kind, as many as there is room for -/
  samples : ∀ family descriptor, notes.faults.kept family descriptor =
    NameSet.ofList (v.cap.front (FaultTable.samplesOf (v.faultsOf events) family descriptor).eraseDups)
  capped : ∀ most, v.cap = .limit most → ∀ family descriptor, (notes.faults.kept family descriptor).size ≤ most

theorem run_recorded (v : Validator) (events : List RawEvent) : v.Recorded events (v.run {} events) := by
  have haccounts : v.Accounts (v.run {} events) events := run_accounts v.accounts_nil events
  have hsamples : ∀ family descriptor, (v.run {} events).faults.kept family descriptor =
      NameSet.ofList (v.cap.front (FaultTable.samplesOf (v.faultsOf events) family descriptor).eraseDups) := by
    intro family descriptor
    rw [run_faults, FaultTable.kept_foldl_add]
    exact v.cap.foldl_keep_empty _
  refine ⟨NameSet.ext_contains fun name => ?_, fun family descriptor => ?_, fun family => ?_, hsamples, ?_⟩
  · rw [haccounts.undocumented, NameSet.contains_ofList, List.mem_map]
    simp only [List.mem_filter, decide_eq_true_eq, and_assoc]
  · rw [haccounts.faults.kinds]
    simp only [faultsOf, Outcome.faults, List.mem_flatMap, List.mem_map]
    constructor
    · rintro ⟨_, ⟨e, he, f, hf, rfl⟩, hfamily, hdescriptor⟩
      have hfailed := (v.findings_judge_ne_nil_iff e).1 (List.ne_nil_of_mem hf)
      exact ⟨e, he, hfailed, hfamily, f, hf, hdescriptor⟩
    · rintro ⟨e, he, -, hfamily, f, hf, hdescriptor⟩
      exact ⟨_, ⟨e, he, f, hf, rfl⟩, hfamily, hdescriptor⟩
  · rw [haccounts.faults.families]
    simp only [haccounts.faults.kinds]
    constructor
    · rintro ⟨x, hx, hfamily⟩
      exact ⟨x.descriptor, x, hx, hfamily, rfl⟩
    · rintro ⟨descriptor, x, hx, hfamily, -⟩
      exact ⟨x, hx, hfamily⟩
  · intro most hcap family descriptor
    rw [hsamples, hcap]
    exact SampleCap.size_front_le most _

/-- an event that is judged twice in a row leaves what it leaves once -/
theorem run_twice (v : Validator) (events : List RawEvent) (e : RawEvent) :
    v.run {} (events ++ [e, e]) = v.run {} (events ++ [e]) := by
  have htwice : v.Accounts (v.run {} (events ++ [e, e])) (events ++ [e, e]) := run_accounts v.accounts_nil _
  have honce : v.Accounts (v.run {} (events ++ [e])) (events ++ [e]) := run_accounts v.accounts_nil _
  have hmem : ∀ a, a ∈ events ++ [e, e] ↔ a ∈ events ++ [e] := by
    intro a
    simp
  have hfault : ∀ x, x ∈ v.faultsOf (events ++ [e, e]) ↔ x ∈ v.faultsOf (events ++ [e]) := by
    intro x
    simp only [faultsOf, List.mem_flatMap, hmem]
  have hsame := htwice.faults.congr hfault
  apply Notes.ext_fields
  · refine NameSet.ext_contains fun name => ?_
    rw [htwice.undocumented, honce.undocumented]
    simp only [hmem]
  · refine FaultTable.ext_kept (fun family => ?_) (fun family descriptor => ?_) fun family descriptor => ?_
    · rw [hsame.families, honce.faults.families]
    · rw [hsame.kinds, honce.faults.kinds]
    · -- the examples of the second time are not new
      have hagain : v.faultsOf (events ++ [e, e]) = v.faultsOf events ++ (v.faultsOf [e] ++ v.faultsOf [e]) := by
        rw [← faultsOf_append, ← faultsOf_append]
        rfl
      rw [(v.run_recorded _).samples, (v.run_recorded _).samples, hagain, faultsOf_append]
      simp only [FaultTable.samplesOf_append, eraseDups_append_again]

/-- The outcomes of events that are judged one after the other are those that each event has with nothing noted, and the
notes are what the events leave: the undocumented names, the kinds of faults, and of each kind the first distinct
examples up to the cap. An event judged twice in a row counts once. -/
theorem run_history (v : Validator) (events : List RawEvent) :
    (events.mapM v.validate).run {} =
        (events.map fun e => ((v.validate e).run {}).1, v.run {} events) ∧
      v.Recorded events (v.run {} events) ∧
      ∀ e, v.run {} (events ++ [e, e]) = v.run {} (events ++ [e]) :=
  ⟨mapM_validate {} events, v.run_recorded events, v.run_twice events⟩

end Validator

end PixelAudit
