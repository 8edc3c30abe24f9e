/-
Handing events out to workers and putting their notes together.

A verdict looks at the event alone, so the notes of a run are what its events leave, whoever judged them. `Accounts`
says what that is: the names of the undocumented events, and a table that summarizes the faults of the failed ones. It
holds of a worker by induction on its events (`step_accounts`, `run_accounts`) and of merged notes if it holds of both
parts (`merge_accounts`), so by induction on the merges it holds of every fan-out. It looks at the events as a set:
neither the order of the events nor that of the merges matters for what it says.

Main results: `fanOut_eq_run` (without a cap the notes are those of one run over all events), `fanOut_holdsUpTo` (under
a cap there are as many examples, and the same kinds of faults and undocumented names).
-/
import PixelAudit.Proofs.Audit.Classification
import PixelAudit.Proofs.Audit.Samples
import Mathlib.Tactic

namespace PixelAudit

/-- the faults that a verdict reports -/
def Outcome.faults (o : Outcome) : List Fault := o.findings.map fun f => ⟨o.family, f.descriptor, f.sample⟩

namespace Validator

/-- the faults of events, event by event -/
def faultsOf (v : Validator) (events : List RawEvent) : List Fault := events.flatMap fun e => (v.judge e).faults

/-! ## One event -/

theorem findings_judge_ne_nil_iff (v : Validator) (e : RawEvent) :
    (v.judge e).findings ≠ [] ↔ (v.judge e).verdict = .failed := by
  obtain ⟨node, remainder, -, hjudged⟩ := v.judge_judged e
  cases hfamily : node.family with
  | none =>
    have hundocumented := hjudged.undocumented.2 hfamily
    rw [(hjudged.bare hundocumented).2.2, hundocumented]
    simp
  | some family => exact (hjudged.judged family hfamily).findings

theorem step_faults (v : Validator) (notes : Notes) (e : RawEvent) :
    (v.step notes e).faults = (v.judge e).faults.foldl (FaultTable.add v.cap) notes.faults := by
  have hfindings := v.findings_judge_ne_nil_iff e
  unfold step note
  cases hverdict : (v.judge e).verdict with
  | failed => exact FaultTable.record_eq_foldl notes.faults _ (hfindings.2 hverdict)
  | undocumented | oldAppVersion | passed =>
    have hnone : (v.judge e).findings = [] := by
      by_contra hne
      have hfailed := hfindings.1 hne
      rw [hverdict] at hfailed
      cases hfailed
    rw [Outcome.faults, hnone]
    rfl

theorem contains_step_undocumented (v : Validator) (notes : Notes) (e : RawEvent) (name : String) :
    (v.step notes e).undocumented.contains name = true ↔
      notes.undocumented.contains name = true ∨ ((v.judge e).verdict = .undocumented ∧ v.eventName e = name) := by
  unfold step note
  cases hverdict : (v.judge e).verdict with
  | undocumented => simp [NameSet.contains_insert, or_comm]
  | failed | oldAppVersion | passed => simp

/-! ## What notes account for -/

/-- the notes are what the events leave under the cap of the validator -/
structure Accounts (v : Validator) (notes : Notes) (events : List RawEvent) : Prop where
  undocumented : ∀ name, notes.undocumented.contains name = true ↔
    ∃ e ∈ events, (v.judge e).verdict = .undocumented ∧ v.eventName e = name
  faults : notes.faults.Summarizes v.cap (v.faultsOf events)

variable {v : Validator} {notes other : Notes} {events more : List RawEvent}

theorem accounts_nil (v : Validator) : v.Accounts {} [] where
  undocumented name := by simp [Dict.contains]
  faults := FaultTable.Summarizes.empty

theorem step_accounts (h : v.Accounts notes events) (e : RawEvent) : v.Accounts (v.step notes e) (events ++ [e]) where
  undocumented name := by
    rw [contains_step_undocumented, h.undocumented]
    simp only [List.mem_append, List.mem_singleton, or_and_right, exists_or, exists_eq_left]
  faults := by
    rw [step_faults]
    have hfold := h.faults.foldl (v.judge e).faults
    simpa [faultsOf] using hfold

/-- a worker accounts for its events -/
theorem run_accounts (h : v.Accounts notes events) (more : List RawEvent) :
    v.Accounts (v.run notes more) (events ++ more) := by
  induction more generalizing notes events with
  | nil => simpa [run] using h
  | cons e rest ih =>
    have hrest := ih (step_accounts h e)
    rwa [List.append_assoc, List.singleton_append] at hrest

/-- the order of the events does not matter -/
theorem Accounts.perm (h : v.Accounts notes events) (hperm : events.Perm more) : v.Accounts notes more where
  undocumented name := by simpa only [hperm.mem_iff] using h.undocumented name
  faults := h.faults.congr fun x => by simp only [faultsOf, List.mem_flatMap, hperm.mem_iff]

/-- notes are taken over fault by fault, if no kind is listed without an example -/
theorem merge_faults (v : Validator) (notes other : Notes)
    (hfull : ∀ family descriptor samples, ((other.faults.getD family ∅).find? descriptor) = some samples →
      samples.names ≠ []) :
    (v.merge notes other).faults = other.faults.faults.foldl (FaultTable.add v.cap) notes.faults := by
  simp only [merge, FaultTable.faults, List.foldl_flatMap]
  refine List.foldl_ext _ _ _ fun table entry hentry => ?_
  refine List.foldl_ext _ _ _ fun table kind hkind => ?_
  obtain ⟨family, kinds⟩ := entry
  obtain ⟨descriptor, samples⟩ := kind
  have hkinds : other.faults.getD family ∅ = kinds := by
    rw [Dict.getD, (Dict.find?_eq_some_iff _).2 hentry, Option.getD_some]
  have hne : samples.names ≠ [] := by
    refine hfull family descriptor samples ?_
    rw [hkinds]
    exact (Dict.find?_eq_some_iff _).2 hkind
  rw [FaultTable.record_eq_foldl table family (by simpa [findingsOf] using hne), findingsOf, List.map_map]
  rfl

/-- merged notes account for the events of both workers -/
theorem merge_accounts (hcap : v.cap.admits 0 = true) (h : v.Accounts notes events) (hother : v.Accounts other more) :
    v.Accounts (v.merge notes other) (events ++ more) where
  undocumented name := by
    simp only [merge, NameSet.contains_union, h.undocumented, hother.undocumented, List.mem_append, or_and_right,
      exists_or]
  faults := by
    have hfull : ∀ family descriptor samples, ((other.faults.getD family ∅).find? descriptor) = some samples →
        samples.names ≠ [] := by
      intro family descriptor samples hsamples hnone
      obtain ⟨x, hx, rfl, rfl⟩ := (hother.faults.kinds family descriptor).1 (by rw [Dict.contains, hsamples]; rfl)
      obtain ⟨sample, hsample⟩ := hother.faults.exists_kept hcap hx
      rw [FaultTable.kept, Dict.getD, hsamples, Option.getD_some, Dict.contains_iff_mem_names, hnone] at hsample
      exact List.not_mem_nil hsample
    rw [merge_faults v notes other hfull]
    have habsorb := hother.faults.absorb (h.faults.foldl other.faults.faults) hcap
    simpa [faultsOf] using habsorb

end Validator

/-! ## Fan-out -/

/-- How events were judged: a worker judged its own in their order, starting without notes, or one took over the notes
of another. Merging any number of workers into one, in any order, comes to such a tree. -/
inductive FanOut where
  | worker (events : List RawEvent)
  | merged (receiver other : FanOut)

namespace FanOut

/-- all events that were handed out -/
def events : FanOut → List RawEvent
  | worker events => events
  | merged receiver other => receiver.events ++ other.events

/-- the notes in the end -/
def notes (v : Validator) : FanOut → Notes
  | worker events => v.run {} events
  | merged receiver other => v.merge (receiver.notes v) (other.notes v)

theorem accounts {v : Validator} (hcap : v.cap.admits 0 = true) (plan : FanOut) :
    v.Accounts (plan.notes v) plan.events := by
  induction plan with
  | worker events => exact Validator.run_accounts v.accounts_nil events
  | merged receiver other hreceiver hother => exact Validator.merge_accounts hcap hreceiver hother

end FanOut

theorem Notes.ext_fields {notes other : Notes} (hundocumented : notes.undocumented = other.undocumented)
    (hfaults : notes.faults = other.faults) : notes = other := by
  cases notes
  cases other
  rw [Notes.mk.injEq]
  exact ⟨hundocumented, hfaults⟩

namespace Validator

variable {v : Validator} {events : List RawEvent}

/-- the undocumented names are determined -/
theorem Accounts.undocumented_unique {notes other : Notes} (h : v.Accounts notes events)
    (hother : v.Accounts other events) : notes.undocumented = other.undocumented :=
  NameSet.ext_contains fun name => (h.undocumented name).trans (hother.undocumented name).symm

/-- Without a cap it does not matter how the events are handed out to workers and in what order the workers are merged:
the notes are those of one run over all events. -/
theorem fanOut_eq_run (hcap : v.cap = .keepAll) (plan : FanOut) (hplan : plan.events.Perm events) :
    plan.notes v = v.run {} events := by
  have hroom : v.cap.admits 0 = true := by rw [hcap]; rfl
  have hmerged : v.Accounts (plan.notes v) events := (plan.accounts hroom).perm hplan
  have hrun : v.Accounts (v.run {} events) events := run_accounts v.accounts_nil events
  apply Notes.ext_fields
  · exact hmerged.undocumented_unique hrun
  · have hm := hmerged.faults
    have hr := hrun.faults
    rw [hcap] at hm hr
    exact hm.unique hr

/-- three workers: one event is broken in two ways and judged twice, one has no family -/
def threeWorkers : FanOut :=
  .merged (.worker [⟨"app", "z=2", none⟩, ⟨"app", "x=1&y=1&z=1", none⟩])
    (.merged (.worker [⟨"other.name", "", none⟩]) (.worker [⟨"app", "x=1&y=1&z=1", none⟩, ⟨"app", "z=3", none⟩]))

theorem fanOut_eq_run_threeWorkers : ∃ compiled,
    CompiledCatalog.build ((Catalog.new ∅ ∅).addSources Catalog.nestedSources).root {} = .ok compiled ∧
      threeWorkers.notes { catalog := compiled, cap := .keepAll } =
        run { catalog := compiled, cap := .keepAll } {} threeWorkers.events.reverse := by
  obtain ⟨compiled, hbuild⟩ :=
    CompiledNode.exists_build ((Catalog.new ∅ ∅).addSources Catalog.nestedSources).root {} (by decide +kernel)
  exact ⟨compiled, hbuild, fanOut_eq_run rfl threeWorkers (List.reverse_perm _).symm⟩

/-- Notes that hold of each kind of fault as many examples as a cap allows. The examples need not be those of one run
over the events, but there are as many. -/
structure HoldsUpTo (v : Validator) (most : Nat) (events : List RawEvent) (notes : Notes) : Prop where
  size : ∀ family descriptor, (notes.faults.kept family descriptor).size =
    min most (FaultTable.samplesAmong (v.faultsOf events) family descriptor).card
  examples : ∀ family descriptor sample, (notes.faults.kept family descriptor).contains sample = true →
    sample ∈ FaultTable.samplesAmong (v.faultsOf events) family descriptor
  kinds : ∀ family descriptor, (notes.faults.getD family ∅).contains descriptor = true ↔
    ∃ e ∈ events, (v.judge e).family = family ∧ ∃ f ∈ (v.judge e).findings, f.descriptor = descriptor
  families : ∀ family, notes.faults.contains family = true ↔
    ∃ descriptor, (notes.faults.getD family ∅).contains descriptor = true
  undocumented : notes.undocumented = (v.run {} events).undocumented

theorem Accounts.holdsUpTo {notes : Notes} {most : Nat} (hcap : v.cap = .limit most) (h : v.Accounts notes events) :
    v.HoldsUpTo most events notes where
  size family descriptor := by
    have hfaults := h.faults
    rw [hcap] at hfaults
    exact hfaults.size_kept family descriptor
  examples family descriptor sample hs := FaultTable.mem_samplesAmong.2 (h.faults.sound family descriptor sample hs)
  kinds family descriptor := by
    rw [h.faults.kinds]
    simp only [faultsOf, Outcome.faults, List.mem_flatMap, List.mem_map]
    constructor
    · rintro ⟨_, ⟨e, he, f, hf, rfl⟩, hfamily, hdescriptor⟩
      exact ⟨e, he, hfamily, f, hf, hdescriptor⟩
    · rintro ⟨e, he, hfamily, f, hf, hdescriptor⟩
      exact ⟨_, ⟨e, he, f, hf, rfl⟩, hfamily, hdescriptor⟩
  families family := by
    simp only [h.faults.families, h.faults.kinds]
    constructor
    · rintro ⟨x, hx, hfamily⟩
      exact ⟨x.descriptor, x, hx, hfamily, rfl⟩
    · rintro ⟨descriptor, x, hx, hfamily, -⟩
      exact ⟨x, hx, hfamily⟩
  undocumented := h.undocumented_unique (run_accounts v.accounts_nil events)

/-- Under a cap of at least one, a fan-out lists the undocumented names and the kinds of faults that one run over all
events lists, and of each kind as many examples: as many as there are, up to the cap. -/
theorem fanOut_holdsUpTo {most : Nat} (hmost : 1 ≤ most) (hcap : v.cap = .limit most) (plan : FanOut)
    (hplan : plan.events.Perm events) :
    v.HoldsUpTo most events (plan.notes v) ∧ v.HoldsUpTo most events (v.run {} events) := by
  have hroom : v.cap.admits 0 = true := by rw [hcap]; exact decide_eq_true hmost
  have hmerged : v.Accounts (plan.notes v) events := (plan.accounts hroom).perm hplan
  have hrun : v.Accounts (v.run {} events) events := run_accounts v.accounts_nil events
  exact ⟨hmerged.holdsUpTo hcap, hrun.holdsUpTo hcap⟩

/-- an undocumented parameter has three examples here, one more than the cap allows -/
theorem fanOut_holdsUpTo_threeWorkers : ∃ compiled,
    CompiledCatalog.build ((Catalog.new ∅ ∅).addSources Catalog.nestedSources).root {} = .ok compiled ∧
      HoldsUpTo { catalog := compiled, cap := .limit 2 } 2 threeWorkers.events.reverse
        (threeWorkers.notes { catalog := compiled, cap := .limit 2 }) := by
  obtain ⟨compiled, hbuild⟩ :=
    CompiledNode.exists_build ((Catalog.new ∅ ∅).addSources Catalog.nestedSources).root {} (by decide +kernel)
  exact ⟨compiled, hbuild, (fanOut_holdsUpTo (by decide) rfl threeWorkers (List.reverse_perm _).symm).1⟩

end Validator

end PixelAudit
