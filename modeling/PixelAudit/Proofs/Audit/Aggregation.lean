/-
Reports on parts of a run, put together.

Reports are added by merging them: counters are added, and tables name by name. So they form a commutative monoid with
the empty report as zero, and to fold in an outcome is to add the report on that outcome alone (`fold_eq_add`). A report
is then the sum of the reports on its outcomes, whatever their order is and whoever folded them in.

`Describes` says what a report tells of outcomes, in terms of these alone. It holds of a sum of reports on single
outcomes by induction on the outcomes (`describes_add_single`), so of every report that folds and merges come to.

Main results: `foldAll_append_eq_merge` (a report on two parts of a run), `foldAll_perm` (outcomes in another order),
`foldAll_describes` (what a report tells), `totalEvents_eq` (all events are counted), `merge_foldAll` (reports that are
put together in any way).
-/
import PixelAudit.Audit.Report
import PixelAudit.Proofs.Joining
import Mathlib.Tactic

namespace PixelAudit

/-! ## The counts of a family -/

namespace FamilyCounts

instance : Zero FamilyCounts := ⟨{}⟩

instance : Add FamilyCounts := ⟨merge⟩

theorem add_eq (c d : FamilyCounts) : c + d =
    ⟨c.passed + d.passed, c.failed + d.failed, c.oldAppVersion + d.oldAppVersion, c.owners + d.owners⟩ := by
  rw [← NameSet.union_eq_add]
  rfl

theorem zero_eq : (0 : FamilyCounts) = ⟨0, 0, 0, 0⟩ := rfl

instance : AddCommMonoid FamilyCounts where
  add_assoc c d e := by simp only [add_eq, add_assoc]
  zero_add c := by simp only [add_eq, zero_eq, zero_add]
  add_zero c := by simp only [add_eq, zero_eq, add_zero]
  add_comm c d := by simp only [add_eq, add_comm]
  nsmul := nsmulRec

/-- the number of events of a family with a verdict -/
def countOf (verdict : Verdict) : FamilyCounts →+ ℕ where
  toFun c :=
    match verdict with
    | .passed => c.passed
    | .failed => c.failed
    | .oldAppVersion => c.oldAppVersion
    | .undocumented => 0
  map_zero' := by cases verdict <;> rfl
  map_add' c d := by cases verdict <;> rfl

theorem total_eq : total = ⇑(countOf .passed + countOf .failed + countOf .oldAppVersion) := rfl

theorem contains_owners_add (c d : FamilyCounts) (owner : String) :
    (c + d).owners.contains owner = true ↔ c.owners.contains owner = true ∨ d.owners.contains owner = true := by
  rw [add_eq]
  exact Dict.contains_add c.owners d.owners owner

/-- a verdict is counted beside the earlier ones -/
theorem add_outcome (c : FamilyCounts) (o : Outcome) : c.add o = c + FamilyCounts.add 0 o := by
  have howners : NameSet.union c.owners o.owners = c.owners + NameSet.union 0 o.owners := by
    rw [NameSet.union_eq_add, NameSet.union_eq_add, zero_add]
  rw [add_eq]
  unfold add
  cases o.verdict <;> simp [howners, zero_eq]

end FamilyCounts

namespace Report

/-! ## Adding reports -/

instance : Zero Report := ⟨{}⟩

instance : Add Report := ⟨merge⟩

theorem add_eq (r s : Report) : r + s =
    ⟨r.totalEvents + s.totalEvents, r.undocumented + s.undocumented, r.families + s.families,
      r.failuresByOwner + s.failuresByOwner⟩ := by
  have hfailures : s.failuresByOwner.entries.foldl
      (fun failures entry => failures.insert entry.1 (NameSet.union (failures.getD entry.1 ∅) entry.2))
      r.failuresByOwner = r.failuresByOwner + s.failuresByOwner := by
    simp only [NameSet.union_eq_add]
    rfl
  rw [← hfailures]
  rfl

theorem zero_eq : (0 : Report) = ⟨0, 0, 0, 0⟩ := rfl

instance : AddCommMonoid Report where
  add_assoc r s t := by simp only [add_eq, add_assoc]
  zero_add r := by simp only [add_eq, zero_eq, zero_add]
  add_zero r := by simp only [add_eq, zero_eq, add_zero]
  add_comm r s := by simp only [add_eq, add_comm]
  nsmul := nsmulRec

/-! ## The report on one outcome -/

/-- the report on one outcome -/
def single (o : Outcome) : Report := fold 0 o

theorem contains_foldl_blame (family : String) (owners : List String) (failures : Dict NameSet) (owner : String) :
    (owners.foldl (blame family) failures).contains owner = true ↔ failures.contains owner = true ∨ owner ∈ owners := by
  induction owners generalizing failures with
  | nil => simp
  | cons first rest ih =>
    rw [List.foldl_cons, ih, blame, Dict.contains_insert, List.mem_cons]
    tauto

/-- owners are blamed for a family beside what they are blamed for already -/
theorem contains_getD_foldl_blame (family : String) (owners : List String) (failures : Dict NameSet)
    (owner other : String) :
    ((owners.foldl (blame family) failures).getD owner 0).contains other = true ↔
      (failures.getD owner 0).contains other = true ∨ (family = other ∧ owner ∈ owners) := by
  induction owners generalizing failures with
  | nil => simp
  | cons first rest ih =>
    rw [List.foldl_cons, ih, List.mem_cons]
    by_cases howner : first = owner
    · subst howner
      have hfirst : (blame family failures first).getD first 0 = NameSet.insert (failures.getD first 0) family := by
        rw [blame, Dict.getD, Dict.find?_insert, if_pos rfl]
        rfl
      rw [hfirst, NameSet.contains_insert, Bool.or_eq_true, decide_eq_true_eq]
      tauto
    · have hother : (blame family failures first).getD owner 0 = failures.getD owner 0 := by
        rw [blame, Dict.getD, Dict.find?_insert, if_neg howner]
        rfl
      rw [hother]
      simp [Ne.symm howner]

/-- a failed event blames its owners whatever was there before -/
theorem foldl_blame_eq_add (family : String) (owners : List String) (failures : Dict NameSet) :
    owners.foldl (blame family) failures = failures + owners.foldl (blame family) 0 := by
  apply Dict.ext_getD
  · intro owner
    apply NameSet.ext_contains
    intro other
    rw [Dict.getD_add, Dict.contains_add, contains_getD_foldl_blame, contains_getD_foldl_blame]
    exact or_congr_right (or_iff_right Bool.false_ne_true).symm
  · intro owner
    rw [Dict.contains_add, contains_foldl_blame, contains_foldl_blame]
    exact or_congr_right (or_iff_right Bool.false_ne_true).symm

/-- to fold in an outcome is to add the report on it -/
theorem fold_eq_add (r : Report) (o : Outcome) : r.fold o = r + single o := by
  have hfamilies : r.families.insert o.family ((r.families.getD o.family 0).add o) =
      r.families + Dict.insert 0 o.family (FamilyCounts.add 0 o) := by
    rw [FamilyCounts.add_outcome]
    rfl
  have hfailures := foldl_blame_eq_add o.family o.owners.names r.failuresByOwner
  rw [add_eq, single]
  unfold fold
  cases o.verdict with
  | undocumented => simp [zero_eq]
  | oldAppVersion | passed => exact congrArg (fun families => Report.mk _ _ families _) hfamilies
  | failed => exact congrArg₂ (fun families failures => Report.mk _ _ families failures) hfamilies hfailures

theorem foldAll_eq_add_sum (r : Report) (outcomes : List Outcome) :
    r.foldAll outcomes = r + (outcomes.map single).sum := by
  induction outcomes generalizing r with
  | nil => exact (add_zero r).symm
  | cons o rest ih =>
    calc r.foldAll (o :: rest) = (r.fold o).foldAll rest := rfl
      _ = r + single o + (rest.map single).sum := by rw [ih, fold_eq_add]
      _ = r + ((o :: rest).map single).sum := by rw [add_assoc, List.map_cons, List.sum_cons]

theorem foldAll_concat (outcomes : List Outcome) (o : Outcome) :
    foldAll {} (outcomes ++ [o]) = foldAll {} outcomes + single o := by
  rw [foldAll_append, ← fold_eq_add]
  rfl

/-- folding goes on as if it started anew, and the reports on both parts were merged -/
theorem foldAll_append_eq_merge (first second : List Outcome) :
    foldAll {} (first ++ second) = (foldAll {} first).merge (foldAll {} second) := by
  have hsecond : foldAll {} second = (second.map single).sum := by
    rw [foldAll_eq_add_sum]
    exact zero_add _
  rw [foldAll_append, foldAll_eq_add_sum, ← hsecond]
  rfl

/-- the order of the outcomes does not matter -/
theorem foldAll_perm (r : Report) {outcomes other : List Outcome} (h : outcomes.Perm other) :
    r.foldAll outcomes = r.foldAll other := by
  rw [foldAll_eq_add_sum, foldAll_eq_add_sum, (h.map single).sum_eq]

/-! ## What a report tells -/

/-- what a report tells of outcomes -/
structure Describes (r : Report) (outcomes : List Outcome) : Prop where
  events : r.totalEvents = outcomes.length
  undocumented : r.undocumented = outcomes.countP fun o => o.verdict = .undocumented
  listed : ∀ family, r.families.contains family = true ↔
    ∃ o ∈ outcomes, o.verdict ≠ .undocumented ∧ o.family = family
  counts : ∀ verdict family, verdict ≠ .undocumented → FamilyCounts.countOf verdict (r.families.getD family {}) =
    outcomes.countP fun o => o.verdict = verdict ∧ o.family = family
  owners : ∀ family owner, (r.families.getD family {}).owners.contains owner = true ↔
    ∃ o ∈ outcomes, o.verdict ≠ .undocumented ∧ o.family = family ∧ o.owners.contains owner = true
  /-- an owner is blamed for a family exactly if an event of that family failed under it -/
  blamed : ∀ owner family, (r.failuresByOwner.getD owner ∅).contains family = true ↔
    ∃ o ∈ outcomes, o.verdict = .failed ∧ o.family = family ∧ o.owners.contains owner = true
  blamedOwners : ∀ owner, r.failuresByOwner.contains owner = true ↔
    ∃ o ∈ outcomes, o.verdict = .failed ∧ o.owners.contains owner = true

theorem describes_zero : Describes 0 [] where
  events := rfl
  undocumented := rfl
  listed family := iff_of_false Bool.false_ne_true (by simp)
  counts verdict family _ := by cases verdict <;> rfl
  owners family owner := iff_of_false Bool.false_ne_true (by simp)
  blamed owner family := iff_of_false Bool.false_ne_true (by simp)
  blamedOwners owner := iff_of_false Bool.false_ne_true (by simp)

section single

variable (o : Outcome)

theorem families_single : (single o).families =
    if o.verdict = .undocumented then 0 else Dict.insert 0 o.family (FamilyCounts.add 0 o) := by
  unfold single fold
  cases o.verdict <;> rfl

theorem failuresByOwner_single : (single o).failuresByOwner =
    if o.verdict = .failed then o.owners.names.foldl (blame o.family) 0 else 0 := by
  unfold single fold
  cases o.verdict <;> rfl

theorem totalEvents_single : (single o).totalEvents = 1 := by
  unfold single fold
  cases o.verdict <;> rfl

theorem undocumented_single : (single o).undocumented = if o.verdict = .undocumented then 1 else 0 := by
  unfold single fold
  cases o.verdict <;> rfl

theorem contains_families_single (family : String) : (single o).families.contains family = true ↔
    o.verdict ≠ .undocumented ∧ o.family = family := by
  rw [families_single]
  split_ifs with h
  · exact iff_of_false Bool.false_ne_true fun hother => hother.1 h
  · rw [Dict.contains_insert, and_iff_right h]
    exact or_iff_left Bool.false_ne_true

theorem getD_families_single (family : String) : (single o).families.getD family 0 =
    if o.verdict ≠ .undocumented ∧ o.family = family then FamilyCounts.add 0 o else 0 := by
  rw [families_single]
  by_cases h : o.verdict = .undocumented
  · rw [if_pos h, if_neg fun hother => hother.1 h]
    rfl
  · rw [if_neg h, Dict.getD, Dict.find?_insert]
    by_cases hfamily : o.family = family
    · rw [if_pos hfamily, if_pos ⟨h, hfamily⟩, Option.getD_some]
    · rw [if_neg hfamily, if_neg fun hother => hfamily hother.2]
      rfl

theorem countOf_single {verdict : Verdict} (hverdict : verdict ≠ .undocumented) (family : String) :
    FamilyCounts.countOf verdict ((single o).families.getD family 0) =
      if o.verdict = verdict ∧ o.family = family then 1 else 0 := by
  have hadd : o.verdict ≠ .undocumented →
      FamilyCounts.countOf verdict (FamilyCounts.add 0 o) = if o.verdict = verdict then 1 else 0 := by
    intro h
    unfold FamilyCounts.add
    cases hcase : o.verdict with
    | undocumented => exact absurd hcase h
    | oldAppVersion | failed | passed => cases verdict <;> rfl
  rw [getD_families_single]
  by_cases h : o.verdict ≠ .undocumented ∧ o.family = family
  · rw [if_pos h, hadd h.1]
    simp [h.2]
  · rw [if_neg h, map_zero, if_neg]
    rintro ⟨rfl, hfamily⟩
    exact h ⟨hverdict, hfamily⟩

theorem contains_owners_single (family owner : String) :
    ((single o).families.getD family 0).owners.contains owner = true ↔
      o.verdict ≠ .undocumented ∧ o.family = family ∧ o.owners.contains owner = true := by
  have hadd : (FamilyCounts.add 0 o).owners.contains owner = true ↔ o.owners.contains owner = true := by
    have howners : (FamilyCounts.add 0 o).owners = NameSet.union 0 o.owners := by
      unfold FamilyCounts.add
      cases o.verdict <;> rfl
    rw [howners, NameSet.contains_union]
    exact or_iff_right Bool.false_ne_true
  rw [getD_families_single, ← and_assoc]
  split_ifs with h
  · rw [hadd, and_iff_right h]
  · exact iff_of_false Bool.false_ne_true fun hother => h hother.1

theorem contains_blamed_single (owner family : String) :
    ((single o).failuresByOwner.getD owner 0).contains family = true ↔
      o.verdict = .failed ∧ o.family = family ∧ o.owners.contains owner = true := by
  rw [failuresByOwner_single]
  split_ifs with h
  · rw [contains_getD_foldl_blame, o.owners.contains_iff_mem_names, and_iff_right h]
    exact or_iff_right Bool.false_ne_true
  · exact iff_of_false Bool.false_ne_true fun hother => h hother.1

theorem contains_failuresByOwner_single (owner : String) :
    (single o).failuresByOwner.contains owner = true ↔ o.verdict = .failed ∧ o.owners.contains owner = true := by
  rw [failuresByOwner_single]
  split_ifs with h
  · rw [contains_foldl_blame, o.owners.contains_iff_mem_names, and_iff_right h]
    exact or_iff_right Bool.false_ne_true
  · exact iff_of_false Bool.false_ne_true fun hother => h hother.1

end single

/-- what is true of an outcome of a list with one more is true of one of the list or of that one -/
theorem exists_mem_concat {outcomes : List Outcome} {o : Outcome} {p : Outcome → Prop} :
    (∃ x ∈ outcomes ++ [o], p x) ↔ (∃ x ∈ outcomes, p x) ∨ p o := by
  simp only [List.mem_append, List.mem_singleton, or_and_right, exists_or, exists_eq_left]

/-- one outcome more is described by the report with the one on it added -/
theorem describes_add_single {r : Report} {outcomes : List Outcome} (h : r.Describes outcomes) (o : Outcome) :
    (r + single o).Describes (outcomes ++ [o]) where
  events := by
    rw [add_eq, List.length_append, ← h.events, totalEvents_single]
    rfl
  undocumented := by
    rw [add_eq, List.countP_append, ← h.undocumented, undocumented_single, List.countP_singleton]
    simp
  listed family := by
    rw [add_eq, Dict.contains_add, h.listed, contains_families_single, exists_mem_concat]
  counts verdict family hverdict := by
    have hsum : (r + single o).families.getD family {} =
        r.families.getD family {} + (single o).families.getD family 0 :=
      Dict.getD_add r.families (single o).families family
    rw [hsum, map_add, h.counts verdict family hverdict, countOf_single o hverdict, List.countP_append,
      List.countP_singleton]
    simp
  owners family owner := by
    have hsum : (r + single o).families.getD family {} =
        r.families.getD family {} + (single o).families.getD family 0 :=
      Dict.getD_add r.families (single o).families family
    rw [hsum, FamilyCounts.contains_owners_add, h.owners, contains_owners_single, exists_mem_concat]
  blamed owner family := by
    have hsum : (r + single o).failuresByOwner.getD owner ∅ =
        r.failuresByOwner.getD owner ∅ + (single o).failuresByOwner.getD owner 0 := by
      rw [add_eq]
      exact Dict.getD_add r.failuresByOwner (single o).failuresByOwner owner
    rw [hsum, Dict.contains_add, h.blamed, contains_blamed_single, exists_mem_concat]
  blamedOwners owner := by
    rw [add_eq, Dict.contains_add, h.blamedOwners, contains_failuresByOwner_single, exists_mem_concat]

/-- what the report on outcomes tells of them -/
theorem foldAll_describes (outcomes : List Outcome) : (foldAll {} outcomes).Describes outcomes := by
  induction outcomes using List.reverseRecOn with
  | nil => exact describes_zero
  | append_singleton outcomes o ih =>
    rw [foldAll_concat]
    exact describes_add_single ih o

/-! ## All events -/

theorem tally_eq_sum (r : Report) (field : FamilyCounts → ℕ) :
    r.tally field = (r.families.entries.map fun entry => field entry.2).sum := by
  rw [tally, Dict.values, List.foldr_map, List.sum, List.foldr_map]

theorem tally_add (field : FamilyCounts →+ ℕ) (r s : Report) :
    (r + s).tally field = r.tally field + s.tally field := by
  rw [tally_eq_sum, tally_eq_sum, tally_eq_sum, add_eq]
  exact Dict.sum_add field r.families s.families

/-- the counts of all families, with the undocumented events, are those of all verdicts -/
theorem tally_total (r : Report) :
    r.tally FamilyCounts.total = r.count .passed + r.count .failed + r.count .oldAppVersion := by
  simp only [count, tally_eq_sum, ← List.sum_map_add]
  rfl

theorem tally_total_single (o : Outcome) :
    (single o).tally FamilyCounts.total = if o.verdict = .undocumented then 0 else 1 := by
  rw [tally_eq_sum, families_single]
  split_ifs with h
  · rfl
  · have htotal : (FamilyCounts.add 0 o).total = 1 := by
      unfold FamilyCounts.add
      cases hcase : o.verdict with
      | undocumented => exact absurd hcase h
      | oldAppVersion | failed | passed => rfl
    have hentries : (Dict.insert 0 o.family (FamilyCounts.add 0 o)).entries = [(o.family, FamilyCounts.add 0 o)] := rfl
    rw [hentries, List.map_singleton, List.sum_singleton, htotal]

/-- every event is undocumented or counts for one family -/
theorem totalEvents_eq (outcomes : List Outcome) : (foldAll {} outcomes).totalEvents =
    (foldAll {} outcomes).undocumented + (foldAll {} outcomes).tally FamilyCounts.total := by
  induction outcomes using List.reverseRecOn with
  | nil => rfl
  | append_singleton outcomes o ih =>
    have htally := tally_add
      (FamilyCounts.countOf .passed + FamilyCounts.countOf .failed + FamilyCounts.countOf .oldAppVersion)
      (foldAll {} outcomes) (single o)
    have hone : (single o).undocumented + (single o).tally FamilyCounts.total = 1 := by
      rw [undocumented_single, tally_total_single]
      split_ifs <;> rfl
    rw [← FamilyCounts.total_eq] at htally
    have hevents := totalEvents_single o
    rw [foldAll_concat, htally]
    simp only [add_eq]
    omega

/-! ## Reports of workers -/

/-- How a report came about: it was empty, took in an outcome, or took over another report. Workers that judge parts of
a run, and are merged in any order, come to such a tree. -/
inductive Assembly where
  | fresh
  | folded (before : Assembly) (o : Outcome)
  | merged (receiver other : Assembly)

namespace Assembly

/-- all outcomes that were taken in -/
def outcomes : Assembly → List Outcome
  | fresh => []
  | folded before o => before.outcomes ++ [o]
  | merged receiver other => receiver.outcomes ++ other.outcomes

/-- the report in the end -/
def report : Assembly → Report
  | fresh => {}
  | folded before o => before.report.fold o
  | merged receiver other => receiver.report.merge other.report

/-- it is the report on all the outcomes -/
theorem report_eq (a : Assembly) : a.report = foldAll {} a.outcomes := by
  induction a with
  | fresh => rfl
  | folded before o ih => rw [report, outcomes, ih, fold_eq_add, foldAll_concat]
  | merged receiver other hreceiver hother => rw [report, outcomes, hreceiver, hother, foldAll_append_eq_merge]

end Assembly

/-- a report is the one on these outcomes, in whatever order, and its parts agree with one another -/
structure Aggregates (r : Report) (outcomes : List Outcome) : Prop where
  sequential : ∀ other : List Outcome, outcomes.Perm other → r = foldAll {} other
  describes : r.Describes outcomes
  events : r.totalEvents = r.undocumented + r.tally FamilyCounts.total
  /-- who is blamed for a family owns it, and the family has a failed event -/
  backed : ∀ owner family, (r.failuresByOwner.getD owner ∅).contains family = true →
    ∃ counts, r.families.find? family = some counts ∧ 1 ≤ counts.failed ∧ counts.owners.contains owner = true

theorem foldAll_aggregates (outcomes : List Outcome) : (foldAll {} outcomes).Aggregates outcomes where
  sequential other h := foldAll_perm {} h
  describes := foldAll_describes outcomes
  events := totalEvents_eq outcomes
  backed owner family hblamed := by
    have hdescribes := foldAll_describes outcomes
    obtain ⟨o, ho, hverdict, hfamily, howner⟩ := (hdescribes.blamed owner family).1 hblamed
    have hdocumented : o.verdict ≠ .undocumented := by
      rw [hverdict]
      exact Verdict.noConfusion
    have hlisted := (hdescribes.listed family).2 ⟨o, ho, hdocumented, hfamily⟩
    obtain ⟨counts, hcounts⟩ := Option.isSome_iff_exists.1 hlisted
    have hget : (foldAll {} outcomes).families.getD family {} = counts := by
      rw [Dict.getD, hcounts, Option.getD_some]
    have hfailed := hdescribes.counts .failed family Verdict.noConfusion
    have howners := hdescribes.owners family owner
    rw [hget] at hfailed howners
    refine ⟨counts, hcounts, ?_, howners.2 ⟨o, ho, hdocumented, hfamily, howner⟩⟩
    have hpos : 0 < outcomes.countP fun o => o.verdict = .failed ∧ o.family = family :=
      List.countP_pos_iff.2 ⟨o, ho, by simp [hverdict, hfamily]⟩
    rw [← hfailed] at hpos
    exact hpos

/-- Reports form a commutative monoid under merging, with the empty report, and folding outcomes one after the other is
merging the reports on their parts. So a report that workers come to, however the outcomes are handed out to them and
in whatever order they are merged, is the one on all outcomes, and tells exactly what they are. -/
theorem merge_foldAll :
    (∀ first second : List Outcome, foldAll {} (first ++ second) = (foldAll {} first).merge (foldAll {} second)) ∧
      (∀ r s : Report, r.merge s = s.merge r) ∧
      (∀ r s t : Report, (r.merge s).merge t = r.merge (s.merge t)) ∧
      (∀ r : Report, r.merge {} = r ∧ Report.merge {} r = r) ∧
      ∀ a : Assembly, a.report.Aggregates a.outcomes := by
  refine ⟨foldAll_append_eq_merge, ?_, ?_, ?_, ?_⟩
  · intro r s
    exact add_comm r s
  · intro r s t
    exact add_assoc r s t
  · intro r
    exact ⟨add_zero r, zero_add r⟩
  · intro a
    rw [a.report_eq]
    exact foldAll_aggregates a.outcomes

end Report

end PixelAudit
