/-
The examples that a table keeps of the faults that were noted in it.

Under a cap not every example is kept, and which ones are kept depends on the order. What does not depend on it is how
many: a table that has taken in faults lists each kind of them, has no other examples than theirs, and lacks one only if
the cap admits no more. `Summarizes` says so of a table and a list of faults. It looks at the faults as a set, so two
tables that hold the same faults in any order agree on everything that it says.

Taking over the table of another worker loses nothing of this: an example that is missing there is missing because that
table is full, and then the receiving one is full as well.

Main results: `Summarizes.foldl` (faults are noted), `Summarizes.absorb` (another table is taken over),
`Summarizes.unique` (without a cap the table is determined), `Summarizes.size_kept` (under a cap the number of examples
is).
-/
import PixelAudit.Proofs.Audit.Faults
import PixelAudit.Proofs.Tables
import Mathlib.Tactic
import Mathlib.Data.Finset.Card

namespace PixelAudit

/-- one fault of an event: the family, the kind, and the value that is its example -/
structure Fault where
  family : String
  descriptor : String
  sample : String
  deriving DecidableEq, Repr

def Fault.finding (x : Fault) : Finding := ⟨x.descriptor, x.sample⟩

namespace SampleCap

/-- a cap that admits an example beside many admits one beside fewer -/
theorem admits_of_le {cap : SampleCap} {k l : Nat} (h : k ≤ l) (hl : cap.admits l = true) : cap.admits k = true := by
  cases cap with
  | keepAll => rfl
  | limit most =>
    simp only [admits, decide_eq_true_eq] at hl ⊢
    omega

theorem not_admits_of_le {cap : SampleCap} {k l : Nat} (h : k ≤ l) (hk : cap.admits k = false) :
    cap.admits l = false := by
  rw [← Bool.not_eq_true] at hk ⊢
  exact fun hl => hk (admits_of_le h hl)

variable {cap : SampleCap} {samples : NameSet} {sample other : String}

/-- an example is new and let in, or nothing changes -/
theorem keep_cases (cap : SampleCap) (samples : NameSet) (sample : String) :
    (samples.contains sample = false ∧ cap.admits samples.size = true ∧
        cap.keep samples sample = samples.insert sample) ∨
      ((samples.contains sample = true ∨ cap.admits samples.size = false) ∧ cap.keep samples sample = samples) := by
  by_cases hnew : samples.contains sample = true
  · exact Or.inr ⟨Or.inl hnew, keep_of_contains hnew⟩
  · rw [Bool.not_eq_true] at hnew
    by_cases hroom : cap.admits samples.size = true
    · exact Or.inl ⟨hnew, hroom, keep_of_room hnew hroom⟩
    · rw [Bool.not_eq_true] at hroom
      exact Or.inr ⟨Or.inr hroom, keep_of_full hroom⟩

theorem contains_keep_of_contains (h : samples.contains other = true) :
    (cap.keep samples sample).contains other = true := by
  rcases cap.keep_cases samples sample with ⟨-, -, heq⟩ | ⟨-, heq⟩
  · rw [heq, NameSet.contains_insert, h, Bool.or_true]
  · rw [heq, h]

theorem contains_of_contains_keep (h : (cap.keep samples sample).contains other = true) :
    sample = other ∨ samples.contains other = true := by
  rcases cap.keep_cases samples sample with ⟨-, -, heq⟩ | ⟨-, heq⟩
  · rwa [heq, NameSet.contains_insert, Bool.or_eq_true, decide_eq_true_eq] at h
  · rw [heq] at h
    exact Or.inr h

/-- afterwards the example is there, or the set is full -/
theorem contains_keep_or_full (cap : SampleCap) (samples : NameSet) (sample : String) :
    (cap.keep samples sample).contains sample = true ∨ cap.admits (cap.keep samples sample).size = false := by
  rcases cap.keep_cases samples sample with ⟨-, -, heq⟩ | ⟨h, heq⟩
  · left
    rw [heq, NameSet.contains_insert, decide_eq_true rfl, Bool.true_or]
  · rwa [heq]

/-- a set that is full is not empty, if the cap admits any example -/
theorem exists_contains_of_full (hcap : cap.admits 0 = true) (hfull : cap.admits samples.size = false) :
    ∃ s, samples.contains s = true := by
  cases hnames : samples.names with
  | nil =>
    have hsize : samples.size = 0 := by rw [Dict.size_eq_card, hnames]; rfl
    rw [hsize, hcap] at hfull
    cases hfull
  | cons s rest =>
    refine ⟨s, ?_⟩
    rw [Dict.contains_iff_mem_names, hnames]
    exact List.mem_cons_self

theorem admits_of_size_keep (h : ∀ k, samples.size = k + 1 → cap.admits k = true) {k : Nat}
    (hsize : (cap.keep samples sample).size = k + 1) : cap.admits k = true := by
  rcases cap.keep_cases samples sample with ⟨hnew, hroom, heq⟩ | ⟨-, heq⟩
  · rw [heq, NameSet.size_insert hnew] at hsize
    obtain rfl : samples.size = k := Nat.succ.inj hsize
    exact hroom
  · rw [heq] at hsize
    exact h k hsize

end SampleCap

namespace FaultTable

variable {cap : SampleCap} {table other : FaultTable} {xs ys : List Fault}

/-- the examples kept of one kind of fault -/
def kept (table : FaultTable) (family descriptor : String) : NameSet := (table.getD family ∅).getD descriptor ∅

/-- note one fault -/
def add (cap : SampleCap) (table : FaultTable) (x : Fault) : FaultTable :=
  table.insert x.family (addFinding cap (table.getD x.family ∅) x.finding)

/-- the faults that a table has kept the examples of -/
def faults (table : FaultTable) : List Fault :=
  table.entries.flatMap fun (family, kinds) =>
    kinds.entries.flatMap fun (descriptor, samples) => samples.names.map fun sample => ⟨family, descriptor, sample⟩

theorem getD_add (table : FaultTable) (x : Fault) (family : String) : (add cap table x).getD family ∅ =
    if x.family = family then addFinding cap (table.getD family ∅) x.finding else table.getD family ∅ := by
  rw [add, Dict.getD_insert]
  split_ifs with h
  · rw [h]
  · rfl

/-- the example comes to its own kind of fault -/
theorem kept_add_self (table : FaultTable) (x : Fault) : (add cap table x).kept x.family x.descriptor =
    cap.keep (table.kept x.family x.descriptor) x.sample := by
  rw [kept, getD_add, if_pos rfl, getD_addFinding]
  exact if_pos rfl

theorem kept_add_of_ne (table : FaultTable) (x : Fault) {family descriptor : String}
    (h : ¬ (x.family = family ∧ x.descriptor = descriptor)) :
    (add cap table x).kept family descriptor = table.kept family descriptor := by
  rw [kept, getD_add]
  by_cases hfamily : x.family = family
  · rw [if_pos hfamily, getD_addFinding]
    exact if_neg fun hdescriptor => h ⟨hfamily, hdescriptor⟩
  · rw [if_neg hfamily]
    rfl

/-- findings of a family are noted one by one -/
theorem record_eq_foldl (table : FaultTable) (family : String) {findings : List Finding} (h : findings ≠ []) :
    table.record cap family findings =
      (findings.map fun f => (⟨family, f.descriptor, f.sample⟩ : Fault)).foldl (add cap) table := by
  induction findings generalizing table with
  | nil => exact absurd rfl h
  | cons f rest ih =>
    rw [List.map_cons, List.foldl_cons]
    by_cases hrest : rest = []
    · subst hrest
      rfl
    · rw [← ih _ hrest, record, record, add, Dict.getD_insert, if_pos rfl, Dict.insert_insert, List.foldl_cons]
      rfl

theorem mem_faults_iff (table : FaultTable) (x : Fault) :
    x ∈ table.faults ↔ (table.kept x.family x.descriptor).contains x.sample = true := by
  simp only [faults, List.mem_flatMap, List.mem_map, Prod.exists]
  constructor
  · rintro ⟨family, kinds, hkinds, descriptor, samples, hsamples, sample, hsample, rfl⟩
    rw [← Dict.find?_eq_some_iff] at hkinds hsamples
    rw [← Dict.contains_iff_mem_names] at hsample
    simpa [kept, Dict.getD, hkinds, hsamples] using hsample
  · intro hkept
    cases hkinds : table.find? x.family with
    | none => simp [kept, Dict.getD, hkinds, Dict.contains] at hkept
    | some kinds =>
      cases hsamples : kinds.find? x.descriptor with
      | none => simp [kept, Dict.getD, hkinds, hsamples, Dict.contains] at hkept
      | some samples =>
        simp only [kept, Dict.getD, hkinds, hsamples, Option.getD_some] at hkept
        rw [Dict.contains_iff_mem_names] at hkept
        exact ⟨_, kinds, (Dict.find?_eq_some_iff _).1 hkinds, _, samples, (Dict.find?_eq_some_iff _).1 hsamples, _,
          hkept, rfl⟩

/-- a table is determined by its families, its kinds of faults, and the examples kept of each -/
theorem ext_kept (hfamilies : ∀ family, table.contains family = true ↔ other.contains family = true)
    (hkinds : ∀ family descriptor,
      (table.getD family ∅).contains descriptor = true ↔ (other.getD family ∅).contains descriptor = true)
    (hkept : ∀ family descriptor, table.kept family descriptor = other.kept family descriptor) : table = other := by
  have hsame : ∀ family, table.getD family ∅ = other.getD family ∅ := fun family =>
    Dict.ext_getD (hkept family) (hkinds family)
  exact Dict.ext_getD hsame hfamilies

/-! ## Tables and faults -/

/-- the table is what is kept of the faults under a cap -/
structure Summarizes (cap : SampleCap) (table : FaultTable) (xs : List Fault) : Prop where
  families : ∀ family, table.contains family = true ↔ ∃ x ∈ xs, x.family = family
  kinds : ∀ family descriptor,
    (table.getD family ∅).contains descriptor = true ↔ ∃ x ∈ xs, x.family = family ∧ x.descriptor = descriptor
  sound : ∀ family descriptor sample,
    (table.kept family descriptor).contains sample = true → ⟨family, descriptor, sample⟩ ∈ xs
  /-- an example is left out only if the cap admits no further one -/
  complete : ∀ x ∈ xs, (table.kept x.family x.descriptor).contains x.sample = true ∨
    cap.admits (table.kept x.family x.descriptor).size = false
  /-- the last example was admitted beside the others -/
  admitted : ∀ family descriptor k, (table.kept family descriptor).size = k + 1 → cap.admits k = true

theorem Summarizes.empty : Summarizes cap ∅ [] where
  families family := by simp [Dict.contains]
  kinds family descriptor := by simp [Dict.getD, Dict.contains]
  sound family descriptor sample h := by cases h
  complete x hx := absurd hx List.not_mem_nil
  admitted family descriptor k h := by cases h

/-- only the set of the faults counts -/
theorem Summarizes.congr (h : Summarizes cap table xs) (hmem : ∀ x, x ∈ xs ↔ x ∈ ys) : Summarizes cap table ys where
  families family := by simpa only [hmem] using h.families family
  kinds family descriptor := by simpa only [hmem] using h.kinds family descriptor
  sound family descriptor sample hs := (hmem _).1 (h.sound family descriptor sample hs)
  complete x hx := h.complete x ((hmem x).2 hx)
  admitted := h.admitted

/-- one more fault is noted -/
theorem Summarizes.add (h : Summarizes cap table xs) (x : Fault) : Summarizes cap (table.add cap x) (xs ++ [x]) where
  families family := by
    rw [FaultTable.add, Dict.contains_insert, h.families]
    simp only [List.mem_append, List.mem_singleton, or_and_right, exists_or, exists_eq_left]
    exact or_comm
  kinds family descriptor := by
    rw [getD_add]
    simp only [List.mem_append, List.mem_singleton, or_and_right, exists_or, exists_eq_left]
    by_cases hfamily : x.family = family
    · rw [if_pos hfamily, addFinding, Dict.contains_insert, h.kinds, or_comm]
      simp [hfamily, Fault.finding]
    · rw [if_neg hfamily, h.kinds]
      simp [hfamily]
  sound family descriptor sample hs := by
    by_cases hkind : x.family = family ∧ x.descriptor = descriptor
    · obtain ⟨rfl, rfl⟩ := hkind
      rw [kept_add_self] at hs
      rcases SampleCap.contains_of_contains_keep hs with rfl | hs
      · exact List.mem_append_right xs (List.mem_singleton_self x)
      · exact List.mem_append_left [x] (h.sound _ _ _ hs)
    · rw [kept_add_of_ne table x hkind] at hs
      exact List.mem_append_left [x] (h.sound _ _ _ hs)
  complete y hy := by
    by_cases hkind : x.family = y.family ∧ x.descriptor = y.descriptor
    · rw [← hkind.1, ← hkind.2, kept_add_self]
      rcases List.mem_append.1 hy with hy | hy
      · -- a set that was full has stayed as it was
        rcases h.complete y hy with hs | hfull
        · left
          rw [← hkind.1, ← hkind.2] at hs
          exact SampleCap.contains_keep_of_contains hs
        · right
          rw [← hkind.1, ← hkind.2] at hfull
          rwa [SampleCap.keep_of_full hfull]
      · obtain rfl : y = x := List.mem_singleton.1 hy
        exact cap.contains_keep_or_full _ y.sample
    · rw [kept_add_of_ne table x hkind]
      rcases List.mem_append.1 hy with hy | hy
      · exact h.complete y hy
      · obtain rfl : y = x := List.mem_singleton.1 hy
        exact absurd ⟨rfl, rfl⟩ hkind
  admitted family descriptor k hsize := by
    by_cases hkind : x.family = family ∧ x.descriptor = descriptor
    · obtain ⟨rfl, rfl⟩ := hkind
      rw [kept_add_self] at hsize
      exact SampleCap.admits_of_size_keep (h.admitted _ _) hsize
    · rw [kept_add_of_ne table x hkind] at hsize
      exact h.admitted family descriptor k hsize

/-- faults are noted one by one -/
theorem Summarizes.foldl (h : Summarizes cap table xs) (ys : List Fault) :
    Summarizes cap (ys.foldl (FaultTable.add cap) table) (xs ++ ys) := by
  induction ys generalizing table xs with
  | nil => simpa using h
  | cons y rest ih =>
    have hrest := ih (h.add y)
    rwa [List.append_assoc, List.singleton_append] at hrest

/-- if the cap admits any example, each kind that is listed has one -/
theorem Summarizes.exists_kept (h : Summarizes cap table xs) (hcap : cap.admits 0 = true) {x : Fault} (hx : x ∈ xs) :
    ∃ sample, (table.kept x.family x.descriptor).contains sample = true := by
  rcases h.complete x hx with hs | hfull
  · exact ⟨x.sample, hs⟩
  · exact SampleCap.exists_contains_of_full hcap hfull

/-- A table that has taken over what another one kept has taken over all faults of that one: an example that was lost
there was lost to a full set, and that set has come over. -/
theorem Summarizes.absorb (hother : Summarizes cap other ys) (h : Summarizes cap table (xs ++ other.faults))
    (hcap : cap.admits 0 = true) : Summarizes cap table (xs ++ ys) := by
  have hsub : ∀ x ∈ other.faults, x ∈ ys := fun x hx =>
    hother.sound _ _ _ ((mem_faults_iff other x).1 hx)
  have hwitness : ∀ x ∈ ys, ∃ y ∈ other.faults, y.family = x.family ∧ y.descriptor = x.descriptor := by
    intro x hx
    obtain ⟨sample, hsample⟩ := hother.exists_kept hcap hx
    exact ⟨⟨x.family, x.descriptor, sample⟩, (mem_faults_iff other _).2 hsample, rfl, rfl⟩
  refine ⟨fun family => ?_, fun family descriptor => ?_, fun family descriptor sample hs => ?_, fun x hx => ?_,
    h.admitted⟩
  · rw [h.families]
    constructor
    · rintro ⟨x, hx, hfamily⟩
      exact ⟨x, List.mem_append.2 ((List.mem_append.1 hx).imp_right (hsub x)), hfamily⟩
    · rintro ⟨x, hx, rfl⟩
      rcases List.mem_append.1 hx with hx | hx
      · exact ⟨x, List.mem_append_left _ hx, rfl⟩
      · obtain ⟨y, hy, hfamily, -⟩ := hwitness x hx
        exact ⟨y, List.mem_append_right xs hy, hfamily⟩
  · rw [h.kinds]
    constructor
    · rintro ⟨x, hx, hkind⟩
      exact ⟨x, List.mem_append.2 ((List.mem_append.1 hx).imp_right (hsub x)), hkind⟩
    · rintro ⟨x, hx, rfl, rfl⟩
      rcases List.mem_append.1 hx with hx | hx
      · exact ⟨x, List.mem_append_left _ hx, rfl, rfl⟩
      · obtain ⟨y, hy, hkind⟩ := hwitness x hx
        exact ⟨y, List.mem_append_right xs hy, hkind⟩
  · exact List.mem_append.2 ((List.mem_append.1 (h.sound family descriptor sample hs)).imp_right (hsub _))
  · rcases List.mem_append.1 hx with hx | hx
    · exact h.complete x (List.mem_append_left _ hx)
    · by_cases hroom : cap.admits (table.kept x.family x.descriptor).size = false
      · exact Or.inr hroom
      · left
        -- there is room, so every example of the other table has come over, and that table was not full either
        have hover : ∀ sample, (other.kept x.family x.descriptor).contains sample = true →
            (table.kept x.family x.descriptor).contains sample = true := by
          intro sample hsample
          have hmem : (⟨x.family, x.descriptor, sample⟩ : Fault) ∈ xs ++ other.faults :=
            List.mem_append_right xs ((mem_faults_iff other _).2 hsample)
          exact (h.complete _ hmem).resolve_right hroom
        have hsize := NameSet.size_le_of_contains hover
        exact hover x.sample ((hother.complete x hx).resolve_right fun hfull =>
          hroom (SampleCap.not_admits_of_le hsize hfull))

/-! ## What is determined -/

/-- without a cap every example is kept -/
theorem Summarizes.contains_kept_iff (h : Summarizes .keepAll table xs) (x : Fault) :
    (table.kept x.family x.descriptor).contains x.sample = true ↔ x ∈ xs := by
  refine ⟨fun hs => h.sound _ _ _ hs, fun hx => (h.complete x hx).resolve_right fun hfull => ?_⟩
  cases hfull

/-- without a cap a set of faults has one table -/
theorem Summarizes.unique (h : Summarizes .keepAll table xs) (hother : Summarizes .keepAll other xs) :
    table = other := by
  refine ext_kept (fun family => ?_) (fun family descriptor => ?_) fun family descriptor => ?_
  · rw [h.families, hother.families]
  · rw [h.kinds, hother.kinds]
  · refine NameSet.ext_contains fun sample => ?_
    have hone := h.contains_kept_iff ⟨family, descriptor, sample⟩
    exact hone.trans (hother.contains_kept_iff ⟨family, descriptor, sample⟩).symm

/-- the distinct examples of one kind of fault -/
def samplesAmong (xs : List Fault) (family descriptor : String) : Finset String :=
  ((xs.filter fun x => x.family = family ∧ x.descriptor = descriptor).map Fault.sample).toFinset

theorem mem_samplesAmong {family descriptor sample : String} :
    sample ∈ samplesAmong xs family descriptor ↔ (⟨family, descriptor, sample⟩ : Fault) ∈ xs := by
  simp only [samplesAmong, List.mem_toFinset, List.mem_map, List.mem_filter, decide_eq_true_eq]
  constructor
  · rintro ⟨x, ⟨hx, rfl, rfl⟩, rfl⟩
    exact hx
  · intro hx
    exact ⟨_, ⟨hx, rfl, rfl⟩, rfl⟩

/-- under a cap there are as many examples as there can be -/
theorem Summarizes.size_kept {most : Nat} (h : Summarizes (.limit most) table xs) (family descriptor : String) :
    (table.kept family descriptor).size = min most (samplesAmong xs family descriptor).card := by
  have hsub : (table.kept family descriptor).names.toFinset ⊆ samplesAmong xs family descriptor := by
    intro sample hs
    rw [List.mem_toFinset, ← Dict.contains_iff_mem_names] at hs
    exact mem_samplesAmong.2 (h.sound family descriptor sample hs)
  have hle : (table.kept family descriptor).size ≤ most := by
    cases hsize : (table.kept family descriptor).size with
    | zero => exact Nat.zero_le most
    | succ k => simpa [SampleCap.admits] using h.admitted family descriptor k hsize
  have hcard := Finset.card_le_card hsub
  rw [← Dict.size_eq_card] at hcard
  by_cases hfull : most ≤ (table.kept family descriptor).size
  · omega
  · -- a set that is not full has every example
    have hall : samplesAmong xs family descriptor ⊆ (table.kept family descriptor).names.toFinset := by
      intro sample hs
      rw [List.mem_toFinset, ← Dict.contains_iff_mem_names]
      refine (h.complete _ (mem_samplesAmong.1 hs)).resolve_right fun hadmits => hfull ?_
      simpa [SampleCap.admits] using hadmits
    have hback := Finset.card_le_card hall
    rw [← Dict.size_eq_card] at hback
    omega

end FaultTable

end PixelAudit
