/-
Which gates are open in a product.

A product lists its experiments in two tables, of search and of native experiments, and what runs is put together from
both. A gate is open if one of its variants is listed under its experiment in either of them.

Main results: `runs_experiments` (what runs is what is listed), `allows_experiments` (which specifications are active).
-/
import PixelAudit.Config.Product
import PixelAudit.Proofs.Tables
import Mathlib.Tactic

namespace PixelAudit

namespace Experiments

/-- a variant of an experiment runs -/
def runs (e : Experiments) (id variant : String) : Bool := (e.getD id ∅).contains variant

theorem isActive_eq (e : Experiments) (gate : ExperimentGate) :
    e.isActive gate = gate.variants.any (e.runs gate.id) := by
  unfold isActive
  cases hfind : e.find? gate.id with
  | some running =>
    refine congrArg gate.variants.any (funext fun variant => ?_)
    rw [runs, Dict.getD, hfind, Option.getD_some]
  | none =>
    have hno : gate.variants.any (e.runs gate.id) = gate.variants.any fun _ => false := by
      refine congrArg gate.variants.any (funext fun variant => ?_)
      rw [runs, Dict.getD, hfind]
      rfl
    simp [hno]

theorem runs_enable (e : Experiments) (id variant id' variant' : String) :
    (e.enable id variant).runs id' variant' = true ↔
      e.runs id' variant' = true ∨ id' = id ∧ variant' = variant := by
  by_cases hid : id = id'
  · subst hid
    simp only [runs, enable, Dict.getD, Dict.find?_insert, if_pos, Option.getD_some, NameSet.contains_insert,
      Bool.or_eq_true, decide_eq_true_eq]
    tauto
  · simp only [runs, enable, Dict.getD, Dict.find?_insert, if_neg hid]
    simp [Ne.symm hid]

end Experiments

namespace Product

/-- a variant is listed under its experiment in one of the two tables -/
def Listed (p : Product) (id variant : String) : Prop :=
  ∃ e, (p.searchExperiments.find? id = some e ∨ p.nativeExperiments.find? id = some e) ∧ variant ∈ e.variants

theorem runs_foldl_enable (variants : List String) (running : Experiments) (id id' variant : String) :
    (variants.foldl (fun running v => running.enable id v) running).runs id' variant = true ↔
      running.runs id' variant = true ∨ id' = id ∧ variant ∈ variants := by
  induction variants generalizing running with
  | nil => simp
  | cons v variants ih =>
    rw [List.foldl_cons, ih, Experiments.runs_enable, List.mem_cons]
    tauto

theorem runs_enableAll (running : Experiments) (id : String) (e : ProductExperiment) (id' variant : String) :
    (enableAll running id e).runs id' variant = true ↔
      running.runs id' variant = true ∨ id' = id ∧ variant ∈ e.variants :=
  runs_foldl_enable e.variants running id id' variant

theorem runs_foldl_enableAll (entries : List (String × ProductExperiment)) (running : Experiments)
    (id variant : String) :
    (entries.foldl (fun running (id, e) => enableAll running id e) running).runs id variant = true ↔
      running.runs id variant = true ∨ ∃ e, (id, e) ∈ entries ∧ variant ∈ e.variants := by
  induction entries generalizing running with
  | nil => simp
  | cons entry entries ih =>
    obtain ⟨id', e'⟩ := entry
    simp only [List.foldl_cons, ih, runs_enableAll, List.mem_cons, Prod.mk.injEq, or_and_right, exists_or, and_assoc,
      exists_and_left, exists_eq_left, or_assoc]

/-- what runs is what is listed -/
theorem runs_experiments (p : Product) (id variant : String) :
    p.experiments.runs id variant = true ↔ p.Listed id variant := by
  rw [experiments, runs_foldl_enableAll]
  simp only [List.mem_append, ← Dict.find?_eq_some_iff, Listed]
  simp [Experiments.runs, Dict.getD, Dict.contains]

/-- the specification has no gate, or one that is open in the product -/
def Active (p : Product) (spec : ParamSpec) : Prop :=
  ∀ gate, spec.experiment = some gate → ∃ variant ∈ gate.variants, p.Listed gate.id variant

theorem allows_experiments (p : Product) (spec : ParamSpec) : p.experiments.allows spec = true ↔ p.Active spec := by
  unfold Experiments.allows Active
  cases spec.experiment with
  | none => simp
  | some gate => simp [Experiments.isActive_eq, runs_experiments]

instance (p : Product) : DecidablePred p.Active := fun spec => decidable_of_iff _ (p.allows_experiments spec)

/-- the active ones of some specifications -/
def activeOf (p : Product) (specs : List ParamSpec) : List ParamSpec := specs.filter p.Active

theorem activeOf_eq (p : Product) (specs : List ParamSpec) : p.activeOf specs = specs.filter p.experiments.allows := by
  refine List.filter_congr fun spec _ => ?_
  rw [Bool.eq_iff_iff, decide_eq_true_eq, p.allows_experiments]

end Product

end PixelAudit
