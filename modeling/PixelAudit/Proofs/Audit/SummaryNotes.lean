/-
The families that the summary of a run tells about.

A report lists a family under its full name, which was put together from the declared segments while the tree was
compiled. The summary looks that name up in the declared tree, and leaves a name out that it does not find. Letters may
be folded in between, but only on the way to a family and not in the name it carries, so the summary finds every family
of the report, and the definition it finds is the one that the family was compiled from.

Main results: `find?_families_new` (what a summary tells about a name), `Validator.definition_of_judge` (an event is
judged by a definition), `Node.Holds.exists_of_counted` (a family of the report is declared), `summary_complete` (a
summary leaves no family of the report out).
-/
import PixelAudit.Audit.Results
import PixelAudit.Proofs.Audit.Aggregation
import PixelAudit.Proofs.Catalog.OwnName
import Mathlib.Tactic

namespace PixelAudit

/-! ## The notes of a summary -/

namespace Summary

variable (report : Report) (run : RunStats) (declared : Node)

theorem notes?_of_get? {name : String} {node : Node} {d : PixelDefinition} (hnode : declared.get? name = some node)
    (hdefinition : node.definition = some d) : notes? declared name = some ⟨d.description, d.triggers⟩ := by
  rw [notes?, hnode, Option.bind_some, hdefinition]
  rfl

/-- the names of a report are in order already -/
theorem entries_families_new : (new report run declared).families.entries = report.families.names.filterMap fun name =>
    (notes? declared name).map fun notes => (name, notes) := by
  have hnames : report.families.names.Pairwise (· < ·) := List.pairwise_map.2 report.families.sorted
  refine Entries.ofList_of_sorted (List.pairwise_filterMap.2 (hnames.imp fun hlt => ?_))
  intro e he e' he'
  obtain ⟨_, -, rfl⟩ := Option.map_eq_some_iff.1 he
  obtain ⟨_, -, rfl⟩ := Option.map_eq_some_iff.1 he'
  exact hlt

/-- a summary has notes on the declared families of the report -/
theorem find?_families_new {name : String} {notes : FamilyNotes} :
    (new report run declared).families.find? name = some notes ↔
      report.families.contains name = true ∧ notes? declared name = some notes := by
  rw [Dict.find?_eq_some_iff, entries_families_new, Dict.contains_iff_mem_names]
  simp [List.mem_filterMap]

/-- if all families of the report are declared, then it lists them all -/
theorem names_families_new (h : ∀ name, report.families.contains name = true → (notes? declared name).isSome = true) :
    (new report run declared).families.names = report.families.names := by
  rw [Dict.names, entries_families_new, List.map_filterMap]
  refine (List.filterMap_congr fun name hname => ?_).trans List.filterMap_some
  obtain ⟨notes, hnotes⟩ := Option.isSome_iff_exists.1 (h name ((Dict.contains_iff_mem_names _ _).2 hname))
  rw [hnotes]
  rfl

/-- Every family of the report is looked up successfully. It is listed, and the notes on it come from the definition
that has the owners in its counts. -/
structure Complete (s : Summary) (declared : Node) : Prop where
  names : s.families.names = s.report.families.names
  found : ∀ name counts, s.report.families.find? name = some counts → ∃ node d, declared.get? name = some node ∧
    node.isTerminal = true ∧ node.definition = some d ∧ counts.owners = d.owners ∧
    s.families.find? name = some ⟨d.description, d.triggers⟩

end Summary

/-! ## Events judged by definitions -/

namespace Validator

variable {declared : Dict PixelDefinition} {root : Node} {ctx : CompileContext} {inherited : Inherited}
  {m : CompiledNode}

/-- an event that is judged is judged for a declared family, and its owners are the declared ones -/
theorem definition_of_judge (hholds : root.Holds declared)
    (hcompile : CompiledNode.compile ctx "" inherited root = .ok m) (versionKey : Option String) (cap : SampleCap)
    {e : RawEvent} (hjudged : ((Validator.mk ⟨m, ctx.forceLowerCase⟩ versionKey cap).judge e).verdict ≠ .undocumented) :
    ∃ d, declared.find? ((Validator.mk ⟨m, ctx.forceLowerCase⟩ versionKey cap).judge e).family = some d ∧
      ((Validator.mk ⟨m, ctx.forceLowerCase⟩ versionKey cap).judge e).owners = d.owners := by
  obtain ⟨node, remainder, ⟨k, -, hnode, -⟩, hverdict⟩ :=
    (Validator.mk ⟨m, ctx.forceLowerCase⟩ versionKey cap).judge_judged e
  cases hfamily : node.family with
  | none => exact absurd (hverdict.undocumented.2 hfamily) hjudged
  | some family =>
    obtain ⟨d, hd, howners, -⟩ := hholds.definition_of_find? hcompile hnode hfamily
    obtain ⟨hname, hsame⟩ := (hverdict.judged family hfamily).named
    exact ⟨d, by rw [hname, hd], hsame.trans howners⟩

end Validator

namespace Report

variable {outcomes : List Outcome} {declared : Dict PixelDefinition}

/-- A family is counted with the owners of its definition, if all its events were judged with them. -/
theorem owners_of_find? (h : ∀ o ∈ outcomes, o.verdict ≠ .undocumented →
      ∃ d, declared.find? o.family = some d ∧ o.owners = d.owners)
    {name : String} {counts : FamilyCounts} (hcounts : (foldAll {} outcomes).families.find? name = some counts) :
    ∃ d, declared.find? name = some d ∧ counts.owners = d.owners := by
  have hdescribes := foldAll_describes outcomes
  have hget : (foldAll {} outcomes).families.getD name {} = counts := by rw [Dict.getD, hcounts, Option.getD_some]
  -- an event of the family gives the definition, and all its events have the same one
  obtain ⟨o, ho, hverdict, rfl⟩ := (hdescribes.listed name).1 (Option.isSome_iff_exists.2 ⟨counts, hcounts⟩)
  obtain ⟨d, hd, howners⟩ := h o ho hverdict
  refine ⟨d, hd, NameSet.ext_contains fun owner => ?_⟩
  have howner := hdescribes.owners o.family owner
  rw [hget] at howner
  rw [howner]
  constructor
  · rintro ⟨other, hother, hdocumented, hfamily, hcontains⟩
    obtain ⟨d', hd', howners'⟩ := h other hother hdocumented
    rw [hfamily, hd] at hd'
    obtain rfl : d = d' := Option.some.inj hd'
    rwa [howners'] at hcontains
  · intro hcontains
    exact ⟨o, ho, hverdict, rfl, by rwa [howners]⟩

end Report

/-- every family of a report on judged events is found in the tree, with the owners that are counted -/
theorem Node.Holds.exists_of_counted {declared : Dict PixelDefinition} {root : Node} {ctx : CompileContext}
    {inherited : Inherited} {m : CompiledNode} (hholds : root.Holds declared)
    (hcompile : CompiledNode.compile ctx "" inherited root = .ok m) (versionKey : Option String) (cap : SampleCap)
    (events : List RawEvent) {name : String} {counts : FamilyCounts}
    (hcounts : (Report.foldAll {} (events.map
      (Validator.mk ⟨m, ctx.forceLowerCase⟩ versionKey cap).judge)).families.find? name = some counts) :
    ∃ node d, root.get? name = some node ∧ node.definition = some d ∧ counts.owners = d.owners := by
  obtain ⟨d, hd, howners⟩ := Report.owners_of_find? (fun o ho hverdict => by
    obtain ⟨e, -, rfl⟩ := List.mem_map.1 ho
    exact Validator.definition_of_judge hholds hcompile versionKey cap hverdict) hcounts
  rw [← hholds.named] at hd
  obtain ⟨node, hnode, hdefinition⟩ := Option.bind_eq_some_iff.1 hd
  exact ⟨node, d, hnode, hdefinition, howners⟩

namespace Catalog

open CompiledNode (exists_build_of_map)

/-- A run through the compiled families of sources leaves a summary that leaves no family of its report out. The report
lists the families that had events; every one of them is found in the declared tree, letters folded or not, and the
summary has the description and the triggers of the definition whose owners were counted. -/
theorem summary_complete (commonParams : ParamCatalog) (commonSuffixes : SuffixCatalog) (sources : List Source)
    (ctx : CompileContext) (compiled : CompiledCatalog)
    (hbuild : CompiledCatalog.build ((new commonParams commonSuffixes).addSources sources).root ctx = .ok compiled)
    (versionKey : Option String) (cap : SampleCap) (events : List RawEvent) (run : RunStats) :
    let report := Report.foldAll {} (events.map (Validator.mk compiled versionKey cap).judge)
    let root := ((new commonParams commonSuffixes).addSources sources).root
    (∀ name, report.families.contains name = true ↔
        ∃ e ∈ events, ((Validator.mk compiled versionKey cap).judge e).verdict ≠ .undocumented ∧
          ((Validator.mk compiled versionKey cap).judge e).family = name) ∧
      (Summary.new report run root).Complete root := by
  intro report root
  have hholds := addSources_holds commonParams commonSuffixes sources
  obtain ⟨m, hcompile, rfl⟩ := CompiledNode.build_eq_ok hbuild
  refine ⟨fun name => ?_, ?_, ?_⟩
  · rw [(Report.foldAll_describes _).listed]
    simp only [List.mem_map, exists_exists_and_eq_and]
  · refine Summary.names_families_new report run root fun name hname => ?_
    obtain ⟨counts, hcounts⟩ := Option.isSome_iff_exists.1 hname
    obtain ⟨node, d, hnode, hdefinition, -⟩ := hholds.exists_of_counted hcompile versionKey cap events hcounts
    rw [Summary.notes?_of_get? root hnode hdefinition]
    rfl
  · intro name counts hcounts
    obtain ⟨node, d, hnode, hdefinition, howners⟩ := hholds.exists_of_counted hcompile versionKey cap events hcounts
    refine ⟨node, d, hnode, by rw [Node.isTerminal, hdefinition]; rfl, hdefinition, howners, ?_⟩
    exact (Summary.find?_families_new report run root).2
      ⟨Option.isSome_iff_exists.2 ⟨counts, hcounts⟩, Summary.notes?_of_get? root hnode hdefinition⟩

/-- two families, one with a capital letter and with notes -/
def describedSources : List Source := [⟨"a.json", .object [
  ("app.Click", .object [("owners", .array [.string "t"]), ("description", .string "Tap on a result"),
    ("triggers", .array [.string "tap"])]),
  ("app.view", .object [("owners", .array [.string "t"])])]⟩]

/-- an event in other letters leaves the notes of its family in the summary -/
theorem summary_complete_folded : ∃ compiled,
    CompiledCatalog.build ((new ∅ ∅).addSources describedSources).root { forceLowerCase := true } = .ok compiled ∧
      (Summary.new (Report.foldAll {} ([⟨"APP.CLICK", "", none⟩].map (Validator.mk compiled none default).judge)) {}
        ((new ∅ ∅).addSources describedSources).root).families.find? "app.Click" =
          some ⟨some "Tap on a result", ["tap"]⟩ := by
  have hanswer : ((CompiledCatalog.build ((new ∅ ∅).addSources describedSources).root
      { forceLowerCase := true }).toOption.map fun c => (
        ((Validator.mk c none default).judge ⟨"APP.CLICK", "", none⟩).verdict,
        ((Validator.mk c none default).judge ⟨"APP.CLICK", "", none⟩).family)) = some (.passed, "app.Click") := by
    decide +kernel
  obtain ⟨compiled, hbuild, h⟩ := exists_build_of_map hanswer
  obtain ⟨hverdict, hname⟩ := Prod.mk.inj h
  obtain ⟨hlisted, -, hfound⟩ := summary_complete ∅ ∅ describedSources { forceLowerCase := true } compiled hbuild none
    default [⟨"APP.CLICK", "", none⟩] {}
  obtain ⟨counts, hcounts⟩ := Option.isSome_iff_exists.1
    ((hlisted "app.Click").2 ⟨_, List.mem_singleton_self _, by rw [hverdict]; decide, hname⟩)
  obtain ⟨node, d, hnode, -, hdefinition, -, hnotes⟩ := hfound "app.Click" counts hcounts
  have hdeclared : (((new ∅ ∅).addSources describedSources).root.get? "app.Click").bind (fun node =>
      node.definition.map fun d => (d.description, d.triggers)) = some (some "Tap on a result", ["tap"]) := by
    decide
  rw [hnode, Option.bind_some, hdefinition] at hdeclared
  obtain ⟨hdescription, htriggers⟩ := Prod.mk.inj (Option.some.inj hdeclared)
  exact ⟨compiled, hbuild, by rw [hnotes, hdescription, htriggers]⟩

end Catalog

end PixelAudit
