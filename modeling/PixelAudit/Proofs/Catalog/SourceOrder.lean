/-
The order in which sources are taken in.

A record is accepted if it is well-formed and equals the declaration that its name has already. As equality of definitions
is symmetric and transitive, the declarations of a name are then equal by pairs, and being so does not depend on their
order. What a tree holds is the first declaration of each name: another order puts in its place one that is equal or the
very same. A definition with a bound that is not a number equals no other, and so its family can be declared only once.

Main results: `Tells.addRecord` (one record), `accepts_iff` (when sources are accepted), `source_order` (what sources
come to in two orders).
-/
import PixelAudit.Proofs.Catalog.Inheritance
import PixelAudit.Proofs.Catalog.Congruence
import Mathlib.Tactic
import Mathlib.Data.List.Perm.Basic

namespace PixelAudit

open Text (pieces)
open Decimal (Binary64)

namespace Catalog

/-- a family and its definition, as a record declares them -/
abbrev Declaration := String × PixelDefinition

/-- two declarations of one name are equal -/
def AgreeOn (a b : Declaration) : Prop := a.1 = b.1 → a.2.same b.2 = true

theorem AgreeOn.symm {a b : Declaration} (h : AgreeOn a b) : AgreeOn b a :=
  fun hname => PixelDefinition.same_symm (h hname.symm)

instance : Std.Symm AgreeOn := ⟨fun _ _ => AgreeOn.symm⟩

/-- a well-formed record and what it declares -/
structure Declares (commonParams : ParamCatalog) (commonSuffixes : SuffixCatalog) (record : String × Json)
    (d : Declaration) : Prop where
  name : d.1 = record.1
  wellNamed : isWellFormedName record.1 = true
  definition : PixelDefinition.ofRecord commonParams commonSuffixes record.2 = .ok d.2

theorem Declares.unique {commonParams : ParamCatalog} {commonSuffixes : SuffixCatalog} {record : String × Json}
    {d e : Declaration} (h : Declares commonParams commonSuffixes record d)
    (h2 : Declares commonParams commonSuffixes record e) : d = e :=
  Prod.ext (h.name.trans h2.name.symm) (Except.ok.inj (h.definition.symm.trans h2.definition))

/-- a source that is a mapping of well-formed names to well-formed definitions, and what it declares -/
def SourceDeclares (commonParams : ParamCatalog) (commonSuffixes : SuffixCatalog) (source : Source)
    (ds : List Declaration) : Prop :=
  ∃ records, source.records = .object records ∧ List.Forall₂ (Declares commonParams commonSuffixes) records ds

theorem SourceDeclares.unique {commonParams : ParamCatalog} {commonSuffixes : SuffixCatalog} {source : Source}
    {ds es : List Declaration} (h : SourceDeclares commonParams commonSuffixes source ds)
    (h2 : SourceDeclares commonParams commonSuffixes source es) : ds = es := by
  obtain ⟨records, hrecords, hds⟩ := h
  obtain ⟨records', hrecords', hes⟩ := h2
  obtain rfl : records = records' := Json.object.inj (hrecords.symm.trans hrecords')
  exact List.right_unique_forall₂' (fun _ _ _ hd he => hd.unique he) hds hes

/-- the answers to sources that are taken in one after the other -/
def answers (c : Catalog) : List Source → List (Except AuditError Nat)
  | [] => []
  | source :: rest =>
    (c.addSource source.origin source.records).2 :: (c.addSource source.origin source.records).1.answers rest

/-- every source is accepted, and this is the number of new families altogether -/
def Accepts (c : Catalog) (sources : List Source) (total : Nat) : Prop :=
  ∃ counts : List Nat, c.answers sources = counts.map .ok ∧ counts.sum = total

/-- the catalog holds the first declaration of each name, and the others are equal to it -/
structure Tells (c : Catalog) (ds : List Declaration) : Prop where
  holds : ∃ table, c.root.Holds table ∧ ∀ name, table.find? name = Entries.find? name ds
  agree : ds.Pairwise AgreeOn

section steps

variable {c next : Catalog} {ds : List Declaration} {d : Declaration} {record : String × Json} {origin : String}

/-- a further declaration agrees with all others if it equals the first one of its name -/
theorem forall_agree_iff (h : ds.Pairwise AgreeOn) (d : Declaration) :
    (∀ a ∈ ds, AgreeOn a d) ↔ ∀ first, Entries.find? d.1 ds = some first → first.same d.2 = true := by
  constructor
  · exact fun hall first hfirst => hall _ (Entries.mem_of_find? hfirst) rfl
  · intro hfirst a ha hname
    obtain ⟨first, hfound⟩ := Entries.exists_find?_of_mem ha
    have hd : first.same d.2 = true := hfirst first (hname ▸ hfound)
    by_cases hsame : a = (a.1, first)
    · rw [hsame]
      exact hd
    · have hagree := h.forall ha (Entries.mem_of_find? hfound) hsame
      exact PixelDefinition.same_trans (hagree rfl) hd

section table

variable {commonParams : ParamCatalog} {commonSuffixes : SuffixCatalog} {table after : Dict PixelDefinition}

theorem declare?_of_declares (h : Declares commonParams commonSuffixes record d) (table : Dict PixelDefinition) :
    declare? commonParams commonSuffixes table record.1 record.2 =
      match table.find? d.1 with
      | some first => if first.same d.2 then some table else none
      | none => some (table.insert d.1 d.2) := by
  unfold declare?
  rw [if_neg (by simp [h.wellNamed]), h.definition]
  cases hfirst : table.find? d.1 with
  | some first => simp only [← h.name, hfirst]
  | none => simp only [← h.name, hfirst]

theorem exists_declares (h : declare? commonParams commonSuffixes table record.1 record.2 = some after) :
    ∃ d, Declares commonParams commonSuffixes record d := by
  unfold declare? at h
  split at h
  · cases h
  · rename_i hname
    split at h
    · cases h
    · rename_i definition hread
      exact ⟨(record.1, definition), rfl, by simpa using hname, hread⟩

/-- a table takes in a declaration that equals the one that its name has already, and keeps the first -/
theorem find?_of_declare? (h : Declares commonParams commonSuffixes record d)
    (hafter : declare? commonParams commonSuffixes table record.1 record.2 = some after) :
    (∀ first, table.find? d.1 = some first → first.same d.2 = true) ∧
      ∀ name, after.find? name = (table.find? name).or (Entries.find? name [d]) := by
  rw [declare?_of_declares h] at hafter
  cases hfirst : table.find? d.1 with
  | none =>
    rw [hfirst] at hafter
    obtain rfl := Option.some.inj hafter
    refine ⟨fun first heq => (nomatch heq), fun name => ?_⟩
    rw [Dict.find?_insert, Entries.find?]
    split_ifs with hname
    · rw [← hname, hfirst]
      rfl
    · rw [Entries.find?, Option.or_none]
  | some existing =>
    rw [hfirst] at hafter
    dsimp only at hafter
    split_ifs at hafter with hsame
    obtain rfl := Option.some.inj hafter
    refine ⟨fun first heq => Option.some.inj heq ▸ hsame, fun name => ?_⟩
    rw [Entries.find?]
    split_ifs with hname
    · rw [← hname, hfirst]
      rfl
    · rw [Entries.find?, Option.or_none]

end table

theorem terminalCount_addRecord {name : String} {record : Json} {isNew : Bool} (hc : c.root.Ordered)
    (h : c.addRecord origin name record = .ok (next, isNew)) :
    next.root.terminalCount = c.root.terminalCount + if isNew then 1 else 0 := by
  obtain ⟨-, definition, -, hinsert, -⟩ := addRecord_eq_ok h
  exact Node.terminalCount_insert hc hinsert

/-- a record is taken in exactly if it is well-formed and agrees with what was declared before -/
theorem Tells.addRecord (h : c.Tells ds) (origin : String) (record : String × Json) :
    match c.addRecord origin record.1 record.2 with
    | .ok (next, isNew) => next.commonParams = c.commonParams ∧ next.commonSuffixes = c.commonSuffixes ∧
        next.root.terminalCount = c.root.terminalCount + (if isNew then 1 else 0) ∧
        ∃ d, Declares c.commonParams c.commonSuffixes record d ∧ next.Tells (ds ++ [d])
    | .error _ => ∀ d, Declares c.commonParams c.commonSuffixes record d → ¬ (ds ++ [d]).Pairwise AgreeOn := by
  obtain ⟨⟨table, hholds, htable⟩, hagree⟩ := h
  have hrecord := hholds.addRecord origin record.1 record.2
  have hconcat : ∀ d : Declaration, (ds ++ [d]).Pairwise AgreeOn ↔
      ∀ first, table.find? d.1 = some first → first.same d.2 = true := by
    intro d
    rw [htable, ← forall_agree_iff hagree, List.pairwise_append]
    simp [hagree]
  cases hanswer : c.addRecord origin record.1 record.2 with
  | error e =>
    intro d hd hpairs
    rw [hanswer, declare?_of_declares hd] at hrecord
    cases hfirst : table.find? d.1 with
    | none =>
      rw [hfirst] at hrecord
      cases hrecord
    | some first =>
      rw [hfirst] at hrecord
      dsimp only at hrecord
      rw [if_pos ((hconcat d).1 hpairs first hfirst)] at hrecord
      cases hrecord
  | ok r =>
    obtain ⟨next, isNew⟩ := r
    rw [hanswer] at hrecord
    obtain ⟨hparams, hsuffixes, after, hafter, hnext⟩ := hrecord
    obtain ⟨d, hd⟩ := exists_declares hafter
    obtain ⟨hfirst, hfind⟩ := find?_of_declare? hd hafter
    refine ⟨hparams, hsuffixes, terminalCount_addRecord hholds.ordered hanswer, d, hd, ⟨after, hnext, fun name => ?_⟩,
      (hconcat d).2 hfirst⟩
    rw [hfind, htable, Entries.find?_append]

/-- the records of a source are all taken in exactly if they are well-formed and agree with one another -/
theorem Tells.addRecords (h : c.Tells ds) (origin : String) (added : Nat) (records : List (String × Json)) :
    match c.addRecords origin added records with
    | (next, .ok n) => next.commonParams = c.commonParams ∧ next.commonSuffixes = c.commonSuffixes ∧
        n + c.root.terminalCount = added + next.root.terminalCount ∧
        ∃ es, List.Forall₂ (Declares c.commonParams c.commonSuffixes) records es ∧ next.Tells (ds ++ es)
    | (_, .error _) => ∀ es, List.Forall₂ (Declares c.commonParams c.commonSuffixes) records es →
        ¬ (ds ++ es).Pairwise AgreeOn := by
  induction records generalizing c ds added with
  | nil => exact ⟨rfl, rfl, rfl, [], .nil, by rwa [List.append_nil]⟩
  | cons record rest ih =>
    have hrecord := h.addRecord origin record
    rw [Catalog.addRecords]
    cases hanswer : c.addRecord origin record.1 record.2 with
    | error e =>
      rw [hanswer] at hrecord
      rintro _ (_ | ⟨hd, -⟩) hpairs
      rw [List.append_cons] at hpairs
      exact hrecord _ hd (List.pairwise_append.1 hpairs).1
    | ok r =>
      obtain ⟨next, isNew⟩ := r
      rw [hanswer] at hrecord
      obtain ⟨hparams, hsuffixes, hcount, d, hd, hnext⟩ := hrecord
      have hrest := ih hnext (if isNew then added + 1 else added)
      dsimp only
      rw [← hparams, ← hsuffixes] at hd ⊢
      split at hrest
      · rename_i last n hlast
        obtain ⟨hparams', hsuffixes', hcount', es, hes, htells⟩ := hrest
        refine ⟨hparams', hsuffixes', ?_, d :: es, .cons hd hes, by rwa [List.append_cons]⟩
        split_ifs at hcount hcount' <;> omega
      · rintro _ (_ | ⟨hd', hes⟩) hpairs
        rw [List.append_cons, hd'.unique hd] at hpairs
        exact hrest _ hes hpairs

/-- a source is taken in exactly if it is well-formed and agrees with what was declared before -/
theorem Tells.addSource (h : c.Tells ds) (source : Source) :
    match c.addSource source.origin source.records with
    | (next, .ok n) => next.commonParams = c.commonParams ∧ next.commonSuffixes = c.commonSuffixes ∧
        n + c.root.terminalCount = next.root.terminalCount ∧
        ∃ es, SourceDeclares c.commonParams c.commonSuffixes source es ∧ next.Tells (ds ++ es)
    | (_, .error _) => ∀ es, SourceDeclares c.commonParams c.commonSuffixes source es →
        ¬ (ds ++ es).Pairwise AgreeOn := by
  obtain ⟨origin, records⟩ := source
  cases records with
  | object records =>
    have hrecords := h.addRecords origin 0 records
    dsimp only [Catalog.addSource]
    split at hrecords
    · obtain ⟨hparams, hsuffixes, hcount, es, hes, htells⟩ := hrecords
      exact ⟨hparams, hsuffixes, by omega, es, ⟨records, rfl, hes⟩, htells⟩
    · rintro es ⟨_, heq, hes⟩
      obtain rfl := Json.object.inj heq
      exact hrecords es hes
  | _ =>
    rintro es ⟨_, heq, -⟩
    cases heq

/-- sources are all taken in exactly if they are well-formed and agree with one another -/
theorem Tells.addSources (h : c.Tells ds) (sources : List Source) :
    (∀ total, c.Accepts sources total →
      total + c.root.terminalCount = (c.addSources sources).root.terminalCount ∧
        ∃ ess, List.Forall₂ (SourceDeclares c.commonParams c.commonSuffixes) sources ess ∧
          (c.addSources sources).Tells (ds ++ ess.flatten)) ∧
      ∀ ess, List.Forall₂ (SourceDeclares c.commonParams c.commonSuffixes) sources ess →
        (ds ++ ess.flatten).Pairwise AgreeOn → ∃ total, c.Accepts sources total := by
  induction sources generalizing c ds with
  | nil =>
    refine ⟨?_, fun _ _ _ => ⟨0, [], rfl, rfl⟩⟩
    rintro total ⟨counts, hcounts, rfl⟩
    obtain rfl : counts = [] := List.map_eq_nil_iff.1 hcounts.symm
    exact ⟨by rw [List.sum_nil, Nat.zero_add]; rfl, [], .nil, by rwa [List.flatten_nil, List.append_nil]⟩
  | cons source rest ih =>
    have hsource := h.addSource source
    have hnext : c.addSources (source :: rest) = (c.addSource source.origin source.records).1.addSources rest := rfl
    have hanswers : c.answers (source :: rest) = (c.addSource source.origin source.records).2 ::
        (c.addSource source.origin source.records).1.answers rest := rfl
    unfold Accepts
    rw [hnext, hanswers]
    generalize c.addSource source.origin source.records = r at hsource
    obtain ⟨next, answer⟩ := r
    cases answer with
    | error e =>
      refine ⟨?_, ?_⟩
      · rintro total ⟨_ | ⟨n, counts⟩, hcounts, -⟩
        · cases hcounts
        · cases (List.cons.inj hcounts).1
      · rintro _ (_ | ⟨hes, -⟩) hpairs
        rw [List.flatten_cons, ← List.append_assoc] at hpairs
        exact absurd (List.pairwise_append.1 hpairs).1 (hsource _ hes)
    | ok n =>
      obtain ⟨hparams, hsuffixes, hcount, es, hes, htells⟩ := hsource
      obtain ⟨haccepted, hconsistent⟩ := ih htells
      rw [hparams, hsuffixes] at haccepted hconsistent
      refine ⟨?_, ?_⟩
      · rintro total ⟨_ | ⟨n', counts⟩, hcounts, rfl⟩
        · cases hcounts
        · obtain ⟨hn, hrest⟩ := List.cons.inj hcounts
          obtain rfl := Except.ok.inj hn
          obtain ⟨htotal, ess, hess, hlast⟩ := haccepted counts.sum ⟨counts, hrest, rfl⟩
          refine ⟨by rw [List.sum_cons]; dsimp only at htotal ⊢; omega, es :: ess, .cons hes hess, ?_⟩
          rwa [List.flatten_cons, ← List.append_assoc]
      · rintro _ (_ | ⟨hes', hess⟩) hpairs
        rw [hes'.unique hes, List.flatten_cons, ← List.append_assoc] at hpairs
        obtain ⟨_, counts, hcounts, rfl⟩ := hconsistent _ hess hpairs
        exact ⟨_, n :: counts, congrArg _ hcounts, rfl⟩

end steps

/-- every source is a mapping of well-formed names to well-formed definitions, and two declarations of one name are
equal -/
def Consistent (commonParams : ParamCatalog) (commonSuffixes : SuffixCatalog) (sources : List Source) : Prop :=
  ∃ ess, List.Forall₂ (SourceDeclares commonParams commonSuffixes) sources ess ∧ ess.flatten.Pairwise AgreeOn

variable (commonParams : ParamCatalog) (commonSuffixes : SuffixCatalog) {sources other : List Source} {total : Nat}

theorem tells_new : (new commonParams commonSuffixes).Tells [] :=
  ⟨⟨∅, Node.Holds.empty, fun _ => rfl⟩, .nil⟩

/-- sources are accepted exactly if they are consistent -/
theorem accepts_iff : (∃ total, (new commonParams commonSuffixes).Accepts sources total) ↔
    Consistent commonParams.normalize commonSuffixes sources := by
  obtain ⟨haccepted, hconsistent⟩ := (tells_new commonParams commonSuffixes).addSources sources
  constructor
  · rintro ⟨total, htotal⟩
    obtain ⟨-, ess, hess, htells⟩ := haccepted total htotal
    exact ⟨ess, hess, htells.agree⟩
  · rintro ⟨ess, hess, hpairs⟩
    exact hconsistent ess hess hpairs

/-- whether sources are consistent does not depend on their order -/
theorem Consistent.perm (hperm : sources.Perm other) {params : ParamCatalog} {suffixes : SuffixCatalog}
    (h : Consistent params suffixes sources) : Consistent params suffixes other := by
  obtain ⟨ess, hess, hpairs⟩ := h
  obtain ⟨ess', hess', hperm'⟩ := List.perm_comp_forall₂ hperm.symm hess
  exact ⟨ess', hess', (hperm'.flatten.pairwise_iff AgreeOn.symm).2 hpairs⟩

/-- a definition takes the place of another: it is the very same or equal to it -/
structure Replaces (d e : PixelDefinition) : Prop where
  same_or_eq : d = e ∨ d.same e = true
  /-- but for a bound that is not a number the two are equal -/
  same_iff : d.same e = true ↔ ∀ x ∈ d.bounds, x ≠ .nan

theorem Replaces.alike {d e : PixelDefinition} (h : Replaces d e) : d.Alike e := by
  rcases h.same_or_eq with rfl | hsame
  · exact PixelDefinition.Alike.refl d
  · exact (PixelDefinition.same_iff_alike.1 hsame).2

/-- what a catalog is, whatever the order of its sources was -/
structure SameFamilies (c d : Catalog) : Prop where
  paths : ∀ path, (c.root.find? path).isSome ↔ (d.root.find? path).isSome
  definitions : ∀ path, Option.Rel Replaces (c.root.definition? path) (d.root.definition? path)
  counted : c.root.terminalCount = d.root.terminalCount
  /-- both are refused, or compiled to the same families with the same floors and alike rules -/
  compiled : ∀ ctx, Agree (fun k l => k.root.Alike l.root ∧ k.lowerCase = l.lowerCase)
    (CompiledCatalog.build c.root ctx) (CompiledCatalog.build d.root ctx)

section order

variable {c d : Catalog} {ds es : List Declaration}

/-- of two orders of the same declarations, the first ones of a name take the place of one another -/
theorem rel_find?_of_perm (hds : ds.Pairwise AgreeOn) (hperm : ds.Perm es) (name : String) :
    Option.Rel Replaces (Entries.find? name ds) (Entries.find? name es) := by
  cases hfirst : Entries.find? name ds with
  | none =>
    cases hother : Entries.find? name es with
    | none => exact .none
    | some e =>
      obtain ⟨d, hd⟩ := Entries.exists_find?_of_mem (hperm.mem_iff.2 (Entries.mem_of_find? hother))
      rw [hfirst] at hd
      cases hd
  | some d =>
    obtain ⟨e, he⟩ := Entries.exists_find?_of_mem (hperm.mem_iff.1 (Entries.mem_of_find? hfirst))
    rw [he]
    refine .some ?_
    by_cases heq : d = e
    · subst heq
      exact ⟨Or.inl rfl, d.same_self_iff⟩
    · have hmem := hperm.mem_iff.2 (Entries.mem_of_find? he)
      have hsame : d.same e = true :=
        hds.forall (Entries.mem_of_find? hfirst) hmem (fun h => heq (congrArg Prod.snd h)) rfl
      exact ⟨Or.inr hsame, iff_of_true hsame (PixelDefinition.same_iff_alike.1 hsame).1⟩

theorem Tells.sameFamilies (hc : c.Tells ds) (hd : d.Tells es) (hperm : ds.Perm es) : c.SameFamilies d := by
  obtain ⟨⟨table, hholds, htable⟩, hagree⟩ := hc
  obtain ⟨⟨table', hholds', htable'⟩, -⟩ := hd
  have hnamed : ∀ name, Option.Rel Replaces (table.find? name) (table'.find? name) := by
    intro name
    rw [htable, htable']
    exact rel_find?_of_perm hagree hperm name
  have hpaths : ∀ path, (c.root.find? path).isSome ↔ (d.root.find? path).isSome := by
    intro path
    rw [hholds.find?_isSome_iff, hholds'.find?_isSome_iff]
    refine or_congr_right (exists_congr fun name => ?_)
    have hsome := isSome_of_rel (hnamed name)
    constructor
    · rintro ⟨d, hd, hprefix⟩
      rw [hd] at hsome
      obtain ⟨e, he⟩ := Option.isSome_iff_exists.1 hsome.symm
      exact ⟨e, he, hprefix⟩
    · rintro ⟨e, he, hprefix⟩
      rw [he] at hsome
      obtain ⟨d, hd⟩ := Option.isSome_iff_exists.1 hsome
      exact ⟨d, hd, hprefix⟩
  have hdefinitions : ∀ path, Option.Rel Replaces (c.root.definition? path) (d.root.definition? path) := by
    intro path
    by_cases hpath : ∃ name, path = pieces '.' name
    · obtain ⟨name, rfl⟩ := hpath
      rw [hholds.named, hholds'.named]
      exact hnamed name
    · -- elsewhere nothing is declared
      have hnone : c.root.definition? path = none := Option.eq_none_iff_forall_ne_some.2 fun _ h =>
        hpath (hholds.placed path _ h)
      have hnone' : d.root.definition? path = none := Option.eq_none_iff_forall_ne_some.2 fun _ h =>
        hpath (hholds'.placed path _ h)
      rw [hnone, hnone']
      exact .none
  have hcounted : c.root.terminalCount = d.root.terminalCount := by
    rw [hholds.counted, hholds'.counted]
    exact Dict.size_eq_of_contains fun name => isSome_of_rel (hnamed name)
  have halike : c.root.Alike d.root :=
    ⟨hpaths, fun path => rel_of_mem (hdefinitions path) fun _ _ _ _ hreplaces => hreplaces.alike⟩
  exact ⟨hpaths, hdefinitions, hcounted, fun ctx => CompiledCatalog.build_agree hholds.ordered hholds'.ordered halike ctx⟩

end order

/-- Sources are accepted if they are consistent, in one order exactly if in the other. Then the two catalogs have the
same paths, equal definitions and the same number of families, and are compiled alike. -/
theorem source_order (hperm : sources.Perm other) :
    ((∃ total, (new commonParams commonSuffixes).Accepts sources total) ↔
        Consistent commonParams.normalize commonSuffixes sources) ∧
      ((∃ total, (new commonParams commonSuffixes).Accepts sources total) ↔
        ∃ total, (new commonParams commonSuffixes).Accepts other total) ∧
      ∀ total, (new commonParams commonSuffixes).Accepts sources total →
        (new commonParams commonSuffixes).Accepts other total ∧
          ((new commonParams commonSuffixes).addSources sources).root.terminalCount = total ∧
          ((new commonParams commonSuffixes).addSources other).root.terminalCount = total ∧
          ((new commonParams commonSuffixes).addSources sources).SameFamilies
            ((new commonParams commonSuffixes).addSources other) := by
  have hsame : (∃ total, (new commonParams commonSuffixes).Accepts sources total) ↔
      ∃ total, (new commonParams commonSuffixes).Accepts other total := by
    rw [accepts_iff, accepts_iff]
    exact ⟨fun h => h.perm hperm, fun h => h.perm hperm.symm⟩
  refine ⟨accepts_iff commonParams commonSuffixes, hsame, fun total htotal => ?_⟩
  obtain ⟨total', htotal'⟩ := hsame.1 ⟨total, htotal⟩
  obtain ⟨hcount, ess, hess, htells⟩ := ((tells_new commonParams commonSuffixes).addSources sources).1 total htotal
  obtain ⟨hcount', ess', hess', htells'⟩ := ((tells_new commonParams commonSuffixes).addSources other).1 total' htotal'
  obtain ⟨fss, hfss, hfssperm⟩ := List.perm_comp_forall₂ hperm.symm hess
  obtain rfl : fss = ess' := List.right_unique_forall₂' (fun _ _ _ h h2 => h.unique h2) hfss hess'
  rw [List.nil_append] at htells htells'
  have hfamilies := htells.sameFamilies htells' hfssperm.symm.flatten
  have hnone : (new commonParams commonSuffixes).root.terminalCount = 0 := rfl
  have hcounted := hfamilies.counted
  obtain rfl : total = total' := by omega
  exact ⟨htotal', by omega, by omega, hfamilies⟩

/-- two families, one of them declared twice: the second time with another spelling of its version -/
def twiceSources : List Source := [
  ⟨"a.json", .object [("app", .object [("minVersion", .string "1.2"), ("owners", .array [.string "t"])]),
    ("app.page", .object [("owners", .array [.string "t"])])]⟩,
  ⟨"b.json", .object [("app", .object [("minVersion", .string "1.2.0"), ("owners", .array [.string "t"])])]⟩]

/-- the family that is declared twice counts once, in whichever order -/
theorem source_order_twice :
    (new ∅ ∅).Accepts twiceSources.reverse 2 ∧
      ((new ∅ ∅).addSources twiceSources).SameFamilies ((new ∅ ∅).addSources twiceSources.reverse) := by
  have haccepts : (new ∅ ∅).Accepts twiceSources 2 := ⟨[2, 0], rfl, rfl⟩
  have horder := source_order ∅ ∅ (List.reverse_perm twiceSources).symm
  obtain ⟨hother, -, -, hfamilies⟩ := horder.2.2 2 haccepts
  exact ⟨hother, hfamilies⟩

/-- one family, with a parameter that has a bound -/
def boundSource : Json :=
  .object [("app", .object [("owners", .array [.string "t"]), ("parameters", .array [.string "n"])])]

/-- a family whose bound is not a number does not equal itself, and to declare it once more is refused -/
theorem redeclaration_refused :
    (new (Dict.ofList [("n", { minimum := some .nan })]) ∅).Accepts [⟨"a.json", boundSource⟩] 1 ∧
      (∃ d, ((new (Dict.ofList [("n", { minimum := some .nan })]) ∅).addSources
          [⟨"a.json", boundSource⟩]).root.definition? ["app"] = some d ∧ d.same d = false) ∧
      ¬ ∃ total, (new (Dict.ofList [("n", { minimum := some .nan })]) ∅).Accepts
        [⟨"a.json", boundSource⟩, ⟨"b.json", boundSource⟩] total := by
  refine ⟨⟨[1], rfl, rfl⟩, ⟨_, rfl, rfl⟩, ?_⟩
  rintro ⟨total, _ | ⟨n, _ | ⟨n', counts⟩⟩, hcounts, -⟩
  · cases hcounts
  · cases (List.cons.inj hcounts).2
  · cases (List.cons.inj (List.cons.inj hcounts).2).1

end Catalog

end PixelAudit
