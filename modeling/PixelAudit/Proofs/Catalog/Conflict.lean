/-
Records that are refused because another one of their family was taken in before.

A record that would be accepted on its own is refused for one reason only: the family has a definition already, which is
not equal to its own. The answer then names the source of that definition. In a source each family has one record, so
the other one is of an earlier source.

Main results: `Traces.conflict` (one record), `taken_enters` (what is entered of the records of a source that is
accepted), `Traces.addRecords_conflict` (why a source is refused).
-/
import PixelAudit.Proofs.Catalog.Refusal
import Mathlib.Tactic

namespace PixelAudit

open Text (pieces)

namespace Node

/-- an insertion is refused with the source of what stands at the path -/
theorem insert_error {definition : PixelDefinition} {origin first : String} {path : List String} {n : Node}
    (h : Node.insert definition origin path n = .error first) : first = (n.origin? path).getD "" := by
  induction path generalizing n with
  | nil =>
    simp only [Node.insert] at h
    split at h
    · split at h
      · cases h
      · exact (Except.error.inj h).symm
    · cases h
  | cons segment rest ih =>
    simp only [Node.insert] at h
    cases hrest : Node.insert definition origin rest ((n.child? segment).getD empty) with
    | error e =>
      rw [hrest] at h
      obtain rfl : e = first := Except.error.inj h
      rw [ih hrest, origin?_childOrEmpty]
    | ok r =>
      rw [hrest] at h
      cases h

end Node

namespace Catalog

variable {c next : Catalog} {log : List Acceptance} {origin name : String} {record : Json}
  {records : List (String × Json)} {added count : Nat} {d : PixelDefinition} {e : AuditError}

/-- a record that would be accepted on its own is refused for the first entry of its name -/
theorem Traces.conflict (h : c.Traces log) (hd : Declares c.commonParams c.commonSuffixes (name, record) (name, d))
    (hanswer : c.addRecord origin name record = .error e) :
    ∃ a, firstOf name log = some a ∧ a.definition.same d = false ∧ e = .conflict name a.origin origin := by
  unfold Catalog.addRecord at hanswer
  rw [if_neg (by simpa using hd.wellNamed), hd.definition] at hanswer
  dsimp only at hanswer
  split at hanswer
  · rename_i first hinsert
    obtain ⟨existing, hexisting, hdiffer⟩ := Node.insert_refused hinsert
    have hfirst := Node.insert_error hinsert
    rw [h.definitions] at hexisting
    obtain ⟨a, ha, rfl⟩ := Option.map_eq_some_iff.1 hexisting
    rw [h.origins, ha] at hfirst
    exact ⟨a, ha, hdiffer, by rw [← Except.error.inj hanswer, hfirst]; rfl⟩
  · cases hanswer

/-- what is entered of a record of a source -/
structure Enters (commonParams : ParamCatalog) (commonSuffixes : SuffixCatalog) (origin : String)
    (record : String × Json) (a : Acceptance) : Prop where
  origin : a.origin = origin
  declares : Declares commonParams commonSuffixes record a.declaration

/-- of records that are all taken in each is entered -/
theorem taken_enters (h : c.addRecords origin added records = (next, .ok count)) :
    next.commonParams = c.commonParams ∧ next.commonSuffixes = c.commonSuffixes ∧
      List.Forall₂ (Enters c.commonParams c.commonSuffixes origin) records (c.taken origin records) := by
  induction records generalizing c added with
  | nil =>
    obtain ⟨rfl, -⟩ := Prod.mk.inj h
    exact ⟨rfl, rfl, .nil⟩
  | cons entry rest ih =>
    obtain ⟨grown, isNew, hanswer, hrest⟩ := addRecords_cons_eq_ok h
    obtain ⟨hname, definition, hread, -, hgrown⟩ := addRecord_eq_ok hanswer
    have hparams : grown.commonParams = c.commonParams := by rw [hgrown]
    have hsuffixes : grown.commonSuffixes = c.commonSuffixes := by rw [hgrown]
    obtain ⟨hparams', hsuffixes', hforall⟩ := ih hrest
    rw [hparams, hsuffixes] at hforall
    refine ⟨hparams'.trans hparams, hsuffixes'.trans hsuffixes, ?_⟩
    rw [taken, hanswer, hread]
    exact .cons ⟨rfl, ⟨rfl, hname, hread⟩⟩ hforall

/-- records that would be accepted on their own, one of a family, are refused for an entry of the log -/
theorem Traces.addRecords_conflict (h : c.Traces log) (hsorted : Entries.Sorted records)
    (haccepted : ∀ r ∈ records, ∃ d, Declares c.commonParams c.commonSuffixes r (r.1, d))
    (hanswer : c.addRecords origin added records = (next, .error e)) :
    ∃ name record d a, (name, record) ∈ records ∧ Declares c.commonParams c.commonSuffixes (name, record) (name, d) ∧
      firstOf name log = some a ∧ a.definition.same d = false ∧ e = .conflict name a.origin origin := by
  obtain ⟨before, name, record, after, count, rfl, hbefore, hfault⟩ := exists_fault hanswer
  have hmem : (name, record) ∈ before ++ (name, record) :: after := List.mem_append_right _ List.mem_cons_self
  obtain ⟨d, hd⟩ := haccepted _ hmem
  obtain ⟨hparams, hsuffixes, -⟩ := taken_enters hbefore
  have hlater : next.Traces (log ++ c.taken origin before) := by
    have hrecords := h.addRecords origin added before
    rwa [hbefore] at hrecords
  obtain ⟨a, ha, hdiffer, he⟩ := hlater.conflict (by rwa [hparams, hsuffixes]) hfault
  refine ⟨name, record, d, a, hmem, hd, ?_, hdiffer, he⟩
  rw [firstOf_append] at ha
  cases hfirst : firstOf name log with
  | some b =>
    rw [hfirst, Option.some_or] at ha
    exact ha
  | none =>
    -- the records before it have other names
    rw [hfirst, Option.none_or] at ha
    have htaken : name ∈ before.map Prod.fst := by
      rw [← names_taken hbefore, ← firstOf_isSome_iff, ha]
      rfl
    obtain ⟨r, hr, hname⟩ := List.mem_map.1 htaken
    have hlt := (List.pairwise_append.1 hsorted).2.2 r hr _ List.mem_cons_self
    exact absurd hlt (hname ▸ String.lt_irrefl r.1)

end Catalog

end PixelAudit
