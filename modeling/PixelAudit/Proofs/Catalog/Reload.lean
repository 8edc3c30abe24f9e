/-
Storing a catalog and loading it again.

Main results: `Artifact.ofText_text` (a stored tree is loaded as what is storable of it), `Catalog.reload_lossless_iff`
(a catalog comes back from its stored text as it was, with the same text and the same audits, exactly if no bound in it
is infinite or not a number).
-/
import PixelAudit.Audit.Validator
import PixelAudit.Proofs.Catalog.Declared
import PixelAudit.Proofs.Catalog.StoredTree
import Mathlib.Tactic

namespace PixelAudit

open Decimal (Binary64)
open Decoder (ReadsBack)

namespace Artifact

/-- the number of the format is read back -/
theorem reads_format : Decoder.natural32.Reads (.integer (artifactFormat : Nat)) artifactFormat := by
  have htext : ∀ depth, ((Json.integer (artifactFormat : Nat)).indented depth).toList = ['1'] := fun _ => by
    rw [Json.indented]
    decide
  unfold Decoder.natural32 Decoder.natural
  exact Decoder.Reads.numeric htext (Or.inr (by decide)) rfl

/-- a stored tree is loaded as what its decoder reads it as -/
theorem ofText_of_reads {n m : Node} (htrie : (Node.decoder (Json.maxDepth + 1)).Reads n.toJson m)
    (hdeep : (new n).toJson.nesting < 128) : ofText (new n).text = .ok (new m) := by
  have hcarries : List.Forall₂ Form.Carries form.fields
      [some (.integer (artifactFormat : Nat), _), some (n.toJson, _)] :=
    .cons (reads_format.map _) (.cons (htrie.map _) .nil)
  have hread : form.decoder.Reads (new n).toJson (new m) := Form.reads_object (by decide) hcarries rfl rfl
  rw [ofText, text, hread.parse (Nat.le_of_lt_succ hdeep)]
  rfl

/-- the tree takes one level less than the whole -/
theorem nesting_new (n : Node) : (new n).toJson.nesting = n.toJson.nesting + 1 := by
  simp [toJson, new, Json.nesting, Json.nestingMembers]

/-- a stored tree is loaded as what is storable of it -/
theorem ofText_text {n : Node} (hordered : n.Ordered) (h : ∀ x ∈ n.bounds, x.isFinite = true → ReadsBack x)
    (hdeep : (new n).toJson.nesting < 128) : ofText (new n).text = .ok (new n.storable) := by
  have hroom : n.toJson.nesting ≤ Json.maxDepth + 1 := by
    rw [nesting_new] at hdeep
    exact (Nat.le_succ _).trans hdeep.le
  exact ofText_of_reads (Node.reads_toJson hordered h hroom) hdeep

end Artifact

namespace Node

/-- what a validator over a tree makes of events: the outcome of each, and the notes at the end -/
def audit (root : Node) (ctx : CompileContext) (versionKey : Option String) (cap : SampleCap)
    (events : List RawEvent) : Except AuditError (List Outcome × Notes) := do
  let catalog ← CompiledCatalog.build root ctx
  let v : Validator := { catalog, versionKey, cap }
  return (events.map v.judge, v.run {} events)

/-- the tree comes back from its stored text as it was, and what is done with it is the same -/
structure ReloadsAs (root : Node) (a : Artifact) : Prop where
  loaded : Artifact.ofText (Artifact.new root).text = .ok a
  format : a.formatVersion = artifactFormat
  trie : a.trie = root
  text : a.text = (Artifact.new root).text
  audit : ∀ ctx versionKey cap events, a.trie.audit ctx versionKey cap events = root.audit ctx versionKey cap events

end Node

namespace Catalog

/-- A catalog is always loaded again, and it comes back as it was exactly if its bounds are finite. -/
theorem reload_lossless_iff {c : Catalog} (hc : c.Reachable) (hdeep : (Artifact.new c.root).toJson.nesting < 128)
    (hback : ∀ x ∈ c.root.bounds, x.isFinite = true → ReadsBack x) :
    Artifact.ofText (Artifact.new c.root).text = .ok (Artifact.new c.root.storable) ∧
      (c.root.ReloadsAs (Artifact.new c.root.storable) ↔ ∀ x ∈ c.root.bounds, x.isFinite = true) := by
  have hloaded := Artifact.ofText_text hc.ordered hback hdeep
  refine ⟨hloaded, ?_⟩
  rw [← Node.storable_eq_iff]
  constructor
  · exact fun h => h.trie
  · intro hsame
    rw [hsame] at hloaded ⊢
    exact ⟨hloaded, rfl, rfl, rfl, fun _ _ _ _ => rfl⟩

/-- a catalog of one family, with one parameter that has the given least value -/
def withMinimum (x : Binary64) : Catalog :=
  (new (Dict.ofList [("n", { minimum := some x })]) ∅).addSources [⟨"a.json", .object [
    ("app", .object [("owners", .array [.string "t"]), ("parameters", .array [.string "n"])])]⟩]

/-- ten and a half -/
def tenAndHalf : Binary64 := .ofRatio false 21 2

/-- a finite bound comes back -/
theorem reload_lossless_half :
    Artifact.ofText (Artifact.new (withMinimum tenAndHalf).root).text =
        .ok (Artifact.new (withMinimum tenAndHalf).root.storable) ∧
      ((withMinimum tenAndHalf).root.ReloadsAs (Artifact.new (withMinimum tenAndHalf).root.storable) ↔
        ∀ x ∈ (withMinimum tenAndHalf).root.bounds, x.isFinite = true) :=
  reload_lossless_iff ⟨_, _, _, rfl⟩ (by decide) (by decide +kernel)

/-- the verdicts on events, by a validator over a tree and without a version -/
def verdicts (root : Node) (events : List RawEvent) : Option (List Verdict) :=
  ((root.audit {} none default events).toOption).map fun audited => audited.1.map Outcome.verdict

/-- an infinite bound is lost, and an event that failed for it passes after the catalog has been loaded again -/
theorem reload_loses_infinite : ∃ a, Artifact.ofText (Artifact.new (withMinimum (.infinite false)).root).text = .ok a ∧
    verdicts (withMinimum (.infinite false)).root [⟨"app", "n=5", none⟩] = some [.failed] ∧
    verdicts a.trie [⟨"app", "n=5", none⟩] = some [.passed] := by
  refine ⟨_, Artifact.ofText_text (Reachable.ordered ⟨_, _, _, rfl⟩) (by decide) (by decide), ?_, ?_⟩
  · decide +kernel
  · decide +kernel

end Catalog

end PixelAudit
