/-
The families that a run of sources declares, as a table by their names, and the tree that holds them.

The table is filled record by record and knows nothing of the tree: the first declaration of a name stands, and a source
is left at the first record that is refused. The tree that the same sources build holds the same declarations, and every
node of it leads to one. A source may be refused in the middle and what it has put in before stays, so this is claimed
of any sequence of sources, whether they are accepted or not.

Main results: `Catalog.addRecord_eq_ok` (what it takes for a record to be taken in), `Node.Holds.addRecord` (a record is
taken into the tree exactly if the table takes it), `Catalog.addSources_holds` (the tree that sources build holds what
they declare).
-/
import PixelAudit.Catalog.Sources
import PixelAudit.Proofs.Catalog.Tree
import PixelAudit.Proofs.Text.Segments
import Mathlib.Tactic

namespace PixelAudit

/-! ## Sources -/

/-- a definition file as it is handed in: where it comes from, and its records by the names of families -/
structure Source where
  origin : String
  records : Json

namespace Catalog

/-- take in sources one after the other; one that is refused leaves what it has put in before -/
def addSources (c : Catalog) (sources : List Source) : Catalog :=
  sources.foldl (fun c source => (c.addSource source.origin source.records).1) c

/-- a record is taken in if its name and its definition are well-formed and the tree takes the definition -/
theorem addRecord_eq_ok {c next : Catalog} {origin name : String} {record : Json} {isNew : Bool}
    (h : c.addRecord origin name record = .ok (next, isNew)) : isWellFormedName name = true ∧
      ∃ definition, PixelDefinition.ofRecord c.commonParams c.commonSuffixes record = .ok definition ∧
        Node.insert definition origin (Text.pieces '.' name) c.root = .ok (next.root, isNew) ∧
        next = { c with root := next.root } := by
  unfold addRecord at h
  split at h
  · cases h
  · rename_i hname
    split at h
    · cases h
    · rename_i definition hread
      split at h
      · cases h
      · rename_i root added hinsert
        obtain ⟨rfl, rfl⟩ := Prod.mk.inj (Except.ok.inj h)
        exact ⟨by simpa using hname, definition, hread, hinsert, rfl⟩

/-- records are all taken in if the first one is and then the others are -/
theorem addRecords_cons_eq_ok {c next : Catalog} {origin : String} {entry : String × Json}
    {records : List (String × Json)} {added count : Nat}
    (h : c.addRecords origin added (entry :: records) = (next, .ok count)) :
    ∃ grown isNew, c.addRecord origin entry.1 entry.2 = .ok (grown, isNew) ∧
      grown.addRecords origin (if isNew then added + 1 else added) records = (next, .ok count) := by
  rw [addRecords] at h
  cases hanswer : c.addRecord origin entry.1 entry.2 with
  | error fault =>
    rw [hanswer] at h
    cases (Prod.mk.inj h).2
  | ok r =>
    rw [hanswer] at h
    exact ⟨r.1, r.2, rfl, h⟩

variable (commonParams : ParamCatalog) (commonSuffixes : SuffixCatalog)

/-- The table after one record, unless it is refused: the first declaration of a name stands, and another one has to be
the same. -/
def declare? (declared : Dict PixelDefinition) (name : String) (record : Json) : Option (Dict PixelDefinition) :=
  if !isWellFormedName name then none
  else
    match PixelDefinition.ofRecord commonParams commonSuffixes record with
    | .error _ => none
    | .ok definition =>
      match declared.find? name with
      | some existing => if existing.same definition then some declared else none
      | none => some (declared.insert name definition)

/-- the table after the records of a source, up to the first that is refused -/
def declareRecords (declared : Dict PixelDefinition) : List (String × Json) → Dict PixelDefinition
  | [] => declared
  | (name, record) :: rest =>
    match declare? commonParams commonSuffixes declared name record with
    | some next => declareRecords next rest
    | none => declared

def declareSource (declared : Dict PixelDefinition) (source : Source) : Dict PixelDefinition :=
  match source.records with
  | .object records => declareRecords commonParams commonSuffixes declared records
  | _ => declared

/-- the families that sources declare, by their names -/
def declared (sources : List Source) : Dict PixelDefinition :=
  sources.foldl (declareSource commonParams.normalize commonSuffixes) ∅

end Catalog

/-- the tree holds the declarations of the table and has no node that leads to none -/
structure Node.Holds (n : Node) (declared : Dict PixelDefinition) : Prop where
  ordered : n.Ordered
  named : ∀ name, n.definition? (Text.pieces '.' name) = declared.find? name
  placed : ∀ path d, n.definition? path = some d → ∃ name, path = Text.pieces '.' name
  wellNamed : ∀ name d, declared.find? name = some d → Catalog.isWellFormedName name = true
  reached : ∀ path, path ≠ [] → (n.find? path).isSome → ∃ rest d, n.definition? (path ++ rest) = some d
  counted : n.terminalCount = declared.size

namespace Node.Holds

variable {n m : Node} {declared next : Dict PixelDefinition} {definition : PixelDefinition} {origin name : String}
  {added : Bool}

theorem empty : Node.empty.Holds ∅ where
  ordered := ordered_empty
  named name := definition?_empty _
  placed path d h := by rw [definition?_empty] at h; cases h
  wellNamed name d h := by cases h
  reached path hne h := by
    cases path with
    | nil => exact absurd rfl hne
    | cons segment rest => cases h
  counted := rfl

/-- what an insertion does to the tree, the table does by one entry -/
theorem insert (hn : n.Holds declared) (hname : Catalog.isWellFormedName name = true)
    (h : Node.insert definition origin (Text.pieces '.' name) n = .ok (m, added))
    (hnext : ∀ key, next.find? key = if name = key then some ((declared.find? name).getD definition)
      else declared.find? key)
    (hsize : next.size = declared.size + if added then 1 else 0) : m.Holds next where
  ordered := hn.ordered.insert h
  named key := by
    rw [definition?_insert h, hnext, hn.named, hn.named]
    by_cases hkey : name = key
    · rw [if_pos hkey, if_pos (congrArg (Text.pieces '.') hkey.symm)]
    · rw [if_neg hkey, if_neg fun heq => hkey (Text.pieces_injective '.' heq).symm]
  placed path d hd := by
    rw [definition?_insert h] at hd
    split_ifs at hd with hpath
    · exact ⟨name, hpath⟩
    · exact hn.placed path d hd
  wellNamed key d hd := by
    rw [hnext] at hd
    split_ifs at hd with hkey
    · exact hkey ▸ hname
    · exact hn.wellNamed key d hd
  reached path hne hfound := by
    -- a node that was there leads to an old declaration, which may be the one that was just made again
    rcases (find?_insert_isSome h path).1 hfound with hfound | ⟨rest, hrest⟩
    · obtain ⟨rest, d, hd⟩ := hn.reached path hne hfound
      by_cases hpath : path ++ rest = Text.pieces '.' name
      · exact ⟨rest, _, by rw [definition?_insert h, if_pos hpath]⟩
      · exact ⟨rest, d, by rw [definition?_insert h, if_neg hpath, hd]⟩
    · exact ⟨rest, _, by rw [definition?_insert h, if_pos hrest]⟩
  counted := by rw [terminalCount_insert hn.ordered h, hn.counted, hsize]

/-- a record is taken into the tree exactly if the table takes it, and then the tree holds the new table -/
theorem addRecord {c : Catalog} (hc : c.root.Holds declared) (origin name : String) (record : Json) :
    match c.addRecord origin name record with
    | .ok (next, _) => next.commonParams = c.commonParams ∧ next.commonSuffixes = c.commonSuffixes ∧
        ∃ table, Catalog.declare? c.commonParams c.commonSuffixes declared name record = some table ∧
          next.root.Holds table
    | .error _ => Catalog.declare? c.commonParams c.commonSuffixes declared name record = none := by
  unfold Catalog.addRecord Catalog.declare?
  by_cases hname : Catalog.isWellFormedName name = true
  · rw [if_neg (by simp [hname]), if_neg (by simp [hname])]
    cases PixelDefinition.ofRecord c.commonParams c.commonSuffixes record with
    | error fault => rfl
    | ok definition =>
      dsimp only
      cases hroot : c.root.insert definition origin (Text.pieces '.' name) with
      | error first =>
        obtain ⟨existing, hexisting, hsame⟩ := insert_refused hroot
        rw [hc.named] at hexisting
        simp [hexisting, hsame]
      | ok r =>
        obtain ⟨root, added⟩ := r
        rcases insert_added hroot with ⟨hnone, rfl⟩ | ⟨existing, hexisting, hsame, rfl⟩
        · rw [hc.named] at hnone
          have hholds : root.Holds (declared.insert name definition) := hc.insert hname hroot
            (fun key => by rw [Dict.find?_insert, hnone, Option.getD_none]) (Dict.size_insert declared definition hnone)
          exact ⟨rfl, rfl, _, by simp [hnone], hholds⟩
        · rw [hc.named] at hexisting
          have hholds : root.Holds declared := hc.insert hname hroot
            (fun key => by
              rw [hexisting, Option.getD_some]
              split_ifs with hkey
              · rw [← hkey, hexisting]
              · rfl) rfl
          exact ⟨rfl, rfl, _, by simp [hexisting, hsame], hholds⟩
  · rw [if_pos (by simpa using hname), if_pos (by simpa using hname)]

theorem addRecords {c : Catalog} (hc : c.root.Holds declared) (origin : String) (records : List (String × Json))
    (added : Nat) : (c.addRecords origin added records).1.commonParams = c.commonParams ∧
      (c.addRecords origin added records).1.commonSuffixes = c.commonSuffixes ∧
      (c.addRecords origin added records).1.root.Holds
        (Catalog.declareRecords c.commonParams c.commonSuffixes declared records) := by
  induction records generalizing c declared added with
  | nil => exact ⟨rfl, rfl, hc⟩
  | cons entry rest ih =>
    obtain ⟨name, record⟩ := entry
    have hstep := hc.addRecord origin name record
    simp only [Catalog.addRecords, Catalog.declareRecords]
    cases hrecord : c.addRecord origin name record with
    | error e =>
      rw [hrecord] at hstep
      simp only [hstep, true_and]
      exact hc
    | ok r =>
      obtain ⟨next, isNew⟩ := r
      rw [hrecord] at hstep
      obtain ⟨hparams, hsuffixes, table, htable, hnext⟩ := hstep
      simp only [htable]
      rw [← hparams, ← hsuffixes]
      exact ih hnext _

theorem addSources {c : Catalog} (hc : c.root.Holds declared) (sources : List Source) :
    (c.addSources sources).root.Holds
      (sources.foldl (Catalog.declareSource c.commonParams c.commonSuffixes) declared) := by
  induction sources generalizing c declared with
  | nil => exact hc
  | cons source rest ih =>
    obtain ⟨origin, records⟩ := source
    cases records with
    | object records =>
      obtain ⟨hparams, hsuffixes, hnext⟩ := hc.addRecords origin records 0
      have hlast := ih hnext
      rwa [hparams, hsuffixes] at hlast
    | _ => exact ih hc

end Node.Holds

namespace Catalog

/-- the tree that sources build holds what they declare -/
theorem addSources_holds (commonParams : ParamCatalog) (commonSuffixes : SuffixCatalog) (sources : List Source) :
    ((new commonParams commonSuffixes).addSources sources).root.Holds
      (declared commonParams commonSuffixes sources) :=
  Node.Holds.addSources (c := new commonParams commonSuffixes) Node.Holds.empty sources

/-- a catalog into which any sources have been taken, whatever the answers were -/
def Reachable (c : Catalog) : Prop :=
  ∃ commonParams commonSuffixes sources, c = (new commonParams commonSuffixes).addSources sources

theorem Reachable.ordered {c : Catalog} (h : c.Reachable) : c.root.Ordered := by
  obtain ⟨commonParams, commonSuffixes, sources, rfl⟩ := h
  exact (addSources_holds commonParams commonSuffixes sources).ordered

end Catalog

end PixelAudit
