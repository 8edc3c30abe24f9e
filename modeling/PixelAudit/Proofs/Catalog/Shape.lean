/-
The shape of the tree of declared families.

Every record that is taken in is entered in a log: the name of its family, its definition and its source. The log has
one entry after the other as the records come, and the tree is told by it: a name is declared exactly if it is in the
log, and its first entry gives the definition and the source. Each step of a source keeps this, and so does a source
that is refused in the middle, as what stands before the fault is in the log and in the tree.

Main results: `Traces.addRecord` (one record), `Traces.addSources` (any sources), `Traces.shaped` (what the tree is like
then), `log_shapes_tree` (any sources, from the start).
-/
import PixelAudit.Proofs.Catalog.SourceOrder
import Mathlib.Tactic

namespace PixelAudit

open Text (pieces)

/-! ## Sources of families -/

namespace Node

variable {definition : PixelDefinition} {origin : String} {path : List String} {n m : Node} {added : Bool}

/-- the source of the family at the end of a path -/
def origin? (n : Node) (path : List String) : Option String := (n.find? path).bind Node.origin

theorem origin?_cons (n : Node) (segment : String) (rest : List String) :
    n.origin? (segment :: rest) = (n.child? segment).bind fun child => child.origin? rest := by
  rw [origin?, find?_cons]
  cases n.child? segment <;> rfl

/-- a child that is not there yet counts as an empty one -/
theorem origin?_childOrEmpty (n : Node) (segment : String) (rest : List String) :
    ((n.child? segment).getD empty).origin? rest = n.origin? (segment :: rest) := by
  rw [origin?_cons]
  cases n.child? segment with
  | none => cases rest <;> rfl
  | some child => rfl

/-- an insertion writes the source where it adds a definition, and nowhere else -/
theorem origin?_insert (h : Node.insert definition origin path n = .ok (m, added)) (q : List String) :
    m.origin? q = if q = path ∧ added = true then some origin else n.origin? q := by
  induction path generalizing n m q with
  | nil =>
    rcases insert_nil_eq_ok h with ⟨_, _, _, rfl, rfl⟩ | ⟨_, rfl, rfl⟩
    · rw [if_neg fun hq => Bool.false_ne_true hq.2]
    · cases q with
      | nil => rfl
      | cons s q => rw [if_neg fun hq => List.cons_ne_nil s q hq.1]; rfl
  | cons segment rest ih =>
    obtain ⟨child, hrest, rfl⟩ := insert_cons_eq_ok h
    cases q with
    | nil => rw [if_neg fun hq => (List.cons_ne_nil segment rest).symm hq.1]; rfl
    | cons s q =>
      rw [origin?_cons, child?_insertChild]
      by_cases hs : segment = s
      · subst hs
        rw [if_pos rfl, Option.bind_some, ih hrest q, origin?_childOrEmpty]
        simp only [List.cons.injEq, true_and]
      · rw [if_neg hs, if_neg fun hq => hs (List.cons.inj hq.1).1.symm, origin?_cons]

end Node

namespace Catalog

/-! ## The log -/

/-- a record that was taken in: the family, its definition, and the source -/
structure Acceptance where
  name : String
  definition : PixelDefinition
  origin : String

/-- the family and its definition -/
def Acceptance.declaration (a : Acceptance) : Declaration := (a.name, a.definition)

/-- the records of a source that are taken in, up to the first that is refused -/
def taken (c : Catalog) (origin : String) : List (String × Json) → List Acceptance
  | [] => []
  | (name, record) :: rest =>
    match c.addRecord origin name record, PixelDefinition.ofRecord c.commonParams c.commonSuffixes record with
    | .ok (next, _), .ok definition => ⟨name, definition, origin⟩ :: next.taken origin rest
    | _, _ => []

/-- the records of a whole source that are taken in -/
def takenFrom (c : Catalog) (source : Source) : List Acceptance :=
  match source.records with
  | .object records => c.taken source.origin records
  | _ => []

/-- the records that are taken in of sources, one after the other -/
def log (c : Catalog) : List Source → List Acceptance
  | [] => []
  | source :: rest => c.takenFrom source ++ (c.addSource source.origin source.records).1.log rest

/-- the first entry of a name -/
def firstOf (name : String) (log : List Acceptance) : Option Acceptance := log.find? fun a => a.name == name

theorem firstOf_append (name : String) (before after : List Acceptance) :
    firstOf name (before ++ after) = (firstOf name before).or (firstOf name after) :=
  List.find?_append

theorem firstOf_singleton (name : String) (a : Acceptance) :
    firstOf name [a] = if a.name = name then some a else none := by
  rw [firstOf, List.find?_singleton]
  simp

theorem firstOf_isSome_iff (name : String) (log : List Acceptance) :
    (firstOf name log).isSome = true ↔ name ∈ log.map Acceptance.name := by
  simp [firstOf, List.find?_isSome]

/-- the first entry of a name has its first declaration -/
theorem find?_declarations (name : String) (log : List Acceptance) :
    Entries.find? name (log.map Acceptance.declaration) = (firstOf name log).map Acceptance.definition := by
  induction log with
  | nil => rfl
  | cons a rest ih =>
    rw [List.map_cons, Acceptance.declaration, Entries.find?, firstOf, List.find?_cons]
    by_cases hname : a.name = name
    · rw [if_pos hname, beq_iff_eq.2 hname]
      rfl
    · rw [if_neg hname, beq_false_of_ne hname]
      exact ih

/-! ## What each step keeps -/

/-- the tree is told by the log: the first entry of a name gives its definition and its source -/
structure Traces (c : Catalog) (log : List Acceptance) : Prop where
  tells : c.Tells (log.map Acceptance.declaration)
  origins : ∀ name, c.root.origin? (pieces '.' name) = (firstOf name log).map Acceptance.origin
  sourced : ∀ path, (c.root.origin? path).isSome = (c.root.definition? path).isSome

variable {c next : Catalog} {log : List Acceptance} {origin name : String} {record : Json} {isNew : Bool}
  {definition : PixelDefinition}

theorem Traces.definitions (h : c.Traces log) (name : String) :
    c.root.definition? (pieces '.' name) = (firstOf name log).map Acceptance.definition := by
  obtain ⟨table, hholds, htable⟩ := h.tells.holds
  rw [hholds.named, htable, find?_declarations]

/-- a record that is taken in is entered at the end of the log -/
theorem Traces.addRecord (h : c.Traces log) (hanswer : c.addRecord origin name record = .ok (next, isNew))
    (hread : PixelDefinition.ofRecord c.commonParams c.commonSuffixes record = .ok definition) :
    next.Traces (log ++ [⟨name, definition, origin⟩]) := by
  obtain ⟨-, definition', hread', hinsert, -⟩ := addRecord_eq_ok hanswer
  obtain rfl : definition = definition' := Except.ok.inj (hread.symm.trans hread')
  have hadded := Node.insert_added hinsert
  rw [h.definitions] at hadded
  refine ⟨?tells, ?origins, ?sourced⟩
  case tells =>
    have hrecord := h.tells.addRecord origin (name, record)
    rw [hanswer] at hrecord
    obtain ⟨-, -, -, d, hd, hnext⟩ := hrecord
    obtain rfl : d = (name, definition) := Prod.ext hd.name (Except.ok.inj (hd.definition.symm.trans hread))
    rw [List.map_append]
    exact hnext
  case origins =>
    intro key
    rw [Node.origin?_insert hinsert, h.origins, firstOf_append, firstOf_singleton]
    by_cases hkey : name = key
    · subst hkey
      rcases hadded with ⟨hnone, rfl⟩ | ⟨existing, hsome, -, rfl⟩
      · simp [Option.map_eq_none_iff.1 hnone]
      · obtain ⟨a, ha, -⟩ := Option.map_eq_some_iff.1 hsome
        simp [ha]
    · rw [if_neg fun hpath => hkey (Text.pieces_injective '.' hpath.1).symm, if_neg hkey, Option.or_none]
  case sourced =>
    intro path
    rw [Node.origin?_insert hinsert, Node.definition?_insert hinsert]
    by_cases hpath : path = pieces '.' name
    · subst hpath
      rcases hadded with ⟨-, rfl⟩ | ⟨existing, hsome, -, rfl⟩
      · simp
      · rw [if_neg fun h => Bool.false_ne_true h.2, if_pos rfl, h.sourced, h.definitions, hsome]
        rfl
    · rw [if_neg fun h => hpath h.1, if_neg hpath, h.sourced]

/-- a source that is refused in the middle leaves the log and the tree at the records before the fault -/
theorem Traces.addRecords (h : c.Traces log) (origin : String) (added : Nat) (records : List (String × Json)) :
    (c.addRecords origin added records).1.Traces (log ++ c.taken origin records) := by
  induction records generalizing c log added with
  | nil => rwa [taken, List.append_nil]
  | cons entry rest ih =>
    obtain ⟨name, record⟩ := entry
    rw [Catalog.addRecords, taken]
    cases hanswer : c.addRecord origin name record with
    | error e => rwa [List.append_nil]
    | ok r =>
      obtain ⟨next, isNew⟩ := r
      obtain ⟨-, definition, hread, -, -⟩ := addRecord_eq_ok hanswer
      rw [hread]
      have hrest := ih (h.addRecord hanswer hread) (if isNew then added + 1 else added)
      rwa [List.append_assoc] at hrest

theorem Traces.addSource (h : c.Traces log) (source : Source) :
    (c.addSource source.origin source.records).1.Traces (log ++ c.takenFrom source) := by
  obtain ⟨origin, records⟩ := source
  cases records with
  | object records => exact h.addRecords origin 0 records
  | _ =>
    rw [takenFrom, List.append_nil]
    exact h

/-- sources leave the tree as their log tells it, whatever the answers were -/
theorem Traces.addSources (h : c.Traces log) (sources : List Source) :
    (c.addSources sources).Traces (log ++ c.log sources) := by
  induction sources generalizing c log with
  | nil =>
    rw [Catalog.log, List.append_nil]
    exact h
  | cons source rest ih =>
    have hrest := ih (h.addSource source)
    rwa [List.append_assoc] at hrest

theorem traces_new (commonParams : ParamCatalog) (commonSuffixes : SuffixCatalog) :
    (new commonParams commonSuffixes).Traces [] where
  tells := tells_new commonParams commonSuffixes
  origins name := by
    obtain ⟨segment, rest, hpieces⟩ := List.exists_cons_of_ne_nil (Text.pieces_ne_nil '.' name)
    rw [hpieces]
    rfl
  sourced path := by cases path <;> rfl

/-! ## What the tree is like -/

/-- a family of this name is declared -/
def HasFamily (c : Catalog) (name : String) : Prop := ∃ n, c.root.get? name = some n ∧ n.isTerminal = true

/-- what the tree of families is like after the records of a log -/
structure Shaped (c : Catalog) (log : List Acceptance) : Prop where
  /-- the children of a node stand in the order of their segments, one under each -/
  ordered : c.root.Ordered
  rootOpen : c.root.isTerminal = false
  /-- every other node leads to a family -/
  leads : ∀ path n, path ≠ [] → c.root.find? path = some n → ∃ rest m, n.find? rest = some m ∧ m.isTerminal = true
  sourced : ∀ path n, c.root.find? path = some n → (n.definition.isSome ↔ n.origin.isSome)
  labels : ∀ path n, c.root.find? path = some n → ∀ segment ∈ path, segment ≠ "" ∧ '.' ∉ segment.toList
  declared : ∀ name, c.HasFamily name ↔ name ∈ log.map Acceptance.name
  /-- the first record of a name stands -/
  first : ∀ name a, firstOf name log = some a →
    ∃ n, c.root.get? name = some n ∧ n.definition = some a.definition ∧ n.origin = some a.origin
  counted : c.root.terminalCount = (log.map Acceptance.name).toFinset.card
  /-- a further record is taken in exactly if it is well-formed and equals the first one of its name -/
  accepts : ∀ origin name record, (∃ r, c.addRecord origin name record = .ok r) ↔
    ∃ d, Declares c.commonParams c.commonSuffixes (name, record) d ∧
      ∀ a, firstOf name log = some a → a.definition.same d.2 = true

/-- the families that are declared stay, with their definitions and sources -/
def Keeps (c next : Catalog) : Prop :=
  ∀ name n, c.root.get? name = some n → n.isTerminal = true →
    ∃ m, next.root.get? name = some m ∧ m.definition = n.definition ∧ m.origin = n.origin

section shape

variable {more : List Acceptance} {a : Acceptance} {n : Node}

/-- under a name the tree has what its first entry says -/
theorem Traces.exists_node (h : c.Traces log) (ha : firstOf name log = some a) :
    ∃ n, c.root.get? name = some n ∧ n.definition = some a.definition ∧ n.origin = some a.origin := by
  have hdefinition := h.definitions name
  have horigin := h.origins name
  rw [ha] at hdefinition horigin
  obtain ⟨n, hn, hnd⟩ := Option.bind_eq_some_iff.1 hdefinition
  obtain ⟨m, hm, hmo⟩ := Option.bind_eq_some_iff.1 horigin
  obtain rfl : n = m := Option.some.inj (hn.symm.trans hm)
  exact ⟨n, hn, hnd, hmo⟩

/-- what is declared is in the log -/
theorem Traces.exists_first (h : c.Traces log) (hn : c.root.get? name = some n) (hterminal : n.isTerminal = true) :
    ∃ a, firstOf name log = some a := by
  obtain ⟨d, hd⟩ := Option.isSome_iff_exists.1 hterminal
  have hdefinition : c.root.definition? (pieces '.' name) = some d := Option.bind_eq_some_iff.2 ⟨n, hn, hd⟩
  rw [h.definitions] at hdefinition
  obtain ⟨a, ha, -⟩ := Option.map_eq_some_iff.1 hdefinition
  exact ⟨a, ha⟩

/-- every path to a node is the front of a name in the log -/
theorem Traces.exists_family (h : c.Traces log) {path : List String} (hne : path ≠ [])
    (hn : c.root.find? path = some n) :
    ∃ rest name m, path ++ rest = pieces '.' name ∧ isWellFormedName name = true ∧ n.find? rest = some m ∧
      m.isTerminal = true := by
  obtain ⟨table, hholds, -⟩ := h.tells.holds
  obtain ⟨rest, d, hd⟩ := hholds.reached path hne (by rw [hn]; rfl)
  obtain ⟨name, hname⟩ := hholds.placed _ _ hd
  have hwell := hholds.wellNamed name d (by rw [← hholds.named, ← hname, hd])
  rw [Node.definition?, Node.find?_append, hn] at hd
  obtain ⟨m, hm, hmd⟩ := Option.bind_eq_some_iff.1 hd
  exact ⟨rest, name, m, hname, hwell, hm, by rw [Node.isTerminal, hmd]; rfl⟩

theorem Traces.counted (h : c.Traces log) :
    c.root.terminalCount = (log.map Acceptance.name).toFinset.card := by
  obtain ⟨table, hholds, htable⟩ := h.tells.holds
  rw [hholds.counted, Dict.size_eq_card]
  congr 1
  ext name
  rw [List.mem_toFinset, List.mem_toFinset, ← Dict.contains_iff_mem_names, Dict.contains, htable, find?_declarations,
    Option.isSome_map, firstOf_isSome_iff]

theorem Traces.accepts (h : c.Traces log) (origin name : String) (record : Json) :
    (∃ r, c.addRecord origin name record = .ok r) ↔
      ∃ d, Declares c.commonParams c.commonSuffixes (name, record) d ∧
        ∀ a, firstOf name log = some a → a.definition.same d.2 = true := by
  have hrecord := h.tells.addRecord origin (name, record)
  -- of the entries of its name a further declaration only has to equal the first
  have hagree : ∀ d : Declaration, d.1 = name →
      ((log.map Acceptance.declaration ++ [d]).Pairwise AgreeOn ↔
        ∀ a, firstOf name log = some a → a.definition.same d.2 = true) := by
    intro d hd
    have hfirst := forall_agree_iff h.tells.agree d
    simp only [find?_declarations, hd, Option.map_eq_some_iff, forall_exists_index, and_imp,
      forall_apply_eq_imp_iff₂] at hfirst
    rw [← hfirst, List.pairwise_append]
    simp [h.tells.agree]
  cases hanswer : c.addRecord origin name record with
  | error e =>
    rw [hanswer] at hrecord
    constructor
    · rintro ⟨r, hr⟩
      cases hr
    · rintro ⟨d, hd, hsame⟩
      exact absurd ((hagree d hd.name).2 hsame) (hrecord d hd)
  | ok r =>
    rw [hanswer] at hrecord
    obtain ⟨-, -, -, d, hd, hnext⟩ := hrecord
    exact iff_of_true ⟨r, rfl⟩ ⟨d, hd, (hagree d hd.name).1 hnext.agree⟩

theorem Traces.hasFamily_iff (h : c.Traces log) (name : String) :
    c.HasFamily name ↔ name ∈ log.map Acceptance.name := by
  rw [← firstOf_isSome_iff, Option.isSome_iff_exists]
  constructor
  · rintro ⟨n, hn, hterminal⟩
    exact h.exists_first hn hterminal
  · rintro ⟨a, ha⟩
    obtain ⟨n, hn, hnd, -⟩ := h.exists_node ha
    exact ⟨n, hn, by rw [Node.isTerminal, hnd]; rfl⟩

/-- a tree that is told by its log is shaped by it -/
theorem Traces.shaped (h : c.Traces log) : c.Shaped log where
  ordered := by
    obtain ⟨table, hholds, -⟩ := h.tells.holds
    exact hholds.ordered
  rootOpen := by
    obtain ⟨table, hholds, -⟩ := h.tells.holds
    rw [← Bool.not_eq_true]
    intro hroot
    obtain ⟨d, hd⟩ := Option.isSome_iff_exists.1 hroot
    obtain ⟨name, hname⟩ := hholds.placed [] d hd
    exact Text.pieces_ne_nil '.' name hname.symm
  leads path n hne hn := by
    obtain ⟨rest, -, m, -, -, hm, hterminal⟩ := h.exists_family hne hn
    exact ⟨rest, m, hm, hterminal⟩
  sourced path n hn := by
    have hpath := h.sourced path
    rw [Node.origin?, Node.definition?, hn] at hpath
    rw [show n.definition.isSome = n.origin.isSome from hpath.symm]
  labels path n hn segment hsegment := by
    obtain ⟨rest, name, -, hname, hwell, -, -⟩ := h.exists_family (List.ne_nil_of_mem hsegment) hn
    have hpiece : segment ∈ pieces '.' name := hname ▸ List.mem_append_left rest hsegment
    exact ⟨of_decide_eq_true (List.all_eq_true.1 hwell segment hpiece), Text.not_mem_of_mem_pieces '.' hpiece⟩
  declared := h.hasFamily_iff
  first name a ha := h.exists_node ha
  counted := h.counted
  accepts := h.accepts

/-- a longer log has the same first entries, so the tree of it keeps what is declared -/
theorem Traces.keeps (h : c.Traces log) (hnext : next.Traces (log ++ more)) : c.Keeps next := by
  intro name n hn hterminal
  obtain ⟨a, ha⟩ := h.exists_first hn hterminal
  obtain ⟨n', hn', hdefinition, horigin⟩ := h.exists_node ha
  obtain rfl : n = n' := Option.some.inj (hn.symm.trans hn')
  have hstill : firstOf name (log ++ more) = some a := by rw [firstOf_append, ha, Option.some_or]
  obtain ⟨m, hm, hmd, hmo⟩ := hnext.exists_node hstill
  exact ⟨m, hm, hmd.trans hdefinition.symm, hmo.trans horigin.symm⟩

end shape

/-- Any sources are taken in, one after the other, and some of them are refused. The tree is then shaped by the records
that were taken in, and one more source does not change the families that it has. -/
theorem log_shapes_tree (commonParams : ParamCatalog) (commonSuffixes : SuffixCatalog) (sources : List Source) :
    ((new commonParams commonSuffixes).addSources sources).Shaped ((new commonParams commonSuffixes).log sources) ∧
      ∀ origin records, ((new commonParams commonSuffixes).addSources sources).Keeps
        (((new commonParams commonSuffixes).addSources sources).addSource origin records).1 := by
  have htraces := (traces_new commonParams commonSuffixes).addSources sources
  rw [List.nil_append] at htraces
  refine ⟨htraces.shaped, ?_⟩
  intro origin records
  exact htraces.keeps (htraces.addSource ⟨origin, records⟩)

end Catalog

end PixelAudit
