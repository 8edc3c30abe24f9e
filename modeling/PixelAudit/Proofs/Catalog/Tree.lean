/-
Trees of declared families: induction over a tree, trees whose children stand in order, and what an insertion does.

What a tree declares is the function from paths to definitions, `definition?`. An insertion changes it at one path, and
it makes the nodes that lead there.

Main results: `induct` (induction over a tree), `insert_nil_eq_ok` and `insert_cons_eq_ok` (all that an insertion does),
`definition?_insert` (what is declared after it), `insert_refused` (why it is refused), `insert_eq_self` (when it changes
nothing), `find?_insert_isSome` (which nodes there are after it), `terminalCount_insert` (how many of them are declared).
-/
import PixelAudit.Catalog.Node
import PixelAudit.Proofs.Tables
import Mathlib.Tactic

namespace PixelAudit

namespace Node

/-- what holds of a node when it holds of its children holds of every tree -/
theorem induct {P : Node → Prop} (h : ∀ n : Node, (∀ c ∈ n.children, P c.2) → P n) (n : Node) : P n := by
  refine @Node.rec P (fun cs => ∀ c ∈ cs, P c.2) (fun c => P c.2) ?node ?nil ?cons ?child n
  case node => exact fun children definition origin hchildren => h ⟨children, definition, origin⟩ hchildren
  case nil => exact fun c hc => absurd hc List.not_mem_nil
  case cons =>
    intro head tail hhead htail c hc
    rcases List.mem_cons.1 hc with rfl | hc
    · exact hhead
    · exact htail c hc
  case child => exact fun _ _ hchild => hchild

/-! ## What an insertion does -/

/-- at the end of its path a definition stands already, or is new -/
theorem insert_nil_eq_ok {definition : PixelDefinition} {origin : String} {n m : Node} {added : Bool}
    (h : Node.insert definition origin [] n = .ok (m, added)) :
    (∃ existing, n.definition = some existing ∧ existing.same definition = true ∧ m = n ∧ added = false) ∨
      (n.definition = none ∧ m = { n with definition := some definition, origin := some origin } ∧ added = true) := by
  simp only [Node.insert] at h
  split at h
  · rename_i existing hexisting
    split at h
    · rename_i hsame
      obtain ⟨rfl, rfl⟩ : n = m ∧ false = added := by simpa using h
      exact Or.inl ⟨existing, hexisting, hsame, rfl, rfl⟩
    · cases h
  · rename_i hnone
    obtain ⟨rfl, rfl⟩ : _ = m ∧ true = added := by simpa using h
    exact Or.inr ⟨hnone, rfl, rfl⟩

/-- on the way there the child under the next segment is exchanged -/
theorem insert_cons_eq_ok {definition : PixelDefinition} {origin segment : String} {rest : List String} {n m : Node}
    {added : Bool} (h : Node.insert definition origin (segment :: rest) n = .ok (m, added)) :
    ∃ child, Node.insert definition origin rest ((n.child? segment).getD empty) = .ok (child, added) ∧
      m = { n with children := Entries.insert segment child n.children } := by
  simp only [Node.insert] at h
  cases hrest : Node.insert definition origin rest ((n.child? segment).getD empty) with
  | error e => rw [hrest] at h; cases h
  | ok r =>
    obtain ⟨child, isNew⟩ := r
    rw [hrest] at h
    obtain ⟨rfl, rfl⟩ : _ = m ∧ isNew = added := by simpa [bind, Except.bind, pure, Except.pure] using h
    exact ⟨child, rfl, rfl⟩

/-! ## Order -/

/-- the children of every node stand in the order of their segments -/
inductive Ordered : Node → Prop where
  | mk {n : Node} (sorted : Entries.Sorted n.children) (below : ∀ c ∈ n.children, Ordered c.2) : Ordered n

theorem Ordered.sorted {n : Node} (h : n.Ordered) : Entries.Sorted n.children := by
  cases h with
  | mk sorted below => exact sorted

theorem Ordered.child {n : Node} (h : n.Ordered) {c : String × Node} (hc : c ∈ n.children) : c.2.Ordered := by
  cases h with
  | mk sorted below => exact below c hc

theorem ordered_empty : empty.Ordered := .mk List.Pairwise.nil fun _ hc => absurd hc List.not_mem_nil

theorem mem_of_child? {n child : Node} {segment : String} (h : n.child? segment = some child) :
    (segment, child) ∈ n.children :=
  Entries.mem_of_find? h

/-- the child under a segment, or a new one, is in order -/
theorem Ordered.childOrEmpty {n : Node} (h : n.Ordered) (segment : String) :
    ((n.child? segment).getD empty).Ordered := by
  cases hchild : n.child? segment with
  | none => exact ordered_empty
  | some child => exact h.child (mem_of_child? hchild)

/-- an accepted definition leaves the tree in order -/
theorem Ordered.insert {definition : PixelDefinition} {origin : String} {path : List String} {n m : Node} {added : Bool}
    (hn : n.Ordered) (h : Node.insert definition origin path n = .ok (m, added)) : m.Ordered := by
  induction path generalizing n m with
  | nil =>
    rcases insert_nil_eq_ok h with ⟨_, _, _, rfl, _⟩ | ⟨_, rfl, _⟩
    · exact hn
    · exact .mk hn.sorted fun c hc => hn.child hc
  | cons segment rest ih =>
    obtain ⟨child, hrest, rfl⟩ := insert_cons_eq_ok h
    have hchild : child.Ordered := ih (hn.childOrEmpty segment) hrest
    refine .mk (Entries.sorted_insert hn.sorted) fun c hc => ?_
    rcases Entries.mem_insert hc with rfl | hc
    · exact hchild
    · exact hn.child hc

/-! ## What is declared -/

/-- the definition at the end of a path -/
def definition? (n : Node) (path : List String) : Option PixelDefinition := (n.find? path).bind Node.definition

theorem find?_cons (n : Node) (segment : String) (rest : List String) :
    n.find? (segment :: rest) = (n.child? segment).bind fun child => child.find? rest := by
  simp only [find?]
  cases n.child? segment <;> rfl

theorem Ordered.child?_of_mem {n : Node} {c : String × Node} (h : n.Ordered) (hc : c ∈ n.children) :
    n.child? c.1 = some c.2 :=
  (Entries.find?_eq_some_iff h.sorted).2 hc

theorem Ordered.find?_cons_of_mem {n : Node} {c : String × Node} (h : n.Ordered) (hc : c ∈ n.children)
    (rest : List String) : n.find? (c.1 :: rest) = c.2.find? rest := by
  rw [find?_cons, h.child?_of_mem hc, Option.bind_some]

theorem find?_append (n : Node) (p q : List String) :
    n.find? (p ++ q) = (n.find? p).bind fun m => m.find? q := by
  induction p generalizing n with
  | nil => rfl
  | cons segment rest ih =>
    rw [List.cons_append, find?_cons, find?_cons]
    cases n.child? segment with
    | none => rfl
    | some child => exact ih child

theorem definition?_cons (n : Node) (segment : String) (rest : List String) :
    n.definition? (segment :: rest) = (n.child? segment).bind fun child => child.definition? rest := by
  rw [definition?, find?_cons]
  cases n.child? segment <;> rfl

theorem definition?_empty (path : List String) : empty.definition? path = none := by
  cases path <;> rfl

/-- a child that is not there yet counts as an empty one -/
theorem definition?_childOrEmpty (n : Node) (segment : String) (rest : List String) :
    ((n.child? segment).getD empty).definition? rest = n.definition? (segment :: rest) := by
  rw [definition?_cons]
  cases n.child? segment with
  | none => exact definition?_empty rest
  | some child => rfl

section insertion

variable {definition : PixelDefinition} {origin : String} {path : List String} {n m : Node} {added : Bool}

theorem child?_insertChild (n : Node) (segment s : String) (child : Node) :
    ({ n with children := Entries.insert segment child n.children } : Node).child? s =
      if segment = s then some child else n.child? s := by
  simp only [child?, Entries.find?_insert]

/-- an insertion changes what is declared at the end of its path, and only if nothing was -/
theorem definition?_insert (h : Node.insert definition origin path n = .ok (m, added)) (q : List String) :
    m.definition? q = if q = path then some ((n.definition? path).getD definition) else n.definition? q := by
  induction path generalizing n m q with
  | nil =>
    rcases insert_nil_eq_ok h with ⟨existing, hexisting, _, rfl, _⟩ | ⟨hnone, rfl, _⟩
    · by_cases hq : q = []
      · subst hq
        simp [definition?, find?, hexisting]
      · rw [if_neg hq]
    · cases q with
      | nil => simp [definition?, find?, hnone]
      | cons s q => rw [if_neg (List.cons_ne_nil s q)]; rfl
  | cons segment rest ih =>
    obtain ⟨child, hrest, rfl⟩ := insert_cons_eq_ok h
    cases q with
    | nil => rw [if_neg (List.cons_ne_nil segment rest).symm]; rfl
    | cons s q =>
      rw [definition?_cons, child?_insertChild]
      by_cases hs : segment = s
      · subst hs
        rw [if_pos rfl, Option.bind_some, ih hrest q, definition?_childOrEmpty, definition?_childOrEmpty]
        simp only [List.cons.injEq, true_and]
      · rw [if_neg hs, if_neg fun hq => hs (List.cons.inj hq).1.symm, definition?_cons]

/-- an insertion adds a definition where there is none, and else finds the same one -/
theorem insert_added (h : Node.insert definition origin path n = .ok (m, added)) :
    (n.definition? path = none ∧ added = true) ∨
      ∃ existing, n.definition? path = some existing ∧ existing.same definition = true ∧ added = false := by
  induction path generalizing n m with
  | nil =>
    rcases insert_nil_eq_ok h with ⟨existing, hexisting, hsame, _, hadded⟩ | ⟨hnone, _, hadded⟩
    · exact Or.inr ⟨existing, hexisting, hsame, hadded⟩
    · exact Or.inl ⟨hnone, hadded⟩
  | cons segment rest ih =>
    obtain ⟨child, hrest, -⟩ := insert_cons_eq_ok h
    simpa only [definition?_childOrEmpty] using ih hrest

/-- an insertion is refused where another definition stands -/
theorem insert_refused {first : String} (h : Node.insert definition origin path n = .error first) :
    ∃ existing, n.definition? path = some existing ∧ existing.same definition = false := by
  induction path generalizing n first with
  | nil =>
    simp only [Node.insert] at h
    split at h
    · rename_i existing hexisting
      split at h
      · cases h
      · rename_i hsame
        exact ⟨existing, hexisting, by simpa using hsame⟩
    · cases h
  | cons segment rest ih =>
    simp only [Node.insert] at h
    cases hrest : Node.insert definition origin rest ((n.child? segment).getD empty) with
    | ok r => rw [hrest] at h; cases h
    | error e => simpa only [definition?_childOrEmpty] using ih hrest

theorem terminalCountList_eq (children : List (String × Node)) :
    terminalCountList children = (children.map fun c => c.2.terminalCount).sum := by
  induction children with
  | nil => rfl
  | cons c cs ih => simp [terminalCountList, ih]

theorem terminalCount_eq (n : Node) :
    n.terminalCount = (if n.definition.isSome then 1 else 0) + (n.children.map fun c => c.2.terminalCount).sum := by
  obtain ⟨children, definition, origin⟩ := n
  rw [terminalCount, terminalCountList_eq]

/-- an insertion counts if it adds a definition -/
theorem terminalCount_insert (hn : n.Ordered) (h : Node.insert definition origin path n = .ok (m, added)) :
    m.terminalCount = n.terminalCount + if added then 1 else 0 := by
  induction path generalizing n m with
  | nil =>
    rcases insert_nil_eq_ok h with ⟨_, _, _, rfl, rfl⟩ | ⟨hnone, rfl, rfl⟩
    · simp
    · have hbefore := terminalCount_eq n
      have hafter := terminalCount_eq { n with definition := some definition, origin := some origin }
      simp only [hnone, Option.isSome_none, Option.isSome_some, ↓reduceIte, Bool.false_eq_true] at hbefore hafter ⊢
      omega
  | cons segment rest ih =>
    obtain ⟨child, hrest, rfl⟩ := insert_cons_eq_ok h
    have hchild := ih (hn.childOrEmpty segment) hrest
    have hsum := @Entries.sum_insert Node terminalCount segment child n.children hn.sorted
    have hold : ((n.child? segment).getD empty).terminalCount = (n.child? segment).elim 0 terminalCount := by
      cases n.child? segment <;> rfl
    rw [hold] at hchild
    simp only [terminalCount_eq n, terminalCount_eq { n with children := _ }]
    simp only [child?] at hchild
    omega

/-- an insertion that adds no definition changes nothing -/
theorem insert_eq_self (hn : n.Ordered) (h : Node.insert definition origin path n = .ok (m, false)) : m = n := by
  induction path generalizing n m with
  | nil =>
    rcases insert_nil_eq_ok h with ⟨_, _, _, rfl, _⟩ | ⟨_, _, hadded⟩
    · rfl
    · cases hadded
  | cons segment rest ih =>
    obtain ⟨child, hrest, rfl⟩ := insert_cons_eq_ok h
    obtain rfl := ih (hn.childOrEmpty segment) hrest
    rcases insert_added hrest with ⟨-, hadded⟩ | ⟨existing, hexisting, -, -⟩
    · cases hadded
    · -- the child is there already, as a definition stands below it
      cases hchild : n.child? segment with
      | none =>
        rw [hchild, Option.getD_none, definition?_empty] at hexisting
        cases hexisting
      | some child =>
        rw [Option.getD_some, Entries.insert_of_find? hn.sorted hchild]
        cases n
        rfl

/-- an insertion makes the nodes on its path, and no others -/
theorem find?_insert_isSome (h : Node.insert definition origin path n = .ok (m, added)) (q : List String) :
    (m.find? q).isSome ↔ (n.find? q).isSome ∨ q <+: path := by
  induction path generalizing n m q with
  | nil =>
    cases q with
    | nil => simp [find?]
    | cons s q =>
      have hsame : m.find? (s :: q) = n.find? (s :: q) := by
        rcases insert_nil_eq_ok h with ⟨_, _, _, rfl, _⟩ | ⟨_, rfl, _⟩ <;> rfl
      simp [hsame]
  | cons segment rest ih =>
    obtain ⟨child, hrest, rfl⟩ := insert_cons_eq_ok h
    cases q with
    | nil => simp [find?]
    | cons s q =>
      rw [find?_cons, child?_insertChild]
      by_cases hs : segment = s
      · subst hs
        rw [if_pos rfl, Option.bind_some, ih hrest q, find?_cons, List.cons_prefix_cons]
        cases n.child? segment with
        | some child => simp
        | none =>
          cases q with
          | nil => simp [find?]
          | cons s q => simp [find?, child?, empty, Entries.find?]
      · rw [if_neg hs, ← find?_cons]
        simp [List.cons_prefix_cons, Ne.symm hs]

end insertion

end Node

end PixelAudit
