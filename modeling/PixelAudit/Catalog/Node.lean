/-
The declared families as a tree: a node for every segment of their names, with the children of a node in the order of
their segments. A node that is declared holds its definition and the source that declared it.

Main results: `find?_insert_self` (an inserted definition is found under its path).
-/
import PixelAudit.Definition.Record

namespace PixelAudit

structure Node where
  children : List (String × Node) := []
  definition : Option PixelDefinition := none
  /-- the source of the definition -/
  origin : Option String := none
  deriving Inhabited

namespace Node

def empty : Node := {}

def isTerminal (n : Node) : Bool := n.definition.isSome

/-- the child under a segment -/
def child? (n : Node) (segment : String) : Option Node := Entries.find? segment n.children

/-- the node at the end of a path -/
def find? (n : Node) : List String → Option Node
  | [] => some n
  | segment :: rest =>
    match n.child? segment with
    | some child => child.find? rest
    | none => none

/-- the node under a dotted name -/
def get? (n : Node) (name : String) : Option Node := n.find? (Text.pieces '.' name)

mutual

/-- number of declared nodes -/
def terminalCount : Node → Nat
  | ⟨children, definition, _⟩ => (if definition.isSome then 1 else 0) + terminalCountList children

def terminalCountList : List (String × Node) → Nat
  | [] => 0
  | (_, child) :: rest => child.terminalCount + terminalCountList rest

end

mutual

/-- the source of the node, or else of the first declared node below it -/
def firstOrigin : Node → Option String
  | ⟨children, _, origin⟩ => origin.or (firstOriginList children)

def firstOriginList : List (String × Node) → Option String
  | [] => none
  | (_, child) :: rest => child.firstOrigin.or (firstOriginList rest)

end

mutual

/-- equal trees: the same segments, sources, and equal definitions -/
def same : Node → Node → Bool
  | ⟨children, definition, origin⟩, ⟨children', definition', origin'⟩ =>
    sameList children children' && sameOption PixelDefinition.same definition definition' && origin == origin'

def sameList : List (String × Node) → List (String × Node) → Bool
  | [], [] => true
  | (segment, child) :: rest, (segment', child') :: rest' =>
    segment == segment' && same child child' && sameList rest rest'
  | _, _ => false

end

/-- A definition is put under a path. The same definition once more changes nothing; another one is refused, with the
source of the one that stands there. -/
def insert (definition : PixelDefinition) (origin : String) : List String → Node → Except String (Node × Bool)
  | [], n =>
    match n.definition with
    | some existing => if existing.same definition then .ok (n, false) else .error (n.origin.getD "")
    | none => .ok ({ n with definition := some definition, origin := some origin }, true)
  | segment :: rest, n => do
    let (child, added) ← insert definition origin rest ((n.child? segment).getD empty)
    return ({ n with children := Entries.insert segment child n.children }, added)

/-- an inserted definition is found under its path -/
theorem find?_insert_self {definition : PixelDefinition} {origin : String} {path : List String} {n m : Node}
    (h : insert definition origin path n = .ok (m, true)) :
    ∃ k, m.find? path = some k ∧ k.definition = some definition ∧ k.origin = some origin := by
  induction path generalizing n m with
  | nil =>
    simp only [insert] at h
    split at h
    · split at h <;> simp at h
    · simp only [Except.ok.injEq, Prod.mk.injEq, and_true] at h
      exact ⟨m, rfl, by rw [← h], by rw [← h]⟩
  | cons segment rest ih =>
    simp only [insert] at h
    cases hrec : insert definition origin rest ((n.child? segment).getD empty) with
    | error e => rw [hrec] at h; cases h
    | ok r =>
      obtain ⟨child, added⟩ := r
      rw [hrec] at h
      simp only [bind, Except.bind, pure, Except.pure, Except.ok.injEq, Prod.mk.injEq] at h
      obtain ⟨hm, hadded⟩ := h
      subst hm hadded
      obtain ⟨k, hk, hdef, horigin⟩ := ih hrec
      exact ⟨k, by simp [find?, child?, Entries.find?_insert, hk], hdef, horigin⟩

end Node

end PixelAudit
