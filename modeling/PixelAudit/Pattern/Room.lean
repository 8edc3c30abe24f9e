/-
The room that a form takes up in a machine that reads bytes. There are two machines, one for each direction, and both
have to fit.

A state takes `stateRoom`, and more for each transition or alternative that it has to list. A set within ASCII is one
state that lists its ranges. Any other set becomes sequences of ranges of bytes. Forwards, equal states are shared as
far as they are remembered; backwards, the states of the last bytes are. What is remembered has its place by a hash
code, and is forgotten when another takes the place; numbers of states are part of it, so that two copies of a set can
take different room.
-/
import PixelAudit.Pattern.Form

namespace PixelAudit.Pattern

open Text (CodeSet)

/-- room of one state -/
def stateRoom : Nat := 32

/-- room of a transition in the list of a state -/
def transitionRoom : Nat := 8

/-- room of an alternative of a choice -/
def alternativeRoom : Nat := 4

/-- greatest room that a machine may take up -/
def roomLimit : Nat := 10 * Nat.pow 2 20

/-! sets as sequences of bytes -/

/-- number of bytes of a code point in text -/
def byteLength (code : Nat) : Nat :=
  if code < 0x80 then 1 else if code < 0x800 then 2 else if code < 0x10000 then 3 else 4

/-- the last code point with as many bytes as the given one -/
def lastOfLength (code : Nat) : Nat :=
  if code < 0x80 then 0x7F else if code < 0x800 then 0x7FF else if code < 0x10000 then 0xFFFF else 0x10FFFF

/-- the bits of a first byte that say how many bytes there are -/
def leadMark (code : Nat) : Nat :=
  if code < 0x80 then 0 else if code < 0x800 then 0xC0 else if code < 0x10000 then 0xE0 else 0xF0

/-- the bytes of a code point -/
def codeBytes (code : Nat) : List Nat :=
  let tails := byteLength code - 1
  (leadMark code + code >>> (6 * tails)) ::
    (List.range tails).map fun i => 0x80 + (code >>> (6 * (tails - 1 - i))) % 64

/-- The end of the code points that one sequence of ranges of bytes takes from the start of a range on: blocks of 64 to
the power of a level, if one starts there and the range holds it, and as many as belong to one block of the next
level. -/
def sequenceEnd (low high : Nat) : Nat → Nat
  | 0 => min high (low ||| 63)
  | level + 1 =>
    let size := Nat.pow 64 (level + 1)
    if low % size = 0 ∧ low + size ≤ high + 1 then
      min ((high + 1) / size * size - 1) (low ||| (64 * size - 1))
    else sequenceEnd low high level

/-- a range of code points as sequences, each by its first and last code point -/
def sequences (low high : Nat) : Nat → List (Nat × Nat)
  | 0 => []
  | fuel + 1 =>
    if high < low then []
    else
      let most := min high (lastOfLength low)
      let stop := if low < 0x80 then most else sequenceEnd low most (byteLength low - 1)
      (low, stop) :: sequences (stop + 1) high fuel

/-- ranges of bytes, one after the other -/
abbrev ByteRanges := List (Nat × Nat)

/-- the sequences of ranges of bytes that a set in increasing order stands for -/
def byteSequences (set : CodeSet) : List ByteRanges :=
  (set.flatMap fun r => sequences r.1 r.2 64).map fun s => (codeBytes s.1).zip (codeBytes s.2)

/-! the machine under construction -/

/-- a transition to a state for a range of bytes -/
structure Arc where
  low : Nat
  high : Nat
  target : Nat
  deriving BEq

/-- number of states with several transitions that are remembered -/
def nodeMemory : Nat := 10000

/-- number of states with one transition that are remembered -/
def tailMemory : Nat := 1000

structure Machine where
  /-- number of states -/
  states : Nat
  /-- room of what states list -/
  lists : Nat
  /-- the part built last ends in a choice, which lists what follows -/
  endsInChoice : Bool
  /-- states by their transitions, as far as they are remembered -/
  nodes : Array (List Arc × Nat)
  tails : Array (List Arc × Nat)

/-- a step in the construction of a machine; `none` if there is no room -/
abbrev Step := Machine → Option Machine

namespace Machine

def empty : Machine := ⟨0, 0, false, Array.replicate nodeMemory ([], 0), Array.replicate tailMemory ([], 0)⟩

def room (m : Machine) : Nat := m.states * stateRoom + m.lists

def fits (m : Machine) : Bool := m.room ≤ roomLimit

/-- list more in a state -/
def grow (room : Nat) : Step := fun m =>
  if m.room + room ≤ roomLimit then some { m with lists := m.lists + room } else none

/-- a new state, which lists the given number of bytes -/
def add (room : Nat) : Step := fun m =>
  if m.room + stateRoom + room ≤ roomLimit then
    some { m with states := m.states + 1, lists := m.lists + room, endsInChoice := false }
  else none

/-- go on after a part that may have ended in a choice -/
def link (fromChoice : Bool) : Step := fun m => if fromChoice then m.grow alternativeRoom else some m

/-- the next part, or all that is built, ends in a choice or not -/
def ending (inChoice : Bool) : Step := fun m => some { m with endsInChoice := inChoice }

/-! sharing of states -/

/-- the place of a state in a memory of the given size, by its transitions -/
def place (size : Nat) (codes : List Nat) : Nat :=
  let code : UInt64 := codes.foldl (fun h n => (h ^^^ n.toUInt64) * 1099511628211) 14695981039346656037
  code.toNat % size

/-- a state with the given transitions, which may be remembered -/
def node (arcs : List Arc) (m : Machine) : Option (Nat × Machine) :=
  let at_ := place nodeMemory (arcs.flatMap fun a => [a.low, a.high, a.target])
  let known := m.nodes.getD at_ ([], 0)
  if known.1 == arcs && !arcs.isEmpty then some (known.2, m)
  else
    let id := m.states
    match m.add (transitionRoom * arcs.length) with
    | some m => some (id, { m with nodes := m.nodes.setIfInBounds at_ (arcs, id) })
    | none => none

/-- a state with one transition, which may be remembered -/
def tail (arc : Arc) (m : Machine) : Option (Nat × Machine) :=
  let at_ := place tailMemory [arc.target, arc.low, arc.high]
  let known := m.tails.getD at_ ([], 0)
  if known.1 == [arc] then some (known.2, m)
  else
    let id := m.states
    match m.add 0 with
    | some m => some (id, { m with tails := m.tails.setIfInBounds at_ ([arc], id) })
    | none => none

/-- a state under construction: its transitions, last one first, and the range of one that has no target yet -/
structure Draft where
  arcs : List Arc
  last : Option (Nat × Nat)

/-- the open transition leads to the given state -/
def Draft.freeze (d : Draft) (target : Nat) : Draft :=
  match d.last with
  | some (low, high) => ⟨⟨low, high, target⟩ :: d.arcs, none⟩
  | none => d

/-- make states of drafts that lead to each other, and the last to the given state: the first of them -/
def closeDrafts (final : Nat) : List Draft → Machine → Option (Nat × Machine)
  | [], m => some (final, m)
  | d :: rest, m =>
    match closeDrafts final rest m with
    | some (target, m) => m.node (d.freeze target).arcs.reverse
    | none => none

/-- add a sequence to drafts; the drafts that it does not share with the sequence before it become states -/
def addSequence (final : Nat) : List Draft → ByteRanges → Machine → Option (List Draft × Machine)
  | d :: rest, r :: more, m =>
    if d.last == some r then
      match addSequence final rest more m with
      | some (rest, m) => some (d :: rest, m)
      | none => none
    else
      match closeDrafts final rest m with
      | some (target, m) => some ({ d.freeze target with last := some r } :: more.map fun r => ⟨[], some r⟩, m)
      | none => none
  | drafts, _, m => some (drafts, m)

def addSequences (final : Nat) : List ByteRanges → List Draft → Machine → Option Machine
  | [], drafts, m => (closeDrafts final drafts m).map Prod.snd
  | s :: rest, drafts, m =>
    match addSequence final drafts s m with
    | some (drafts, m) => addSequences final rest drafts m
    | none => none

/-- the states of a sequence that is read from its last byte on: the first of them -/
def addBackwards (target : Nat) : ByteRanges → Machine → Option (Nat × Machine)
  | [], m => some (target, m)
  | (low, high) :: rest, m =>
    match m.tail ⟨low, high, target⟩ with
    | some (id, m) => addBackwards id rest m
    | none => none

def addAllBackwards (final : Nat) : List ByteRanges → Machine → Option Machine
  | [], m => some m
  | s :: rest, m =>
    match addBackwards final s m with
    | some (_, m) =>
      match m.grow alternativeRoom with
      | some m => addAllBackwards final rest m
      | none => none
    | none => none

/-- a set of characters, with the state after it -/
def addSet (backwards : Bool) (set : CodeSet) : Step := fun m =>
  if set.all (fun r => r.2 < 0x80) then do (← m.add 0).add (transitionRoom * set.length)
  else if backwards then do
    let m ← (← m.add 0).add 0
    let final := m.states - 1
    (← addAllBackwards final (byteSequences set) m).ending false
  else do
    let final := m.states
    (← addSequences final (byteSequences set) [⟨[], none⟩] (← m.add 0)).ending false

/-- a number of states one after the other -/
def addStates : Nat → Step
  | 0, m => some m
  | n + 1, m =>
    match m.add 0 with
    | some m => addStates n m
    | none => none

/-- a part, and then copies of it, each linked to the one before -/
def addCopies (part : Step) : Nat → Step
  | 0, m => some m
  | n + 1, m =>
    let before := m.endsInChoice
    match part m with
    | none => none
    | some m =>
      match m.link before with
      | none => none
      | some m => addCopies part n m

/-- exactly so many copies of a part -/
def addExactly (part : Step) : Nat → Step
  | 0, m => m.add 0
  | n + 1, m =>
    match part m with
    | none => none
    | some m => addCopies part n m

/-- copies of a part that may be left out, each after a choice between it and the end; `before` tells of the part before
them -/
def addOptional (part : Step) (before : Bool) : Nat → Step
  | 0, m => m.link before
  | n + 1, m =>
    match (m.add (2 * alternativeRoom)).bind part with
    | none => none
    | some m =>
      let inChoice := m.endsInChoice
      match m.link before with
      | none => none
      | some m => addOptional part inChoice n m

end Machine

/-! alternatives that are literals -/

/-- Words that share their beginnings. Each state has lists of letters: a list is closed when a word ends at the state,
and the last one is open. -/
inductive Trie where
  | node (closed : List (List (Nat × Trie))) (opened : List (Nat × Trie))

namespace Trie

def empty : Trie := node [] []

def isLeaf : Trie → Bool
  | node closed opened => opened.isEmpty && closed.all List.isEmpty

/-- a word ends here -/
def close : Trie → Trie
  | node closed opened =>
    if isLeaf (node closed opened) && !closed.isEmpty then node closed opened else node (closed ++ [opened]) []

/-- put a letter in its place; the trie under it is made by the given function -/
def change (letter : Nat) (f : Trie → Trie) : List (Nat × Trie) → List (Nat × Trie)
  | [] => [(letter, f empty)]
  | (b, t) :: rest =>
    if letter = b then (b, f t) :: rest
    else if letter < b then (letter, f empty) :: (b, t) :: rest
    else (b, t) :: change letter f rest

def insert : List Nat → Trie → Trie
  | [], t => t.close
  | b :: bs, node closed opened => node closed (change b (insert bs) opened)

mutual

/-- number of states, and the room of what they list -/
def cost : Trie → Nat × Nat
  | node closed opened =>
    if isLeaf (node closed opened) then (0, 0)
    else
      let (states, lists) := costOfLists closed
      let (more, moreLists) := costOfLetters opened
      let parts := (closed ++ [opened]).filter fun l => !l.isEmpty
      let listed := parts.foldl (fun n l => n + if l.length = 1 then 0 else transitionRoom * l.length) 0
      (states + more + parts.length + 1,
        lists + moreLists + listed + alternativeRoom * (parts.length + closed.length))

def costOfLists : List (List (Nat × Trie)) → Nat × Nat
  | [] => (0, 0)
  | l :: rest =>
    let (states, lists) := costOfLetters l
    let (more, moreLists) := costOfLists rest
    (states + more, lists + moreLists)

def costOfLetters : List (Nat × Trie) → Nat × Nat
  | [] => (0, 0)
  | (_, t) :: rest =>
    let (states, lists) := cost t
    let (more, moreLists) := costOfLetters rest
    (states + more, lists + moreLists)

end

end Trie

/-- the bytes of a literal -/
def literalBytes (cs : List Char) : List Nat := cs.flatMap fun c => codeBytes c.toNat

/-- the literals among forms, if all of them are -/
def literals? (fs : List Form) : Option (List (List Char)) :=
  fs.mapM fun
    | .literal cs => some cs
    | _ => none

/-- a choice between literals -/
def Machine.addLiterals (backwards : Bool) (words : List (List Char)) : Step := fun m =>
  let spell (cs : List Char) : List Nat := if backwards then (literalBytes cs).reverse else literalBytes cs
  let trie := words.foldl (fun t cs => t.insert (spell cs)) Trie.empty
  let (states, lists) := trie.cost
  ((m.addStates (states + 1)).bind (Machine.grow lists)).bind (Machine.ending false)

namespace Form

open Machine

mutual

/-- build the machine of a form; backwards, groups take no room -/
def build (backwards : Bool) : Form → Step
  | empty, m => m.add 0
  | literal cs, m => m.addStates (literalBytes cs).length
  | chars set _, m => m.addSet backwards set
  | look _, m => m.add 0
  | group _ body, m =>
    if backwards then build backwards body m
    else do
      let m ← build backwards body (← m.add 0)
      (← m.link m.endsInChoice).add 0
  | repeated least most _ body, m =>
    let part := build backwards body
    match most with
    | none =>
      if least = 0 then
        if 0 < (leastLength body).getD 0 then do
          let m ← part (← m.add alternativeRoom)
          (← m.link m.endsInChoice).ending true
        else do
          let m ← part m
          let m ← (← m.link m.endsInChoice).add (2 * alternativeRoom)
          (← m.add (2 * alternativeRoom)).add 0
      else do
        let m ← m.addExactly part least
        (← (← m.link m.endsInChoice).add alternativeRoom).ending true
    | some most =>
      if least = 0 ∧ most = 1 then do
        let m ← part (← m.add (2 * alternativeRoom))
        (← m.link m.endsInChoice).add 0
      else if least = most then m.addExactly part least
      else do
        let m ← m.addExactly part least
        let before := m.endsInChoice
        (← addOptional part before (most - least) (← m.add 0)).ending false
  | concat items, m => if backwards then buildBackwards items m else buildItems false items m
  | alternation choices, m =>
    match literals? choices with
    | some words => m.addLiterals backwards words
    | none => do (← buildChoices backwards 0 choices m).ending false

/-- build items one after the other; `linked` says that there is one before them -/
def buildItems (linked : Bool) : List Form → Step
  | [], m => some m
  | f :: rest, m => do
    let before := m.endsInChoice
    let m ← build false f m
    buildItems true rest (← m.link (linked && before))

/-- build items one after the other, the last one first -/
def buildBackwards : List Form → Step
  | [], m => some m
  | [f], m => build true f m
  | f :: rest, m => do
    let m ← buildBackwards rest m
    let before := m.endsInChoice
    (← build true f m).link before

/-- build forms side by side, after so many of them; the choice and what follows it come after the second one -/
def buildChoices (backwards : Bool) (before : Nat) : List Form → Step
  | [], m => some m
  | f :: rest, m => do
    let m ← build backwards f m
    let m ← (← m.link m.endsInChoice).grow alternativeRoom
    let m ← if before = 1 then (← m.add 0).add 0 else some m
    buildChoices backwards (before + 1) rest m

end

/-- build the whole machine: what it passes over before a match, unless a test binds matches to its start, and the group
that holds the match -/
def machine (backwards : Bool) (f : Form) : Option Machine := do
  let bound := if backwards then closesWith .textEnd f else opensWith .textStart f
  let m ← if bound then Machine.empty.add 0
    else do (← (← Machine.empty.addSet backwards [(0, 0x7F)]).add alternativeRoom).grow alternativeRoom
  let m ← (Form.group 0 f).build backwards m
  (← m.link m.endsInChoice).add 0

/-- there is room for the machines of both directions -/
def hasRoom (f : Form) : Bool := (f.machine false).isSome && (f.machine true).isSome

end Form

end PixelAudit.Pattern
