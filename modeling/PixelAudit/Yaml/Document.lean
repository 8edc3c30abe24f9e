/-
From tokens to a YAML document.

A node may have an anchor, by which an alias names it again later. An alias inside the node that it names stands for
something that has no end, and cannot be read. A text holds one document at most.
-/
import PixelAudit.Yaml.Lexer
import PixelAudit.Yaml.Node

namespace PixelAudit.Yaml

/-- a node with an anchor, and the number of aliases inside it -/
structure Anchored where
  node : Yaml
  jumps : Nat

structure ComposerState where
  rest : List Token
  /-- abbreviations for the start of tags -/
  handles : List (String × String)
  /-- anchors in the order in which they come; there is nothing for one whose node has not been read to its end -/
  anchors : List (String × Option Anchored)
  /-- number of scalars and aliases, and of starts and ends of collections -/
  events : Nat
  /-- number of aliases, counted again where an alias names what they stand in -/
  jumps : Nat

/-- a reader of tokens, which refuses a text with `none` -/
abbrev Composer (α : Type) := StateT ComposerState Option α

namespace Composer

def next : Composer (Option Token) := do return (← get).rest.head?

def skip : Composer Unit := modify fun s => { s with rest := s.rest.tail }

/-- one of the given tokens comes next -/
def nextIsOneOf (tokens : List Token) : Composer Bool := do return (← next).any (tokens.contains ·)

def count (events : Nat) : Composer Unit := modify fun s => { s with events := s.events + events }

/-- a node that is not written -/
def missing : Composer Yaml := do
  count 1
  return .blank

/-- a key that is missing in a single entry, where the next token is lost -/
def noKey : Composer Yaml := do
  skip
  missing

/-! anchors and tags -/

/-- read a node, which later aliases can name if it has an anchor -/
def anchored (name : Option String) (body : Composer Yaml) : Composer Yaml := do
  match name with
  | none => body
  | some name => do
    let place := (← get).anchors.length
    let before := (← get).jumps
    modify fun s => { s with anchors := s.anchors ++ [(name, none)] }
    let node ← body
    modify fun s => { s with anchors := s.anchors.set place (name, some ⟨node, s.jumps - before⟩) }
    return node

/-- the node that an alias names -/
def named (name : String) : Composer Yaml := do
  count 1
  match (← get).anchors.reverse.find? (fun a => a.1 == name) with
  | some (_, some target) => do
    modify fun s => { s with jumps := s.jumps + target.jumps + 1 }
    return target.node
  | some (_, none) => return .unreadable
  | none => failure

/-- a tag in full -/
def fullTag (handle rest : String) : Composer String := do
  if handle = "" then return rest
  else
    match (← get).handles.find? (fun h => h.1 == handle) with
    | some (_, start) => return start ++ rest
    | none => failure

/-- the anchor and the tag before a node, in any order -/
def labels : Composer (Option String × Option String) := do
  match ← next with
  | some (.anchor name) => do
    skip
    match ← next with
    | some (.tag handle rest) => do
      skip
      return (some name, some (← fullTag handle rest))
    | _ => return (some name, none)
  | some (.tag handle rest) => do
    skip
    let tag ← fullTag handle rest
    match ← next with
    | some (.anchor name) => do
      skip
      return (some name, some tag)
    | _ => return (none, some tag)
  | _ => return (none, none)

/-! nodes -/

mutual

/-- A node. In block style it may be a block collection, and after a key a sequence whose dashes stand at the column of
the mapping. -/
def node (block dashes : Bool) : Nat → Composer Yaml
  | 0 => failure
  | fuel + 1 => do
    match ← next with
    | some (.aliasOf name) => do
      skip
      named name
    | _ => do
      let (anchor, tag) ← labels
      anchored anchor (labelled block dashes (anchor.isSome || tag.isSome) tag fuel)

/-- a node after its anchor and tag; if it has one of them it may be missing -/
def labelled (block dashes isLabelled : Bool) (tag : Option String) : Nat → Composer Yaml
  | 0 => failure
  | fuel + 1 => do
    match ← next with
    | some (.scalar text style) => do
      skip
      count 1
      return .scalar ⟨text, style, (tag.filter (· != "!")).map Tag.ofName⟩
    | some .flowSequence => do
      skip
      count 2
      return .sequence (tag.map Tag.ofName) (← flowItems true fuel)
    | some .flowMapping => do
      skip
      count 2
      return .mapping (tag.map Tag.ofName) (← flowEntries true fuel)
    | other => do
      if dashes && other == some .dash then
        count 2
        return .sequence (tag.map Tag.ofName) (← dashItems fuel)
      else if block && other == some .blockSequence then
        skip
        count 2
        return .sequence (tag.map Tag.ofName) (← blockItems fuel)
      else if block && other == some .blockMapping then
        skip
        count 2
        return .mapping (tag.map Tag.ofName) (← blockEntries fuel)
      else if isLabelled then
        count 1
        return .scalar ⟨"", .plain, tag.map Tag.ofName⟩
      else failure

/-- the items of a block sequence, up to its end -/
def blockItems : Nat → Composer (List Yaml)
  | 0 => failure
  | fuel + 1 => do
    match ← next with
    | some .dash => do
      skip
      let item ← if ← nextIsOneOf [.dash, .blockEnd] then missing else node true false fuel
      return item :: (← blockItems fuel)
    | some .blockEnd => do
      skip
      return []
    | _ => failure

/-- the items of a block sequence that has no column of its own -/
def dashItems : Nat → Composer (List Yaml)
  | 0 => failure
  | fuel + 1 => do
    if (← next) = some .dash then
      skip
      let item ← if ← nextIsOneOf [.dash, .key, .value, .blockEnd] then missing else node true false fuel
      return item :: (← dashItems fuel)
    else return []

/-- the entries of a block mapping, up to its end -/
def blockEntries : Nat → Composer (List (Yaml × Yaml))
  | 0 => failure
  | fuel + 1 => do
    match ← next with
    | some .key => do
      skip
      let key ← if ← nextIsOneOf [.key, .value, .blockEnd] then missing else node true true fuel
      let value ← valueBefore true [.key, .value, .blockEnd] fuel
      return (key, value) :: (← blockEntries fuel)
    | some .blockEnd => do
      skip
      return []
    | _ => failure

/-- the value of an entry; it is missing if there is no mark for it, or if one of the given tokens follows the mark -/
def valueBefore (block : Bool) (stops : List Token) : Nat → Composer Yaml
  | 0 => failure
  | fuel + 1 => do
    if (← next) = some .value then
      skip
      if ← nextIsOneOf stops then missing else node block block fuel
    else missing

/-- the items of a flow sequence, up to its end; a single entry of a mapping is an item too -/
def flowItems (first : Bool) : Nat → Composer (List Yaml)
  | 0 => failure
  | fuel + 1 => do
    if !first && (← next) == some .comma then skip
    else if !first && (← next) != some .flowSequenceEnd then failure
    match ← next with
    | some .flowSequenceEnd => do
      skip
      return []
    | some .key => do
      skip
      count 2
      let key ← if ← nextIsOneOf [.value, .comma, .flowSequenceEnd] then noKey else node false false fuel
      let value ← valueBefore false [.comma, .flowSequenceEnd] fuel
      return .mapping none [(key, value)] :: (← flowItems false fuel)
    | _ => do
      let item ← node false false fuel
      return item :: (← flowItems false fuel)

/-- the entries of a flow mapping, up to its end -/
def flowEntries (first : Bool) : Nat → Composer (List (Yaml × Yaml))
  | 0 => failure
  | fuel + 1 => do
    if !first && (← next) == some .comma then skip
    else if !first && (← next) != some .flowMappingEnd then failure
    match ← next with
    | some .flowMappingEnd => do
      skip
      return []
    | some .key => do
      skip
      let key ← if ← nextIsOneOf [.value, .comma, .flowMappingEnd] then missing else node false false fuel
      let value ← valueBefore false [.comma, .flowMappingEnd] fuel
      return (key, value) :: (← flowEntries false fuel)
    | _ => do
      let key ← node false false fuel
      let value ← missing
      return (key, value) :: (← flowEntries false fuel)

end

/-! documents -/

/-- the abbreviations that need no directive -/
def commonHandles : List (String × String) := [("!", "!"), ("!!", commonTags)]

/-- the directives before a document; there is one version at most, and one meaning of an abbreviation -/
def directives (versioned : Bool) : Nat → Composer Unit
  | 0 => failure
  | fuel + 1 => do
    match ← next with
    | some (.version major minor) => do
      if versioned || major != 1 || (minor != 1 && minor != 2) then failure
      skip
      directives true fuel
    | some (.tagHandle handle start) => do
      if (← get).handles.any fun h => h.1 == handle then failure
      skip
      modify fun s => { s with handles := s.handles ++ [(handle, start)] }
      directives versioned fuel
    | _ => return ()

/-- the token stands outside of all documents -/
def isOutside : Token → Bool
  | .version _ _ => true
  | .tagHandle _ _ => true
  | .documentStart => true
  | _ => false

/-- the document, with a mark for its start or without -/
def document : Composer Yaml := do
  let fuel := 4 * (← get).rest.length + 8
  match ← next with
  | none => return .absent
  | some first => do
    let marked := isOutside first
    if marked then
      directives false fuel
      if (← next) ≠ some .documentStart then failure
      skip
    modify fun s => { s with handles := s.handles ++ commonHandles }
    let isEmpty := match ← next with
      | none => true
      | some token => isOutside token || token == .documentEnd
    if marked && isEmpty then missing else node true false fuel

/-- number of times that the events of a document may be gone through because of aliases -/
def repetitionLimit : Nat := 100

/-- the only document, with marks for its end or without -/
def whole : Composer Yaml := do
  let y ← document
  let s ← get
  if s.rest.all (· == .documentEnd) && s.jumps ≤ repetitionLimit * s.events then return y else failure

end Composer

/-- number of collections that may be inside each other where they are read -/
def nestLimit : Nat := 128

/-- the document that a text spells; `none` if the text is refused -/
def parse? (text : String) : Option Yaml := do
  let tokens ← tokens? text
  let (y, _) ← Composer.whole.run ⟨tokens, [], [], 0, 0⟩
  return y.within nestLimit

end PixelAudit.Yaml
