/-
From the text of YAML to its tokens.

In block style a collection begins where something stands further to the right than the collection around it, and ends
where something stands further to the left. A key without a mark is only recognized by the colon after it, which has to
come on the same line and within `keyLimit` bytes; until then its place is remembered, and once the colon has come the
token that starts the key is put in there.
-/
import PixelAudit.Yaml.Content
import PixelAudit.Yaml.Label

namespace PixelAudit.Yaml

/-- a place where a key may have begun -/
structure KeyStart where
  /-- nothing but a key can stand there -/
  required : Bool
  /-- number of tokens before it -/
  tokens : Nat
  mark : Mark

structure LexerState where
  cursor : Cursor
  tokens : Array Token
  /-- For block style and for every flow collection that is open, innermost first: where a key may have begun. -/
  keys : List (Option KeyStart)
  /-- the column of the block collection -/
  indent : Int
  /-- the columns of the collections around it -/
  outer : List Int
  /-- a key without a mark may begin here -/
  keyAllowed : Bool

/-- a step in the reading of tokens, which refuses a text with `none` -/
abbrev Lexer (α : Type) := StateT LexerState Option α

namespace Lexer

/-- read characters -/
def read {α : Type} (reader : Reader α) : Lexer α := fun s =>
  (reader s.cursor).map fun (a, cursor) => (a, { s with cursor })

def emit (token : Token) : Lexer Unit := modify fun s => { s with tokens := s.tokens.push token }

def allowKey (allowed : Bool) : Lexer Unit := modify fun s => { s with keyAllowed := allowed }

/-- a flow collection is open -/
def inFlow : Lexer Bool := do
  match (← get).keys with
  | _ :: _ :: _ => return true
  | _ => return false

def column : Lexer Int := do return (← get).cursor.mark.column

/-! indentation -/

/-- the collections that end before a column: how many, and the columns of the others -/
def closeBlocks (column indent : Int) : List Int → Nat × Int × List Int
  | [] => (0, indent, [])
  | next :: outer =>
    if column < indent then
      let (count, rest) := closeBlocks column next outer
      (count + 1, rest)
    else (0, indent, next :: outer)

/-- end the block collections that stand further to the right -/
def unindent (column : Int) : Lexer Unit := do
  if !(← inFlow) then
    modify fun s =>
      let (count, indent, outer) := closeBlocks column s.indent s.outer
      { s with indent, outer, tokens := s.tokens ++ Array.replicate count Token.blockEnd }

/-- begin a block collection if something stands further to the right; its token comes after so many others -/
def indentTo (column : Int) (token : Token) (place : Nat) : Lexer Unit := do
  if !(← inFlow) then
    modify fun s =>
      if s.indent < column then
        { s with indent := column, outer := s.indent :: s.outer, tokens := s.tokens.insertIdxIfInBounds place token }
      else s

/-- begin a block collection here -/
def indentHere (token : Token) : Lexer Unit := do
  if !(← get).keyAllowed then failure
  indentTo (← column) token (← get).tokens.size

/-! keys without a mark -/

/-- greatest number of bytes between the start of a key and the colon after it -/
def keyLimit : Nat := 1024

/-- the colon can no longer come -/
def isStale (m : Mark) (k : KeyStart) : Bool := k.mark.line < m.line || k.mark.byte + keyLimit < m.byte

/-- forget the keys whose colon can no longer come; none of them may be required -/
def dropStale : Lexer Unit := do
  let m := (← get).cursor.mark
  if (← get).keys.any fun key => key.any (isStale m) then
    if (← get).keys.any fun key => key.any fun k => isStale m k && k.required then failure
    modify fun s => { s with keys := s.keys.map fun key => key.filter fun k => !isStale m k }

/-- forget the key that may have begun, which must not be required -/
def dropKey : Lexer Unit := do
  let s ← get
  match s.keys with
  | some k :: keys => if k.required then failure else set { s with keys := none :: keys }
  | _ => return ()

/-- remember that a key may begin here -/
def markKey : Lexer Unit := do
  let s ← get
  if s.keyAllowed then
    dropKey
    let required := !(← inFlow) && s.indent == s.cursor.mark.column
    let start : KeyStart := ⟨required, s.tokens.size, s.cursor.mark⟩
    modify fun s => { s with keys := some start :: s.keys.tail }

/-! tokens -/

/-- pass over blanks, comments and line ends; where a key may begin in block style a tab is not a blank -/
def skipToToken : Nat → Lexer Unit
  | 0 => failure
  | fuel + 1 => do
    let s ← get
    if s.cursor.mark.column = 0 ∧ s.cursor.rest.head? = some '\ufeff' then read bump
    let tabs := (← inFlow) || !s.keyAllowed
    let _ ← read (takeWhile fun c => c == ' ' || (tabs && c == '\t'))
    read skipComment
    if (← read lineEnd).isSome then
      if !(← inFlow) then allowKey true
      skipToToken fuel

/-- the start or end of a document, or a directive: no collection is open any more -/
def atTop (reader : Reader Token) : Lexer Unit := do
  unindent (-1)
  dropKey
  allowKey false
  emit (← read reader)

/-- a mark of one character -/
def mark (token : Token) : Reader Token := do
  bump
  return token

/-- the start of a flow collection, which may be a key -/
def openFlow (token : Token) : Lexer Unit := do
  markKey
  modify fun s => { s with keys := none :: s.keys, keyAllowed := true }
  emit (← read (mark token))

def closeFlow (token : Token) : Lexer Unit := do
  dropKey
  let flow ← inFlow
  modify fun s => { s with keys := if flow then s.keys.tail else s.keys, keyAllowed := false }
  emit (← read (mark token))

def commaMark : Lexer Unit := do
  dropKey
  allowKey true
  emit (← read (mark .comma))

def dashMark : Lexer Unit := do
  if !(← inFlow) then indentHere .blockSequence
  dropKey
  allowKey true
  emit (← read (mark .dash))

def keyMark : Lexer Unit := do
  if !(← inFlow) then indentHere .blockMapping
  dropKey
  allowKey (!(← inFlow))
  emit (← read (mark .key))

def valueMark : Lexer Unit := do
  match (← get).keys with
  | some k :: keys => do
    modify fun s => { s with keys := none :: keys, tokens := s.tokens.insertIdxIfInBounds k.tokens .key }
    indentTo k.mark.column .blockMapping k.tokens
    allowKey false
  | _ => do
    if !(← inFlow) then indentHere .blockMapping
    allowKey (!(← inFlow))
  emit (← read (mark .value))

/-- a token that may be a key -/
def keyable (reader : Reader Token) : Lexer Unit := do
  markKey
  allowKey false
  emit (← read reader)

def quotedToken (single : Bool) (fuel : Nat) : Reader Token := do
  bump
  return .scalar (String.ofList (← quotedText single [] fuel).reverse) .quoted

/-- a plain scalar; on a line after it a key may begin -/
def plainToken (fuel : Nat) : Lexer Unit := do
  let s ← get
  markKey
  allowKey false
  let (text, broken) ← read (plainText (← inFlow) (s.indent + 1) [] .empty fuel)
  emit (.scalar (String.ofList text.reverse) .plain)
  if broken then allowKey true

def blockToken (literal : Bool) (fuel : Nat) : Lexer Unit := do
  dropKey
  allowKey true
  let indent := (← get).indent
  let text ← read do
    bump
    blockText literal indent fuel
  emit (.scalar (String.ofList text) (if literal then .literal else .folded))

/-- characters with a meaning of their own, which start no plain scalar -/
def isIndicator (c : Char) : Bool := "-?:,[]\x7b\x7d#&*!|>'\"%@`".toList.contains c

/-- a plain scalar may begin with the characters -/
def startsPlain (inFlow : Bool) (cs : List Char) : Bool :=
  match cs with
  | [] => false
  | c :: rest =>
    (!isGap cs && !isIndicator c) || (c == '-' && !isGap rest) || (!inFlow && (c == '?' || c == ':') && !isGap rest)

/-- the end of the text -/
def finish : Lexer Unit := do
  unindent (-1)
  dropKey

/-- read the next token, with those that follow from its place; whether the text goes on -/
def step (fuel : Nat) : Lexer Bool := do
  skipToToken fuel
  dropStale
  unindent (← column)
  let s ← get
  let flow ← inFlow
  match s.cursor.rest with
  | [] => do
    finish
    return false
  | c :: rest => do
    let lone := isGap rest
    let atStart := s.cursor.mark.column == 0
    if atStart && c == '%' then
      atTop do
        bump
        directive fuel
    else if s.cursor.isMarker '-' then
      atTop do
        bumpMany 3
        return .documentStart
    else if s.cursor.isMarker '.' then
      atTop do
        bumpMany 3
        return .documentEnd
    else if c = '[' then openFlow .flowSequence
    else if c = '\x7b' then openFlow .flowMapping
    else if c = ']' then closeFlow .flowSequenceEnd
    else if c = '\x7d' then closeFlow .flowMappingEnd
    else if c = ',' then commaMark
    else if c = '-' ∧ lone then dashMark
    else if c = '?' ∧ (flow ∨ lone) then keyMark
    else if c = ':' ∧ (flow ∨ lone) then valueMark
    else if c = '*' then
      keyable do
        bump
        return .aliasOf (← anchorName)
    else if c = '&' then
      keyable do
        bump
        return .anchor (← anchorName)
    else if c = '!' then keyable (tagToken flow fuel)
    else if c = '|' ∧ !flow then blockToken true fuel
    else if c = '>' ∧ !flow then blockToken false fuel
    else if c = '\x27' then keyable (quotedToken true fuel)
    else if c = '"' then keyable (quotedToken false fuel)
    else if startsPlain flow s.cursor.rest then plainToken fuel
    else failure
    return true

/-- read all tokens -/
def steps (fuel : Nat) : Nat → Lexer Unit
  | 0 => failure
  | n + 1 => do
    if ← step fuel then steps fuel n

end Lexer

/-- characters that may stand in a text: no control characters, and none that stand for nothing -/
def isPrintable (c : Char) : Bool :=
  let code := c.toNat
  c == '\t' || c == '\n' || c == '\r' || (0x20 ≤ code && code ≤ 0x7E) || code == 0x85 ||
    (0xA0 ≤ code && code != 0xFFFE && code != 0xFFFF)

/-- the tokens of a text; `none` if the text is refused -/
def tokens? (text : String) : Option (List Token) :=
  let cs := text.toList
  let start : LexerState := ⟨⟨cs, .start⟩, #[], [none], -1, [], true⟩
  if cs.all isPrintable then ((Lexer.steps (cs.length + 1) (cs.length + 2)).run start).map fun r => r.2.tokens.toList
  else none

end PixelAudit.Yaml
