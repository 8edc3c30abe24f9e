/-
The written form of patterns, and the expressions that they stand for.

A pattern is a list of alternatives of items; an item is a character, a class, a test of the place, or a group, and may
be repeated. Letters between a question mark and a closing bracket or a colon switch options on and off, for the rest of
the group or for one group. Look-around and references back to groups do not exist.

A pattern is refused if it breaks these rules, nests deeper than `nestLimit`, or takes up more room than there is when
its repetitions are written out.
-/
import PixelAudit.Pattern.Expr
import PixelAudit.Pattern.Fold
import PixelAudit.Pattern.Named
import PixelAudit.Pattern.Room
import PixelAudit.Decimal.Numeral
import PixelAudit.Text.Recent

namespace PixelAudit.Pattern

open Text (CodeSet)

/-- how letters, points and line ends are read -/
structure Options where
  ignoreCase : Bool := false
  /-- tests of start and end apply to lines -/
  lines : Bool := false
  /-- the point takes line ends too -/
  dotAll : Bool := false
  lazyByDefault : Bool := false
  unicode : Bool := true
  /-- a line may end with a carriage return too -/
  crlf : Bool := false
  /-- blanks and comments are skipped -/
  verbose : Bool := false
  deriving DecidableEq, Repr

structure State where
  rest : List Char
  options : Options
  /-- names of groups so far -/
  groups : List String
  /-- number of groups so far that hold what they match -/
  captures : Nat

/-- a parser, which refuses a pattern with `none` -/
abbrev Parser (α : Type) := StateT State Option α

/-- a form with the nesting of its written form -/
structure Node where
  form : Form
  depth : Nat

/-- greatest nesting of a written form -/
def nestLimit : Nat := 250

namespace Node

/-- a part that has no parts -/
def leaf (form : Form) : Node := ⟨form, 0⟩

def empty : Node := leaf .empty

def depthOfAll (ns : List Node) : Nat := ns.foldl (fun d n => max d n.depth) 0

/-- items one after the other -/
def concat : List Node → Node
  | [] => empty
  | [n] => n
  | ns => ⟨Form.sequence (ns.map form), depthOfAll ns + 1⟩

/-- alternatives -/
def alternation : List Node → Node
  | [] => empty
  | [n] => n
  | ns => ⟨Form.anyOf (ns.map form), depthOfAll ns + 1⟩

/-- a part in brackets; it has a number if what it matches can be asked for -/
def group (number : Option Nat) (n : Node) : Node :=
  match number with
  | some i => ⟨.group i n.form, n.depth + 1⟩
  | none => { n with depth := n.depth + 1 }

def repeated (least : Nat) (most : Option Nat) (lazy : Bool) (n : Node) : Node :=
  ⟨n.form.times least most lazy, n.depth + 1⟩

end Node

/-! characters of the written form -/

def peek : Parser (Option Char) := do return (← get).rest.head?

def refuse {α : Type} : Parser α := failure

/-- the next character, which has to exist -/
def next : Parser Char := do
  match ← peek with
  | some c => pure c
  | none => refuse

def bump : Parser Unit := modify fun s => { s with rest := s.rest.tail }

/-- pass over the given text if it comes next -/
def bumpIf (text : String) : Parser Bool := do
  let s ← get
  if text.toList.isPrefixOf s.rest then
    set { s with rest := s.rest.drop text.length }
    return true
  else return false

/-- what is left after blanks and comments -/
def skipVerbose (cs : List Char) : Bool → List Char
  | false =>
    match cs with
    | [] => []
    | c :: rest =>
      if Text.isBlank c then skipVerbose rest false
      else if c = '#' then skipVerbose rest true
      else c :: rest
  | true =>
    match cs with
    | [] => []
    | c :: rest => skipVerbose rest (c != '\n')

/-- pass over blanks and comments, if they are to be skipped -/
def bumpSpace : Parser Unit := modify fun s =>
  if s.options.verbose then { s with rest := skipVerbose s.rest false } else s

/-- pass over a character and what is skipped after it; the character then next -/
def bumpToNext : Parser Char := do
  bump
  bumpSpace
  next

/-- the character after the next one; blanks and one mark of a comment are passed over if they are to be skipped -/
def peekBeyond : Parser (Option Char) := do
  let s ← get
  let rest := s.rest.tail
  if !s.options.verbose then return rest.head?
  else match rest.dropWhile Text.isBlank with
    | '#' :: rest => return (rest.dropWhile Text.isBlank).head?
    | rest => return rest.head?

def options : Parser Options := do return (← get).options

/-! sets under the options -/

/-- Blind to case if the options say so, then complemented. Without Unicode only sets within ASCII can be used. -/
def foldAndNegate (negated : Bool) (set : CodeSet) : Parser CodeSet := do
  let o ← options
  if o.unicode then
    let folded := if o.ignoreCase then foldCase set else set
    return if negated then CodeSet.complement folded else folded
  else
    let folded := if o.ignoreCase then foldAscii set else set
    let result := if negated then CodeSet.inter (CodeSet.complement folded) [(0, 0xFF)] else folded
    if result.all (fun r => r.2 < 0x80) then return result else refuse

/-- a set, under the options -/
def setForm (set : CodeSet) : Parser Form := do return Form.ofSet set (!(← options).unicode)

/-- a character on its own -/
def charForm (c : Char) : Parser Form := do
  let o ← options
  if o.ignoreCase then setForm (if o.unicode then foldCase (CodeSet.single c) else foldAscii (CodeSet.single c))
  else return Form.ofChar c

/-! escapes -/

def isHexChar (c : Char) : Bool := (Decimal.hexDigit? c).isSome

/-- the character with the given code point, if there is one -/
def charOfCode? (digits : List Char) : Option Char :=
  let code := digits.foldl (fun n c => n * 16 + (Decimal.hexDigit? c).getD 0) 0
  if code < 0xD800 ∨ (0xDFFF < code ∧ code ≤ 0x10FFFF) then some (Char.ofNat code) else none

/-- hexadecimal digits up to a closing brace -/
def bracedHex (digits : List Char) : Nat → Parser (List Char)
  | 0 => refuse
  | fuel + 1 => do
    let c ← bumpToNext
    if c = '\x7d' then return digits.reverse
    else if isHexChar c then bracedHex (c :: digits) fuel
    else refuse

/-- a fixed number of hexadecimal digits, the first of which comes next -/
def fixedHex (digits : List Char) : Nat → Parser (List Char)
  | 0 => return digits.reverse
  | n + 1 => do
    let c ← next
    if isHexChar c then do
      bump
      bumpSpace
      fixedHex (c :: digits) n
    else refuse

/-- A character by its code point, from the letter of the escape on. Without Unicode two digits on their own are a byte,
which has to be ASCII. -/
def hexEscape : Parser Char := do
  let kind ← next
  let first ← bumpToNext
  if first = '\x7b' then
    let digits ← bracedHex [] ((← get).rest.length + 1)
    bump
    bumpSpace
    if digits.isEmpty then refuse
    else match charOfCode? digits with
      | some c => pure c
      | none => refuse
  else
    let digits ← fixedHex [] (if kind = 'x' then 2 else if kind = 'u' then 4 else 8)
    match charOfCode? digits with
    | some c => if kind == 'x' && !(← options).unicode && 0x7F < c.toNat then refuse else pure c
    | none => refuse

/-- characters up to a closing brace -/
def bracedName (name : List Char) : Nat → Parser (List Char)
  | 0 => refuse
  | fuel + 1 => do
    let c ← bumpToNext
    if c = '\x7d' then return name.reverse else bracedName (c :: name) fuel

/-- name and value parted by the given text -/
def splitAtText (mark : List Char) (before : List Char) : List Char → Option (List Char × List Char)
  | [] => none
  | c :: rest =>
    if mark.isPrefixOf (c :: rest) then some (before.reverse, (c :: rest).drop mark.length)
    else splitAtText mark (c :: before) rest

/-- the set that the text between the braces names, and whether its complement is meant -/
def propertySet? (name : List Char) : Option (Bool × CodeSet) :=
  match splitAtText ['!', '='] [] name with
  | some (n, v) => (valued? n v).map (true, ·)
  | none =>
    match (splitAtText [':'] [] name).or (splitAtText ['='] [] name) with
    | some (n, v) => (valued? n v).map (false, ·)
    | none => (named? name).map (false, ·)

/-- a named set, from the letter of the escape on; a capital letter stands for the complement -/
def propertyEscape : Parser CodeSet := do
  let kind ← next
  let first ← bumpToNext
  let found ← if first = '\x7b' then do
      let name ← bracedName [] ((← get).rest.length + 1)
      bump
      pure (propertySet? name)
    else if first = '\\' then refuse
    else do
      bump
      bumpSpace
      pure ((named? [first]).map (false, ·))
  if !(← options).unicode then refuse
  match found with
  | some (negated, set) => foldAndNegate ((kind == 'P') != negated) set
  | none => refuse

/-- what an escape or a plain character stands for -/
inductive Atom where
  | char (c : Char)
  | set (set : CodeSet)
  | look (look : Look)

/-- a short class of digits, blanks or word characters -/
def shortEscape (c : Char) : Parser CodeSet := do
  let o ← options
  let set := shortClass c.toLower (!o.unicode)
  if !c.isUpper then return set
  else if o.unicode then return CodeSet.complement set
  else refuse

def isSpecialWordChar (c : Char) : Bool := c.isAlpha || c == '-'

/-- letters up to a closing brace -/
def specialWord (name : List Char) : Nat → Parser (List Char)
  | 0 => refuse
  | fuel + 1 => do
    let c ← next
    if isSpecialWordChar c then do
      bump
      bumpSpace
      specialWord (c :: name) fuel
    else if c = '\x7d' then do
      bump
      return name.reverse
    else refuse

/-- a boundary of words, after its letter; a word in braces may say which kind -/
def boundaryEscape : Parser Look := do
  let ascii := !(← options).unicode
  let before ← get
  if before.rest.head? ≠ some '\x7b' then return .boundary ascii
  let c ← bumpToNext
  if !isSpecialWordChar c then
    set before
    return .boundary ascii
  let name ← specialWord [] (before.rest.length + 1)
  if name = "start".toList then return .wordStart ascii
  else if name = "end".toList then return .wordEnd ascii
  else if name = "start-half".toList then return .wordStartHalf ascii
  else if name = "end-half".toList then return .wordEndHalf ascii
  else refuse

/-- characters with a meaning of their own, and all others of ASCII that are neither letters nor digits nor angle
brackets, stand for themselves after a backslash -/
def isEscapable (c : Char) : Bool := c.toNat < 0x80 && !c.isAlphanum && c != '<' && c != '>'

/-- an escape, from the backslash on -/
def escape : Parser Atom := do
  bump
  let c ← next
  if c.isDigit then refuse
  else if c = 'x' ∨ c = 'u' ∨ c = 'U' then do
    return .char (← hexEscape)
  else if c = 'p' ∨ c = 'P' then return .set (← propertyEscape)
  else if c = 'd' ∨ c = 's' ∨ c = 'w' ∨ c = 'D' ∨ c = 'S' ∨ c = 'W' then do
    bump
    return .set (← shortEscape c)
  else
    bump
    let ascii := !(← options).unicode
    if isEscapable c then return .char c
    else if c = 'a' then return .char (Char.ofNat 0x07)
    else if c = 'f' then return .char (Char.ofNat 0x0C)
    else if c = 't' then return .char '\t'
    else if c = 'n' then return .char '\n'
    else if c = 'r' then return .char '\r'
    else if c = 'v' then return .char (Char.ofNat 0x0B)
    else if c = 'A' then return .look .textStart
    else if c = 'z' then return .look .textEnd
    else if c = 'b' then return .look (← boundaryEscape)
    else if c = 'B' then return .look (.noBoundary ascii)
    else if c = '<' then return .look (.wordStart ascii)
    else if c = '>' then return .look (.wordEnd ascii)
    else refuse

/-! bracketed classes -/

/-- operations between the sets of a class -/
inductive SetOp where
  | inter
  | diff
  | symmDiff

/-- the sets of a class read so far, with the nesting of their written forms -/
structure ClassDraft where
  set : CodeSet
  count : Nat
  depth : Nat
  /-- an operation that waits for its right side: its left side and the nesting of that -/
  pending : Option (SetOp × CodeSet × Nat)

namespace ClassDraft

def start : ClassDraft := ⟨[], 0, 0, none⟩

def push (d : ClassDraft) (set : CodeSet) (depth : Nat) : ClassDraft :=
  { d with set := d.set ++ set, count := d.count + 1, depth := max d.depth depth }

/-- nesting of the union of the items since the last operation -/
def unionDepth (d : ClassDraft) : Nat := if d.count ≤ 1 then d.depth else d.depth + 1

/-- both sides of an operation are made blind to case first -/
def combine (ignore unicode : Bool) (op : SetOp) (left right : CodeSet) : CodeSet :=
  let fold (s : CodeSet) : CodeSet := if ignore then (if unicode then foldCase s else foldAscii s) else s
  match op with
  | .inter => CodeSet.inter (fold left) (fold right)
  | .diff => CodeSet.diff (fold left) (fold right)
  | .symmDiff => CodeSet.symmDiff (fold left) (fold right)

/-- finish a waiting operation: the set and the nesting -/
def close (d : ClassDraft) (o : Options) : CodeSet × Nat :=
  match d.pending with
  | none => (d.set, d.unionDepth)
  | some (op, left, depth) =>
    (combine o.ignoreCase o.unicode op left d.set, max depth d.unionDepth + 1)

/-- begin an operation whose left side is all that has been read -/
def operate (d : ClassDraft) (o : Options) (op : SetOp) : ClassDraft :=
  let (set, depth) := d.close o
  { start with pending := some (op, set, depth) }

end ClassDraft

/-- the set of a named class in brackets and colons, if such a class comes next -/
def asciiClass? (cs : List Char) : Option (Bool × CodeSet × List Char) :=
  match cs with
  | '[' :: ':' :: rest =>
    let (negated, rest) := match rest with
      | '^' :: rest => (true, rest)
      | rest => (false, rest)
    let name := rest.takeWhile (· != ':')
    match rest.dropWhile (· != ':') with
    | ':' :: ']' :: rest =>
      (asciiClasses.find? fun entry => entry.1.toList == name).map fun entry => (negated, entry.2, rest)
    | _ => none
  | _ => none

/-- one item of a class: a character, which may begin a range, or a set -/
def classAtom : Parser Atom := do
  let c ← next
  if c = '\\' then escape
  else
    bump
    return .char c

/-- a character of a class; without Unicode only ASCII can be used -/
def classChar (c : Char) : Parser CodeSet := do
  let o ← options
  if o.unicode || c.toNat < 0x80 then return CodeSet.single c else refuse

def classItem : Parser CodeSet := do
  let first ← classAtom
  bumpSpace
  let c ← next
  let beyond ← peekBeyond
  if c ≠ '-' ∨ beyond = some ']' ∨ beyond = some '-' then
    match first with
    | .char c => classChar c
    | .set set => return set
    | .look _ => refuse
  else
    let _ ← bumpToNext
    let second ← classAtom
    match first, second with
    | .char a, .char b =>
      let _ ← classChar a
      let _ ← classChar b
      if a ≤ b then return [(a.toNat, b.toNat)] else refuse
    | _, _ => refuse

/-- hyphens right after the opening of a class stand for themselves -/
def leadingHyphens (d : ClassDraft) : Nat → Parser ClassDraft
  | 0 => refuse
  | fuel + 1 => do
    if (← next) = '-' then
      let _ ← bumpToNext
      leadingHyphens (d.push (CodeSet.single '-') 0) fuel
    else return d

/-- the opening of a class, from its bracket on: whether it is complemented, and what stands at its start -/
def classOpen : Parser (Bool × ClassDraft) := do
  let c ← bumpToNext
  let negated ← if c = '^' then do
      let _ ← bumpToNext
      pure true
    else pure false
  let draft ← leadingHyphens .start ((← get).rest.length + 1)
  if draft.count = 0 ∧ (← next) = ']' then
    let _ ← bumpToNext
    return (negated, draft.push (CodeSet.single ']') 0)
  else return (negated, draft)

/-- the rest of a class up to its closing bracket: the set and the nesting -/
def classBody (negated : Bool) (d : ClassDraft) : Nat → Parser (CodeSet × Nat)
  | 0 => refuse
  | fuel + 1 => do
    bumpSpace
    let s ← get
    let o := s.options
    match s.rest with
    | [] => refuse
    | '[' :: _ =>
      match asciiClass? s.rest with
      | some (negatedClass, set, rest) => do
        modify fun s => { s with rest }
        let set ← foldAndNegate negatedClass set
        classBody negated (d.push set 0) fuel
      | none => do
        let (negatedInner, inner) ← classOpen
        let (set, depth) ← classBody negatedInner inner fuel
        classBody negated (d.push set (depth + 1)) fuel
    | ']' :: _ => do
      bump
      let (set, depth) := d.close o
      return (← foldAndNegate negated set, depth)
    | '&' :: '&' :: rest => do
      modify fun s => { s with rest }
      classBody negated (d.operate o .inter) fuel
    | '-' :: '-' :: rest => do
      modify fun s => { s with rest }
      classBody negated (d.operate o .diff) fuel
    | '~' :: '~' :: rest => do
      modify fun s => { s with rest }
      classBody negated (d.operate o .symmDiff) fuel
    | _ => do
      let set ← classItem
      classBody negated (d.push set 0) fuel

/-- a class, from its bracket on -/
def bracketClass : Parser Node := do
  let (negated, draft) ← classOpen
  let (set, depth) ← classBody negated draft ((← get).rest.length + 1)
  return ⟨← setForm set, depth + 1⟩

/-! groups -/

/-- options as they are switched: letters before and after the minus sign -/
structure Switches where
  on : List Char
  off : List Char
  minus : Bool

def optionLetters : List Char := ['i', 'm', 's', 'U', 'u', 'R', 'x']

/-- letters of options up to a colon or a closing bracket, which stays -/
def switches (s : Switches) (afterMinus : Bool) : Nat → Parser Switches
  | 0 => refuse
  | fuel + 1 => do
    let c ← next
    if c = ':' ∨ c = ')' then
      if afterMinus then refuse else return s
    else if c = '-' then
      if s.minus then refuse
      else
        bump
        switches { s with minus := true } true fuel
    else if optionLetters.contains c && !s.on.contains c && !s.off.contains c then
      bump
      switches (if s.minus then { s with off := c :: s.off } else { s with on := c :: s.on }) false fuel
    else refuse

def Switches.apply (s : Switches) (o : Options) : Options :=
  let pick (c : Char) (old : Bool) : Bool := if s.on.contains c then true else if s.off.contains c then false else old
  { ignoreCase := pick 'i' o.ignoreCase
    lines := pick 'm' o.lines
    dotAll := pick 's' o.dotAll
    lazyByDefault := pick 'U' o.lazyByDefault
    unicode := pick 'u' o.unicode
    crlf := pick 'R' o.crlf
    verbose := pick 'x' o.verbose }

def setOptions (o : Options) : Parser Unit := modify fun s => { s with options := o }

/-- a character of the name of a group -/
def isNameChar (first : Bool) (c : Char) : Bool :=
  if first then c == '_' || Text.Recent.alphabetic.mem c.toNat
  else c == '_' || c == '.' || c == '[' || c == ']' || Text.Recent.alphabetic.mem c.toNat ||
    Text.Recent.number.mem c.toNat

/-- the name of a group up to its angle bracket; no name is used twice -/
def groupName : Parser Unit := do
  let s ← get
  let name := s.rest.takeWhile (· != '>')
  match s.rest.dropWhile (· != '>') with
  | _ :: rest =>
    let text := String.ofList name
    let wellFormed := match name with
      | [] => false
      | c :: more => isNameChar true c && more.all (isNameChar false)
    if wellFormed && !s.groups.contains text then set { s with rest, groups := text :: s.groups }
    else refuse
  | [] => refuse

/-- what an opening bracket begins -/
inductive Opening where
  /-- a group, with the options inside it -/
  | group (inside : Options) (captures : Bool)
  /-- options for the rest of the enclosing group -/
  | options (o : Options)

/-- from the opening bracket to the start of the group -/
def opening : Parser Opening := do
  bump
  bumpSpace
  let o ← options
  let rest := (← get).rest
  if ["?=", "?!", "?<=", "?<!"].any (fun mark => mark.toList.isPrefixOf rest) then refuse
  if (← bumpIf "?P<") || (← bumpIf "?<") then
    groupName
    return .group o true
  else if ← bumpIf "?" then
    let s ← switches ⟨[], [], false⟩ false (rest.length + 1)
    let stop ← next
    bump
    if stop = ')' then
      if s.on.isEmpty && s.off.isEmpty then refuse else return .options (s.apply o)
    else return .group (s.apply o) false
  else return .group o true

/-! repetition -/

/-- a decimal number, blanks around it aside -/
def decimal : Parser (Option Nat) := do
  modify fun s => { s with rest := s.rest.dropWhile Text.isBlank }
  let digits ← gather [] ((← get).rest.length + 1)
  modify fun s => { s with rest := s.rest.dropWhile Text.isBlank }
  if digits.isEmpty then return none
  else
    let n := Decimal.ofDigits digits
    if n < UInt32.size then return some n else refuse
where
  gather (digits : List Char) : Nat → Parser (List Char)
    | 0 => refuse
    | fuel + 1 => do
      match ← peek with
      | some c =>
        if Decimal.isDigit c then
          bump
          bumpSpace
          gather (c :: digits) fuel
        else return digits.reverse
      | none => return digits.reverse

/-- the bounds of a counted repetition, from its brace on -/
def bounds : Parser (Nat × Option Nat) := do
  let _ ← bumpToNext
  let least ← decimal
  let c ← next
  let (least, most) ←
    if c = ',' then do
      let c ← bumpToNext
      match least with
      | none => refuse
      | some n =>
        if c = '\x7d' then pure (n, none)
        else
          match ← decimal with
          | some m => pure (n, some m)
          | none => refuse
    else
      match least with
      | some n => pure (n, some n)
      | none => refuse
  if (← next) ≠ '\x7d' then refuse
  bump
  bumpSpace
  match most with
  | some m => if least ≤ m then return (least, most) else refuse
  | none => return (least, most)

/-- whether short matches come first: a question mark right after a repetition turns the order round -/
def lazyMark : Parser Bool := do
  let marked ← bumpIf "?"
  return marked != (← options).lazyByDefault

/-! whole patterns -/

/-- an item of a pattern; a change of options is one too, but cannot be repeated -/
structure Item where
  node : Node
  repeatable : Bool

/-- the last item repeated, by what the given parser reads -/
def repeatLast (items : List Item) (count : Parser (Nat × Option Nat)) : Parser (List Item) :=
  match items with
  | last :: before =>
    if last.repeatable then do
      let (least, most) ← count
      return ⟨last.node.repeated least most (← lazyMark), true⟩ :: before
    else refuse
  | [] => refuse

/-- the bounds that one character gives -/
def shortBounds (least : Nat) (most : Option Nat) : Parser (Nat × Option Nat) := do
  bump
  return (least, most)

/-- the items of an alternative, last one first, as one node -/
def closeItems (items : List Item) : Node := Node.concat (items.reverse.map Item.node)

def dotForm : Parser Form := do
  let o ← options
  if !o.unicode then refuse
  else if o.dotAll then setForm CodeSet.everything
  else if o.crlf then setForm (CodeSet.complement [(0x0A, 0x0A), (0x0D, 0x0D)])
  else setForm (CodeSet.complement [(0x0A, 0x0A)])

def startLook (o : Options) : Look :=
  if o.lines then (if o.crlf then .lineStartCrlf else .lineStart) else .textStart

def endLook (o : Options) : Look :=
  if o.lines then (if o.crlf then .lineEndCrlf else .lineEnd) else .textEnd

/-- an item that is neither a group nor a class -/
def primitive : Parser Form := do
  let o ← options
  let c ← next
  if c = '\\' then
    match ← escape with
    | .char c => charForm c
    | .set set => setForm set
    | .look look => return .look look
  else
    bump
    if c = '.' then dotForm
    else if c = '^' then return .look (startLook o)
    else if c = '$' then return .look (endLook o)
    else charForm c

/-- The alternatives up to the end of the group or of the pattern. The ones before are complete, and of the present one
the items are read, both last one first. -/
def alternatives (before : List Node) (items : List Item) : Nat → Parser Node
  | 0 => refuse
  | fuel + 1 => do
    bumpSpace
    match ← peek with
    | none => return Node.alternation (closeItems items :: before).reverse
    | some ')' => return Node.alternation (closeItems items :: before).reverse
    | some '|' => do
      bump
      alternatives (closeItems items :: before) [] fuel
    | some '(' => do
      let outside ← options
      match ← opening with
      | .options o => do
        setOptions o
        alternatives before (⟨Node.empty, false⟩ :: items) fuel
      | .group inside captures => do
        let number ← if captures then do
            modify fun s => { s with captures := s.captures + 1 }
            pure (some (← get).captures)
          else pure none
        setOptions inside
        let body ← alternatives [] [] fuel
        if (← next) ≠ ')' then refuse
        bump
        setOptions outside
        alternatives before (⟨body.group number, true⟩ :: items) fuel
    | some '[' => do
      let node ← bracketClass
      alternatives before (⟨node, true⟩ :: items) fuel
    | some '?' => do alternatives before (← repeatLast items (shortBounds 0 (some 1))) fuel
    | some '*' => do alternatives before (← repeatLast items (shortBounds 0 none)) fuel
    | some '+' => do alternatives before (← repeatLast items (shortBounds 1 none)) fuel
    | some '\x7b' => do alternatives before (← repeatLast items bounds) fuel
    | some _ => do
      let form ← primitive
      alternatives before (⟨Node.leaf form, true⟩ :: items) fuel

/-- the expression that a pattern stands for; `none` if the pattern is refused -/
def parse? (pattern : String) (ignoreCase : Bool) : Option (Expr CodeSet Look) := do
  let start : State := ⟨pattern.toList, { ignoreCase }, [], 0⟩
  let (node, after) ← (alternatives [] [] (pattern.length + 1)).run start
  if after.rest.isEmpty && node.depth ≤ nestLimit && node.form.hasRoom then some node.form.expr else none

end PixelAudit.Pattern
