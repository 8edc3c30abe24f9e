/-
Decoders: how a value of a domain type is read from JSON text, from a JSON value, and from a YAML document.

Reading from text stops at the first fault in the order of the text; reading from a value looks at the members of an
object in the order of their names; reading from YAML only says whether it succeeds. A record takes an object with named
fields and, in JSON, an array of its fields in their order. In a text the fault of a value that is complete but of the
wrong form is placed after it or, where an enclosing value has to notice it, where that value has been closed as far as
it goes.

A YAML scalar is understood by what is wanted: where a text is wanted, `2.0` is one. A missing value counts as an empty
collection.
-/
import PixelAudit.Json.Reader
import PixelAudit.Yaml.Node

namespace PixelAudit

open Decimal (Binary64)
open Json
open Json.Reader

structure Decoder (α : Type) where
  /-- read from text, with room for so many nested arrays and objects -/
  ofText : Nat → Reader α
  ofValue : Json → Except Misfit α
  ofYaml : Yaml → Option α

namespace Decoder

variable {α β : Type}

/-- decode a whole text -/
def parse (d : Decoder α) (text : String) : Except TextError α := (d.ofText maxDepth).run text

/-- a value of another kind than the wanted one -/
def wrongKind (wanted : String) (v : Json) : Except Misfit α := .error (.wrongKind (kindText v) wanted)

/-- a value of another kind than the wanted one that starts with the given character; an array or object is not read -/
def refuse (wanted : String) (c : Char) : Reader α := do
  if c = '[' then misfit (.wrongKind "sequence" wanted)
  else if c = '\x7b' then misfit (.wrongKind "map" wanted)
  else
    let v ← scalar c
    misfit (.wrongKind (kindText v) wanted)

/-- look at the first character of a value -/
def withStart (next : Char → Reader α) : Reader α := do
  match ← peekToken with
  | none => failAhead .endInValue
  | some c => next c

/-- any value -/
def any : Decoder Json where
  ofText := Json.value
  ofValue := .ok
  ofYaml := Yaml.toJson?

def string : Decoder String where
  ofText _ := atPlace <| withStart fun c =>
    if c = '"' then do
      bump
      stringBody
    else refuse "a string" c
  ofValue
    | .string s => .ok s
    | v => wrongKind "a string" v
  ofYaml
    | .scalar s => some s.text
    | _ => none

def bool : Decoder Bool where
  ofText _ := atPlace <| withStart fun c =>
    if c = 't' ∨ c = 'f' then do
      match ← scalar c with
      | .bool b => pure b
      | v => misfit (.wrongKind (kindText v) "a boolean")
    else refuse "a boolean" c
  ofValue
    | .bool b => .ok b
    | v => wrongKind "a boolean" v
  ofYaml
    | .scalar s => if s.mayBe .bool then Yaml.boolText? s.text else none
    | _ => none

/-- a number that the given function takes; in YAML it has a tag, and the other function understands its text -/
def numeric (wanted : String) (take : Json → Except Misfit α) (tag : Yaml.Tag) (spelled : String → Option Json) :
    Decoder α where
  ofText _ := atPlace <| withStart fun c =>
    if c = '-' ∨ Decimal.isDigit c then do
      let v ← scalar c
      match take v with
      | .ok a => pure a
      | .error cause => misfit cause
    else refuse wanted c
  ofValue
    | .integer n => take (.integer n)
    | .real x => take (.real x)
    | v => wrongKind wanted v
  ofYaml
    | .scalar s => if s.mayBe tag then (spelled s.text).bind fun v => (take v).toOption else none
    | _ => none

/-- the binary number nearest to a whole one -/
def ofInteger (n : Int) : Binary64 := Binary64.ofRatio (n < 0) n.natAbs 1

/-- a number as a binary one -/
def binary64 : Decoder Binary64 :=
  numeric "f64"
    (fun
      | .real x => .ok x
      | .integer n => .ok (ofInteger n)
      | v => wrongKind "f64" v)
    .float (fun text => (Yaml.real? text).map .real)

/-- a whole number from zero up to below the limit -/
def natural (wanted : String) (limit : Nat) : Decoder Nat :=
  numeric wanted
    (fun
      | .integer n =>
        if 0 ≤ n ∧ n < limit then .ok n.toNat else .error (.wrongValue (kindText (.integer n)) wanted)
      | v => wrongKind wanted v)
    .int (fun text => (Yaml.integer? text).map .integer)

def natural32 : Decoder Nat := natural "u32" UInt32.size

def natural64 : Decoder Nat := natural "u64" UInt64.size

/-- the value of a null, or a present one -/
def optional (d : Decoder α) : Decoder (Option α) where
  ofText room := withStart fun c =>
    if c = 'n' then do
      let _ ← scalar c
      pure none
    else return some (← d.ofText room)
  ofValue
    | .null => .ok none
    | v => (d.ofValue v).map some
  ofYaml
    | .absent => some none
    | .scalar s => do if ← s.isNull? then return none else return some (← d.ofYaml (.scalar s))
    | y => (d.ofYaml y).map some

def map (f : α → β) (d : Decoder α) : Decoder β where
  ofText room := f <$> d.ofText room
  ofValue v := (d.ofValue v).map f
  ofYaml y := (d.ofYaml y).map f

/-- decode further, with a fault that has no place of its own -/
def refine (f : α → Except Misfit β) (d : Decoder α) : Decoder β where
  ofText room := do
    match f (← d.ofText room) with
    | .ok b => pure b
    | .error cause => misfit cause
  ofValue v := d.ofValue v >>= f
  ofYaml y := (d.ofYaml y).bind fun a => (f a).toOption

/-- an array or object, for which there must be room -/
def nested (room : Nat) (body : Nat → Reader α) : Reader α :=
  match room with
  | 0 => failAhead .tooDeep
  | room + 1 => body room

def list (d : Decoder α) : Decoder (List α) where
  ofText room := atPlace <| withStart fun c =>
    if c = '[' then nested room fun room => bracketed (d.ofText room) else refuse "a sequence" c
  ofValue
    | .array vs => vs.mapM d.ofValue
    | v => wrongKind "a sequence" v
  ofYaml y :=
    match y with
    | .sequence _ items => items.mapM d.ofYaml
    | y => if y.isMissing then some [] else none

/-- a set of names, as an array -/
def names : Decoder NameSet := map NameSet.ofList (list string)

/-- an object with any names; of two members with one name the later stays -/
def table (d : Decoder α) : Decoder (Dict α) where
  ofText room := atPlace <| withStart fun c =>
    if c = '\x7b' then nested room fun room => return Dict.ofList (← braced (d.ofText room)) else refuse "a map" c
  ofValue
    | .object ms => do
      let es ← ms.mapM fun m => return (m.1, ← d.ofValue m.2)
      return Dict.ofList es
    | v => wrongKind "a map" v
  ofYaml y :=
    match y with
    | .mapping _ entries => do
      let es ← entries.mapM fun e => return (← Yaml.keyText? e.1, ← d.ofYaml e.2)
      return Dict.ofList es
    | y => if y.isMissing then some ∅ else none

/-- one of several words -/
def variantNamed (choices : List (String × α)) (name : String) : Except Misfit α :=
  match choices.find? (fun choice => choice.1 == name) with
  | some choice => .ok choice.2
  | none => .error (.unknownVariant name (choices.map Prod.fst))

/-- one of several words; an object may hold the word as its one name, with a null -/
def choice (choices : List (String × α)) : Decoder α where
  ofText room := withStart fun c =>
    if c = '"' then named
    else if c = '\x7b' then
      nested room fun _ => do
        bump
        let a ← match ← peekToken with
          | none => failAhead .endInObject
          | some '"' => named
          | some '\x7d' => failAhead .valueExpected
          | some _ => failAhead .keyNotString
        colon
        atPlace <| withStart fun c =>
          if c = 'n' then do
            let _ ← scalar c
          else refuse "unit" c
        match ← peekToken with
        | none => failHere .endInObject
        | some c =>
          if c = '\x7d' then do
            bump
            pure a
          else failHere .valueExpected
    else failAhead .valueExpected
  ofValue
    | .string s => variantNamed choices s
    | .object [(name, v)] => do
      let a ← variantNamed choices name
      match v with
      | .null => .ok a
      | v => wrongKind "unit" v
    | .object _ => .error (.wrongValue "map" "map with a single key")
    | v => wrongKind "string or map" v
  ofYaml
    | .scalar s => s.word?.bind fun word => (variantNamed choices word).toOption
    | _ => none
where
  named : Reader α := atPlace do
    bump
    match variantNamed choices (← stringBody) with
    | .ok a => pure a
    | .error cause => misfit cause

end Decoder

/-! records -/

/-- a field of a record under construction -/
structure Field (σ : Type) where
  name : String
  aliases : List String := []
  /-- the field has to be given -/
  required : Bool := false
  /-- how the field's value changes the record -/
  decoder : Decoder (σ → σ)

namespace Field

/-- a field whose value is stored by the given function -/
def of {σ τ : Type} (name : String) (decoder : Decoder τ) (put : τ → σ → σ) : Field σ :=
  { name, decoder := decoder.map put }

/-- the field has to be given -/
def needed {σ : Type} (f : Field σ) : Field σ := { f with required := true }

/-- the field has a second name -/
def orNamed {σ : Type} (f : Field σ) (name : String) : Field σ := { f with aliases := f.aliases ++ [name] }

def answersTo {σ : Type} (f : Field σ) (name : String) : Bool := f.name == name || f.aliases.contains name

end Field

/-- how a record is decoded -/
structure Form (σ : Type) where
  title : String
  /-- the record before any field is read -/
  blank : σ
  fields : List (Field σ)
  /-- other fields are refused -/
  closed : Bool

namespace Form

variable {σ : Type}

/-- a record under construction and the fields read so far -/
structure Draft (σ : Type) where
  record : σ
  seen : List String

def wanted (form : Form σ) : String := s!"struct {form.title}"

/-- all names of all fields -/
def allNames (form : Form σ) : List String := form.fields.flatMap fun f => f.name :: f.aliases

/-- the field that a name stands for; `none` is a name to be passed over -/
def field? (form : Form σ) (draft : Draft σ) (name : String) : Except Misfit (Option (Field σ)) :=
  match form.fields.find? (fun f => f.answersTo name) with
  | some f => if draft.seen.contains f.name then .error (.repeatedField f.name) else .ok (some f)
  | none => if form.closed then .error (.unknownField name form.allNames) else .ok none

/-- the record, if no required field is missing -/
def finish (form : Form σ) (draft : Draft σ) : Except Misfit σ :=
  match form.fields.find? (fun f => f.required && !draft.seen.contains f.name) with
  | some f => .error (.missingField f.name)
  | none => .ok draft.record

def Draft.put (draft : Draft σ) (f : Field σ) (change : σ → σ) : Draft σ :=
  ⟨change draft.record, draft.seen ++ [f.name]⟩

/-- the message for an array with too few items -/
def lengthText (form : Form σ) : String :=
  let n := form.fields.length
  form.wanted ++ s!" with {n} element" ++ (if n = 1 then "" else "s")

def lift {α : Type} : Except Misfit α → Reader α
  | .ok a => pure a
  | .error cause => misfit cause

/-- read the members of an object into a draft -/
def readMembers (form : Form σ) (room : Nat) (draft : Draft σ) (first : Bool) : Nat → Reader (Draft σ)
  | 0 => failHere .endInObject
  | fuel + 1 => do
    if ← moreMembers first then
      let key ← memberKey
      match ← lift (form.field? draft key) with
      | some f =>
        colon
        let change ← f.decoder.ofText room
        form.readMembers room (draft.put f change) false fuel
      | none =>
        colon
        skipValue
        form.readMembers room draft false fuel
    else return draft

/-- read the items of an array into the fields in their order; `count` items have been read -/
def readItems (form : Form σ) (room : Nat) (record : σ) (count : Nat) : List (Field σ) → Reader σ
  | [] => pure record
  | f :: rest => do
    if ← moreItems (count == 0) then
      let change ← f.decoder.ofText room
      form.readItems room (change record) (count + 1) rest
    else
      match (f :: rest).findIdx? (fun f => f.required) with
      | some i => misfit (.wrongLength (count + i) form.lengthText)
      | none => pure record

def takeMembers (form : Form σ) (draft : Draft σ) : List (String × Json) → Except Misfit (Draft σ)
  | [] => .ok draft
  | (name, v) :: rest => do
    match ← form.field? draft name with
    | some f => do
      let change ← f.decoder.ofValue v
      form.takeMembers (draft.put f change) rest
    | none => form.takeMembers draft rest

def takeItems (form : Form σ) (record : σ) (count : Nat) : List (Field σ) → List Json → Except Misfit σ
  | [], _ => .ok record
  | f :: rest, v :: vs => do
    let change ← f.decoder.ofValue v
    form.takeItems (change record) (count + 1) rest vs
  | f :: rest, [] =>
    match (f :: rest).findIdx? (fun f => f.required) with
    | some i => .error (.wrongLength (count + i) form.lengthText)
    | none => .ok record

/-- read the entries of a YAML mapping into a draft -/
def takeEntries (form : Form σ) (draft : Draft σ) : List (Yaml × Yaml) → Option (Draft σ)
  | [] => some draft
  | (key, y) :: rest => do
    let name ← Yaml.keyText? key
    match ← (form.field? draft name).toOption with
    | some f => do
      let change ← f.decoder.ofYaml y
      form.takeEntries (draft.put f change) rest
    | none => form.takeEntries draft rest

def decoder (form : Form σ) : Decoder σ where
  ofText room := atPlace <| Decoder.withStart fun c =>
    if c = '\x7b' then
      Decoder.nested room fun room => do
        bump
        thenClose
          (do
            let draft ← form.readMembers room ⟨form.blank, []⟩ true ((← get).length + 1)
            lift (form.finish draft))
          closeObject
    else if c = '[' then
      Decoder.nested room fun room => do
        bump
        thenClose (form.readItems room form.blank 0 form.fields) closeArray
    else Decoder.refuse form.wanted c
  ofValue
    | .object ms => do
      let draft ← form.takeMembers ⟨form.blank, []⟩ ms
      form.finish draft
    | .array vs => do
      let record ← form.takeItems form.blank 0 form.fields vs
      if vs.length ≤ form.fields.length then return record
      else .error (.wrongLength vs.length "fewer elements in array")
    | v => Decoder.wrongKind form.wanted v
  ofYaml y :=
    match y with
    | .mapping _ entries => (form.takeEntries ⟨form.blank, []⟩ entries).bind fun draft => (form.finish draft).toOption
    | y => if y.isMissing then (form.finish ⟨form.blank, []⟩).toOption else none

end Form

end PixelAudit
