/-
The members of the object that a document holds, as they are written.

A value keeps its members in order and each name once. In a text a name may be written many times, and what becomes of
the others is lost with the text: the last member of a name stands. Here the members are read as they are written, by
the reader that reads the value too, so that the one can be compared with the other.

Main results: `Entries.find?_ofList` (the last of a name stands), `Json.parse_eq_object_iff` and
`Yaml.toJson?_eq_object_iff` (objects, and the members that are written), `FileTree.readDocument_eq_object_iff` (the
same of a file).
-/
import PixelAudit.Files.Document
import PixelAudit.Proofs.Document.Readback
import Mathlib.Tactic

namespace PixelAudit

/-- of pairs with one name the last stands -/
theorem Entries.find?_ofList {α : Type} (name : String) (es : List (String × α)) :
    Entries.find? name (Entries.ofList es) = Entries.find? name es.reverse := by
  induction es using List.reverseRecOn with
  | nil => rfl
  | append_singleton es e ih =>
    rw [Entries.ofList, List.foldl_concat, ← Entries.ofList, Entries.find?_insert, List.reverse_concat, Entries.find?,
      ih]

namespace Json

open Reader

variable {α β : Type}

/-! ## JSON -/

/-- whatever the reader returns has the property -/
def Reader.Returns (reader : Reader α) (P : α → Prop) : Prop := ∀ cs a rest, reader cs = .ok a rest → P a

namespace Reader.Returns

variable {P : α → Prop}

theorem pure {a : α} (h : P a) : Returns (pure a) P := by
  intro cs b rest hread
  cases hread
  exact h

theorem failHere (fault : Fault) : Returns (failHere fault) P := by
  intro cs a rest hread
  cases hread

theorem failAhead (fault : Fault) : Returns (failAhead fault) P := by
  intro cs a rest hread
  cases hread

theorem bind {x : Reader β} {f : β → Reader α} (h : ∀ b, Returns (f b) P) : Returns (x >>= f) P := by
  intro cs a rest hread
  obtain ⟨b, mid, -, hrest⟩ := bind_eq_ok hread
  exact h b mid a rest hrest

end Reader.Returns

/-- a value that is no object -/
def IsNoObject (v : Json) : Prop := ∀ es, v ≠ .object es

section scalars

open Reader.Returns

variable (negative : Bool) (significand : Nat)

theorem realNumber_noObject (exponent : Int) : (realNumber negative significand exponent).Returns IsNoObject := by
  unfold realNumber
  split
  · exact pure fun es heq => nomatch heq
  · exact failHere _

theorem exponentValue_noObject (start : Int) (down : Bool) :
    (exponentValue negative significand start down).Returns IsNoObject := by
  refine bind fun next => ?_
  split
  · exact failHere _
  · split
    · refine bind fun cs => bind fun digits => ?_
      split
      · exact realNumber_noObject negative significand _
      · split
        · exact failHere _
        · exact bind fun _ => pure fun es heq => nomatch heq
    · exact failAhead _

theorem exponentPart_noObject (start : Int) : (exponentPart negative significand start).Returns IsNoObject := by
  refine bind fun _ => bind fun sign => ?_
  split
  · exact bind fun _ => bind fun down => exponentValue_noObject negative significand start down
  · exact bind fun _ => bind fun down => exponentValue_noObject negative significand start down
  · exact bind fun down => exponentValue_noObject negative significand start down

theorem exponentOrEnd_noObject (exponent : Int) :
    (exponentOrEnd negative significand exponent).Returns IsNoObject := by
  refine bind fun next => ?_
  split
  · exact exponentPart_noObject negative significand exponent
  · exact exponentPart_noObject negative significand exponent
  · exact realNumber_noObject negative significand exponent

theorem fractionPart_noObject (exponent : Int) :
    (fractionPart negative significand exponent).Returns IsNoObject := by
  refine bind fun _ => bind fun ds => ?_
  split_ifs
  · refine bind fun next => ?_
    split
    · exact failHere _
    · exact failAhead _
  · exact exponentOrEnd_noObject negative _ _

theorem number_after_noObject (dropped : Nat) : (number.after negative significand dropped).Returns IsNoObject := by
  refine bind fun next => ?_
  split
  · exact fractionPart_noObject negative significand dropped
  · exact exponentPart_noObject negative significand dropped
  · exact exponentPart_noObject negative significand dropped
  · split_ifs
    · exact realNumber_noObject negative significand dropped
    all_goals exact pure fun es heq => nomatch heq

theorem number_noObject : (number negative).Returns IsNoObject := by
  refine bind fun next => ?_
  split
  · exact failHere _
  · refine bind fun _ => bind fun next => ?_
    split
    · split_ifs
      · exact failAhead _
      · exact number_after_noObject negative 0 0
    · exact number_after_noObject negative 0 0
  · split_ifs
    · exact bind fun ds => number_after_noObject negative _ _
    · exact failAhead _

/-- a scalar is no object -/
theorem scalar_noObject (c : Char) : (scalar c).Returns IsNoObject := by
  unfold scalar
  split_ifs
  · exact bind fun _ => bind fun _ => pure fun es heq => nomatch heq
  · exact bind fun _ => bind fun _ => pure fun es heq => nomatch heq
  · exact bind fun _ => bind fun _ => pure fun es heq => nomatch heq
  · exact bind fun _ => number_noObject true
  · exact number_noObject false
  · exact bind fun _ => bind fun _ => pure fun es heq => nomatch heq
  · exact failAhead _

end scalars

/-- the members of an object, as they are written; their values may be nested so deeply -/
def writtenMembers (depth : Nat) : Reader (List (String × Json)) := do
  match ← peekToken with
  | some c => if c = '\x7b' then braced (value depth) else failAhead .valueExpected
  | none => failAhead .endInValue

/-- the members of the object that a text spells, as they are written -/
def written (text : String) : Except TextError (List (String × Json)) := (writtenMembers (maxDepth - 1)).run text

/-- a value is an object exactly if its members can be read, and then the last of each name stands -/
theorem value_eq_object_iff {depth : Nat} {cs rest : List Char} {es : List (String × Json)} :
    value (depth + 1) cs = .ok (.object es) rest ↔
      ∃ ms, writtenMembers depth cs = .ok ms rest ∧ es = Entries.ofList ms := by
  have hpeek : peekToken cs = .ok (cs.dropWhile isSpace).head? (cs.dropWhile isSpace) := rfl
  rw [value, writtenMembers, bind_ok hpeek, bind_ok hpeek]
  generalize cs.dropWhile isSpace = cs
  cases cs.head? with
  | none => exact iff_of_false (fun h => nomatch h) fun ⟨_, h, _⟩ => nomatch h
  | some c =>
    dsimp only
    by_cases hobject : c = '\x7b'
    · subst hobject
      rw [if_neg (by decide), if_pos rfl, if_pos rfl]
      constructor
      · intro h
        obtain ⟨ms, mid, hms, hreturn⟩ := bind_eq_ok h
        cases hreturn
        exact ⟨ms, hms, rfl⟩
      · rintro ⟨ms, hms, rfl⟩
        exact bind_ok hms
    · rw [if_neg hobject, if_neg hobject]
      refine iff_of_false (fun h => ?_) fun ⟨_, h, _⟩ => nomatch h
      split_ifs at h
      · obtain ⟨items, mid, -, hreturn⟩ := bind_eq_ok h
        cases hreturn
      · exact scalar_noObject c cs _ rest h es rfl

theorem run_eq_ok_iff {reader : Reader α} {text : String} {a : α} :
    reader.run text = .ok a ↔ ∃ mid rest, reader text.toList = .ok a mid ∧ endOfText mid = .ok () rest := by
  unfold Reader.run
  constructor
  · intro h
    dsimp only at h
    split at h
    · rename_i b last hwhole
      cases h
      obtain ⟨b, mid, hread, hafter⟩ := bind_eq_ok hwhole
      obtain ⟨_, rest, hend, hreturn⟩ := bind_eq_ok hafter
      cases hreturn
      exact ⟨mid, last, hread, hend⟩
    · cases h
    · cases h
  · rintro ⟨mid, rest, hread, hend⟩
    have hwhole : (do let a ← reader; endOfText; return a : Reader α) text.toList = .ok a rest := by
      rw [bind_ok hread, bind_ok hend]
      rfl
    simp only [hwhole]

/-- a text spells an object exactly if it has members as they are written, and then the last of each name stands -/
theorem parse_eq_object_iff {text : String} {es : List (String × Json)} :
    parse text = .ok (.object es) ↔ ∃ ms, written text = .ok ms ∧ es = Entries.ofList ms := by
  have hdepth : maxDepth = maxDepth - 1 + 1 := rfl
  simp only [parse, written, run_eq_ok_iff]
  rw [hdepth]
  simp only [value_eq_object_iff, Nat.add_sub_cancel]
  constructor
  · rintro ⟨mid, rest, ⟨ms, hms, hes⟩, hend⟩
    exact ⟨ms, ⟨mid, rest, hms, hend⟩, hes⟩
  · rintro ⟨ms, ⟨mid, rest, hms, hend⟩, hes⟩
    exact ⟨mid, rest, ⟨ms, hms, hes⟩, hend⟩

end Json

namespace Yaml

/-! ## YAML -/

/-- the members of a mapping, as they are written -/
def written? : Yaml → Option (List (String × Json))
  | .mapping tag entries => if isOwn tag then none else entriesJson? entries
  | _ => none

section scalars

variable {text : String} {es : List (String × Json)}

theorem integerJson?_ne_object (n : Int) : integerJson? n ≠ some (.object es) := by
  unfold integerJson?
  split_ifs <;> exact fun h => nomatch h

theorem realJson_ne_object (x : Decimal.Binary64) : realJson x ≠ .object es := by
  unfold realJson
  split_ifs <;> exact fun h => nomatch h

theorem plainJson?_ne_object : plainJson? text ≠ some (.object es) := by
  unfold plainJson?
  intro h
  split at h
  · cases h
  · split at h
    · cases h
    · split at h
      · exact integerJson?_ne_object _ h
      · split at h
        · exact realJson_ne_object _ (Option.some.inj h)
        · cases h

/-- a scalar is no object -/
theorem Scalar.toJson?_ne_object (s : Scalar) : s.toJson? ≠ some (.object es) := by
  unfold Scalar.toJson?
  intro h
  split at h
  · cases h
  · split at h <;> cases h
  · obtain ⟨b, -, hb⟩ := Option.map_eq_some_iff.1 h
    cases hb
  · obtain ⟨n, -, hn⟩ := Option.bind_eq_some_iff.1 h
    exact integerJson?_ne_object n hn
  · obtain ⟨x, -, hx⟩ := Option.map_eq_some_iff.1 h
    exact realJson_ne_object x hx
  · cases h
  · split at h
    · exact plainJson?_ne_object h
    · cases h

end scalars

/-- a document is an object exactly if it has members as they are written, and then the last of each name stands -/
theorem toJson?_eq_object_iff {y : Yaml} {es : List (String × Json)} :
    y.toJson? = some (.object es) ↔ ∃ ms, y.written? = some ms ∧ es = Entries.ofList ms := by
  cases y with
  | absent => simp [toJson?, written?]
  | unreadable => simp [toJson?, written?]
  | scalar s => simp [toJson?, written?, s.toJson?_ne_object]
  | sequence tag items => simp [toJson?, written?]
  | mapping tag entries =>
    rw [toJson?, written?]
    split_ifs with htag
    · simp
    · simp [eq_comm]

end Yaml

namespace FileTree

/-! ## Files -/

/-- the members of the object in a file, as they are written -/
def written? (tree : FileTree) (path : FilePath) : Option (List (String × Json)) :=
  (tree.read path).toOption.bind fun text =>
    if isYaml path then (Yaml.parse? text).bind Yaml.written? else (Json.written text).toOption

theorem toOption_eq_some_iff {α ε : Type} {x : Except ε α} {a : α} : x.toOption = some a ↔ x = .ok a := by
  cases x <;> simp [Except.toOption]

theorem failWith_eq_ok_iff {α ε : Type} {cause : ε → Cause} {during : List Activity} {x : Except ε α} {a : α} :
    failWith cause during x = .ok a ↔ x = .ok a := by
  cases x <;> simp [failWith]

theorem readDocument_eq_ok_iff {α : Type} {tree : FileTree} {decoder : Decoder α} {path : FilePath} {a : α} :
    tree.readDocument decoder path = .ok a ↔ ∃ text, tree.read path = .ok text ∧
      if isYaml path then (Yaml.parse? text).bind decoder.ofYaml = some a else decoder.parse text = .ok a := by
  unfold readDocument
  cases tree.read path with
  | error fault => exact iff_of_false (fun h => nomatch h) fun ⟨_, h, _⟩ => nomatch h
  | ok text =>
    have hread : failWith .file [.reading path.shown] (.ok text : Except FileFault String) = .ok text := rfl
    simp only [hread, Except.ok.injEq, exists_eq_left']
    change (if isYaml path then _ else _) = _ ↔ _
    split_ifs
    · cases (Yaml.parse? text).bind decoder.ofYaml <;> simp [pure, Except.pure]
    · exact failWith_eq_ok_iff

/-- a file holds an object exactly if it has members as they are written, and then the last of each name stands -/
theorem readDocument_eq_object_iff {tree : FileTree} {path : FilePath} {es : List (String × Json)} :
    tree.readDocument .any path = .ok (.object es) ↔ ∃ ms, tree.written? path = some ms ∧ es = Entries.ofList ms := by
  have hwritten : ∀ ms, tree.written? path = some ms ↔ ∃ text, tree.read path = .ok text ∧
      if isYaml path then (Yaml.parse? text).bind Yaml.written? = some ms else Json.written text = .ok ms := by
    intro ms
    rw [written?, Option.bind_eq_some_iff]
    simp only [toOption_eq_some_iff]
    split_ifs <;> simp only [toOption_eq_some_iff]
  have htext : ∀ text, (if isYaml path then (Yaml.parse? text).bind Decoder.any.ofYaml = some (.object es)
        else Decoder.any.parse text = .ok (.object es)) ↔
      ∃ ms, (if isYaml path then (Yaml.parse? text).bind Yaml.written? = some ms else Json.written text = .ok ms) ∧
        es = Entries.ofList ms := by
    intro text
    split_ifs
    · cases Yaml.parse? text with
      | none => simp
      | some y => exact Yaml.toJson?_eq_object_iff
    · exact Json.parse_eq_object_iff
  simp only [readDocument_eq_ok_iff, htext, hwritten]
  constructor
  · rintro ⟨text, hread, ms, hms, hes⟩
    exact ⟨ms, ⟨text, hread, hms⟩, hes⟩
  · rintro ⟨ms, ⟨text, hread, hms⟩, hes⟩
    exact ⟨text, hread, ms, hms, hes⟩

end FileTree

end PixelAudit
