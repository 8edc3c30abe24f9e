/-
Decoders on values that are nested too deeply for the room there is.

`Gauges most d j` says that with room for up to `most` nested values a decoder either reads the written value `j` or
stops because it is too deep, and which of the two happens depends on the nesting of `j` alone. Lists, tables and records
of such values are gauged in their turn, with room for one more.

Main results: `Gauges.list`, `Gauges.table` and `Form.gauges_members` (what encloses gauged values is gauged).
-/
import PixelAudit.Proofs.Document.Records
import Mathlib.Tactic

namespace PixelAudit

open Json
open Json.Reader

namespace Json.Reader

variable {α β : Type}

/-- the reader stopped where an array or an object starts for which there is no room -/
def TooDeep (result : EStateM.Result Stop (List Char) α) : Prop :=
  ∃ mark rest, result = .error ⟨.tooDeep, mark⟩ rest

theorem TooDeep.failAhead (cs : List Char) : TooDeep (failAhead (α := α) .tooDeep cs) := ⟨_, _, rfl⟩

theorem TooDeep.bind {x : Reader α} {cs : List Char} (h : TooDeep (x cs)) (f : α → Reader β) :
    TooDeep ((x >>= f) cs) := by
  obtain ⟨mark, rest, hx⟩ := h
  exact ⟨mark, rest, by simp only [Bind.bind, EStateM.bind, hx]⟩

theorem TooDeep.atPlace {r : Reader α} {cs : List Char} (h : TooDeep (r cs)) : TooDeep (atPlace r cs) := by
  obtain ⟨mark, rest, hr⟩ := h
  cases mark with
  | none => exact ⟨_, rest, by simp only [Reader.atPlace, hr]; rfl⟩
  | some mark => exact ⟨some mark, rest, by simp only [Reader.atPlace, hr]⟩

theorem TooDeep.thenClose {body : Reader α} {cs : List Char} (h : TooDeep (body cs)) (close : Reader Unit) :
    TooDeep (thenClose body close cs) := by
  obtain ⟨mark, rest, hbody⟩ := h
  cases hclose : close rest with
  | ok _ last => exact ⟨mark, last, by simp only [Reader.thenClose, hbody, hclose]⟩
  | error _ last => exact ⟨mark, last, by simp only [Reader.thenClose, hbody, hclose]⟩

end Json.Reader

namespace Decoder

variable {α β : Type} {most : Nat}

/-- with the given room the decoder stops at the written value, wherever it stands -/
def StopsAt (d : Decoder α) (room : Nat) (j : Json) : Prop :=
  ∀ (depth : Nat) (blanks rest : List Char), (∀ c ∈ blanks, isSpace c = true) → Delimited rest →
    TooDeep (d.ofText room (blanks ++ ((j.indented depth).toList ++ rest)))

/-- with up to so much room the decoder reads the written value if it fits in, and else finds it too deep -/
structure Gauges (most : Nat) (d : Decoder α) (j : Json) : Prop where
  reads : j.nesting ≤ most → ∃ a, d.Reads j a
  stops : ∀ room ≤ most, room < j.nesting → d.StopsAt room j

/-- a value in which nothing is nested always fits in -/
theorem Reads.gauges {d : Decoder α} {j : Json} {a : α} (h : d.Reads j a) (hflat : j.nesting = 0) :
    d.Gauges most j where
  reads _ := ⟨a, h⟩
  stops room _ hroom := by omega

theorem Gauges.mono {d : Decoder α} {j : Json} (h : d.Gauges most j) {less : Nat} (hle : less ≤ most) :
    d.Gauges less j where
  reads hroom := h.reads (hroom.trans hle)
  stops room hless := h.stops room (hless.trans hle)

theorem Gauges.map {d : Decoder α} {j : Json} (h : d.Gauges most j) (f : α → β) : (d.map f).Gauges most j where
  reads hroom := by
    obtain ⟨a, ha⟩ := h.reads hroom
    exact ⟨f a, ha.map f⟩
  stops room hmost hroom depth blanks rest hblanks hrest := by
    obtain ⟨mark, last, hd⟩ := h.stops room hmost hroom depth blanks rest hblanks hrest
    exact ⟨mark, last, by simp only [Decoder.map, Functor.map, EStateM.map, hd]⟩

/-- a decoder that refines another one stops where that one does -/
theorem Gauges.refine {d : Decoder α} {j : Json} (h : d.Gauges most j) {f : α → Except Misfit β} {b : β}
    (hread : (d.refine f).Reads j b) : (d.refine f).Gauges most j where
  reads _ := ⟨b, hread⟩
  stops room hmost hroom depth blanks rest hblanks hrest :=
    (h.stops room hmost hroom depth blanks rest hblanks hrest).bind _

theorem Gauges.optional {d : Decoder α} {j : Json} (h : d.Gauges most j) (hnull : j.isNullText = false) :
    d.optional.Gauges most j where
  reads hroom := by
    obtain ⟨a, ha⟩ := h.reads hroom
    exact ⟨some a, ha.optional hnull⟩
  stops room hmost hroom depth blanks rest hblanks hrest := by
    obtain ⟨c, cs, hcs, hc⟩ := indented_cons j depth
    have hd := h.stops room hmost hroom depth [] rest (List.forall_mem_nil _) hrest
    rw [hcs, List.cons_append] at hd ⊢
    have hn : c ≠ 'n' := by
      intro hn
      rw [hc.onlyNull hn] at hnull
      cases hnull
    change TooDeep (withStart _ (blanks ++ c :: (cs ++ rest)))
    rw [withStart_blanks hblanks hc.notSpace, if_neg hn]
    exact hd.bind _

/-! ## Arrays and objects -/

/-- without room nothing is nested -/
theorem nested_zero (body : Nat → Reader α) (cs : List Char) : TooDeep (nested 0 body cs) := TooDeep.failAhead cs

/-- every value of a list is read as something -/
theorem forall₂_exists {γ δ : Type} {R : γ → δ → Prop} {cs : List γ} (h : ∀ c ∈ cs, ∃ d, R c d) :
    ∃ ds, List.Forall₂ R cs ds := by
  induction cs with
  | nil => exact ⟨[], .nil⟩
  | cons c cs ih =>
    obtain ⟨d, hd⟩ := h c List.mem_cons_self
    obtain ⟨ds, hds⟩ := ih fun c hc => h c (List.mem_cons_of_mem _ hc)
    exact ⟨d :: ds, .cons hd hds⟩

/-- items are read up to the first that is too deep -/
theorem items_tooDeep {d : Decoder α} {js : List Json} (h : ∀ j ∈ js, d.Gauges most j) {room : Nat}
    (hmost : room ≤ most) (hroom : room < nestingItems js) (depth : Nat) {rest : List Char} (hrest : Delimited rest)
    (first : Bool) {fuel : Nat} (hfuel : js.length < fuel) :
    TooDeep (items (d.ofText room) first fuel (itemsText first depth js ++ rest)) := by
  induction js generalizing first fuel with
  | nil => exact absurd hroom (Nat.not_lt_zero room)
  | cons j js ih =>
    obtain ⟨fuel, rfl⟩ : ∃ n, fuel = n + 1 := ⟨fuel - 1, by omega⟩
    have hj := h j List.mem_cons_self
    have htail := delimited_itemsText depth js hrest
    rw [items_cons]
    rcases Nat.lt_or_ge room j.nesting with hdeep | hfits
    · exact (hj.stops room hmost hdeep depth [] _ (List.forall_mem_nil _) htail).bind _
    · obtain ⟨a, ha⟩ := hj.reads (hfits.trans hmost)
      have hread := ha room depth [] _ hfits (List.forall_mem_nil _) htail
      have hlater : room < nestingItems js := (lt_max_iff.1 hroom).resolve_left (Nat.not_lt.2 hfits)
      rw [List.nil_append] at hread
      rw [bind_ok hread]
      exact (ih (fun j hj => h j (List.mem_cons_of_mem _ hj)) hlater false (by simpa using hfuel)).bind _

/-- a list is gauged if its items are, with less room -/
theorem Gauges.list {d : Decoder α} {js : List Json} (h : ∀ j ∈ js, d.Gauges (most - 1) j) :
    d.list.Gauges most (.array js) where
  reads hroom := by
    have hinner : nestingItems js ≤ most - 1 := Nat.le_sub_of_add_le hroom
    have hitems : ∀ j ∈ js, ∃ a, d.Reads j a := fun j hj => (h j hj).reads (nestingItems_le_iff.1 hinner j hj)
    obtain ⟨as, has⟩ := forall₂_exists hitems
    exact ⟨as, Reads.list has⟩
  stops room hmost hroom depth blanks rest hblanks hrest := by
    rw [indented_array_toList, List.cons_append, List.append_assoc, List.append_assoc, List.singleton_append]
    refine TooDeep.atPlace ?_
    rw [withStart_blanks hblanks (by decide), if_pos rfl]
    cases room with
    | zero => exact nested_zero _ _
    | succ room =>
      have hinner : room < nestingItems js := by simpa [nesting] using hroom
      have hne : js ≠ [] := by
        rintro rfl
        exact absurd hinner (Nat.not_lt_zero room)
      have hfuel := length_lt_itemsText (depth + 1) js (closingGap depth js ++ ']' :: rest) true
      have hitems := items_tooDeep h (Nat.le_sub_of_add_le hmost) hinner (depth + 1)
        (delimited_closingGap depth hne (']' :: rest)) true hfuel
      exact TooDeep.thenClose hitems closeArray

/-- members are read up to the first that is too deep -/
theorem members_tooDeep {d : Decoder α} {ms : List (String × Json)} (h : ∀ m ∈ ms, d.Gauges most m.2) {room : Nat}
    (hmost : room ≤ most) (hroom : room < nestingMembers ms) (depth : Nat) {rest : List Char} (hrest : Delimited rest)
    (first : Bool) {fuel : Nat} (hfuel : ms.length < fuel) :
    TooDeep (members (d.ofText room) first fuel (membersText first depth ms ++ rest)) := by
  induction ms generalizing first fuel with
  | nil => exact absurd hroom (Nat.not_lt_zero room)
  | cons m ms ih =>
    obtain ⟨name, j⟩ := m
    obtain ⟨fuel, rfl⟩ : ∃ n, fuel = n + 1 := ⟨fuel - 1, by omega⟩
    have hj : d.Gauges most j := h (name, j) List.mem_cons_self
    have htail := delimited_membersText depth ms hrest
    rw [members_cons]
    rcases Nat.lt_or_ge room j.nesting with hdeep | hfits
    · exact (hj.stops room hmost hdeep depth [' '] _ (List.forall_mem_singleton.2 rfl) htail).bind _
    · obtain ⟨a, ha⟩ := hj.reads (hfits.trans hmost)
      have hlater : room < nestingMembers ms := (lt_max_iff.1 hroom).resolve_left (Nat.not_lt.2 hfits)
      rw [bind_ok (ha room depth [' '] _ hfits (List.forall_mem_singleton.2 rfl) htail)]
      exact (ih (fun m hm => h m (List.mem_cons_of_mem _ hm)) hlater false (by simpa using hfuel)).bind _

/-- a table is gauged if its values are, with less room -/
theorem Gauges.table {d : Decoder α} {ms : List (String × Json)} (h : ∀ m ∈ ms, d.Gauges (most - 1) m.2) :
    d.table.Gauges most (.object ms) where
  reads hroom := by
    have hinner : nestingMembers ms ≤ most - 1 := Nat.le_sub_of_add_le hroom
    have hmembers : ∀ m ∈ ms, ∃ e, d.ReadsMember m e := by
      intro m hm
      obtain ⟨a, ha⟩ := (h m hm).reads (nestingMembers_le_iff.1 hinner m hm)
      exact ⟨(m.1, a), rfl, ha⟩
    obtain ⟨es, hes⟩ := forall₂_exists hmembers
    exact ⟨Dict.ofList es, Reads.table hes⟩
  stops room hmost hroom depth blanks rest hblanks hrest := by
    rw [indented_object_toList, List.cons_append, List.append_assoc, List.append_assoc, List.singleton_append]
    refine TooDeep.atPlace ?_
    rw [withStart_blanks hblanks (by decide), if_pos rfl]
    cases room with
    | zero => exact nested_zero _ _
    | succ room =>
      have hinner : room < nestingMembers ms := by simpa [nesting] using hroom
      have hne : ms ≠ [] := by
        rintro rfl
        exact absurd hinner (Nat.not_lt_zero room)
      have hfuel := length_lt_membersText (depth + 1) ms (closingGap depth ms ++ '\x7d' :: rest) true
      have hmembers := members_tooDeep h (Nat.le_sub_of_add_le hmost) hinner (depth + 1)
        (delimited_closingGap depth hne ('\x7d' :: rest)) true hfuel
      have hbraced : TooDeep (braced (d.ofText room) ('\x7b' :: (membersText true (depth + 1) ms ++
          (closingGap depth ms ++ '\x7d' :: rest)))) := TooDeep.thenClose hmembers closeObject
      exact hbraced.bind _

/-! ## Whole texts -/

/-- a whole text is read if its value fits into the room there is, and else refused for its depth -/
theorem Gauges.parse {d : Decoder α} {j : Json} (h : d.Gauges maxDepth j) (hdeep : maxDepth < j.nesting) :
    ∃ place, d.parse j.pretty = .error ⟨.tooDeep, place⟩ := by
  obtain ⟨mark, last, hread⟩ := h.stops maxDepth le_rfl hdeep 0 [] [] (List.forall_mem_nil _) (by rintro c ⟨⟩)
  rw [List.nil_append, List.append_nil] at hread
  have hrun : (do
      let a ← d.ofText maxDepth
      endOfText
      return a) j.pretty.toList = .error ⟨.tooDeep, mark⟩ last := by
    simp only [Bind.bind, EStateM.bind, pretty, hread]
  cases mark with
  | none => exact ⟨_, by simp only [Decoder.parse, Reader.run, hrun]; rfl⟩
  | some mark => exact ⟨_, by simp only [Decoder.parse, Reader.run, hrun]; rfl⟩

end Decoder

/-! ## Records -/

namespace Form

variable {σ : Type} {most : Nat}

/-- a field gauges its value; one that is left out is not needed -/
def Gauges (most : Nat) (f : Field σ) : Option Json → Prop
  | some j => f.decoder.Gauges most j
  | none => f.required = false

/-- the members of an object for the fields that have a value -/
def membersOf : List (Field σ) → List (Option Json) → List (String × Json)
  | f :: fs, some j :: os => (f.name, j) :: membersOf fs os
  | _ :: fs, none :: os => membersOf fs os
  | _, _ => []

/-- values that fit in are carried by their fields -/
theorem exists_carries {fs : List (Field σ)} {os : List (Option Json)} (h : List.Forall₂ (Gauges most) fs os)
    (hroom : nestingMembers (membersOf fs os) ≤ most) :
    ∃ vs, List.Forall₂ Carries fs vs ∧ written fs vs = membersOf fs os := by
  induction h with
  | nil => exact ⟨[], .nil, rfl⟩
  | @cons f o fs os hf _ ih =>
    cases o with
    | none =>
      obtain ⟨vs, hvs, hms⟩ := ih hroom
      exact ⟨none :: vs, .cons hf hvs, hms⟩
    | some j =>
      obtain ⟨change, hchange⟩ := hf.reads ((le_max_left _ _).trans hroom)
      obtain ⟨vs, hvs, hms⟩ := ih ((le_max_right _ _).trans hroom)
      exact ⟨some (j, change) :: vs, .cons hchange hvs, congrArg ((f.name, j) :: ·) hms⟩

/-- members are read into the record up to the first that is too deep -/
theorem readMembers_tooDeep {form : Form σ} {done rest : List (Field σ)} (hfields : form.fields = done ++ rest)
    (hnames : form.allNames.Nodup) {os : List (Option Json)} (h : List.Forall₂ (Gauges most) rest os) {draft : Draft σ}
    (hseen : draft.Knows done) {room : Nat} (hmost : room ≤ most) (hroom : room < nestingMembers (membersOf rest os))
    (depth : Nat) {tail : List Char} (htail : Delimited tail) (first : Bool) {fuel : Nat}
    (hfuel : (membersOf rest os).length < fuel) :
    TooDeep (form.readMembers room draft first fuel (membersText first depth (membersOf rest os) ++ tail)) := by
  induction h generalizing done draft first fuel with
  | nil => exact absurd hroom (Nat.not_lt_zero room)
  | @cons f o fs os hf _ ih =>
    have hnext : form.fields = (done ++ [f]) ++ fs := by simp [hfields]
    cases o with
    | none => exact ih hnext (hseen.append [f]) hroom first hfuel
    | some j =>
      obtain ⟨fuel, rfl⟩ : ∃ n, fuel = n + 1 := ⟨fuel - 1, by omega⟩
      have hline := delimited_membersText depth (membersOf fs os) htail
      have hmembers : membersOf (f :: fs) (some j :: os) = (f.name, j) :: membersOf fs os := rfl
      rw [hmembers] at hroom hfuel ⊢
      rw [readMembers_cons (field?_next hfields hnames hseen)]
      rcases Nat.lt_or_ge room j.nesting with hdeep | hfits
      · exact (hf.stops room hmost hdeep depth [' '] _ (List.forall_mem_singleton.2 rfl) hline).bind _
      · obtain ⟨change, hchange⟩ := hf.reads (hfits.trans hmost)
        have hlater : room < nestingMembers (membersOf fs os) :=
          (lt_max_iff.1 hroom).resolve_left (Nat.not_lt.2 hfits)
        rw [bind_ok (hchange room depth [' '] _ hfits (List.forall_mem_singleton.2 rfl) hline)]
        exact ih hnext (hseen.put f change) hlater false (by simpa using hfuel)

/-- an object is gauged if the fields gauge its members, with less room -/
theorem gauges_members {form : Form σ} (hnames : form.allNames.Nodup) {os : List (Option Json)}
    (h : List.Forall₂ (Gauges (most - 1)) form.fields os) {ms : List (String × Json)}
    (hms : membersOf form.fields os = ms) : form.decoder.Gauges most (.object ms) where
  reads hroom := by
    subst hms
    obtain ⟨vs, hvs, hms⟩ := exists_carries h (Nat.le_sub_of_add_le hroom)
    rw [← hms]
    exact ⟨_, reads_written hnames hvs⟩
  stops room hmost hroom depth blanks rest hblanks hrest := by
    subst hms
    rw [indented_object_toList, List.cons_append, List.append_assoc, List.append_assoc, List.singleton_append]
    refine TooDeep.atPlace ?_
    rw [Decoder.withStart_blanks hblanks (by decide), if_pos rfl]
    cases room with
    | zero => exact Decoder.nested_zero _ _
    | succ room =>
      have hinner : room < nestingMembers (membersOf form.fields os) := by simpa [nesting] using hroom
      have hne : membersOf form.fields os ≠ [] := by
        intro hnil
        rw [hnil] at hinner
        exact absurd hinner (Nat.not_lt_zero room)
      have hfuel := length_lt_membersText (depth + 1) (membersOf form.fields os)
        (closingGap depth (membersOf form.fields os) ++ '\x7d' :: rest) true
      have hblank : Draft.Knows ⟨form.blank, []⟩ ([] : List (Field σ)) := List.forall_mem_nil _
      have hmembers := readMembers_tooDeep (List.nil_append _).symm hnames h hblank (Nat.le_sub_of_add_le hmost)
        hinner (depth + 1) (delimited_closingGap depth hne ('\x7d' :: rest)) true hfuel
      exact TooDeep.thenClose (hmembers.bind _) closeObject

end Form

end PixelAudit
