/-
Decoders read back what was written.

`Reads d j a` says that a decoder reads the written value `j` as `a`, wherever the value stands in a text. Numbers end
at a delimiter, and every value that is nested takes room; that is all a decoder may look at besides the value itself.

Main results: `Reads.list` and `Reads.table` (a decoder of items reads back lists and tables of them), `Reads.parse` (a
whole text is read back).
-/
import PixelAudit.Proofs.Json.Layout
import Mathlib.Tactic
import Mathlib.Data.List.Forall2

namespace PixelAudit

open Json
open Json.Reader

namespace Decoder

variable {α β : Type}

/-- the decoder reads the written value as `a` wherever it stands, given room for what is nested in it -/
def Reads (d : Decoder α) (j : Json) (a : α) : Prop :=
  ∀ (room depth : Nat) (blanks rest : List Char), j.nesting ≤ room → (∀ c ∈ blanks, isSpace c = true) →
    Delimited rest → d.ofText room (blanks ++ ((j.indented depth).toList ++ rest)) = .ok a rest

theorem indented_string_append (s : String) (depth : Nat) (rest : List Char) :
    ((Json.string s).indented depth).toList ++ rest = '"' :: (s.toList.flatMap escapeChar ++ '"' :: rest) := by
  simp [quote]

theorem withStart_blanks {next : Char → Reader α} {blanks : List Char} (hblanks : ∀ c ∈ blanks, isSpace c = true)
    {c : Char} (hc : isSpace c = false) (cs : List Char) :
    withStart next (blanks ++ c :: cs) = next c (c :: cs) :=
  bind_ok (peekToken_blanks hblanks hc cs)

theorem withStart_cons {next : Char → Reader α} {c : Char} (hc : isSpace c = false) (cs : List Char) :
    withStart next (c :: cs) = next c (c :: cs) :=
  @withStart_blanks α next [] (List.forall_mem_nil _) c hc cs

theorem Reads.map {d : Decoder α} {j : Json} {a : α} (h : d.Reads j a) (f : α → β) : (d.map f).Reads j (f a) := by
  intro room depth blanks rest hroom hblanks hrest
  have hd := h room depth blanks rest hroom hblanks hrest
  simp only [Decoder.map, Functor.map, EStateM.map, hd]

theorem Reads.refine {d : Decoder α} {j : Json} {a : α} {b : β} {f : α → Except Misfit β} (h : d.Reads j a)
    (hf : f a = .ok b) : (d.refine f).Reads j b := by
  intro room depth blanks rest hroom hblanks hrest
  have hd := h room depth blanks rest hroom hblanks hrest
  have hrun : (d.refine f).ofText room (blanks ++ ((j.indented depth).toList ++ rest)) = _ := bind_ok hd
  rw [hrun, hf]
  rfl

theorem Reads.string (s : String) : Decoder.string.Reads (.string s) s := by
  intro room depth blanks rest _ hblanks _
  rw [indented_string_append]
  refine atPlace_ok ((withStart_blanks hblanks (by decide) _).trans ?_)
  rw [if_pos rfl, bind_ok (bump_cons _ _), stringBody_quoted]

theorem Reads.any_string (s : String) : Decoder.any.Reads (.string s) (.string s) := by
  intro room depth blanks rest _ hblanks _
  rw [indented_string_append]
  have hscalar : scalar '"' ('"' :: (s.toList.flatMap escapeChar ++ '"' :: rest)) = .ok (.string s) rest := by
    have hbody := stringBody_quoted s rest
    exact (bind_ok (bump_cons _ _)).trans (bind_ok hbody)
  cases room with
  | zero => exact (bind_ok (peekToken_blanks hblanks (by decide) _)).trans hscalar
  | succ room => exact (bind_ok (peekToken_blanks hblanks (by decide) _)).trans hscalar

theorem Reads.bool (b : Bool) : Decoder.bool.Reads (.bool b) b := by
  intro room depth blanks rest _ hblanks _
  cases b with
  | true =>
    have htext : ((Json.bool true).indented depth).toList ++ rest = 't' :: 'r' :: 'u' :: 'e' :: rest := by
      simp
    rw [htext]
    exact atPlace_ok ((withStart_blanks hblanks (by decide) _).trans rfl)
  | false =>
    have htext : ((Json.bool false).indented depth).toList ++ rest = 'f' :: 'a' :: 'l' :: 's' :: 'e' :: rest := by
      simp
    rw [htext]
    exact atPlace_ok ((withStart_blanks hblanks (by decide) _).trans rfl)

/-- a word of a choice -/
theorem Reads.choice {choices : List (String × α)} {name : String} {a : α} (h : variantNamed choices name = .ok a) :
    (Decoder.choice choices).Reads (.string name) a := by
  intro room depth blanks rest _ hblanks _
  rw [indented_string_append]
  refine (withStart_blanks hblanks (by decide) _).trans ?_
  rw [if_pos rfl]
  refine atPlace_ok ((bind_ok (bump_cons _ _)).trans ((bind_ok (stringBody_quoted name rest)).trans ?_))
  rw [h]
  rfl

/-- what is there is read as such -/
theorem Reads.optional {d : Decoder α} {j : Json} {a : α} (h : d.Reads j a) (hnull : j.isNullText = false) :
    d.optional.Reads j (some a) := by
  intro room depth blanks rest hroom hblanks hrest
  obtain ⟨c, cs, hcs, hc⟩ := indented_cons j depth
  have hd := h room depth [] rest hroom (by simp) hrest
  rw [hcs, List.cons_append] at hd ⊢
  refine (withStart_blanks hblanks hc.notSpace _).trans ?_
  have hn : c ≠ 'n' := by
    intro hn
    rw [hc.onlyNull hn] at hnull
    cases hnull
  rw [if_neg hn]
  exact bind_ok hd

/-- a null is read as nothing -/
theorem Reads.optional_null (d : Decoder α) {j : Json} (hnull : j.isNullText = true) : d.optional.Reads j none := by
  intro room depth blanks rest _ hblanks _
  have htext : (j.indented depth).toList ++ rest = 'n' :: 'u' :: 'l' :: 'l' :: rest := by
    cases j with
    | null => simp
    | real x =>
      cases x with
      | finite => cases hnull
      | infinite => simp [Decimal.Binary64.documentText]
      | nan => simp [Decimal.Binary64.documentText]
    | _ => cases hnull
  rw [htext]
  exact (withStart_blanks hblanks (by decide) _).trans rfl

/-- the next item is read where it stands, and then the others -/
theorem items_cons (item : Reader α) (first : Bool) (depth : Nat) (j : Json) (js : List Json) (rest : List Char)
    (fuel : Nat) : items item first (fuel + 1) (itemsText first depth (j :: js) ++ rest) =
      (do
        let a ← item
        return a :: (← items item false fuel)) ((j.indented depth).toList ++ (itemsText false depth js ++ rest)) := by
  obtain ⟨c, cs, hcs, hc⟩ := indented_cons j depth
  have hmore := moreItems_item first (isSpace_newLine depth) hc (cs ++ (itemsText false depth js ++ rest))
  have htext : itemsText first depth (j :: js) ++ rest =
      lead first ++ (newLine depth).toList ++ c :: (cs ++ (itemsText false depth js ++ rest)) := by
    simp only [itemsText, hcs, List.append_assoc, List.cons_append]
  rw [htext, hcs, List.cons_append, items, bind_ok hmore, if_pos rfl]

/-- items are read one by one up to the closing bracket -/
theorem items_itemsText {d : Decoder α} {js : List Json} {as : List α} (h : List.Forall₂ d.Reads js as) {room : Nat}
    (hroom : nestingItems js ≤ room) (depth : Nat) {gap : List Char} (hgap : ∀ c ∈ gap, isSpace c = true)
    (rest : List Char) (hend : js ≠ [] → Delimited (gap ++ ']' :: rest)) (first : Bool) {fuel : Nat}
    (hfuel : js.length < fuel) :
    items (d.ofText room) first fuel (itemsText first depth js ++ (gap ++ ']' :: rest)) = .ok as (']' :: rest) := by
  obtain ⟨fuel, rfl⟩ : ∃ n, fuel = n + 1 := ⟨fuel - 1, by omega⟩
  induction h generalizing first fuel with
  | nil =>
    unfold items
    rw [itemsText, List.nil_append, bind_ok (moreItems_end hgap first rest)]
    rfl
  | @cons j a js as hj _ ih =>
    have hend' := hend (by simp)
    have hread := hj room depth [] (itemsText false depth js ++ (gap ++ ']' :: rest)) ((le_max_left _ _).trans hroom)
      (by simp) (delimited_itemsText depth js hend')
    obtain ⟨fuel, rfl⟩ : ∃ n, fuel = n + 1 := ⟨fuel - 1, by simp at hfuel; omega⟩
    have htail := ih ((le_max_right _ _).trans hroom) (fun _ => hend') false fuel (by simp at hfuel; omega)
    rw [List.nil_append] at hread
    rw [items_cons, bind_ok hread, bind_ok htail]
    rfl

theorem Reads.list {d : Decoder α} {js : List Json} {as : List α} (h : List.Forall₂ d.Reads js as) :
    d.list.Reads (.array js) as := by
  intro room depth blanks rest hroom hblanks hrest
  obtain ⟨room, rfl⟩ : ∃ n, room = n + 1 := ⟨room - 1, by simp [nesting] at hroom; omega⟩
  have hinner : nestingItems js ≤ room := by simpa [nesting] using hroom
  have hend : js ≠ [] → Delimited (closingGap depth js ++ ']' :: rest) := fun hne => delimited_closingGap depth hne _
  rw [indented_array_toList, List.cons_append, List.append_assoc, List.append_assoc, List.singleton_append]
  have hfuel := length_lt_itemsText (depth + 1) js (closingGap depth js ++ ']' :: rest) true
  have hitems := items_itemsText h hinner (depth + 1) (isSpace_closingGap depth js) rest hend true hfuel
  refine atPlace_ok ((withStart_blanks hblanks (by decide) _).trans ?_)
  rw [if_pos rfl]
  exact (bind_ok (bump_cons _ _)).trans (thenClose_ok hitems (closeArray_bracket rest))

/-- a member and an entry of the same name, whose value is what the decoder reads -/
def ReadsMember (d : Decoder α) (m : String × Json) (e : String × α) : Prop := m.1 = e.1 ∧ d.Reads m.2 e.2

/-- the next member is read where it stands, its value after a blank, and then the others -/
theorem members_cons (value : Reader α) (first : Bool) (depth : Nat) (name : String) (j : Json)
    (ms : List (String × Json)) (rest : List Char) (fuel : Nat) :
    members value first (fuel + 1) (membersText first depth ((name, j) :: ms) ++ rest) =
      (do
        let a ← value
        return (name, a) :: (← members value false fuel))
        ([' '] ++ ((j.indented depth).toList ++ (membersText false depth ms ++ rest))) := by
  obtain ⟨cs, hkey, htext⟩ := membersText_cons first depth name j ms rest
  rw [htext, members, bind_ok (moreMembers_member first (isSpace_newLine depth) cs), if_pos rfl, ← hkey,
    bind_ok (memberKey_quote name _), List.cons_append, bind_ok (colon_cons _)]

/-- members are read one by one up to the closing brace -/
theorem members_membersText {d : Decoder α} {ms : List (String × Json)} {es : List (String × α)}
    (h : List.Forall₂ d.ReadsMember ms es) {room : Nat} (hroom : nestingMembers ms ≤ room) (depth : Nat)
    {gap : List Char} (hgap : ∀ c ∈ gap, isSpace c = true) (rest : List Char)
    (hend : ms ≠ [] → Delimited (gap ++ '\x7d' :: rest)) (first : Bool) {fuel : Nat} (hfuel : ms.length < fuel) :
    members (d.ofText room) first fuel (membersText first depth ms ++ (gap ++ '\x7d' :: rest)) =
      .ok es ('\x7d' :: rest) := by
  obtain ⟨fuel, rfl⟩ : ∃ n, fuel = n + 1 := ⟨fuel - 1, by omega⟩
  induction h generalizing first fuel with
  | nil =>
    unfold members
    rw [membersText, List.nil_append, bind_ok (moreMembers_end hgap first rest)]
    rfl
  | @cons m e ms es hm _ ih =>
    obtain ⟨name, j⟩ := m
    obtain ⟨key, a⟩ := e
    obtain ⟨rfl, hj⟩ : name = key ∧ d.Reads j a := hm
    have hend' := hend (by simp)
    have hread := hj room depth [' '] (membersText false depth ms ++ (gap ++ '\x7d' :: rest))
      ((le_max_left _ _).trans hroom) (by simp; decide) (delimited_membersText depth ms hend')
    obtain ⟨fuel, rfl⟩ : ∃ n, fuel = n + 1 := ⟨fuel - 1, by simp at hfuel; omega⟩
    have htail := ih ((le_max_right _ _).trans hroom) (fun _ => hend') false fuel (by simp at hfuel; omega)
    rw [members_cons, bind_ok hread, bind_ok htail]
    rfl

theorem Reads.table {d : Decoder α} {ms : List (String × Json)} {es : List (String × α)}
    (h : List.Forall₂ d.ReadsMember ms es) : d.table.Reads (.object ms) (Dict.ofList es) := by
  intro room depth blanks rest hroom hblanks hrest
  obtain ⟨room, rfl⟩ : ∃ n, room = n + 1 := ⟨room - 1, by simp [nesting] at hroom; omega⟩
  have hinner : nestingMembers ms ≤ room := by simpa [nesting] using hroom
  have hend : ms ≠ [] → Delimited (closingGap depth ms ++ '\x7d' :: rest) := fun hne => delimited_closingGap depth hne _
  rw [indented_object_toList, List.cons_append, List.append_assoc, List.append_assoc, List.singleton_append]
  have hfuel := length_lt_membersText (depth + 1) ms (closingGap depth ms ++ '\x7d' :: rest) true
  have hmembers := members_membersText h hinner (depth + 1) (isSpace_closingGap depth ms) rest hend true hfuel
  refine atPlace_ok ((withStart_blanks hblanks (by decide) _).trans ?_)
  rw [if_pos rfl]
  have hbraced : braced (d.ofText room) ('\x7b' :: (membersText true (depth + 1) ms ++
      (closingGap depth ms ++ '\x7d' :: rest))) = .ok es rest :=
    (bind_ok (bump_cons _ _)).trans (thenClose_ok hmembers (closeObject_brace rest))
  exact bind_ok hbraced

/-! ## Numbers -/

theorem steady_atPlace {r : Reader α} {cs : List Char} (h : Steady r cs) : Steady (atPlace r) cs := by
  intro a mid ha rest hrest
  unfold atPlace at ha
  split at ha
  · cases ha
  · exact atPlace_ok (h a mid ha rest hrest)

theorem steady_withStart {next : Char → Reader α} {c : Char} {cs : List Char} (hc : isSpace c = false)
    (h : Steady (next c) (c :: cs)) : Steady (withStart next) (c :: cs) := by
  intro a mid ha rest hrest
  rw [withStart_cons hc] at ha
  rw [List.cons_append, withStart_cons hc]
  exact h a mid ha rest hrest

theorem steady_scalar {c : Char} (hc : c = '-' ∨ c.isDigit = true) (cs : List Char) : Steady (scalar c) (c :: cs) := by
  have hne : ∀ d : Char, d.isDigit = false → d ≠ '-' → c ≠ d := by
    rintro d hd hminus rfl
    rcases hc with hc | hc
    · exact hminus hc
    · rw [hd] at hc; cases hc
  unfold scalar
  rw [if_neg (hne 'n' (by decide) (by decide)), if_neg (hne 't' (by decide) (by decide)),
    if_neg (hne 'f' (by decide) (by decide))]
  by_cases hminus : c = '-'
  · rw [if_pos hminus]
    exact (Steady.bump c cs).bind fun _ mid _ => Steady.number true mid
  · rw [if_neg hminus, if_pos ((isDigit_eq c).trans (hc.resolve_left hminus))]
    exact Steady.number false _

theorem steady_numeric {wanted : String} {take : Json → Except Misfit α} {tag : Yaml.Tag}
    {spelled : String → Option Json} {c : Char} (hc : c = '-' ∨ c.isDigit = true) (cs : List Char) (room : Nat) :
    Steady ((numeric wanted take tag spelled).ofText room) (c :: cs) := by
  refine steady_atPlace (steady_withStart (Opens.of_digit .null hc).notSpace ?_)
  rw [if_pos (by rwa [isDigit_eq])]
  refine (steady_scalar hc cs).bind fun v mid _ => ?_
  split
  · exact Steady.pure _ _
  · rintro a mid ⟨⟩

/-- a number that is read from its own text is read back -/
theorem Reads.numeric {wanted : String} {take : Json → Except Misfit α} {tag : Yaml.Tag}
    {spelled : String → Option Json} {j : Json} {c : Char} {cs : List Char} {a : α}
    (htext : ∀ depth, (j.indented depth).toList = c :: cs) (hc : c = '-' ∨ c.isDigit = true)
    (h : (Decoder.numeric wanted take tag spelled).ofText 0 (c :: cs) = .ok a []) :
    (Decoder.numeric wanted take tag spelled).Reads j a := by
  intro room depth blanks rest _ hblanks hrest
  have hspace := (Opens.of_digit .null hc).notSpace
  have hread : (Decoder.numeric wanted take tag spelled).ofText room (c :: (cs ++ rest)) = .ok a rest :=
    steady_numeric hc cs room a [] h rest hrest
  rw [htext, List.cons_append, ← hread]
  -- the decoder looks at the text only from its first character on
  simp only [Decoder.numeric, atPlace, withStart_blanks hblanks hspace, withStart_cons hspace]

/-- the number is read, exactly, from its own text -/
def ReadsBack (x : Decimal.Binary64) : Prop := Decoder.binary64.ofText 0 x.documentText.toList = .ok x []

instance [DecidableEq α] (result : EStateM.Result Stop (List Char) α) (a : α) : Decidable (result = .ok a []) :=
  match result with
  | .ok b [] => decidable_of_iff (b = a) (by simp)
  | .ok b (c :: cs) => .isFalse (by simp)
  | .error e rest => .isFalse (by simp)

instance (x : Decimal.Binary64) : Decidable (ReadsBack x) :=
  inferInstanceAs (Decidable (Decoder.binary64.ofText 0 x.documentText.toList = .ok x []))

theorem Reads.binary64 {x : Decimal.Binary64} (hfinite : x.isFinite = true) (h : ReadsBack x) :
    Decoder.binary64.Reads (.real x) x := by
  obtain ⟨c, cs, hcs, hc⟩ := documentText_cons hfinite
  refine Reads.numeric (fun _ => hcs) hc ?_
  rw [← hcs]
  exact h

/-! ## Whole texts -/

theorem Reads.parse {d : Decoder α} {j : Json} {a : α} (h : d.Reads j a) (hroom : j.nesting ≤ maxDepth) :
    d.parse j.pretty = .ok a := by
  have hread := h maxDepth 0 [] [] hroom (by simp) (by rintro c ⟨⟩)
  rw [List.nil_append, List.append_nil] at hread
  simp only [Decoder.parse, Reader.run, pretty, bind_ok hread]
  rfl

end Decoder

end PixelAudit
