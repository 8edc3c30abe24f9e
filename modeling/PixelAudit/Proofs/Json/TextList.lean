/-
JSON lists of texts, as they may be written.

A character inside a quoted text may be written as it is, by a letter after a backslash, or by its code point in four
hexadecimal digits, or in twice four digits beyond the first plane; white space may stand around the brackets, the
commas and the items. `ListText` says which texts spell a list, without the reader.

Main results: `stringBody_spelled` (a quoted text is read however it is written), `listText_compact` (the compact form
spells its list), `parse_listText` (every text that spells a list is read as the list).
-/
import PixelAudit.Proofs.Document.Members

namespace PixelAudit.Json

open Reader (isSpace bind_ok)

/-! ## Spellings -/

/-- the number that four hexadecimal digits name -/
def quad? (a b c d : Char) : Option Nat := do
  let a ← Decimal.hexDigit? a
  let b ← Decimal.hexDigit? b
  let c ← Decimal.hexDigit? c
  let d ← Decimal.hexDigit? d
  return ((a * 16 + b) * 16 + c) * 16 + d

/-- how a character may be written inside a quoted text -/
inductive SpellsChar (c : Char) : List Char → Prop
  | plain (control : 0x20 ≤ c.toNat) (quote : c ≠ '"') (backslash : c ≠ '\\') : SpellsChar c [c]
  | short {letter : Char} (named : shortEscape? letter = some c) : SpellsChar c ['\\', letter]
  | code {x y z w : Char} (digits : quad? x y z w = some c.toNat) : SpellsChar c ['\\', 'u', x, y, z, w]
  /-- the upper and the lower ten bits of a code point past the first plane -/
  | pair {x y z w x' y' z' w' : Char} {high low : Nat} (upper : quad? x y z w = some (0xD800 + high))
      (lower : quad? x' y' z' w' = some (0xDC00 + low)) (small : low < 0x400)
      (point : c.toNat = 0x10000 + high * 0x400 + low) :
      SpellsChar c ['\\', 'u', x, y, z, w, '\\', 'u', x', y', z', w']

/-- how characters may be written between quotes -/
inductive SpellsChars : List Char → List Char → Prop
  | nil : SpellsChars [] []
  | cons {c : Char} {cs first rest : List Char} (head : SpellsChar c first) (tail : SpellsChars cs rest) :
      SpellsChars (c :: cs) (first ++ rest)

/-- the items of a list up to its closing bracket, as they may be written; `first` says that none stands before them -/
inductive ItemsText : Bool → List String → List Char → Prop
  | nil {first : Bool} {gap : List Char} (blank : ∀ c ∈ gap, isSpace c = true) : ItemsText first [] (gap ++ [']'])
  | cons {first : Bool} {s : String} {items : List String} {before after written rest : List Char}
      (blankBefore : ∀ c ∈ before, isSpace c = true) (blankAfter : ∀ c ∈ after, isSpace c = true)
      (head : SpellsChars s.toList written) (tail : ItemsText false items rest) :
      ItemsText first (s :: items) (before ++ lead first ++ after ++ '"' :: (written ++ '"' :: rest))

/-- a text that spells a list of texts, from its opening bracket to its closing one -/
def ListText (items : List String) (text : List Char) : Prop := ∃ rest, text = '[' :: rest ∧ ItemsText true items rest

/-! ## The compact form -/

theorem spellsChar_escapeChar (c : Char) : SpellsChar c (escapeChar c) := by
  unfold escapeChar
  split_ifs with hquote hback hplain hn hr ht hb hf
  · subst hquote
    exact .short rfl
  · subst hback
    exact .short rfl
  · exact .plain hplain hquote hback
  · subst hn
    exact .short rfl
  · subst hr
    exact .short rfl
  · subst ht
    exact .short rfl
  · obtain rfl : c = Char.ofNat 0x8 := by rw [← hb, Char.ofNat_toNat]
    exact .short rfl
  · obtain rfl : c = Char.ofNat 0xC := by rw [← hf, Char.ofNat_toNat]
    exact .short rfl
  · have hcontrol : c.toNat < 0x20 := by omega
    rw [Reader.controlText_eq hcontrol]
    apply SpellsChar.code
    have hzero : Decimal.hexDigit? '0' = some 0 := by decide
    have hsum : ((0 * 16 + 0) * 16 + c.toNat / 16) * 16 + c.toNat % 16 = c.toNat := by omega
    simp only [quad?, hzero, Reader.hexDigit?_digitChar (c.toNat / 16) (by omega),
      Reader.hexDigit?_digitChar (c.toNat % 16) (by omega)]
    exact congrArg some hsum

theorem spellsChars_flatMap (cs : List Char) : SpellsChars cs (cs.flatMap escapeChar) := by
  induction cs with
  | nil => exact .nil
  | cons c cs ih => exact .cons (spellsChar_escapeChar c) ih

theorem itemsText_compact (first : Bool) (s : String) (items : List String) :
    ItemsText first (s :: items) (lead first ++ (compactItems ((s :: items).map .string)).toList ++ [']']) := by
  induction items generalizing first s with
  | nil =>
    have htext : lead first ++ (compactItems ([s].map .string)).toList ++ [']'] =
        [] ++ lead first ++ [] ++ '"' :: (s.toList.flatMap escapeChar ++ '"' :: ([] ++ [']'])) := by
      simp [compactItems, compact, quote]
    rw [htext]
    exact .cons (by simp) (by simp) (spellsChars_flatMap _) (.nil (by simp))
  | cons t items ih =>
    have htext : lead first ++ (compactItems ((s :: t :: items).map .string)).toList ++ [']'] =
        [] ++ lead first ++ [] ++ '"' :: (s.toList.flatMap escapeChar ++ '"' ::
          (lead false ++ (compactItems ((t :: items).map .string)).toList ++ [']'])) := by
      simp [compactItems, compact, quote, lead]
    rw [htext]
    exact .cons (by simp) (by simp) (spellsChars_flatMap _) (ih false t)

/-- the compact form spells its list -/
theorem listText_compact (items : List String) : ListText items (strings items).compact.toList := by
  cases items with
  | nil =>
    have hblank : ∀ c ∈ ([] : List Char), isSpace c = true := by simp
    exact ⟨[']'], by simp [strings, compact, compactItems], .nil hblank⟩
  | cons s items =>
    refine ⟨_, ?_, itemsText_compact true s items⟩
    simp [strings, compact, lead]

/-! ## Reading -/

namespace Reader

theorem hexQuad_of_quad? {a b c d : Char} {n : Nat} (h : quad? a b c d = some n) (rest : List Char) :
    hexQuad (a :: b :: c :: d :: rest) = .ok n rest := by
  simp only [quad?, bind, Option.bind_eq_some_iff, pure, Option.some.injEq] at h
  obtain ⟨x, hx, y, hy, z, hz, w, hw, rfl⟩ := h
  simp only [hexQuad, hx, hy, hz, hw]

/-- however a character is written, it is read as that character -/
theorem stringTail_spelled {c : Char} {text : List Char} (h : SpellsChar c text) (read : List Char) (fuel : Nat)
    (cs : List Char) : stringTail read (fuel + 1) (text ++ cs) = stringTail (c :: read) fuel cs := by
  cases h with
  | plain hcontrol hquote hback =>
    have hlow : ¬ c.toNat < 0x20 := by omega
    simp [stringTail, bind, EStateM.bind, hquote, hback, hlow]
  | @short letter hnamed =>
    -- each letter by itself: the reader looks for the letter of a code point before it looks up the others
    unfold shortEscape? at hnamed
    split_ifs at hnamed with h1 h2 h3 h4 h5 h6 h7 h8
    all_goals
      obtain rfl := Option.some.inj hnamed
      subst letter
      rfl
  | @code x y z w hdigits =>
    have hvalid : c.toNat < 0xD800 ∨ 0xDFFF < c.toNat ∧ c.toNat < 0x110000 := c.valid
    have hescape : unicodeEscape (x :: y :: z :: w :: cs) = .ok c cs := by
      unfold unicodeEscape
      rw [bind_ok (hexQuad_of_quad? hdigits cs), if_neg (by omega), if_pos (by omega), Char.ofNat_toNat]
      rfl
    simp [stringTail, escape, bind, EStateM.bind, hescape]
  | @pair x y z w x' y' z' w' high low hupper hlower hsmall hpoint =>
    have hvalid : c.toNat < 0xD800 ∨ 0xDFFF < c.toNat ∧ c.toNat < 0x110000 := c.valid
    have hescape : unicodeEscape (x :: y :: z :: w :: '\\' :: 'u' :: x' :: y' :: z' :: w' :: cs) = .ok c cs := by
      have hcode : (0xD800 + high - 0xD800) * 0x400 + (0xDC00 + low - 0xDC00) + 0x10000 = c.toNat := by omega
      unfold unicodeEscape
      rw [bind_ok (hexQuad_of_quad? hupper _), if_neg (by omega), if_neg (by omega)]
      have hback : ∀ rest, expectInPair '\\' ('\\' :: rest) = .ok () rest := fun _ => rfl
      have hletter : ∀ rest, expectInPair 'u' ('u' :: rest) = .ok () rest := fun _ => rfl
      rw [bind_ok (hback _), bind_ok (hletter _), bind_ok (hexQuad_of_quad? hlower cs), if_neg (by omega), hcode,
        Char.ofNat_toNat]
      rfl
    simp [stringTail, escape, bind, EStateM.bind, hescape]

theorem stringTail_spelledChars {cs text : List Char} (h : SpellsChars cs text) (read rest : List Char) (fuel : Nat)
    (hfuel : cs.length < fuel) :
    stringTail read fuel (text ++ '"' :: rest) = .ok (String.ofList (read.reverse ++ cs)) rest := by
  induction h generalizing read fuel with
  | nil =>
    obtain ⟨fuel, rfl⟩ : ∃ n, fuel = n + 1 := ⟨fuel - 1, by simp at hfuel; omega⟩
    simp [stringTail_end]
  | cons hhead _ ih =>
    obtain ⟨fuel, rfl⟩ : ∃ n, fuel = n + 1 := ⟨fuel - 1, by simp at hfuel; omega⟩
    rw [List.append_assoc, stringTail_spelled hhead, ih _ _ (by simp at hfuel; omega)]
    simp

theorem length_le_spelled {cs text : List Char} (h : SpellsChars cs text) : cs.length ≤ text.length := by
  induction h with
  | nil => exact Nat.le_refl 0
  | cons hhead _ ih =>
    rw [List.length_cons, List.length_append]
    cases hhead <;> simp only [List.length_cons, List.length_nil] <;> omega

/-- a quoted text, read after its opening quote -/
theorem stringBody_spelled {s : String} {text : List Char} (h : SpellsChars s.toList text) (rest : List Char) :
    stringBody (text ++ '"' :: rest) = .ok s rest := by
  have hlength := length_le_spelled h
  have hbody : ∀ cs, stringBody cs = stringTail [] (cs.length + 1) cs := fun _ => rfl
  rw [hbody, stringTail_spelledChars h _ _ _ (by simp only [List.length_append]; omega)]
  simp

theorem value_spelled {s : String} {text : List Char} (h : SpellsChars s.toList text) (room : Nat) (rest : List Char) :
    value room ('"' :: (text ++ '"' :: rest)) = .ok (.string s) rest := by
  have hpeek : peekToken ('"' :: (text ++ '"' :: rest)) = .ok (some '"') ('"' :: (text ++ '"' :: rest)) := rfl
  have hscalar : scalar '"' ('"' :: (text ++ '"' :: rest)) = .ok (.string s) rest :=
    (bind_ok (bump_cons _ _)).trans (bind_ok (stringBody_spelled h rest))
  cases room with
  | zero => exact (bind_ok hpeek).trans hscalar
  | succ room => exact (bind_ok hpeek).trans hscalar

/-- white space is passed over before it is looked whether another item follows -/
theorem moreItems_gap {gap : List Char} (hgap : ∀ c ∈ gap, isSpace c = true) (first : Bool) (cs : List Char) :
    moreItems first (gap ++ cs) = moreItems first cs := by
  have hpeek : peekToken (gap ++ cs) = peekToken cs := by
    simp only [peekToken, List.dropWhile_append_of_pos hgap]
  simp only [moreItems, bind, EStateM.bind, hpeek]

/-- items are read one by one up to the closing bracket -/
theorem items_itemsText {first : Bool} {strings : List String} {text : List Char} (h : ItemsText first strings text)
    (room : Nat) {fuel : Nat} (hfuel : strings.length < fuel) :
    items (value room) first fuel text = .ok (strings.map .string) [']'] := by
  obtain ⟨fuel, rfl⟩ : ∃ n, fuel = n + 1 := ⟨fuel - 1, by omega⟩
  induction h generalizing fuel with
  | nil hgap =>
    unfold items
    rw [bind_ok (moreItems_end hgap _ [])]
    rfl
  | @cons first s strings before after written rest hbefore hafter hhead _ ih =>
    obtain ⟨fuel, rfl⟩ : ∃ n, fuel = n + 1 := ⟨fuel - 1, by simp at hfuel; omega⟩
    have hopens : Opens (.string s) '"' := ⟨by decide, by decide, by decide, fun h => absurd h (by decide)⟩
    have htext : before ++ lead first ++ after ++ '"' :: (written ++ '"' :: rest) =
        before ++ (lead first ++ after ++ '"' :: (written ++ '"' :: rest)) := by simp
    have hmore := (moreItems_gap hbefore first _).trans (moreItems_item first hafter hopens (written ++ '"' :: rest))
    have hrest := ih fuel (by simp at hfuel; omega)
    rw [htext, items, bind_ok hmore, if_pos rfl, bind_ok (value_spelled hhead room rest), bind_ok hrest]
    rfl

theorem length_lt_of_itemsText {first : Bool} {strings : List String} {text : List Char}
    (h : ItemsText first strings text) : strings.length < text.length := by
  induction h with
  | nil => simp
  | cons _ _ _ _ ih =>
    simp only [List.length_append, List.length_cons]
    omega

end Reader

/-- every text that spells a list of texts is read as the list -/
theorem parse_listText {strings : List String} {text : List Char} (h : ListText strings text) :
    (Decoder.list Decoder.any).parse (String.ofList text) = .ok (strings.map .string) := by
  obtain ⟨rest, rfl, hitems⟩ := h
  have hlength := Reader.length_lt_of_itemsText hitems
  have hread : items (value (maxDepth - 1)) true (rest.length + 1) rest = .ok (strings.map .string) [']'] :=
    Reader.items_itemsText hitems (maxDepth - 1) (by omega)
  have hclosed : Reader.thenClose (items (value (maxDepth - 1)) true (rest.length + 1)) closeArray rest =
      .ok (strings.map .string) [] := Reader.thenClose_ok hread (Reader.closeArray_bracket [])
  have hlist : (Decoder.list Decoder.any).ofText maxDepth ('[' :: rest) = .ok (strings.map .string) [] :=
    Reader.atPlace_ok ((Decoder.withStart_cons (by decide) rest).trans hclosed)
  refine run_eq_ok_iff.2 ⟨[], [], ?_, rfl⟩
  rw [String.toList_ofList]
  exact hlist

end PixelAudit.Json
