/-
The indented text of a JSON value as a list of characters: how a value starts, and where the items of an array and the
members of an object stand in it.

`nesting` counts the arrays and objects that enclose one another; a reader needs as much room.

Main results: `indented_cons` (a value starts with a character that is neither white space nor a closing bracket),
`indented_array_toList` and `indented_object_toList` (brackets around the items, each on its line). The readers of
brackets, commas and member names follow, each on the text that it is for.
-/
import PixelAudit.Proofs.Json.Scan
import Mathlib.Tactic

namespace PixelAudit.Json

open Reader (isSpace Delimited)
open Decimal

mutual

/-- how many arrays and objects enclose one another in a value -/
def nesting : Json → Nat
  | .array items => nestingItems items + 1
  | .object members => nestingMembers members + 1
  | _ => 0

def nestingItems : List Json → Nat
  | [] => 0
  | item :: rest => max item.nesting (nestingItems rest)

def nestingMembers : List (String × Json) → Nat
  | [] => 0
  | (_, value) :: rest => max value.nesting (nestingMembers rest)

end

theorem nestingItems_le_iff {items : List Json} {n : Nat} :
    nestingItems items ≤ n ↔ ∀ item ∈ items, item.nesting ≤ n := by
  induction items with
  | nil => simp [nestingItems]
  | cons item rest ih => simp [nestingItems, ih]

theorem nestingMembers_le_iff {members : List (String × Json)} {n : Nat} :
    nestingMembers members ≤ n ↔ ∀ m ∈ members, m.2.nesting ≤ n := by
  induction members with
  | nil => simp [nestingMembers]
  | cons m rest ih => simp [nestingMembers, ih]

theorem nesting_le_of_mem {members : List (String × Json)} {m : String × Json} (h : m ∈ members) :
    m.2.nesting ≤ nestingMembers members := nestingMembers_le_iff.1 le_rfl m h

/-! ## What is written of each value -/

section written

variable (depth : Nat)

@[simp] theorem indented_null : Json.null.indented depth = "null" := rfl

@[simp] theorem indented_bool (b : Bool) : (Json.bool b).indented depth = if b then "true" else "false" := by
  cases b <;> rfl

@[simp] theorem indented_real (x : Binary64) : (Json.real x).indented depth = x.documentText := rfl

@[simp] theorem indented_string (s : String) : (Json.string s).indented depth = quote s := rfl

@[simp] theorem indented_array_nil : (Json.array []).indented depth = "[]" := rfl

@[simp] theorem indented_array_cons (item : Json) (rest : List Json) :
    (Json.array (item :: rest)).indented depth = "[" ++ newLine (depth + 1) ++ item.indented (depth + 1) ++
      indentedItems (depth + 1) rest ++ newLine depth ++ "]" := rfl

@[simp] theorem indented_object_nil : (Json.object []).indented depth = "\x7b\x7d" := rfl

@[simp] theorem indented_object_cons (name : String) (value : Json) (rest : List (String × Json)) :
    (Json.object ((name, value) :: rest)).indented depth = "\x7b" ++ newLine (depth + 1) ++ quote name ++ ": " ++
      value.indented (depth + 1) ++ indentedMembers (depth + 1) rest ++ newLine depth ++ "\x7d" := rfl

@[simp] theorem indentedItems_nil : indentedItems depth [] = "" := rfl

@[simp] theorem indentedItems_cons (item : Json) (rest : List Json) : indentedItems depth (item :: rest) =
    "," ++ newLine depth ++ item.indented depth ++ indentedItems depth rest := rfl

@[simp] theorem indentedMembers_nil : indentedMembers depth [] = "" := rfl

@[simp] theorem indentedMembers_cons (name : String) (value : Json) (rest : List (String × Json)) :
    indentedMembers depth ((name, value) :: rest) =
      "," ++ newLine depth ++ quote name ++ ": " ++ value.indented depth ++ indentedMembers depth rest := rfl

end written

/-! ## The first character of a value -/

/-- the value is written as a null -/
def isNullText : Json → Bool
  | .null => true
  | .real x => !x.isFinite
  | _ => false

/-- a character that a value can start with: not white space, and no closing bracket -/
structure Opens (j : Json) (c : Char) : Prop where
  notSpace : isSpace c = false
  notBracket : c ≠ ']'
  notBrace : c ≠ '\x7d'
  onlyNull : c = 'n' → j.isNullText = true

/-- the first character of a number is a sign or a digit -/
theorem Opens.of_digit (j : Json) {c : Char} (h : c = '-' ∨ c.isDigit = true) : Opens j c := by
  have hne : ∀ d : Char, d.isDigit = false → d ≠ '-' → c ≠ d := by
    rintro d hd hminus rfl
    rcases h with h | h
    · exact hminus h
    · rw [hd] at h; cases h
  refine ⟨?_, hne _ (by decide) (by decide), hne _ (by decide) (by decide),
    fun hn => absurd hn (hne _ (by decide) (by decide))⟩
  simp only [isSpace, Bool.or_eq_false_iff, beq_eq_false_iff_ne]
  exact ⟨⟨⟨hne _ (by decide) (by decide), hne _ (by decide) (by decide)⟩, hne _ (by decide) (by decide)⟩,
    hne _ (by decide) (by decide)⟩

theorem toDigits_cons (n : Nat) : ∃ c cs, Nat.toDigits 10 n = c :: cs ∧ c.isDigit = true := by
  cases h : Nat.toDigits 10 n with
  | nil => exact absurd h Nat.toDigits_ne_nil
  | cons c cs => exact ⟨c, cs, rfl, Nat.isDigit_of_mem_toDigits (by omega) (le_refl 10) (h ▸ List.mem_cons_self)⟩

theorem toString_int_cons (n : Int) : ∃ c cs, (toString n).toList = c :: cs ∧ (c = '-' ∨ c.isDigit = true) := by
  rw [Int.toString_eq_repr, Int.repr_eq_if]
  split_ifs
  · obtain ⟨c, cs, hcs, hc⟩ := toDigits_cons n.toNat
    exact ⟨c, cs, by rw [Nat.toList_repr, hcs], Or.inr hc⟩
  · exact ⟨'-', (-n).toNat.repr.toList, by simp, Or.inl rfl⟩

theorem positional_cons {digits : List Char} {d : Char} {ds : List Char} (h : digits = d :: ds)
    (hd : d.isDigit = true) (exponent : Int) (whole : String) :
    ∃ c cs, (positional digits exponent whole).toList = c :: cs ∧ c.isDigit = true := by
  subst h
  unfold positional
  dsimp only
  split_ifs with hpos hplaces
  · exact ⟨d, _, by simp; rfl, hd⟩
  · obtain ⟨k, hk⟩ : ∃ k, (d :: ds).length - (-exponent).toNat = k + 1 :=
      ⟨_, (Nat.succ_pred_eq_of_pos (Nat.sub_pos_of_lt hplaces)).symm⟩
    exact ⟨d, _, by rw [String.toList_ofList, hk, List.take_succ_cons, List.cons_append], hd⟩
  · exact ⟨'0', _, by simp; rfl, by decide⟩

theorem scientific_cons {digits : List Char} {d : Char} {ds : List Char} (h : digits = d :: ds) (exponent : Int) :
    ∃ cs, (scientific digits exponent).toList = d :: cs := by
  subst h
  cases ds with
  | nil => exact ⟨_, by simp [scientific]; rfl⟩
  | cons e ds => exact ⟨_, by simp [scientific]; rfl⟩

/-- a finite number starts with its sign or a digit -/
theorem documentText_cons {x : Binary64} (h : x.isFinite = true) :
    ∃ c cs, x.documentText.toList = c :: cs ∧ (c = '-' ∨ c.isDigit = true) := by
  have hsign : ∀ (s : Bool) (text : String), (∃ c cs, text.toList = c :: cs ∧ c.isDigit = true) →
      ∃ c cs, (signText s ++ text).toList = c :: cs ∧ (c = '-' ∨ c.isDigit = true) := by
    rintro s text ⟨c, cs, htext, hc⟩
    cases s with
    | true => exact ⟨'-', text.toList, by simp [signText], Or.inl rfl⟩
    | false => exact ⟨c, cs, by simp [signText, htext], Or.inr hc⟩
  cases x with
  | finite s m e =>
    cases m with
    | zero => exact hsign s "0.0" ⟨'0', ['.', '0'], rfl, by decide⟩
    | succ m =>
      obtain ⟨d, ds, hds, hd⟩ := toDigits_cons (Binary64.shortest (m + 1) e).digits
      refine hsign s _ ?_
      split_ifs
      · exact positional_cons hds hd _ _
      · obtain ⟨cs, hcs⟩ := scientific_cons hds ((Binary64.shortest (m + 1) e).exponent +
          (digitChars (Binary64.shortest (m + 1) e).digits).length - 1)
        exact ⟨d, cs, hcs, hd⟩
  | infinite s => cases h
  | nan => cases h

/-- every value starts with a character by which it is known not to be the end of a list -/
theorem indented_cons (j : Json) (depth : Nat) : ∃ c cs, (j.indented depth).toList = c :: cs ∧ Opens j c := by
  cases j with
  | null => exact ⟨'n', ['u', 'l', 'l'], by simp, by decide, by decide, by decide, fun _ => rfl⟩
  | bool b =>
    cases b with
    | true => exact ⟨'t', ['r', 'u', 'e'], by simp, by decide, by decide, by decide, by decide⟩
    | false => exact ⟨'f', ['a', 'l', 's', 'e'], by simp, by decide, by decide, by decide, by decide⟩
  | integer n =>
    obtain ⟨c, cs, hcs, hc⟩ := toString_int_cons n
    exact ⟨c, cs, hcs, Opens.of_digit _ hc⟩
  | real x =>
    cases hx : x.isFinite with
    | true =>
      obtain ⟨c, cs, hcs, hc⟩ := documentText_cons hx
      exact ⟨c, cs, hcs, Opens.of_digit _ hc⟩
    | false =>
      refine ⟨'n', ['u', 'l', 'l'], ?_, by decide, by decide, by decide, fun _ => by simp [isNullText, hx]⟩
      cases x with
      | finite => cases hx
      | infinite s => simp [Binary64.documentText]
      | nan => simp [Binary64.documentText]
  | string s =>
    exact ⟨'"', _, by simp [quote]; rfl, by decide, by decide, by decide, fun h => absurd h (by decide)⟩
  | array items =>
    refine ⟨'[', ?_⟩
    cases items with
    | nil => exact ⟨[']'], by simp, by decide, by decide, by decide, fun h => absurd h (by decide)⟩
    | cons item rest =>
      exact ⟨_, by simp; rfl, by decide, by decide, by decide, fun h => absurd h (by decide)⟩
  | object members =>
    refine ⟨'\x7b', ?_⟩
    cases members with
    | nil => exact ⟨['\x7d'], by simp, by decide, by decide, by decide, fun h => absurd h (by decide)⟩
    | cons m rest =>
      obtain ⟨name, value⟩ := m
      exact ⟨_, by simp; rfl, by decide, by decide, by decide, fun h => absurd h (by decide)⟩

/-! ## Items and members in their places -/

/-- the comma before an item or a member, unless it is the first -/
def lead (first : Bool) : List Char := if first then [] else [',']

/-- items, each on a line of its own -/
def itemsText (first : Bool) (depth : Nat) : List Json → List Char
  | [] => []
  | item :: rest =>
    lead first ++ (newLine depth).toList ++ (item.indented depth).toList ++ itemsText false depth rest

/-- members, each on a line of its own -/
def membersText (first : Bool) (depth : Nat) : List (String × Json) → List Char
  | [] => []
  | (name, value) :: rest =>
    lead first ++ (newLine depth).toList ++ (quote name).toList ++ [':', ' '] ++ (value.indented depth).toList ++
      membersText false depth rest

/-- what stands between the last item and the closing bracket -/
def closingGap {α : Type} (depth : Nat) (items : List α) : List Char :=
  if items.isEmpty then [] else (newLine depth).toList

theorem indentedItems_toList (depth : Nat) (items : List Json) :
    (indentedItems depth items).toList = itemsText false depth items := by
  induction items with
  | nil => simp [itemsText]
  | cons item rest ih => simp [itemsText, lead, ih]

theorem indentedMembers_toList (depth : Nat) (members : List (String × Json)) :
    (indentedMembers depth members).toList = membersText false depth members := by
  induction members with
  | nil => simp [membersText]
  | cons m rest ih =>
    obtain ⟨name, value⟩ := m
    simp [membersText, lead, ih]

theorem indented_array_toList (depth : Nat) (items : List Json) :
    ((Json.array items).indented depth).toList =
      '[' :: (itemsText true (depth + 1) items ++ (closingGap depth items ++ [']'])) := by
  cases items with
  | nil => simp [itemsText, closingGap]
  | cons item rest => simp [itemsText, closingGap, lead, indentedItems_toList]

theorem indented_object_toList (depth : Nat) (members : List (String × Json)) :
    ((Json.object members).indented depth).toList =
      '\x7b' :: (membersText true (depth + 1) members ++ (closingGap depth members ++ ['\x7d'])) := by
  cases members with
  | nil => simp [membersText, closingGap]
  | cons m rest =>
    obtain ⟨name, value⟩ := m
    simp [membersText, closingGap, lead, indentedMembers_toList]

theorem isSpace_newLine (depth : Nat) : ∀ c ∈ (newLine depth).toList, isSpace c = true := by
  intro c hc
  simp only [newLine, String.toList_append, String.toList_ofList, List.mem_append, List.mem_replicate] at hc
  rcases hc with hc | ⟨-, rfl⟩
  · obtain rfl : c = '\n' := by simpa using hc
    decide
  · decide

theorem isSpace_closingGap {α : Type} (depth : Nat) (items : List α) :
    ∀ c ∈ closingGap depth items, isSpace c = true := by
  intro c hc
  unfold closingGap at hc
  split_ifs at hc
  · cases hc
  · exact isSpace_newLine depth c hc

/-- the text of a list is long enough to be fuel for reading its items -/
theorem length_lt_itemsText (depth : Nat) (items : List Json) (rest : List Char) (first : Bool) :
    items.length < (itemsText first depth items ++ rest).length + 1 := by
  induction items generalizing first with
  | nil => simp
  | cons item items ih =>
    have hrest := ih false
    have hline : 1 ≤ ("\n".toList).length := by decide
    simp only [itemsText, newLine, List.length_cons, List.length_append, String.toList_append] at hrest ⊢
    omega

theorem length_lt_membersText (depth : Nat) (members : List (String × Json)) (rest : List Char) (first : Bool) :
    members.length < (membersText first depth members ++ rest).length + 1 := by
  induction members generalizing first with
  | nil => simp
  | cons m members ih =>
    obtain ⟨name, value⟩ := m
    have hrest := ih false
    simp only [membersText, List.length_cons, List.length_append, List.length_nil] at hrest ⊢
    omega

/-! ## Delimiters in their places -/

theorem delimited_itemsText (depth : Nat) (items : List Json) {rest : List Char} (h : Delimited rest) :
    Delimited (itemsText false depth items ++ rest) := by
  cases items with
  | nil => exact h
  | cons item items =>
    intro c hc
    obtain rfl : ',' = c := by simpa [itemsText, lead] using hc
    exact Or.inl rfl

theorem delimited_membersText (depth : Nat) (members : List (String × Json)) {rest : List Char} (h : Delimited rest) :
    Delimited (membersText false depth members ++ rest) := by
  cases members with
  | nil => exact h
  | cons m members =>
    intro c hc
    obtain rfl : ',' = c := by simpa [membersText, lead] using hc
    exact Or.inl rfl

/-- the closing bracket of a list that is not empty stands on a line of its own -/
theorem delimited_closingGap {α : Type} (depth : Nat) {items : List α} (hne : items ≠ []) (rest : List Char) :
    Delimited (closingGap depth items ++ rest) := by
  rw [closingGap, if_neg (by simpa using hne)]
  intro c hc
  obtain rfl : '\n' = c := by simpa [newLine] using hc
  exact Or.inr rfl

/-- the text of one member as its name, a colon and its value -/
theorem membersText_cons (first : Bool) (depth : Nat) (name : String) (j : Json) (ms : List (String × Json))
    (rest : List Char) : ∃ cs, (quote name).toList ++ ([':', ' '] ++ ((j.indented depth).toList ++
      (membersText false depth ms ++ rest))) = '"' :: cs ∧
      membersText first depth ((name, j) :: ms) ++ rest = lead first ++ (newLine depth).toList ++ '"' :: cs := by
  refine ⟨name.toList.flatMap escapeChar ++ '"' :: ':' :: ' ' :: ((j.indented depth).toList ++
    (membersText false depth ms ++ rest)), ?_, ?_⟩
  · simp [quote]
  · simp [membersText, quote]

/-! ## The readers of brackets, commas and names -/

namespace Reader

variable {α : Type}

theorem atPlace_ok {r : Reader α} {cs rest : List Char} {a : α} (h : r cs = .ok a rest) :
    atPlace r cs = .ok a rest := by
  simp only [atPlace, h]

theorem thenClose_ok {body : Reader α} {close : Reader Unit} {cs mid rest : List Char} {a : α}
    (hbody : body cs = .ok a mid) (hclose : close mid = .ok () rest) : thenClose body close cs = .ok a rest := by
  simp only [thenClose, hbody, hclose]

theorem closeArray_bracket (rest : List Char) : closeArray (']' :: rest) = .ok () rest := rfl

theorem closeObject_brace (rest : List Char) : closeObject ('\x7d' :: rest) = .ok () rest := rfl

/-- before the closing bracket no item follows -/
theorem moreItems_end {blanks : List Char} (hblanks : ∀ c ∈ blanks, isSpace c = true) (first : Bool)
    (rest : List Char) : moreItems first (blanks ++ ']' :: rest) = .ok false (']' :: rest) := by
  unfold moreItems
  rw [bind_ok (peekToken_blanks hblanks (by decide) rest)]
  rfl

/-- before an item, with a comma unless it is the first, another one follows -/
theorem moreItems_item (first : Bool) {blanks : List Char} (hblanks : ∀ c ∈ blanks, isSpace c = true) {j : Json}
    {c : Char} (hc : Opens j c) (cs : List Char) :
    moreItems first (lead first ++ blanks ++ c :: cs) = .ok true (c :: cs) := by
  unfold moreItems
  cases first with
  | true =>
    rw [lead, if_pos rfl, List.nil_append, bind_ok (peekToken_blanks hblanks hc.notSpace cs)]
    simp only [hc.notBracket, ↓reduceIte]
    rfl
  | false =>
    have hcomma : peekToken (lead false ++ blanks ++ c :: cs) = .ok (some ',') (',' :: (blanks ++ c :: cs)) := rfl
    rw [bind_ok hcomma]
    have hbump : bump (',' :: (blanks ++ c :: cs)) = .ok () (blanks ++ c :: cs) := rfl
    simp only [show (',' : Char) ≠ ']' by decide, ↓reduceIte, Bool.false_eq_true]
    rw [bind_ok hbump, bind_ok (peekToken_blanks hblanks hc.notSpace cs)]
    simp only [hc.notBracket, ↓reduceIte]
    rfl

theorem moreMembers_end {blanks : List Char} (hblanks : ∀ c ∈ blanks, isSpace c = true) (first : Bool)
    (rest : List Char) : moreMembers first (blanks ++ '\x7d' :: rest) = .ok false ('\x7d' :: rest) := by
  unfold moreMembers
  rw [bind_ok (peekToken_blanks hblanks (by decide) rest)]
  rfl

theorem moreMembers_member (first : Bool) {blanks : List Char} (hblanks : ∀ c ∈ blanks, isSpace c = true)
    (cs : List Char) : moreMembers first (lead first ++ blanks ++ '"' :: cs) = .ok true ('"' :: cs) := by
  unfold moreMembers
  cases first with
  | true =>
    rw [lead, if_pos rfl, List.nil_append, bind_ok (peekToken_blanks hblanks (by decide) cs)]
    rfl
  | false =>
    have hcomma : peekToken (lead false ++ blanks ++ '"' :: cs) = .ok (some ',') (',' :: (blanks ++ '"' :: cs)) := rfl
    rw [bind_ok hcomma]
    have hbump : bump (',' :: (blanks ++ '"' :: cs)) = .ok () (blanks ++ '"' :: cs) := rfl
    simp only [show (',' : Char) ≠ '\x7d' by decide, ↓reduceIte, Bool.false_eq_true]
    rw [bind_ok hbump, bind_ok (peekToken_blanks hblanks (by decide) cs)]
    rfl

/-- the name of a member is read with its quotes -/
theorem memberKey_quote (name : String) (rest : List Char) :
    memberKey ((quote name).toList ++ rest) = .ok name rest := by
  have htext : (quote name).toList ++ rest = '"' :: (name.toList.flatMap escapeChar ++ '"' :: rest) := by
    simp [quote]
  rw [htext]
  exact (bind_ok (bump_cons _ _)).trans (stringBody_quoted name _)

theorem colon_cons (rest : List Char) : colon (':' :: rest) = .ok () rest := rfl

end Reader

end PixelAudit.Json
