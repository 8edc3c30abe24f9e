/-
How the readers of JSON text behave on text that was written: they stand before `written ++ rest` and stop before
`rest`.

A string ends at its quote, whatever follows. A number is read up to the next delimiter, so that what is known of a
number that stands alone (it reads as `v`, and nothing is left) holds wherever a delimiter follows it; `Steady` says so
of a reader and the text before it, and is proved reader by reader.

Main results: `stringBody_quoted` (a quoted text is read as the text), `Steady.number` (a number reads alike before any
delimiter).
-/
import PixelAudit.Document.Decoder
import Mathlib.Tactic

namespace PixelAudit.Json.Reader

variable {α β : Type}

theorem bind_ok {x : Reader α} {f : α → Reader β} {cs rest : List Char} {a : α} (h : x cs = .ok a rest) :
    (x >>= f) cs = f a rest := by
  simp only [bind, EStateM.bind, h]

theorem bind_eq_ok {x : Reader α} {f : α → Reader β} {cs rest : List Char} {b : β} (h : (x >>= f) cs = .ok b rest) :
    ∃ a mid, x cs = .ok a mid ∧ f a mid = .ok b rest := by
  simp only [bind, EStateM.bind] at h
  cases hx : x cs with
  | ok a mid => rw [hx] at h; exact ⟨a, mid, rfl, h⟩
  | error e mid => rw [hx] at h; cases h

@[simp] theorem peek_cons (c : Char) (cs : List Char) : peek (c :: cs) = .ok (some c) (c :: cs) := rfl

@[simp] theorem bump_cons (c : Char) (cs : List Char) : bump (c :: cs) = .ok () cs := rfl

/-- white space is passed over on the way to the next character -/
theorem peekToken_blanks {blanks : List Char} (hblanks : ∀ c ∈ blanks, isSpace c = true) {c : Char}
    (hc : isSpace c = false) (cs : List Char) : peekToken (blanks ++ c :: cs) = .ok (some c) (c :: cs) := by
  have hdrop : (blanks ++ c :: cs).dropWhile isSpace = c :: cs := by
    rw [List.dropWhile_append_of_pos hblanks, List.dropWhile_cons_of_neg (by simp [hc])]
  simp [peekToken, hdrop]

/-! ## Strings -/

theorem hexDigit?_digitChar : ∀ n < 16, Decimal.hexDigit? (Nat.digitChar n) = some n := by decide

/-- a control character takes at most two digits, and is filled up with zeros -/
theorem toDigits_control : ∀ n < 0x20,
    List.replicate (4 - (Nat.toDigits 16 n).length) '0' ++ Nat.toDigits 16 n =
      ['0', '0', Nat.digitChar (n / 16), Nat.digitChar (n % 16)] := by decide

theorem controlText_eq {c : Char} (h : c.toNat < 0x20) :
    controlText c = ['\\', 'u', '0', '0', Nat.digitChar (c.toNat / 16), Nat.digitChar (c.toNat % 16)] := by
  have hd := toDigits_control c.toNat h
  simp only [controlText, List.append_assoc, hd]
  rfl

theorem hexQuad_control {n : Nat} (h : n < 0x20) (rest : List Char) :
    hexQuad ('0' :: '0' :: Nat.digitChar (n / 16) :: Nat.digitChar (n % 16) :: rest) = .ok n rest := by
  have h0 : Decimal.hexDigit? '0' = some 0 := by decide
  simp only [hexQuad, h0, hexDigit?_digitChar (n / 16) (by omega), hexDigit?_digitChar (n % 16) (by omega)]
  congr 1
  omega

theorem unicodeEscape_control {c : Char} (h : c.toNat < 0x20) (rest : List Char) :
    unicodeEscape ('0' :: '0' :: Nat.digitChar (c.toNat / 16) :: Nat.digitChar (c.toNat % 16) :: rest) =
      .ok c rest := by
  unfold unicodeEscape
  rw [bind_ok (hexQuad_control h rest)]
  rw [if_neg (by omega), if_pos (by omega), Char.ofNat_toNat]
  rfl

/-- an escaped character is read as that character -/
theorem stringTail_escapeChar (read : List Char) (fuel : Nat) (c : Char) (cs : List Char) :
    stringTail read (fuel + 1) (escapeChar c ++ cs) = stringTail (c :: read) fuel cs := by
  unfold escapeChar
  split_ifs with hquote hback hplain hn hr ht hb hf
  · subst hquote
    rfl
  · subst hback
    rfl
  · have hlow : ¬ c.toNat < 0x20 := by omega
    simp [stringTail, bind, EStateM.bind, hquote, hback, hlow]
  · subst hn
    rfl
  · subst hr
    rfl
  · subst ht
    rfl
  · obtain rfl : c = Char.ofNat 0x8 := by rw [← hb, Char.ofNat_toNat]
    rfl
  · obtain rfl : c = Char.ofNat 0xC := by rw [← hf, Char.ofNat_toNat]
    rfl
  · have hcontrol : c.toNat < 0x20 := by omega
    rw [controlText_eq hcontrol]
    have hu := unicodeEscape_control hcontrol cs
    simp [stringTail, escape, bind, EStateM.bind, hu]

theorem stringTail_end (read rest : List Char) (fuel : Nat) :
    stringTail read (fuel + 1) ('"' :: rest) = .ok (String.ofList read.reverse) rest := by
  simp [stringTail, bind, EStateM.bind, pure, EStateM.pure]

theorem stringTail_flatMap (read cs rest : List Char) (fuel : Nat) (h : cs.length < fuel) :
    stringTail read fuel (cs.flatMap escapeChar ++ '"' :: rest) = .ok (String.ofList (read.reverse ++ cs)) rest := by
  induction cs generalizing read fuel with
  | nil =>
    obtain ⟨fuel, rfl⟩ : ∃ n, fuel = n + 1 := ⟨fuel - 1, by simp at h; omega⟩
    simp [stringTail_end]
  | cons c cs ih =>
    obtain ⟨fuel, rfl⟩ : ∃ n, fuel = n + 1 := ⟨fuel - 1, by simp at h; omega⟩
    rw [List.flatMap_cons, List.append_assoc, stringTail_escapeChar, ih _ _ (by simp at h; omega)]
    simp

theorem length_le_flatMap_escapeChar (cs : List Char) : cs.length ≤ (cs.flatMap escapeChar).length := by
  induction cs with
  | nil => simp
  | cons c cs ih =>
    have hc : 1 ≤ (escapeChar c).length := by
      unfold escapeChar controlText
      split_ifs <;> simp
    simp only [List.flatMap_cons, List.length_append, List.length_cons]
    omega

/-- the text between quotes, read after the opening quote -/
theorem stringBody_quoted (s : String) (rest : List Char) :
    stringBody (s.toList.flatMap escapeChar ++ '"' :: rest) = .ok s rest := by
  have hlen := length_le_flatMap_escapeChar s.toList
  have hbody : ∀ cs, stringBody cs = stringTail [] (cs.length + 1) cs := fun _ => rfl
  rw [hbody, stringTail_flatMap _ _ _ _ (by simp only [List.length_append]; omega)]
  simp

/-! ## Numbers

A number has no end of its own: it ends where a character follows that it cannot have. -/

/-- what follows a value in a text: nothing, a comma or the end of the line -/
def Delimited (rest : List Char) : Prop := ∀ c ∈ rest.head?, c = ',' ∨ c = '\n'

/-- what the reader makes of `cs` does not change when a delimiter follows -/
def Steady (r : Reader α) (cs : List Char) : Prop :=
  ∀ a mid, r cs = .ok a mid → ∀ rest, Delimited rest → r (cs ++ rest) = .ok a (mid ++ rest)

theorem Steady.pure (a : α) (cs : List Char) : Steady (pure a) cs := by
  rintro b mid ⟨⟩ rest -
  rfl

theorem Steady.failHere (fault : Fault) (cs : List Char) : Steady (failHere (α := α) fault) cs := by
  rintro a mid ⟨⟩

theorem Steady.failAhead (fault : Fault) (cs : List Char) : Steady (failAhead (α := α) fault) cs := by
  rintro a mid ⟨⟩

theorem Steady.bind {x : Reader α} {f : α → Reader β} {cs : List Char} (hx : Steady x cs)
    (hf : ∀ a mid, x cs = .ok a mid → Steady (f a) mid) : Steady (x >>= f) cs := by
  intro b last h rest hrest
  obtain ⟨a, mid, ha, hb⟩ := bind_eq_ok h
  rw [bind_ok (hx a mid ha rest hrest)]
  exact hf a mid ha b last hb rest hrest

theorem Steady.bump (c : Char) (cs : List Char) : Steady bump (c :: cs) := by
  rintro a mid ⟨⟩ rest -
  rfl

theorem Steady.peek_cons {f : Option Char → Reader α} {c : Char} {cs : List Char} (h : Steady (f (some c)) (c :: cs)) :
    Steady (peek >>= f) (c :: cs) := h

theorem Steady.peek_nil {f : Option Char → Reader α}
    (h : ∀ a mid, f none [] = .ok a mid → ∀ rest, Delimited rest → f rest.head? rest = .ok a (mid ++ rest)) :
    Steady (peek >>= f) [] := h

theorem isDigit_eq (c : Char) : Decimal.isDigit c = c.isDigit := by
  simp only [Decimal.isDigit, Char.isDigit, Char.le_def]

theorem isDigit_of_delimiter {c : Char} (h : c = ',' ∨ c = '\n') : Decimal.isDigit c = false := by
  rcases h with rfl | rfl <;> decide

theorem Steady.digits (cs : List Char) : Steady digits cs := by
  rintro a mid ⟨⟩ rest hrest
  have hstop : rest.takeWhile Decimal.isDigit = [] ∧ rest.dropWhile Decimal.isDigit = rest := by
    cases rest with
    | nil => exact ⟨rfl, rfl⟩
    | cons c rest => simp [isDigit_of_delimiter (hrest c rfl)]
  have happ : (cs ++ rest).takeWhile Decimal.isDigit = cs.takeWhile Decimal.isDigit ∧
      (cs ++ rest).dropWhile Decimal.isDigit = cs.dropWhile Decimal.isDigit ++ rest := by
    induction cs with
    | nil => simpa using hstop
    | cons c cs ih => by_cases hc : Decimal.isDigit c <;> simp [hc, ih]
  simp only [Reader.digits, happ]

theorem Steady.realNumber (negative : Bool) (significand : Nat) (exponent : Int) (cs : List Char) :
    Steady (realNumber negative significand exponent) cs := by
  unfold Json.realNumber
  split
  · exact Steady.pure _ _
  · exact Steady.failHere _ _

/-- digits of an exponent are read alike with any fuel that suffices -/
theorem exponentDigits_append {cs mid : List Char} {value fuel : Nat} {o : Option Nat}
    (h : exponentDigits value fuel cs = .ok o mid) (hfuel : cs.length < fuel) {rest : List Char}
    (hrest : Delimited rest) {more : Nat} (hmore : (cs ++ rest).length < more) :
    exponentDigits value more (cs ++ rest) = .ok o (mid ++ rest) := by
  obtain ⟨fuel, rfl⟩ : ∃ n, fuel = n + 1 := ⟨fuel - 1, by omega⟩
  obtain ⟨more, rfl⟩ : ∃ n, more = n + 1 := ⟨more - 1, by omega⟩
  induction cs generalizing value fuel more with
  | nil =>
    obtain ⟨rfl, rfl⟩ : o = some value ∧ mid = [] := by
      cases h
      exact ⟨rfl, rfl⟩
    cases rest with
    | nil => rfl
    | cons c rest => simp [exponentDigits, bind, EStateM.bind, isDigit_of_delimiter (hrest c rfl), pure, EStateM.pure]
  | cons c cs ih =>
    simp only [List.length_cons, List.cons_append] at hfuel hmore ⊢
    unfold exponentDigits at h ⊢
    rw [bind_ok (peek_cons c _)] at h ⊢
    by_cases hc : Decimal.isDigit c
    · simp only [hc, ↓reduceIte] at h ⊢
      rw [bind_ok (bump_cons c _)] at h ⊢
      split_ifs at h ⊢ with hlimit
      · obtain ⟨fuel, rfl⟩ : ∃ n, fuel = n + 1 := ⟨fuel - 1, by omega⟩
        obtain ⟨more, rfl⟩ : ∃ n, more = n + 1 := ⟨more - 1, by omega⟩
        exact ih fuel h (by omega) more (by omega)
      · cases h
        rfl
    · simp only [hc] at h ⊢
      cases h
      rfl

/-- an exponent, as a reader that takes its fuel from the text -/
theorem Steady.exponentDigits {f : Option Nat → Reader α} {cs : List Char} (hf : ∀ o mid, Steady (f o) mid) :
    Steady (do f (← exponentDigits 0 ((← get).length + 1))) cs := by
  intro a last h rest hrest
  obtain ⟨o, mid, ho, ha⟩ := bind_eq_ok (x := Json.exponentDigits 0 (cs.length + 1)) h
  have happ := exponentDigits_append ho (Nat.lt_succ_self _) hrest (Nat.lt_succ_self (cs ++ rest).length)
  exact (bind_ok happ).trans (hf o mid a last ha rest hrest)

/-- the digits of an exponent, after its sign -/
theorem Steady.exponentValue (negative : Bool) (significand : Nat) (start : Int) (down : Bool) (cs : List Char) :
    Steady (exponentValue negative significand start down) cs := by
  unfold Json.exponentValue
  cases cs with
  | nil =>
    refine Steady.peek_nil ?_
    rintro a mid ⟨⟩
  | cons d mid =>
    refine Steady.peek_cons ?_
    dsimp only
    split
    · refine Steady.exponentDigits fun o mid => ?_
      cases o with
      | some n => exact Steady.realNumber _ _ _ _
      | none =>
        dsimp only
        split_ifs
        · exact Steady.failHere _ _
        · exact (Steady.digits mid).bind fun _ _ _ => Steady.pure _ _
    · exact Steady.failAhead _ _

theorem Steady.exponentPart (negative : Bool) (significand : Nat) (start : Int) (c : Char) (cs : List Char) :
    Steady (exponentPart negative significand start) (c :: cs) := by
  unfold Json.exponentPart
  refine (Steady.bump c cs).bind fun _ mid _ => ?_
  cases mid with
  | nil =>
    refine Steady.peek_nil fun a mid h rest hrest => ?_
    have hend := Steady.exponentValue negative significand start false [] a mid h rest hrest
    cases rest with
    | nil => exact hend
    | cons d rest => rcases hrest d rfl with rfl | rfl <;> exact hend
  | cons d mid =>
    refine Steady.peek_cons ?_
    dsimp only
    split
    · exact (Steady.bump _ _).bind fun _ mid _ => Steady.exponentValue _ _ _ false mid
    · exact (Steady.bump _ _).bind fun _ mid _ => Steady.exponentValue _ _ _ true mid
    · exact Steady.exponentValue _ _ _ false _

theorem Steady.exponentOrEnd (negative : Bool) (significand : Nat) (exponent : Int) (cs : List Char) :
    Steady (exponentOrEnd negative significand exponent) cs := by
  unfold Json.exponentOrEnd
  cases cs with
  | nil =>
    refine Steady.peek_nil fun a mid h rest hrest => ?_
    have hend := Steady.realNumber negative significand exponent [] a mid h rest hrest
    cases rest with
    | nil => exact hend
    | cons d rest => rcases hrest d rfl with rfl | rfl <;> exact hend
  | cons c cs =>
    refine Steady.peek_cons ?_
    split
    · exact Steady.exponentPart _ _ _ _ _
    · exact Steady.exponentPart _ _ _ _ _
    · exact Steady.realNumber _ _ _ _

theorem Steady.fractionPart (negative : Bool) (significand : Nat) (exponent : Int) (c : Char) (cs : List Char) :
    Steady (fractionPart negative significand exponent) (c :: cs) := by
  unfold Json.fractionPart
  refine (Steady.bump c cs).bind fun _ mid _ => (Steady.digits mid).bind fun ds mid _ => ?_
  split_ifs
  · cases mid with
    | nil =>
      refine Steady.peek_nil ?_
      rintro a mid ⟨⟩
    | cons d mid => exact Steady.peek_cons (Steady.failAhead _ _)
  · exact Steady.exponentOrEnd _ _ _ _

theorem Steady.number_after (negative : Bool) (significand dropped : Nat) (cs : List Char) :
    Steady (number.after negative significand dropped) cs := by
  have hwhole : ∀ mid, Steady (if dropped ≠ 0 then Json.realNumber negative significand dropped
      else if !negative then (Pure.pure (.integer significand) : Reader Json)
      else if significand = 0 ∨ 2 ^ 63 < significand then
        Pure.pure (.real (Decimal.Binary64.ofNat significand).negate)
      else Pure.pure (.integer (-(significand : Int)))) mid := by
    intro mid
    split_ifs
    · exact Steady.realNumber _ _ _ _
    all_goals exact Steady.pure _ _
  unfold number.after
  cases cs with
  | nil =>
    refine Steady.peek_nil fun a mid h rest hrest => ?_
    have hend := hwhole [] a mid h rest hrest
    cases rest with
    | nil => exact hend
    | cons d rest => rcases hrest d rfl with rfl | rfl <;> exact hend
  | cons c cs =>
    refine Steady.peek_cons ?_
    split
    · exact Steady.fractionPart _ _ _ _ _
    · exact Steady.exponentPart _ _ _ _ _
    · exact Steady.exponentPart _ _ _ _ _
    · exact hwhole _

theorem Steady.number (negative : Bool) (cs : List Char) : Steady (number negative) cs := by
  unfold Json.number
  cases cs with
  | nil =>
    refine Steady.peek_nil ?_
    rintro a mid ⟨⟩
  | cons c cs =>
    refine Steady.peek_cons ?_
    split
    · contradiction
    · refine (Steady.bump _ _).bind fun _ mid _ => ?_
      cases mid with
      | nil =>
        refine Steady.peek_nil fun a mid h rest hrest => ?_
        have hend := Steady.number_after negative 0 0 [] a mid h rest hrest
        cases rest with
        | nil => exact hend
        | cons d rest => simpa [isDigit_of_delimiter (hrest d rfl)] using hend
      | cons d mid =>
        refine Steady.peek_cons ?_
        dsimp only
        split_ifs
        · exact Steady.failAhead _ _
        · exact Steady.number_after _ _ _ _
    · split_ifs
      · exact (Steady.digits _).bind fun ds mid _ => Steady.number_after _ _ _ _
      · exact Steady.failAhead _ _

end PixelAudit.Json.Reader
