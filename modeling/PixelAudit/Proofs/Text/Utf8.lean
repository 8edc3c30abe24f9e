/-
UTF-8: what the bytes of a text are read as, and which bytes are read as a text.

Reading takes the shortest form of each character and nothing else. So a text is read from its bytes, and from no other
bytes.

Main results: `decode_eq_ok_iff` (a text is read exactly from its own bytes), `isPrefix_encode_iff` (and what it begins
with is what the bytes begin with).
-/
import PixelAudit.Text.Utf8
import Mathlib.Tactic.IntervalCases

namespace PixelAudit.Text

namespace Utf8

/-! ## The bytes of a character -/

/-- the lead of a character of two bytes -/
theorem lead?_two {k : Nat} (hlow : 2 ≤ k) (hhigh : k < 32) : lead? (k + 192) = some ⟨1, 0x80, 0xBF, k⟩ := by
  rw [lead?, if_pos (by omega), Nat.add_sub_cancel]

/-- the lead of a character of three bytes; the second byte keeps out short forms and surrogates -/
theorem lead?_three {k : Nat} (h : k < 16) :
    lead? (k + 224) = some ⟨2, if k = 0 then 0xA0 else 0x80, if k = 13 then 0x9F else 0xBF, k⟩ := by
  interval_cases k <;> rfl

/-- the lead of a character of four bytes; the second byte keeps out short forms and what lies past the last plane -/
theorem lead?_four {k : Nat} (h : k < 5) :
    lead? (k + 240) = some ⟨3, if k = 0 then 0x90 else 0x80, if k = 4 then 0x8F else 0xBF, k⟩ := by
  interval_cases k <;> rfl

theorem isTail_low (n : Nat) : isTail (n % 64 + 128) = true := by
  simp only [isTail, Bool.and_eq_true, decide_eq_true_eq]
  omega

/-- the code point of a character is no surrogate -/
theorem toNat_cases (c : Char) : c.toNat < 0xD800 ∨ 0xDFFF < c.toNat ∧ c.toNat < 0x110000 := c.valid

theorem utf8EncodeChar_one {c : Char} (h : c.toNat < 0x80) : String.utf8EncodeChar c = [UInt8.ofNat c.toNat] :=
  if_pos (show c.val.toNat ≤ 127 from by change c.toNat ≤ 127; omega)

theorem utf8EncodeChar_two {c : Char} (hlow : 0x80 ≤ c.toNat) (hhigh : c.toNat < 0x800) :
    String.utf8EncodeChar c = [UInt8.ofNat (c.toNat / 64 + 192), UInt8.ofNat (c.toNat % 64 + 128)] := by
  change 128 ≤ c.val.toNat at hlow
  change c.val.toNat < 2048 at hhigh
  unfold String.utf8EncodeChar
  simp only [show ¬ c.val.toNat ≤ 127 by omega, show c.val.toNat ≤ 2047 by omega, if_true, if_false]
  rw [Nat.mod_eq_of_lt (by omega)]
  rfl

theorem utf8EncodeChar_three {c : Char} (hlow : 0x800 ≤ c.toNat) (hhigh : c.toNat < 0x10000) :
    String.utf8EncodeChar c = [UInt8.ofNat (c.toNat / 4096 + 224), UInt8.ofNat (c.toNat / 64 % 64 + 128),
      UInt8.ofNat (c.toNat % 64 + 128)] := by
  change 2048 ≤ c.val.toNat at hlow
  change c.val.toNat < 65536 at hhigh
  unfold String.utf8EncodeChar
  simp only [show ¬ c.val.toNat ≤ 127 by omega, show ¬ c.val.toNat ≤ 2047 by omega,
    show c.val.toNat ≤ 65535 by omega, if_true, if_false]
  rw [Nat.mod_eq_of_lt (by omega)]
  rfl

theorem utf8EncodeChar_four {c : Char} (hlow : 0x10000 ≤ c.toNat) :
    String.utf8EncodeChar c = [UInt8.ofNat (c.toNat / 262144 + 240), UInt8.ofNat (c.toNat / 4096 % 64 + 128),
      UInt8.ofNat (c.toNat / 64 % 64 + 128), UInt8.ofNat (c.toNat % 64 + 128)] := by
  have hvalid := toNat_cases c
  change 65536 ≤ c.val.toNat at hlow
  change c.val.toNat < 55296 ∨ 57343 < c.val.toNat ∧ c.val.toNat < 1114112 at hvalid
  unfold String.utf8EncodeChar
  simp only [show ¬ c.val.toNat ≤ 127 by omega, show ¬ c.val.toNat ≤ 2047 by omega,
    show ¬ c.val.toNat ≤ 65535 by omega, if_false]
  rw [Nat.mod_eq_of_lt (show c.val.toNat / 262144 < 8 by omega)]
  rfl

/-! ## Reading them -/

variable {c : Char} {index : Nat} {rest : List UInt8}

theorem decodeFrom_one (h : c.toNat < 0x80) :
    decodeFrom index (String.utf8EncodeChar c ++ rest) = (decodeFrom (index + 1) rest).map (c :: ·) := by
  have hbyte : (UInt8.ofNat c.toNat).toNat = c.toNat := by
    rw [UInt8.toNat_ofNat']
    omega
  rw [utf8EncodeChar_one h, List.singleton_append, decodeFrom.eq_def]
  dsimp only
  rw [hbyte, if_pos h, Char.ofNat_toNat]

theorem decodeFrom_two (hlow : 0x80 ≤ c.toNat) (hhigh : c.toNat < 0x800) :
    decodeFrom index (String.utf8EncodeChar c ++ rest) = (decodeFrom (index + 2) rest).map (c :: ·) := by
  have hfirst : (UInt8.ofNat (c.toNat / 64 + 192)).toNat = c.toNat / 64 + 192 := by
    rw [UInt8.toNat_ofNat']
    omega
  have hsecond : (UInt8.ofNat (c.toNat % 64 + 128)).toNat = c.toNat % 64 + 128 := by
    rw [UInt8.toNat_ofNat']
    omega
  have hcode : extend (c.toNat / 64) (c.toNat % 64 + 128) = c.toNat := by
    unfold extend
    omega
  rw [utf8EncodeChar_two hlow hhigh, List.cons_append, List.singleton_append, decodeFrom.eq_def]
  simp only [hfirst, hsecond, lead?_two (show 2 ≤ c.toNat / 64 by omega) (by omega), hcode, Char.ofNat_toNat]
  rw [if_neg (by omega), if_neg (by omega), if_pos trivial]

theorem decodeFrom_three (hlow : 0x800 ≤ c.toNat) (hhigh : c.toNat < 0x10000) :
    decodeFrom index (String.utf8EncodeChar c ++ rest) = (decodeFrom (index + 3) rest).map (c :: ·) := by
  have hvalid := toNat_cases c
  have hfirst : (UInt8.ofNat (c.toNat / 4096 + 224)).toNat = c.toNat / 4096 + 224 := by
    rw [UInt8.toNat_ofNat']
    omega
  have htail : ∀ n, (UInt8.ofNat (n % 64 + 128)).toNat = n % 64 + 128 := by
    intro n
    rw [UInt8.toNat_ofNat']
    omega
  have hcode : extend (extend (c.toNat / 4096) (c.toNat / 64 % 64 + 128)) (c.toNat % 64 + 128) = c.toNat := by
    unfold extend
    omega
  rw [utf8EncodeChar_three hlow hhigh, List.cons_append, List.cons_append, List.singleton_append, decodeFrom.eq_def]
  simp only [hfirst, htail, isTail_low, lead?_three (show c.toNat / 4096 < 16 by omega), hcode, Char.ofNat_toNat]
  rw [if_neg (by omega), if_neg]
  · rfl
  · split_ifs <;> omega

theorem decodeFrom_four (hlow : 0x10000 ≤ c.toNat) :
    decodeFrom index (String.utf8EncodeChar c ++ rest) = (decodeFrom (index + 4) rest).map (c :: ·) := by
  have hvalid := toNat_cases c
  have hfirst : (UInt8.ofNat (c.toNat / 262144 + 240)).toNat = c.toNat / 262144 + 240 := by
    rw [UInt8.toNat_ofNat']
    omega
  have htail : ∀ n, (UInt8.ofNat (n % 64 + 128)).toNat = n % 64 + 128 := by
    intro n
    rw [UInt8.toNat_ofNat']
    omega
  have hcode : extend (extend (extend (c.toNat / 262144) (c.toNat / 4096 % 64 + 128)) (c.toNat / 64 % 64 + 128))
      (c.toNat % 64 + 128) = c.toNat := by
    unfold extend
    omega
  rw [utf8EncodeChar_four hlow, List.cons_append, List.cons_append, List.cons_append, List.singleton_append,
    decodeFrom.eq_def]
  simp only [hfirst, htail, isTail_low, lead?_four (show c.toNat / 262144 < 5 by omega), hcode, Char.ofNat_toNat]
  rw [if_neg (by omega), if_neg]
  · rfl
  · split_ifs <;> omega

/-- the bytes of a character are read as that character -/
theorem decodeFrom_utf8EncodeChar (c : Char) (index : Nat) (rest : List UInt8) :
    ∃ next, decodeFrom index (String.utf8EncodeChar c ++ rest) = (decodeFrom next rest).map (c :: ·) := by
  rcases Nat.lt_or_ge c.toNat 0x80 with h | h
  · exact ⟨_, decodeFrom_one h⟩
  rcases Nat.lt_or_ge c.toNat 0x800 with h' | h'
  · exact ⟨_, decodeFrom_two h h'⟩
  rcases Nat.lt_or_ge c.toNat 0x10000 with h'' | h''
  · exact ⟨_, decodeFrom_three h' h''⟩
  · exact ⟨_, decodeFrom_four h''⟩

/-- the bytes of characters are read as these, and what follows is read on its own -/
theorem decodeFrom_encode_append (cs : List Char) (index : Nat) (rest : List UInt8) :
    ∃ next, decodeFrom index (cs.flatMap String.utf8EncodeChar ++ rest) = (decodeFrom next rest).map (cs ++ ·) := by
  induction cs generalizing index with
  | nil =>
    refine ⟨index, ?_⟩
    cases hrest : decodeFrom index rest <;> simp [hrest, Except.map]
  | cons c cs ih =>
    obtain ⟨next, hnext⟩ := decodeFrom_utf8EncodeChar c index (cs.flatMap String.utf8EncodeChar ++ rest)
    obtain ⟨last, hlast⟩ := ih next
    refine ⟨last, ?_⟩
    rw [List.flatMap_cons, List.append_assoc, hnext, hlast]
    cases decodeFrom last rest <;> rfl

/-- the bytes of a text are read as that text -/
theorem decode_encode (s : String) : decode (encode s) = .ok s := by
  obtain ⟨next, hnext⟩ := decodeFrom_encode_append s.toList 0 []
  rw [List.append_nil] at hnext
  rw [decode, encode, hnext]
  simp [decodeFrom, Except.map]


/-! ## Bytes that are read -/

/-- what a first byte tells, by the number of bytes that follow it -/
theorem lead?_eq_some {a : Nat} {lead : Lead} (h : lead? a = some lead) :
    (lead.tails = 1 ∧ a = lead.bits + 192 ∧ 2 ≤ lead.bits ∧ lead.bits < 32 ∧ lead.low = 0x80 ∧ lead.high = 0xBF) ∨
    (lead.tails = 2 ∧ a = lead.bits + 224 ∧ lead.bits < 16 ∧ lead.low = (if lead.bits = 0 then 0xA0 else 0x80) ∧
      lead.high = if lead.bits = 13 then 0x9F else 0xBF) ∨
    (lead.tails = 3 ∧ a = lead.bits + 240 ∧ lead.bits < 5 ∧ lead.low = (if lead.bits = 0 then 0x90 else 0x80) ∧
      lead.high = if lead.bits = 4 then 0x8F else 0xBF) := by
  unfold lead? at h
  split_ifs at h <;> cases h <;> grind

theorem toNat_ofNat {n : Nat} (h : n < 0xD800 ∨ 0xDFFF < n ∧ n < 0x110000) : (Char.ofNat n).toNat = n := by
  have hvalid : n.isValidChar := h
  rw [Char.ofNat, dif_pos hvalid]
  rfl

variable {a b c d : UInt8} {k : Nat}

theorem ofNat_of_toNat {n : Nat} (h : a.toNat = n) : UInt8.ofNat n = a := by rw [← h, UInt8.ofNat_toNat]

/-- two bytes that are read as one character are those of the character -/
theorem utf8EncodeChar_extend_two (ha : a.toNat = k + 192) (hk : 2 ≤ k ∧ k < 32)
    (hb : 0x80 ≤ b.toNat ∧ b.toNat ≤ 0xBF) : String.utf8EncodeChar (.ofNat (extend k b.toNat)) = [a, b] := by
  unfold extend
  have hcode : (Char.ofNat (k * 64 + (b.toNat - 0x80))).toNat = k * 64 + (b.toNat - 0x80) := toNat_ofNat (by omega)
  rw [utf8EncodeChar_two (by omega) (by omega), hcode, ofNat_of_toNat (a := a) (by omega),
    ofNat_of_toNat (a := b) (by omega)]

/-- three bytes that are read as one character are those of the character -/
theorem utf8EncodeChar_extend_three (ha : a.toNat = k + 224) (hk : k < 16)
    (hb : (if k = 0 then 0xA0 else 0x80) ≤ b.toNat ∧ b.toNat ≤ if k = 13 then 0x9F else 0xBF)
    (hc : 0x80 ≤ c.toNat ∧ c.toNat ≤ 0xBF) :
    String.utf8EncodeChar (.ofNat (extend (extend k b.toNat) c.toNat)) = [a, b, c] := by
  have hb' : 0x80 ≤ b.toNat ∧ b.toNat ≤ 0xBF ∧ (k = 0 → 0xA0 ≤ b.toNat) ∧ (k = 13 → b.toNat ≤ 0x9F) := by
    split_ifs at hb <;> omega
  unfold extend
  have hcode : (Char.ofNat ((k * 64 + (b.toNat - 0x80)) * 64 + (c.toNat - 0x80))).toNat =
      (k * 64 + (b.toNat - 0x80)) * 64 + (c.toNat - 0x80) := toNat_ofNat (by omega)
  rw [utf8EncodeChar_three (by omega) (by omega), hcode, ofNat_of_toNat (a := a) (by omega),
    ofNat_of_toNat (a := b) (by omega), ofNat_of_toNat (a := c) (by omega)]

/-- four bytes that are read as one character are those of the character -/
theorem utf8EncodeChar_extend_four (ha : a.toNat = k + 240) (hk : k < 5)
    (hb : (if k = 0 then 0x90 else 0x80) ≤ b.toNat ∧ b.toNat ≤ if k = 4 then 0x8F else 0xBF)
    (hc : 0x80 ≤ c.toNat ∧ c.toNat ≤ 0xBF) (hd : 0x80 ≤ d.toNat ∧ d.toNat ≤ 0xBF) :
    String.utf8EncodeChar (.ofNat (extend (extend (extend k b.toNat) c.toNat) d.toNat)) = [a, b, c, d] := by
  have hb' : 0x80 ≤ b.toNat ∧ b.toNat ≤ 0xBF ∧ (k = 0 → 0x90 ≤ b.toNat) ∧ (k = 4 → b.toNat ≤ 0x8F) := by
    split_ifs at hb <;> omega
  unfold extend
  have hcode : (Char.ofNat (((k * 64 + (b.toNat - 0x80)) * 64 + (c.toNat - 0x80)) * 64 + (d.toNat - 0x80))).toNat =
      ((k * 64 + (b.toNat - 0x80)) * 64 + (c.toNat - 0x80)) * 64 + (d.toNat - 0x80) := toNat_ofNat (by omega)
  rw [utf8EncodeChar_four (by omega), hcode, ofNat_of_toNat (a := a) (by omega), ofNat_of_toNat (a := b) (by omega),
    ofNat_of_toNat (a := c) (by omega), ofNat_of_toNat (a := d) (by omega)]

theorem isTail_iff {n : Nat} : isTail n = true ↔ 0x80 ≤ n ∧ n ≤ 0xBF := by simp [isTail]

/-- what is read are the characters whose bytes these are -/
theorem flatMap_of_decodeFrom {index : Nat} {bytes : List UInt8} {cs : List Char}
    (h : decodeFrom index bytes = .ok cs) : cs.flatMap String.utf8EncodeChar = bytes := by
  have hmap : ∀ {ch : Char} {x : Except Fault (List Char)} {cs : List Char}, x.map (ch :: ·) = .ok cs →
      ∃ rest, x = .ok rest ∧ cs = ch :: rest := by
    intro ch x cs hx
    cases x with
    | error fault => cases hx
    | ok rest => exact ⟨rest, rfl, (Except.ok.inj hx).symm⟩
  fun_induction decodeFrom index bytes generalizing cs with
  | case1 =>
    cases h
    rfl
  | case2 index a rest ha ih =>
    obtain ⟨cs, hrest, rfl⟩ := hmap h
    have hchar : (Char.ofNat a.toNat).toNat = a.toNat := toNat_ofNat (by omega)
    rw [List.flatMap_cons, ih hrest, utf8EncodeChar_one (by omega), hchar, UInt8.ofNat_toNat, List.singleton_append]
  | case6 index a ha lead b rest hlead hfit htails ih =>
    obtain ⟨cs, hrest, rfl⟩ := hmap h
    rcases lead?_eq_some hlead with ⟨-, hbyte, hmin, hmax, hlow, hhigh⟩ | ⟨htwo, -⟩ | ⟨hthree, -⟩
    · rw [List.flatMap_cons, ih hrest, utf8EncodeChar_extend_two hbyte ⟨hmin, hmax⟩ (by omega)]
      rfl
    · omega
    · omega
  | case9 index a ha lead b hlead hfit htails c rest hc htails' ih =>
    obtain ⟨cs, hrest, rfl⟩ := hmap h
    rcases lead?_eq_some hlead with ⟨hone, -⟩ | ⟨-, hbyte, hmax, hlow, hhigh⟩ | ⟨hthree, -⟩
    · omega
    · rw [List.flatMap_cons, ih hrest, utf8EncodeChar_extend_three hbyte hmax (by rw [← hlow, ← hhigh]; omega)
        (isTail_iff.1 (by simpa using hc))]
      rfl
    · omega
  | case12 index a ha lead b hlead hfit htails c hc htails' d rest hd code =>
    rename_i ih
    obtain ⟨cs, hrest, rfl⟩ := hmap h
    rcases lead?_eq_some hlead with ⟨hone, -⟩ | ⟨htwo, -⟩ | ⟨-, hbyte, hmax, hlow, hhigh⟩
    · omega
    · omega
    · rw [List.flatMap_cons, ih hrest, utf8EncodeChar_extend_four hbyte hmax (by rw [← hlow, ← hhigh]; omega)
        (isTail_iff.1 (by simpa using hc)) (isTail_iff.1 (by simpa using hd))]
      rfl
  | _ => cases h

/-- a text is read exactly from its own bytes -/
theorem decode_eq_ok_iff {bytes : List UInt8} {s : String} : decode bytes = .ok s ↔ bytes = encode s := by
  constructor
  · intro h
    unfold decode at h
    cases hchars : decodeFrom 0 bytes with
    | error fault =>
      rw [hchars] at h
      cases h
    | ok cs =>
      rw [hchars] at h
      obtain rfl := Except.ok.inj h
      rw [encode, String.toList_ofList, flatMap_of_decodeFrom hchars]
  · rintro rfl
    exact decode_encode s

theorem encode_append (s t : String) : encode (s ++ t) = encode s ++ encode t := by
  rw [encode, encode, encode, String.toList_append, List.flatMap_append]

/-- bytes that are read as a text begin with those of another exactly if the text begins with it -/
theorem isPrefix_encode_iff {bytes : List UInt8} {front s : String} (h : decode bytes = .ok s) :
    encode front <+: bytes ↔ front.toList <+: s.toList := by
  constructor
  · rintro ⟨rest, rfl⟩
    obtain ⟨next, hnext⟩ := decodeFrom_encode_append front.toList 0 rest
    rw [decode, encode, hnext] at h
    cases hrest : decodeFrom next rest with
    | error fault =>
      rw [hrest] at h
      cases h
    | ok cs =>
      rw [hrest] at h
      obtain rfl := Except.ok.inj h
      exact ⟨cs, String.toList_ofList.symm⟩
  · rintro ⟨rest, hrest⟩
    rw [decode_eq_ok_iff.1 h, encode, encode, ← hrest, List.flatMap_append]
    exact List.prefix_append _ _

end Utf8

end PixelAudit.Text
