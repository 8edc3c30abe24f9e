/-
Percent-encoding of text, and its decoding.

A text is written with the letters, digits and four signs of ASCII that stand for themselves, and with a percent sign
and two hexadecimal digits for each byte of all other characters. What is written so has no character that parts
parameters, that is blank or that has a meaning in a quoted text.

Main results: `Percent.decode_encode` (a text is read from what it is percent-encoded to), `Percent.mem_encode` (the
characters that an encoded text has).
-/
import PixelAudit.Proofs.Text.AsciiCase
import PixelAudit.Proofs.Text.Utf8

namespace PixelAudit.Text

/-! ## Percent signs -/

namespace Percent

/-- the characters that stand for themselves -/
def isPlain (c : Char) : Bool := c.isAlphanum || c == '-' || c == '_' || c == '.' || c == '~'

/-- a hexadecimal digit; `capital` says how the digits from ten on are written -/
def hexChar (capital : Bool) (n : Nat) : Char := if capital then (Nat.digitChar n).toUpper else Nat.digitChar n

def encodeByte (capital : Bool) (b : UInt8) : List Char :=
  ['%', hexChar capital (b.toNat / 16), hexChar capital (b.toNat % 16)]

def encodeChar (capital : Bool) (c : Char) : List Char :=
  if isPlain c then [c] else (String.utf8EncodeChar c).flatMap (encodeByte capital)

/-- a text, percent-encoded -/
def encode (capital : Bool) (s : String) : String := String.ofList (s.toList.flatMap (encodeChar capital))

/-- they are in ASCII, and the percent sign is none of them -/
theorem isPlain_ascii {c : Char} (h : isPlain c = true) : c.toNat < 0x80 ∧ c ≠ '%' := by
  induction c using char_cases with
  | hascii code hcode => revert code; decide
  | hother c hc =>
    have hform : isPlain c = (c.isAlpha || c.isDigit || c == '-' || c == '_' || c == '.' || c == '~') := rfl
    rw [hform] at h
    simp only [Bool.or_eq_true, beq_iff_eq, isAlpha_iff] at h
    rcases h with ((((hletter | hdigit) | rfl) | rfl) | rfl) | rfl
    · omega
    · have hnine : c.toNat ≤ 0x39 := (Char.isDigit_iff_toNat.1 hdigit).2
      omega
    all_goals exact absurd hc (by decide)

/-- hexadecimal digits stand for themselves -/
theorem isPlain_hexChar (capital : Bool) {n : Nat} (h : n < 16) : isPlain (hexChar capital n) = true := by
  revert n
  cases capital <;> decide

theorem digit?_hexChar (capital : Bool) {n : Nat} (h : n < 16) :
    digit? (UInt8.ofNat (hexChar capital n).toNat) = some n := by
  revert n
  cases capital <;> decide

/-- an encoded text is made of characters that stand for themselves and of percent signs -/
theorem mem_encode {capital : Bool} {s : String} {c : Char} (h : c ∈ (encode capital s).toList) :
    isPlain c = true ∨ c = '%' := by
  rw [encode, String.toList_ofList] at h
  obtain ⟨d, -, hc⟩ := List.mem_flatMap.1 h
  unfold encodeChar at hc
  split_ifs at hc with hd
  · obtain rfl : c = d := by simpa using hc
    exact Or.inl hd
  · obtain ⟨b, -, hb⟩ := List.mem_flatMap.1 hc
    have hbyte : b.toNat < 256 := b.toNat_lt
    simp only [encodeByte, List.mem_cons, List.not_mem_nil, or_false] at hb
    rcases hb with rfl | rfl | rfl
    · exact Or.inr rfl
    · exact Or.inl (isPlain_hexChar capital (by omega))
    · exact Or.inl (isPlain_hexChar capital (by omega))

theorem decodeBytes_cons {b : UInt8} (h : b ≠ mark) (rest : List UInt8) :
    decodeBytes (b :: rest) = b :: decodeBytes rest := by
  rcases rest with - | ⟨c, - | ⟨d, rest⟩⟩
  · rfl
  · rfl
  · rw [decodeBytes, if_neg h]

/-- two digits after a percent sign are decoded to their byte -/
theorem decodeBytes_encodeByte (capital : Bool) (b : UInt8) (rest : List UInt8) :
    decodeBytes ((encodeByte capital b).flatMap String.utf8EncodeChar ++ rest) = b :: decodeBytes rest := by
  have hb : b.toNat < 256 := b.toNat_lt
  have hhigh : b.toNat / 16 < 16 := by omega
  have hlow : b.toNat % 16 < 16 := by omega
  have hbyte : byte? (UInt8.ofNat (hexChar capital (b.toNat / 16)).toNat)
      (UInt8.ofNat (hexChar capital (b.toNat % 16)).toNat) = some b := by
    have hsum : b.toNat / 16 * 16 + b.toNat % 16 = b.toNat := by omega
    rw [byte?, digit?_hexChar capital hhigh, digit?_hexChar capital hlow]
    exact congrArg some ((congrArg UInt8.ofNat hsum).trans UInt8.ofNat_toNat)
  have htext : (encodeByte capital b).flatMap String.utf8EncodeChar =
      [mark, UInt8.ofNat (hexChar capital (b.toNat / 16)).toNat,
        UInt8.ofNat (hexChar capital (b.toNat % 16)).toNat] := by
    simp only [encodeByte, List.flatMap_cons, List.flatMap_nil,
      Utf8.utf8EncodeChar_one (isPlain_ascii (isPlain_hexChar capital hhigh)).1,
      Utf8.utf8EncodeChar_one (isPlain_ascii (isPlain_hexChar capital hlow)).1]
    rfl
  rw [htext]
  simp only [List.cons_append, List.nil_append]
  rw [decodeBytes, if_pos rfl, hbyte]

/-- an encoded character is decoded to its bytes -/
theorem decodeBytes_encodeChar (capital : Bool) (c : Char) (rest : List UInt8) :
    decodeBytes ((encodeChar capital c).flatMap String.utf8EncodeChar ++ rest) =
      String.utf8EncodeChar c ++ decodeBytes rest := by
  unfold encodeChar
  split_ifs with hc
  · obtain ⟨hascii, hmark⟩ := isPlain_ascii hc
    rw [List.flatMap_singleton, Utf8.utf8EncodeChar_one hascii, List.singleton_append, List.singleton_append,
      decodeBytes_cons]
    intro h
    apply hmark
    rw [← Char.toNat_inj]
    have hcode := congrArg UInt8.toNat h
    rw [UInt8.toNat_ofNat', Nat.mod_eq_of_lt (by omega)] at hcode
    exact hcode
  · generalize String.utf8EncodeChar c = bytes
    induction bytes with
    | nil => rfl
    | cons b bytes ih =>
      rw [List.flatMap_cons, List.flatMap_append, List.append_assoc, decodeBytes_encodeByte, ih, List.cons_append]

theorem decodeBytes_encode (capital : Bool) (s : String) :
    decodeBytes (Utf8.encode (encode capital s)) = Utf8.encode s := by
  rw [Utf8.encode, Utf8.encode, encode, String.toList_ofList]
  induction s.toList with
  | nil => rfl
  | cons c cs ih =>
    rw [List.flatMap_cons, List.flatMap_append, decodeBytes_encodeChar, ih, List.flatMap_cons]

/-- what a text is encoded to is decoded to the text -/
theorem decode_encode (capital : Bool) (s : String) : decode (encode capital s) = .ok s := by
  rw [decode, decodeBytes_encode, Utf8.decode_encode]

end Percent

end PixelAudit.Text
