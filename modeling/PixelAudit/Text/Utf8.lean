/-
UTF-8: bytes to characters and back, with the place and the length of the first ill-formed sequence. Bytes that are only
shown are read past all ill-formed sequences.
-/

namespace PixelAudit.Text.Utf8

/-- why bytes are not UTF-8 -/
inductive Fault where
  /-- `length` bytes from `index` on begin no character -/
  | invalid (length index : Nat)
  /-- the bytes end inside a character that begins at `index` -/
  | incomplete (index : Nat)
  deriving DecidableEq, Repr

def Fault.message : Fault → String
  | .invalid length index => s!"invalid utf-8 sequence of {length} bytes from index {index}"
  | .incomplete index => s!"incomplete utf-8 byte sequence from index {index}"

/-- what the first byte of a longer character fixes -/
structure Lead where
  /-- number of bytes still to come -/
  tails : Nat
  /-- least second byte -/
  low : Nat
  /-- greatest second byte -/
  high : Nat
  /-- the bits of the code point that the first byte gives -/
  bits : Nat

def lead? (b : Nat) : Option Lead :=
  if 0xC2 ≤ b ∧ b ≤ 0xDF then some ⟨1, 0x80, 0xBF, b - 0xC0⟩
  else if b = 0xE0 then some ⟨2, 0xA0, 0xBF, 0⟩
  else if b = 0xED then some ⟨2, 0x80, 0x9F, 0xD⟩
  else if 0xE1 ≤ b ∧ b ≤ 0xEF then some ⟨2, 0x80, 0xBF, b - 0xE0⟩
  else if b = 0xF0 then some ⟨3, 0x90, 0xBF, 0⟩
  else if 0xF1 ≤ b ∧ b ≤ 0xF3 then some ⟨3, 0x80, 0xBF, b - 0xF0⟩
  else if b = 0xF4 then some ⟨3, 0x80, 0x8F, 4⟩
  else none

def isTail (b : Nat) : Bool := 0x80 ≤ b && b ≤ 0xBF

/-- a code point followed by six more bits -/
def extend (code : Nat) (b : Nat) : Nat := code * 64 + (b - 0x80)

/-- read characters from bytes that begin at the given index -/
def decodeFrom (index : Nat) : List UInt8 → Except Fault (List Char)
  | [] => .ok []
  | a :: rest =>
    if a.toNat < 0x80 then (decodeFrom (index + 1) rest).map (Char.ofNat a.toNat :: ·)
    else match lead? a.toNat, rest with
      | none, _ => .error (.invalid 1 index)
      | some _, [] => .error (.incomplete index)
      | some lead, b :: rest =>
        if b.toNat < lead.low ∨ lead.high < b.toNat then .error (.invalid 1 index)
        else if lead.tails = 1 then
          (decodeFrom (index + 2) rest).map (Char.ofNat (extend lead.bits b.toNat) :: ·)
        else match rest with
          | [] => .error (.incomplete index)
          | c :: rest =>
            if !isTail c.toNat then .error (.invalid 2 index)
            else if lead.tails = 2 then
              (decodeFrom (index + 3) rest).map (Char.ofNat (extend (extend lead.bits b.toNat) c.toNat) :: ·)
            else match rest with
              | [] => .error (.incomplete index)
              | d :: rest =>
                if !isTail d.toNat then .error (.invalid 3 index)
                else
                  let code := extend (extend (extend lead.bits b.toNat) c.toNat) d.toNat
                  (decodeFrom (index + 4) rest).map (Char.ofNat code :: ·)

/-- the text that the bytes spell -/
def decode (bytes : List UInt8) : Except Fault String := (decodeFrom 0 bytes).map String.ofList

/-- an ill-formed sequence is not empty -/
theorem length_pos_of_decodeFrom {index length place : Nat} {bytes : List UInt8}
    (h : decodeFrom index bytes = .error (.invalid length place)) : 0 < length := by
  have hmap : ∀ {c : Char} {x : Except Fault (List Char)}, x.map (c :: ·) = .error (.invalid length place) →
      x = .error (.invalid length place) := by
    intro c x hx
    cases x with
    | error fault => exact hx
    | ok cs => cases hx
  fun_induction decodeFrom index bytes with
  | case2 index a rest ha ih => exact ih (hmap h)
  | case6 index a ha lead b rest hlead hfit htails ih => exact ih (hmap h)
  | case9 index a ha lead b hlead hfit htails c rest hc htails' ih => exact ih (hmap h)
  | case12 index a ha lead b hlead hfit htails c hc htails' d rest hd code ih => exact ih (hmap h)
  | _ => grind

/-- the characters that the bytes spell, with a replacement character for each ill-formed sequence -/
def lossyChars (bytes : List UInt8) : List Char :=
  match _h : decodeFrom 0 bytes with
  | .ok cs => cs
  | .error (.incomplete index) => (decodeFrom 0 (bytes.take index)).toOption.getD [] ++ ['\uFFFD']
  | .error (.invalid length index) =>
    (decodeFrom 0 (bytes.take index)).toOption.getD [] ++ '\uFFFD' :: lossyChars (bytes.drop (index + length))
termination_by bytes.length
decreasing_by
  have hne : bytes ≠ [] := by
    rintro rfl
    cases _h
  have hlength := length_pos_of_decodeFrom _h
  have hbytes := List.length_pos_iff.2 hne
  rw [List.length_drop]
  omega

/-- the bytes as a text to be shown: the text that they spell, if there is one -/
def decodeLossy (bytes : List UInt8) : String :=
  match decode bytes with
  | .ok text => text
  | .error _ => String.ofList (lossyChars bytes)

/-- the bytes of a text -/
def encode (s : String) : List UInt8 := s.toList.flatMap String.utf8EncodeChar

end PixelAudit.Text.Utf8
