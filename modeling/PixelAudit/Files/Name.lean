/-
Names of entries of directories.

A name is a string of bytes and need not be text. Where it is text, the text is asked for by `text?`; where it is shown,
each ill-formed sequence of its bytes stands as one replacement character.
-/
import PixelAudit.Text.Utf8

namespace PixelAudit

structure FileName where
  bytes : List UInt8
  deriving DecidableEq, Repr

namespace FileName

/-- the name that a text is -/
def ofText (text : String) : FileName := ⟨Text.Utf8.encode text⟩

instance : Coe String FileName := ⟨ofText⟩

/-- the text that a name is, if it is one -/
def text? (name : FileName) : Option String := (Text.Utf8.decode name.bytes).toOption

/-- a name as it is shown -/
def shown (name : FileName) : String := Text.Utf8.decodeLossy name.bytes

/-- greatest number of bytes of a name -/
def limit : Nat := 255

/-- nothing can have the name -/
def isTooLong (name : FileName) : Bool := limit < name.bytes.length

/-- the byte between a name and its extension -/
def point : UInt8 := 0x2E

/-- what follows the last point of a name that has something before it, if that is text -/
def extension? (name : FileName) : Option String :=
  match name.bytes.reverse.span (· != point) with
  | (after, _ :: _ :: _) => text? ⟨after.reverse⟩
  | _ => none

end FileName

end PixelAudit
