/-
Sets of characters by name: general categories and their groups, scripts, binary properties, versions, parts of a text,
and the short classes of digits, blanks, word characters and ASCII.

Names of Unicode properties are compared without regard to case, spaces, underscores and hyphens.
-/
import PixelAudit.Text.Age
import PixelAudit.Text.Break

namespace PixelAudit.Pattern

open Text (CodeSet)

/-- a name in small letters without separators, and without an initial `is` -/
def plainName (name : List Char) : String :=
  let isStart := (name.take 2).map Char.toLower == ['i', 's']
  let body := if isStart then name.drop 2 else name
  let kept := (body.filter fun c => !(c == ' ' || c == '_' || c == '-')).map Char.toLower
  if isStart && kept == ['c'] then "isc" else String.ofList (kept.filter fun c => c.toNat < 0x80)

/-- groups of general categories: names and members -/
def categoryGroups : List (List String × List String) :=
  [
    (["lc", "casedletter"], ["Lu", "Ll", "Lt"]),
    (["l", "letter"], ["Lu", "Ll", "Lt", "Lm", "Lo"]),
    (["m", "mark", "combiningmark"], ["Mn", "Mc", "Me"]),
    (["n", "number"], ["Nd", "Nl", "No"]),
    (["p", "punctuation", "punct"], ["Pc", "Pd", "Ps", "Pe", "Pi", "Pf", "Po"]),
    (["s", "symbol"], ["Sm", "Sc", "Sk", "So"]),
    (["z", "separator"], ["Zs", "Zl", "Zp"]),
    (["digit"], ["Nd"]),
    (["cntrl"], ["Cc"])
  ]

/-- the category with the given short name -/
def categoryShort (short : String) : CodeSet :=
  match Text.Category.all.find? (fun entry => entry.1 == short) with
  | some entry => entry.2.2
  | none => []

/-- a general category, or a group of them, by its plain name -/
def category? (name : String) : Option CodeSet :=
  if name = "any" then some CodeSet.everything
  else if name = "ascii" then some [(0, 0x7F)]
  else if name = "assigned" then some (CodeSet.complement Text.Category.unassigned)
  else if name = "cn" ∨ name = "unassigned" then some Text.Category.unassigned
  else if name = "c" ∨ name = "other" then
    some (["Cc", "Cf", "Co"].flatMap categoryShort ++ Text.Category.unassigned)
  else
    let isNamed (entry : String × String × CodeSet) : Bool :=
      plainName entry.1.toList == name || plainName entry.2.1.toList == name
    match Text.Category.all.find? isNamed with
    | some entry => some entry.2.2
    | none =>
      (categoryGroups.find? fun group => group.1.contains name).map fun group => group.2.flatMap categoryShort

/-- a script by its plain name -/
def script? (name : String) : Option CodeSet :=
  (Text.Script.tables.find? fun entry => entry.1.contains name).map fun entry => CodeSet.ofTable entry.2

/-- a script with what it shares with others, by its plain name -/
def scriptExtension? (name : String) : Option CodeSet :=
  (Text.Script.tables.find? fun entry => entry.1.contains name).map fun (names, table) =>
    match Text.Script.extensions.find? fun entry => names.contains entry.1 with
    | some (_, added, lacking) =>
      CodeSet.diff (CodeSet.ofTable table ++ CodeSet.ofTable added) (CodeSet.ofTable lacking)
    | none => CodeSet.ofTable table

/-- the set that one of the given names stands for -/
def listed? (sets : List (List String × CodeSet)) (name : String) : Option CodeSet :=
  (sets.find? fun entry => entry.1.contains name).map Prod.snd

/-- a set by one name: a property, a general category or a script -/
def named? (name : List Char) : Option CodeSet :=
  let plain := plainName name
  (listed? Text.Property.all plain).or ((category? plain).or (script? plain))

/-- a set by the name of a property and a value of it -/
def valued? (name value : List Char) : Option CodeSet :=
  let plain := plainName name
  let wanted := plainName value
  if plain = "gc" ∨ plain = "generalcategory" then category? wanted
  else if plain = "sc" ∨ plain = "script" then script? wanted
  else if plain = "scx" ∨ plain = "scriptextensions" then scriptExtension? wanted
  else if plain = "age" then Text.Age.upTo? wanted
  else if plain = "gcb" ∨ plain = "graphemeclusterbreak" then listed? Text.Break.Grapheme.all wanted
  else if plain = "wb" ∨ plain = "wordbreak" then listed? Text.Break.Word.all wanted
  else if plain = "sb" ∨ plain = "sentencebreak" then listed? Text.Break.Sentence.all wanted
  else none

/-- the classes named inside brackets, all within ASCII -/
def asciiClasses : List (String × CodeSet) :=
  [
    ("alnum", [(0x30, 0x39), (0x41, 0x5A), (0x61, 0x7A)]), ("alpha", [(0x41, 0x5A), (0x61, 0x7A)]),
    ("ascii", [(0x00, 0x7F)]), ("blank", [(0x09, 0x09), (0x20, 0x20)]), ("cntrl", [(0x00, 0x1F), (0x7F, 0x7F)]),
    ("digit", [(0x30, 0x39)]), ("graph", [(0x21, 0x7E)]), ("lower", [(0x61, 0x7A)]), ("print", [(0x20, 0x7E)]),
    ("punct", [(0x21, 0x2F), (0x3A, 0x40), (0x5B, 0x60), (0x7B, 0x7E)]), ("space", [(0x09, 0x0D), (0x20, 0x20)]),
    ("upper", [(0x41, 0x5A)]), ("word", [(0x30, 0x39), (0x41, 0x5A), (0x5F, 0x5F), (0x61, 0x7A)]),
    ("xdigit", [(0x30, 0x39), (0x41, 0x46), (0x61, 0x66)])
  ]

/-- digits, blanks and word characters by their letters -/
def shortClass (letter : Char) (ascii : Bool) : CodeSet :=
  if letter = 'd' then if ascii then [(0x30, 0x39)] else Text.Category.decimalNumber
  else if letter = 's' then if ascii then [(0x09, 0x0D), (0x20, 0x20)] else Text.Property.whiteSpace
  else if ascii then [(0x30, 0x39), (0x41, 0x5A), (0x5F, 0x5F), (0x61, 0x7A)]
  else Text.Property.word

end PixelAudit.Pattern
