/-
Unicode data (version 16): where a text may be parted into characters, words and sentences. Every code point has one
part to play in each of the three; those that play none are left out.
-/
import PixelAudit.Text.Property
import PixelAudit.Text.Script

namespace PixelAudit.Text.Break

open Category Property

/-- a script by one of its names -/
def script (name : String) : CodeSet :=
  match Script.tables.find? fun entry => entry.1.contains name with
  | some entry => CodeSet.ofTable entry.2
  | none => []

def carriageReturn : CodeSet := CodeSet.ofTable "D"

def lineFeed : CodeSet := CodeSet.ofTable "A"

def joiner : CodeSet := CodeSet.ofTable "200D"

/-! characters as they are seen -/

namespace Grapheme

def extend : CodeSet := graphemeExtend ++ emojiModifier

def prepended : CodeSet :=
  prependedConcatenationMark ++ CodeSet.ofTable "D4E 111C2-111C3 113D1 1193F 11941 11A3A 11A84-11A89 11D46 11F02"

def control : CodeSet :=
  CodeSet.diff (Category.control ++ format ++ lineSeparator ++ paragraphSeparator ++ defaultIgnorable)
    (carriageReturn ++ lineFeed ++ joiner ++ extend ++ prepended ++ CodeSet.ofTable "115F-1160 3164 FFA0")

/-- spacing marks that do not belong to the character before them -/
def apartMarks : CodeSet := CodeSet.ofTable
    "102B-102C 1038 1062-1064 1067-106D 1083 1087-108C 108F 109A-109C 1A61 1A63-1A64 AA7B AA7D 11720-11721"

def spacing : CodeSet := CodeSet.diff spacingMark (graphemeExtend ++ apartMarks) ++ CodeSet.ofTable "E33 EB3"

/-- syllables of a leading consonant and a vowel -/
def openSyllable : CodeSet := CodeSet.ofTable "AC00-D788/1C"

/-- syllables that have a final consonant too -/
def closedSyllable : CodeSet := CodeSet.diff (CodeSet.ofTable "AC00-D7A3") openSyllable

/-- the parts by their names, written in small letters without separators -/
def all : List (List String × CodeSet) :=
  [
    (["cr"], carriageReturn), (["lf"], lineFeed), (["control", "cn"], control), (["extend", "ex"], extend),
    (["zwj"], joiner), (["regionalindicator", "ri"], regionalIndicator), (["prepend", "pp"], prepended),
    (["spacingmark", "sm"], spacing), (["l"], CodeSet.ofTable "1100-115F A960-A97C"),
    (["v"], CodeSet.ofTable "1160-11A7 D7B0-D7C6 16D63 16D67-16D6A"), (["t"], CodeSet.ofTable "11A8-11FF D7CB-D7FB"),
    (["lv"], openSyllable), (["lvt"], closedSyllable)
  ]

end Grapheme

/-! sentences -/

namespace Sentence

def extend : CodeSet := graphemeExtend ++ spacingMark ++ joiner

def format : CodeSet :=
  CodeSet.diff Category.format (CodeSet.ofTable "600-605 6DD 890-891 8E2 200C-200D 110BD 110CD E0020-E007F")

def lower : CodeSet := CodeSet.diff lowercase (graphemeExtend ++ CodeSet.ofTable "10D0-10FA 10FD-10FF")

def upper : CodeSet := CodeSet.diff (uppercase ++ titlecaseLetter) (CodeSet.ofTable "1C90-1CBA 1CBD-1CBF")

def otherLetter : CodeSet := CodeSet.diff (alphabetic ++ CodeSet.ofTable "5F3") (lower ++ upper ++ extend)

def numeric : CodeSet := decimalNumber ++ CodeSet.ofTable "600-605 66B-66C 6DD 890-891 8E2 19DA 110BD 110CD"

/-- points that may end a sentence or an abbreviation -/
def ambiguousTerminal : CodeSet := CodeSet.ofTable "2E 2024 FE52 FF0E"

def terminal : CodeSet := CodeSet.diff sentenceTerminal ambiguousTerminal

def continuing : CodeSet := CodeSet.ofTable
    "2C-2D 3A-3B 37E 55D 60C-60D 7F8 1802 1808 2013-2014 3001 FE10-FE11 FE13-FE14 FE31-FE32 FE50-FE51 FE54-FE55 FE58
    FE63 FF0C-FF0D FF1A-FF1B FF64"

def close : CodeSet :=
  openPunctuation ++ closePunctuation ++ initialPunctuation ++ finalPunctuation ++
    CodeSet.ofTable "22 27 275B-2760 2E00-2E01 2E06-2E08 2E0B 1F676-1F678"

def separator : CodeSet := CodeSet.ofTable "85 2028-2029"

def blank : CodeSet := CodeSet.diff whiteSpace (carriageReturn ++ lineFeed ++ separator)

/-- the parts by their names, written in small letters without separators -/
def all : List (List String × CodeSet) :=
  [
    (["cr"], carriageReturn), (["lf"], lineFeed), (["sep", "se"], separator), (["extend", "ex"], extend),
    (["format", "fo"], format), (["sp"], blank), (["lower", "lo"], lower), (["upper", "up"], upper),
    (["oletter", "le"], otherLetter), (["numeric", "nu"], numeric), (["aterm", "at"], ambiguousTerminal),
    (["scontinue", "sc"], continuing), (["sterm", "st"], terminal), (["close", "cl"], close)
  ]

end Sentence

/-! words -/

namespace Word

def katakana : CodeSet := script "kana" ++ CodeSet.ofTable "3031-3035 309B-309C 30A0 30FC FF70"

def hebrew : CodeSet := (script "hebr").inter Category.otherLetter

/-- letters of scripts that leave no gaps between words -/
def continuousLetters : CodeSet := CodeSet.ofTable
    "E01-E30 E32-E33 E40-E46 E81-E82 E84 E86-E8A E8C-EA3 EA5 EA7-EB0 EB2-EB3 EBD EC0-EC4 EC6 EDC-EDF 1000-102A 103F
    1050-1055 105A-105D 1061 1065-1066 106E-1070 1075-1081 108E 1780-17B3 17D7 17DC 1950-196D 1970-1974 1980-19AB
    19B0-19C9 1A20-1A54 1AA7 A9E0-A9E4 A9E6-A9EF A9FA-A9FE AA60-AA76 AA7A AA7E-AAAF AAB1 AAB5-AAB6 AAB9-AABD AAC0 AAC2
    AADB-AADD 11700-1171A 11740-11746"

def letter : CodeSet :=
  CodeSet.diff alphabetic
      (ideographic ++ katakana ++ hebrew ++ script "hira" ++ Sentence.extend ++ continuousLetters) ++
    CodeSet.ofTable
      "2C2-2C5 2D2-2D7 2DE-2DF 2E5-2EB 2ED 2EF-2FF 55A-55C 55E 58A 5F3 70F A708-A716 A720-A721 A789-A78A AB5B"

def numeric : CodeSet := CodeSet.diff Sentence.numeric (CodeSet.ofTable "66C")

def extend : CodeSet := CodeSet.diff (Sentence.extend ++ emojiModifier) joiner

def format : CodeSet := CodeSet.diff Sentence.format (CodeSet.ofTable "70F 200B")

def newline : CodeSet := CodeSet.ofTable "B-C 85 2028-2029"

/-- points inside words and numbers alike -/
def innerAny : CodeSet := CodeSet.ofTable "2E 2018-2019 2024 FE52 FF07 FF0E"

/-- points between letters -/
def innerLetter : CodeSet := CodeSet.ofTable "3A B7 387 55F 5F4 2027 FE13 FE55 FF1A"

/-- points between digits -/
def innerNumber : CodeSet := CodeSet.ofTable "2C 3B 37E 589 60C-60D 66C 7F8 2044 FE50 FE54 FF0C FF1B"

def blank : CodeSet := CodeSet.ofTable "20 1680 2000-2006 2008-200A 205F 3000"

/-- the parts by their names, written in small letters without separators -/
def all : List (List String × CodeSet) :=
  [
    (["cr"], carriageReturn), (["lf"], lineFeed), (["newline", "nl"], newline),
    (["extend"], extend), (["zwj"], joiner), (["format", "fo"], format), (["katakana", "ka"], katakana),
    (["hebrewletter", "hl"], hebrew), (["aletter", "le"], letter), (["singlequote", "sq"], CodeSet.ofTable "27"),
    (["doublequote", "dq"], CodeSet.ofTable "22"), (["midnumlet", "mb"], innerAny),
    (["midletter", "ml"], innerLetter), (["midnum", "mn"], innerNumber), (["numeric", "nu"], numeric),
    (["extendnumlet", "ex"], connectorPunctuation ++ CodeSet.ofTable "202F"), (["wsegspace"], blank),
    (["regionalindicator", "ri"], regionalIndicator)
  ]

end Word

end PixelAudit.Text.Break
