import Hati.Text.Script
import Hati.Text.Trait

namespace Hati
namespace Segment

/-!
# Where texts may be divided

Unicode sorts characters into classes that tell where a text may be divided into
user-perceived characters, words and sentences.  A class has its long name and its
short one, both in lower case.  A character that is in no class listed here is of
the class "other", which has no set.
-/

abbrev Classes := List (List String × CharSet)

def codes (row : String) : CharSet :=
  .ofRows [row]

def format : CharSet := Trait.ofCategory .format

def spacingMark : CharSet := Trait.ofCategory .spacingMark

def zeroWidthJoiner : CharSet := .single '\u200d'

/-! ## User-perceived characters -/

def hangulSyllables : CharSet := .ofRows ["ac00-d7a3"]

/-- Syllables without a final consonant: every twenty-eighth one. -/
def openSyllables : CharSet :=
  .ofRanges ((List.range 399).map fun i => ⟨0xac00 + 28 * i, 0xac00 + 28 * i⟩)

/-- Characters that belong to the one behind them. -/
def prepend : CharSet :=
  Trait.prependedMark.union (.ofRows [
    "d4e 111c2-111c3 113d1 1193f 11941 11a3a 11a84-11a89 11d46 11f02"])

/-- Spacing marks that do not belong to the character before them. -/
def separateMarks : CharSet := .ofRows [
  "102b-102c 1038 1062-1064 1067-106d 1083 1087-108c 108f 109a-109c 1a61 1a63-1a64 aa7b aa7d",
  "11720-11721"]

def graphemes : Classes := [
  (["cr"], codes "d"),
  (["lf"], codes "a"),
  (["control", "cn"],
    ((Trait.ofCategories fun
      | .lineSeparator | .paragraphSeparator | .control | .format => true
      | _ => false).union
        ((Trait.ofCategory .unassigned).intersection Trait.defaultIgnorable)).difference
      (.unions [codes "a d 200c-200d", Trait.prependedMark, Trait.graphemeExtend])),
  (["extend", "ex"], Trait.graphemeExtend.union Trait.emojiModifier),
  (["zwj"], zeroWidthJoiner),
  (["regionalindicator", "ri"], Trait.regionalIndicator),
  (["prepend", "pp"], prepend),
  (["spacingmark", "sm"],
    ((spacingMark.difference Trait.graphemeExtend).union (.ofRows ["e33 eb3"])).difference
      separateMarks),
  (["l"], .ofRows ["1100-115f a960-a97c"]),
  (["v"], .ofRows ["1160-11a7 d7b0-d7c6 16d63 16d67-16d6a"]),
  (["t"], .ofRows ["11a8-11ff d7cb-d7fb"]),
  (["lv"], openSyllables),
  (["lvt"], hangulSyllables.difference openSyllables)]

/-! ## Words -/

/-- Characters of scripts that do not put spaces between words. -/
def unspaced : CharSet := .ofRows [
  "e01-e3a e40-e4e e81-e82 e84 e86-e8a e8c-ea3 ea5 ea7-ebd ec0-ec4 ec6 ec8-ece edc-edf 1000-103f",
  "1050-108f 109a-109f 1780-17d3 17d7 17dc-17dd 1950-196d 1970-1974 1980-19ab 19b0-19c9 19da",
  "19de-19df 1a20-1a5e 1a60-1a7c 1aa0-1aad a9e0-a9ef a9fa-a9fe aa60-aac2 aadb-aadf 11700-1171a",
  "1171d-1172b 1173a-1173b 1173f-11746"]

/-- Marks that stand before a number and span it. -/
def numberSigns : CharSet :=
  Trait.prependedMark.difference (.ofRows ["70f"])

def ofScript (name : String) : CharSet :=
  ((Script.ofName? name).map Script.set).getD .empty

def katakana : CharSet :=
  (ofScript "kana").union (.ofRows ["3031-3035 309b-309c 30a0 30fc ff70"])

def hebrewLetter : CharSet :=
  (ofScript "hebr").intersection (Trait.ofCategory .otherLetter)

def wordExtend : CharSet :=
  (CharSet.unions [Trait.graphemeExtend, spacingMark, Trait.emojiModifier]).difference
    zeroWidthJoiner

def wordLetter : CharSet :=
  (Trait.alphabetic.union (.ofRows [
    "2c2-2c5 2d2-2d7 2de-2df 2e5-2eb 2ed 2ef-2ff 55a-55c 55e 58a 5f3 70f a708-a716 a720-a721",
    "a789-a78a ab5b"])).difference
    (.unions [Trait.ideographic, katakana, unspaced, ofScript "hira", wordExtend, hebrewLetter])

def words : Classes := [
  (["cr"], codes "d"),
  (["lf"], codes "a"),
  (["newline", "nl"], codes "b-c 85 2028-2029"),
  (["extend"], wordExtend),
  (["zwj"], zeroWidthJoiner),
  (["format", "fo"],
    format.difference (.unions [codes "200b-200d", wordExtend, Trait.prependedMark])),
  (["katakana", "ka"], katakana),
  (["hebrewletter", "hl"], hebrewLetter),
  (["aletter", "le"], wordLetter),
  (["singlequote", "sq"], .single '\''),
  (["doublequote", "dq"], .single '"'),
  (["midnumlet", "mb"], .ofRows ["2e 2018-2019 2024 fe52 ff07 ff0e"]),
  (["midletter", "ml"], .ofRows ["3a b7 387 55f 5f4 2027 fe13 fe55 ff1a"]),
  (["midnum", "mn"], .ofRows [
    "2c 3b 37e 589 60c-60d 66c 7f8 2044 fe10 fe14 fe50 fe54 ff0c ff1b"]),
  (["numeric", "nu"], .unions [Trait.digit, numberSigns, .ofRows ["66b"]]),
  (["extendnumlet", "ex"], (Trait.ofCategory .connectorPunctuation).union (.ofRows ["202f"])),
  (["regionalindicator", "ri"], Trait.regionalIndicator),
  (["wsegspace"], .ofRows ["20 1680 2000-2006 2008-200a 205f 3000"])]

/-! ## Sentences -/

def separators : CharSet := codes "85 2028-2029"

def sentenceExtend : CharSet :=
  .unions [Trait.graphemeExtend, spacingMark, zeroWidthJoiner]

/-- Small letters, but for those that have capitals only in headlines. -/
def sentenceLower : CharSet :=
  (Trait.lowercase.difference Trait.graphemeExtend).difference (.ofRows ["10d0-10fa 10fd-10ff"])

def sentenceUpper : CharSet :=
  (Trait.uppercase.union (Trait.ofCategory .titlecaseLetter)).difference
    (.ofRows ["1c90-1cba 1cbd-1cbf"])

def fullStops : CharSet := .ofRows ["2e 2024 fe52 ff0e"]

def sentenceEnds : CharSet :=
  Trait.sentenceTerminal.difference fullStops

def quotations : CharSet := .ofRows [
  "22 27 ab bb 2018-2019 201b-201d 201f 2039-203a 275b-2760 2e00-2e0d 2e1c-2e1d 2e20-2e21",
  "1f676-1f678"]

def sentences : Classes := [
  (["cr"], codes "d"),
  (["lf"], codes "a"),
  (["extend", "ex"], sentenceExtend),
  (["sep", "se"], separators),
  (["format", "fo"],
    format.difference (.unions [codes "200c-200d", sentenceExtend, numberSigns])),
  (["sp"], Trait.blank.difference (separators.union (codes "a d"))),
  (["lower", "lo"], sentenceLower),
  (["upper", "up"], sentenceUpper),
  (["oletter", "le"],
    (Trait.alphabetic.union (.ofRows ["5f3"])).difference
      (.unions [sentenceLower, sentenceUpper, sentenceExtend])),
  (["numeric", "nu"], .unions [Trait.digit, numberSigns, .ofRows ["66b-66c"]]),
  (["aterm", "at"], fullStops),
  (["scontinue", "sc"], .ofRows [
    "2c-2d 3a-3b 37e 55d 60c-60d 7f8 1802 1808 2013-2014 3001 fe10-fe11 fe13-fe14 fe31-fe32",
    "fe50-fe51 fe54-fe55 fe58 fe63 ff0c-ff0d ff1a-ff1b ff64"]),
  (["sterm", "st"], sentenceEnds),
  (["close", "cl"],
    (CharSet.union quotations (Trait.ofCategories fun
      | .openPunctuation | .closePunctuation | .initialPunctuation | .finalPunctuation => true
      | _ => false)).difference (.unions [fullStops, sentenceEnds]))]

end Segment
end Hati
