import Chunkwise.Text.Script
import Chunkwise.Text.Trait

/-! The parts that characters play where a text is broken into clusters, words and
sentences. In each of the three a character plays one part at most, and every part
has a name and a short name, kept in small letters and without underscores. -/

namespace Chunkwise.Text.Segment

/-! ## Sets that several parts are made of -/

/-- What is drawn over the characters after it: signs that span a number, and
consonants that belong to the next syllable. -/
def leading : Intervals :=
  .ofRows
    ["600-605 6dd 70f 890-891 8e2 d4e 110bd 110cd 111c2-111c3 113d1 1193f 11941 11a3a 11a84-11a89",
     "11d46 11f02"]

/-- The signs that span a number. -/
def numberSigns : Intervals := .ofRows ["600-605 6dd 890-891 8e2 110bd 110cd"]

def modifiers : Intervals := [(0x1f3fb, 0x1f3ff)]

def regionLetters : Intervals := [(0x1f1e6, 0x1f1ff)]

/-- The letters of scripts that put no blank between words. -/
def unspaced : Intervals :=
  .ofRows
    ["e01-e3a e40-e4e e81-e82 e84 e86-e8a e8c-ea3 ea5 ea7-ebd ec0-ec4 ec6 ec8-ece edc-edf",
     "1000-103f 1050-108f 109a-109f 1780-17d3 17d7 17dc-17dd 1950-196d 1970-1974 1980-19ab",
     "19b0-19c9 19da 19de-19df 1a20-1a5e 1a60-1a7c 1aa0-1aad a9e0-a9ef a9fa-a9fe aa60-aac2",
     "aadb-aadf 11700-1171a 1171d-1172b 1173a-1173b 1173f-11746"]

/-- Every mark, and what else attaches to the character before it. -/
def attached : Intervals := .union Trait.graphemeExtend (Category.first Category.isMark)

def alphabetic : Intervals := .diff letters Category.recent

/-- The Hangul syllables without a final consonant. -/
def openSyllables : Intervals :=
  (List.range 399).map fun i => (0xac00 + 28 * i, 0xac00 + 28 * i)

def syllables : Intervals := [(0xac00, 0xd7a3)]

/-! ## Clusters -/

def controls : Intervals :=
  .diff
    (.union (Category.first fun k => k == .control || k == .format || k == .lineSeparator
        || k == .paragraphSeparator)
      (.inter ignorable (Category.first (· == .unassigned))))
    (.ofList ([(0xa, 0xa), (0xd, 0xd)] ++ joiners ++ leading ++ Trait.graphemeExtend))

/-- Spacing marks that stay apart from the character before them. -/
def apart : Intervals :=
  .ofRows
    ["102b-102c 1038 1062-1064 1067-106d 1083 1087-108c 108f 109a-109c 1a61 1a63-1a64 aa7b aa7d",
     "11720-11721"]

def inCluster : List (List String × Intervals) :=
  [(["cr"], .single 0xd),
   (["lf"], .single 0xa),
   (["control", "cn"], controls),
   (["extend", "ex"], .union Trait.graphemeExtend modifiers),
   (["zwj"], .single 0x200d),
   (["regionalindicator", "ri"], regionLetters),
   (["prepend", "pp"], leading),
   (["spacingmark", "sm"],
    .diff (.union (Category.first (· == .spacingMark)) [(0xe33, 0xe33), (0xeb3, 0xeb3)])
      (.union apart Trait.graphemeExtend)),
   (["l"], [(0x1100, 0x115f), (0xa960, 0xa97c)]),
   (["v"], [(0x1160, 0x11a7), (0xd7b0, 0xd7c6), (0x16d63, 0x16d63), (0x16d67, 0x16d6a)]),
   (["t"], [(0x11a8, 0x11ff), (0xd7cb, 0xd7fb)]),
   (["lv"], openSyllables),
   (["lvt"], .diff syllables openSyllables)]

/-! ## Words -/

def katakana : Intervals :=
  .union (Script.members "Kana") (.ofRows ["3031-3035 309b-309c 30a0 30fc ff70"])

def hebrewLetters : Intervals :=
  .inter (Script.members "Hebr") (Category.first (· == .otherLetter))

/-- The letters that make up words in scripts that put blanks between them. -/
def wordLetters : Intervals :=
  .diff
    (.union alphabetic (.ofRows
      ["2c2-2c5 2d2-2d7 2de-2df 2e5-2eb 2ed 2ef-2ff 55a-55c 55e 58a 5f3 70f a708-a716 a720-a721",
       "a789-a78a ab5b"]))
    (.ofList ((trait? "ideographic").getD [] ++ katakana ++ hebrewLetters ++ unspaced
      ++ Script.members "Hira" ++ attached))

def inWord : List (List String × Intervals) :=
  [(["cr"], .single 0xd),
   (["lf"], .single 0xa),
   (["newline", "nl"], .ofRows ["b-c 85 2028-2029"]),
   (["extend"], .union attached modifiers),
   (["zwj"], .single 0x200d),
   (["regionalindicator", "ri"], regionLetters),
   (["format", "fo"],
    .diff (Category.first (· == .format))
      (.ofList ((0x200b, 0x200d) :: leading ++ Trait.graphemeExtend))),
   (["katakana", "ka"], katakana),
   (["hebrewletter", "hl"], hebrewLetters),
   (["aletter", "le"], wordLetters),
   (["singlequote", "sq"], .single 0x27),
   (["doublequote", "dq"], .single 0x22),
   (["midnumlet", "mb"], .ofRows ["2e 2018-2019 2024 fe52 ff07 ff0e"]),
   (["midletter", "ml"], .ofRows ["3a b7 387 55f 5f4 2027 fe13 fe55 ff1a"]),
   (["midnum", "mn"],
    .ofRows ["2c 3b 37e 589 60c-60d 66c 7f8 2044 fe10 fe14 fe50 fe54 ff0c ff1b"]),
   (["numeric", "nu"], .ofList (decimalDigits ++ numberSigns ++ [(0x66b, 0x66b)])),
   (["extendnumlet", "ex"],
    .union (Category.first (· == .connector)) (.single 0x202f)),
   (["wsegspace"], .diff (Category.first (· == .space)) (.ofRows ["a0 2007 202f"]))]

/-! ## Sentences -/

def fullStops : Intervals := .ofRows ["2e 2024 fe52 ff0e"]

def sentenceEnds : Intervals := .diff ((trait? "sentenceterminal").getD []) fullStops

/-- Small letters, apart from the script whose capitals are used on their own. -/
def smallLetters : Intervals :=
  .diff Trait.lowercase (.union Trait.graphemeExtend [(0x10d0, 0x10fa), (0x10fd, 0x10ff)])

def capitals : Intervals :=
  .diff (.union Trait.uppercase (Category.first (· == .titlecaseLetter)))
    [(0x1c90, 0x1cba), (0x1cbd, 0x1cbf)]

def inSentence : List (List String × Intervals) :=
  [(["cr"], .single 0xd),
   (["lf"], .single 0xa),
   (["extend", "ex"], .union attached (.single 0x200d)),
   (["sep", "se"], .ofRows ["85 2028-2029"]),
   (["format", "fo"],
    .diff (Category.first (· == .format))
      (.ofList (joiners ++ leading ++ Trait.graphemeExtend))),
   (["sp"], .diff blanks (.ofRows ["a d 85 2028-2029"])),
   (["lower", "lo"], smallLetters),
   (["upper", "up"], capitals),
   (["oletter", "le"],
    .diff (.union alphabetic [(0x5f3, 0x5f3), (0x70f, 0x70f)])
      (.ofList (smallLetters ++ capitals ++ attached))),
   (["numeric", "nu"], .ofList (decimalDigits ++ numberSigns ++ [(0x66b, 0x66c)])),
   (["aterm", "at"], fullStops),
   (["scontinue", "sc"],
    .ofRows
      ["2c-2d 3a-3b 37e 55d 60c-60d 7f8 1802 1808 2013-2014 3001 fe10-fe11 fe13-fe14 fe31-fe32",
       "fe50-fe51 fe54-fe55 fe58 fe63 ff0c-ff0d ff1a-ff1b ff64"]),
   (["sterm", "st"], sentenceEnds),
   (["close", "cl"],
    .diff
      (.union (Category.first fun k => k == .openingPunctuation || k == .closingPunctuation
          || k == .initialQuote || k == .finalQuote)
        (.ofRows ["22 27 275b-2760 1f676-1f678 2e00-2e01 2e06-2e08 2e0b"]))
      (.ofList (fullStops ++ sentenceEnds)))]

/-- The characters that play the part of this name. -/
def part? (parts : List (List String × Intervals)) (name : String) : Option Intervals :=
  (parts.find? (name ∈ ·.1)).map (·.2)

end Chunkwise.Text.Segment
