import CodeMarkup.Text.Script
import CodeMarkup.Text.Trait

/-! # Where text breaks

The classes by which text is cut into what a reader takes for one character, into words and into
sentences. In each of the three lists a character belongs to the first class that names it, so
`Break.members?` takes from a class what the classes before it have. -/

namespace CodeMarkup.Text

namespace Break

/-- The modifiers of emoji. -/
def emojiModifier : CharSet := CharSet.range 0x1f3fb 0x1f3ff

/-- The letters that flags are made of. -/
def regionalIndicator : CharSet := CharSet.range 0x1f1e6 0x1f1ff

/-- The signs that stand before a number, without the Syriac abbreviation mark. -/
def numberPrefix : CharSet := Trait.numberSign.diff (CharSet.range 0x70f 0x70f)

/-- The digits of numbers and the signs that belong to them. -/
def numeric : CharSet :=
  CharSet.unions [Trait.decimal, numberPrefix, CharSet.range 0x66b 0x66c]

/-! ### Characters -/

/-- The consonants that are written before the syllable they belong to. -/
def prefixedConsonant : CharSet :=
  CharSet.read "d4e 111c2-111c3 113d1 1193f 11941 11a3a 11a84-11a89 11d46 11f02 "

/-- The spacing marks that do not belong to the character before them. -/
def looseMark : CharSet := CharSet.read <|
  "102b-102c 1038 1062-1064 1067-106d 1083 1087-108c 108f 109a-109c 1a61 1a63-1a64 aa7b aa7d " ++
  "11720-11721 "

/-- The Hangul syllables without a final consonant. -/
def openSyllable : CharSet :=
  CharSet.ofCodes ((List.range 399).map fun i => 0xac00 + 28 * i)

/-- The classes of characters between which no reader sees a break. -/
def graphemeClasses : List (List String × CharSet) :=
  [(["CR"], .range 13 13), (["LF"], .range 10 10), (["ZWJ"], .range 0x200d 0x200d),
    (["EX", "Extend"], Trait.extend.union emojiModifier),
    (["PP", "Prepend"], Trait.numberSign.union prefixedConsonant),
    (["RI", "Regional_Indicator"], regionalIndicator),
    (["CN", "Control"],
      (ofCategories [.lineSeparator, .paragraphSeparator, .control, .format]).union
        ((ofCategories [.unassigned]).inter Trait.ignorable)),
    (["L"], CharSet.read "1100-115f a960-a97c "),
    (["V"], CharSet.read "1160-11a7 d7b0-d7c6 16d63 16d67-16d6a "),
    (["T"], CharSet.read "11a8-11ff d7cb-d7fb "),
    (["LV"], openSyllable), (["LVT"], .range 0xac00 0xd7a3),
    (["SM", "SpacingMark"],
      ((ofCategories [.spacingMark]).diff looseMark).union (CharSet.read "e33 eb3 "))]

/-! ### Words -/

/-- The letters of scripts that put no blanks between words. -/
def complexLetter : CharSet := CharSet.read <|
  "e01-e30 e32-e33 e40-e46 e81-e82 e84 e86-e8a e8c-ea3 ea5 ea7-eb0 eb2-eb3 ebd ec0-ec4 ec6 " ++
  "edc-edf 1000-102a 103f 1050-1055 105a-105d 1061 1065-1066 106e-1070 1075-1081 108e 1780-17b3 " ++
  "17d7 17dc 1950-196d 1970-1974 1980-19ab 19b0-19c9 1a20-1a54 1aa7 a9e0-a9e4 a9e6-a9ef " ++
  "a9fa-a9fe aa60-aa76 aa7a aa7e-aaaf aab1 aab5-aab6 aab9-aabd aac0 aac2 aadb-aadd 11700-1171a " ++
  "11740-11746 "

/-- The marks and punctuation that count as letters of words. -/
def letterLike : CharSet := CharSet.read <|
  "b8 2c2-2c5 2d2-2d7 2de-2df 2e5-2eb 2ed 2ef-2ff 55a-55c 55e 58a 5f3 70f a708-a716 a720-a721 " ++
  "a789-a78a ab5b "

/-- The classes of characters in words. -/
def wordClasses : List (List String × CharSet) :=
  [(["CR"], .range 13 13), (["LF"], .range 10 10),
    (["NL", "Newline"], CharSet.read "b-c 85 2028-2029 "), (["ZWJ"], .range 0x200d 0x200d),
    (["Extend"], CharSet.unions [Trait.extend, ofCategories [.spacingMark], emojiModifier]),
    (["SQ", "Single_Quote"], .range 0x27 0x27), (["DQ", "Double_Quote"], .range 0x22 0x22),
    (["MB", "MidNumLet"], CharSet.read "2e 2018-2019 2024 fe52 ff07 ff0e "),
    (["ML", "MidLetter"], CharSet.read "3a b7 387 55f 5f4 2027 fe13 fe55 ff1a "),
    (["RI", "Regional_Indicator"], regionalIndicator),
    (["KA", "Katakana"],
      (Script.members "Kana").union (CharSet.read "3031-3035 309b-309c 30a0 30fc ff70 ")),
    (["HL", "Hebrew_Letter"], (Script.members "Hebr").inter (ofCategories [.otherLetter])),
    (["FO", "Format"],
      (ofCategories [.format]).diff (Trait.numberSign.union (.range 0x200b 0x200d))),
    (["NU", "Numeric"], numeric.diff (.range 0x66c 0x66c)),
    (["EX", "ExtendNumLet"],
      (ofCategories [.connectorPunctuation]).union (.range 0x202f 0x202f)),
    (["LE", "ALetter"],
      (Trait.alphabetic.union letterLike).diff
        (CharSet.unions [Trait.ideographic, complexLetter, Script.members "Hira"])),
    (["MN", "MidNum"],
      CharSet.read "2c 3b 37e 589 60c-60d 66c 7f8 2044 fe10 fe14 fe50 fe54 ff0c ff1b "),
    (["WSegSpace"], CharSet.read "20 1680 2000-2006 2008-200a 205f 3000 ")]

/-! ### Sentences -/

/-- The quotation marks of other categories than the quotes. -/
def symbolQuote : CharSet :=
  CharSet.read "22 27 275b-2760 2e00-2e01 2e06-2e08 2e0b 1f676-1f678 "

/-- The classes of characters in sentences. -/
def sentenceClasses : List (List String × CharSet) :=
  [(["CR"], .range 13 13), (["LF"], .range 10 10),
    (["SE", "Sep"], CharSet.read "85 2028-2029 "),
    (["EX", "Extend"],
      CharSet.unions [Trait.extend, ofCategories [.spacingMark], .range 0x200d 0x200d]),
    (["FO", "Format"],
      (ofCategories [.format]).diff (numberPrefix.union (.range 0x200c 0x200d))),
    (["SP", "Sp"], Trait.whiteSpace),
    (["LO", "Lower"], Trait.lowercase.diff (CharSet.read "10d0-10fa 10fd-10ff ")),
    (["UP", "Upper"],
      (ofCategories [.titlecaseLetter]).union (Trait.uppercase.diff (.range 0x1c90 0x1cbf))),
    (["LE", "OLetter"], Trait.alphabetic.union (CharSet.read "a0 5f3 ")),
    (["NU", "Numeric"], numeric), (["AT", "ATerm"], CharSet.read "2e 2024 fe52 ff0e "),
    (["SC", "SContinue"], CharSet.read <|
      "2c-2d 3a-3b 37e 55d 60c-60d 7f8 1802 1808 2013-2014 3001 fe10-fe11 fe13-fe14 fe31-fe32 " ++
      "fe50-fe51 fe54-fe55 fe58 fe63 ff0c-ff0d ff1a-ff1b ff64 "),
    (["ST", "STerm"], Trait.sentenceEnd),
    (["CL", "Close"],
      (ofCategories [.openPunctuation, .closePunctuation, .initialPunctuation,
        .finalPunctuation]).union symbolQuote)]

/-! ### Looking up a class -/

/-- The members of the first class that has one of its names accepted, without those of the
classes before it. -/
def members? (accepts : String → Bool) : List (List String × CharSet) → Option CharSet
  | [] => none
  | (names, set) :: classes =>
    if names.any accepts then some set else (members? accepts classes).map (·.diff set)

end Break

end CodeMarkup.Text
