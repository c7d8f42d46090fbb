import CodeMarkup.Text.Break

/-! # Character properties by name

The sets of characters that a pattern can name between `\p` and its closing brace: general
categories and their groups, scripts, traits, ages and classes of breaks. A name is compared in a
plain form, which knows no case, blanks, hyphens and underscores, nothing outside ASCII, and no
leading `is`. -/

namespace CodeMarkup.Regex.Property

open Text

/-! ### Names -/

/-- A name in the form in which names are compared. -/
def plainName (name : List Char) : String :=
  let plain (cs : List Char) : List Char :=
    (cs.filter fun c => c.toNat < 128 && !(c == ' ' || c == '_' || c == '-')).map Char.toLower
  match name with
  | i :: s :: rest =>
    if i.toLower = 'i' ∧ s.toLower = 's' then
      let short := plain rest
      String.ofList (if short = ['c'] then ['i', 's', 'c'] else short)
    else String.ofList (plain name)
  | _ => String.ofList (plain name)

/-- Whether a plain name is one of a character property. -/
def isName (plain : String) (name : String) : Bool := plainName name.toList == plain

/-- The names of the general categories and of their groups, in plain form. -/
def categoryNames : List (List String × List Category) :=
  [(["l", "letter"], Category.letters),
    (["lc", "casedletter"], [.uppercaseLetter, .lowercaseLetter, .titlecaseLetter]),
    (["lu", "uppercaseletter"], [.uppercaseLetter]),
    (["ll", "lowercaseletter"], [.lowercaseLetter]),
    (["lt", "titlecaseletter"], [.titlecaseLetter]),
    (["lm", "modifierletter"], [.modifierLetter]),
    (["lo", "otherletter"], [.otherLetter]),
    (["m", "mark", "combiningmark"], Category.marks),
    (["mn", "nonspacingmark"], [.nonspacingMark]),
    (["mc", "spacingmark"], [.spacingMark]),
    (["me", "enclosingmark"], [.enclosingMark]),
    (["n", "number"], Category.numbers),
    (["nd", "decimalnumber", "digit"], [.decimalNumber]),
    (["nl", "letternumber"], [.letterNumber]),
    (["no", "othernumber"], [.otherNumber]),
    (["p", "punctuation", "punct"], Category.punctuation),
    (["pc", "connectorpunctuation"], [.connectorPunctuation]),
    (["pd", "dashpunctuation"], [.dashPunctuation]),
    (["ps", "openpunctuation"], [.openPunctuation]),
    (["pe", "closepunctuation"], [.closePunctuation]),
    (["pi", "initialpunctuation"], [.initialPunctuation]),
    (["pf", "finalpunctuation"], [.finalPunctuation]),
    (["po", "otherpunctuation"], [.otherPunctuation]),
    (["s", "symbol"], Category.symbols),
    (["sm", "mathsymbol"], [.mathSymbol]),
    (["sc", "currencysymbol"], [.currencySymbol]),
    (["sk", "modifiersymbol"], [.modifierSymbol]),
    (["so", "othersymbol"], [.otherSymbol]),
    (["z", "separator"], Category.separators),
    (["zs", "spaceseparator"], [.spaceSeparator]),
    (["zl", "lineseparator"], [.lineSeparator]),
    (["zp", "paragraphseparator"], [.paragraphSeparator]),
    (["c", "other"], Category.others),
    (["cc", "control", "cntrl"], [.control]),
    (["cf", "format"], [.format]),
    (["co", "privateuse"], [.privateUse]),
    (["cn", "unassigned"], [.unassigned])]

/-- The trait with a plain name. -/
def trait? : String → Option CharSet
  | "ahex" | "asciihexdigit" => some Trait.asciiHexDigit
  | "alpha" | "alphabetic" => some Trait.alphabetic
  | "bidic" | "bidicontrol" => some Trait.bidiControl
  | "ci" | "caseignorable" => some Trait.caseIgnorable
  | "cased" => some Trait.cased
  | "cwcf" | "changeswhencasefolded" => some Trait.changesFolded
  | "cwcm" | "changeswhencasemapped" => some Trait.changesInCase
  | "cwl" | "changeswhenlowercased" => some Trait.changesInSmall
  | "cwt" | "changeswhentitlecased" => some Trait.changesInTitle
  | "cwu" | "changeswhenuppercased" => some Trait.changesInCapitals
  | "dash" => some Trait.dash
  | "dep" | "deprecated" => some Trait.discouraged
  | "di" | "defaultignorablecodepoint" => some Trait.ignorable
  | "dia" | "diacritic" => some Trait.diacritic
  | "ebase" | "emojimodifierbase" => some Trait.emojiBase
  | "ecomp" | "emojicomponent" => some Trait.emojiPart
  | "emod" | "emojimodifier" => some Break.emojiModifier
  | "emoji" => some Trait.emoji
  | "epres" | "emojipresentation" => some Trait.emojiShown
  | "ext" | "extender" => some Trait.extender
  | "extpict" | "extendedpictographic" => some Trait.pictographic
  | "grbase" | "graphemebase" => some Trait.base
  | "grext" | "graphemeextend" => some Trait.extend
  | "grlink" | "graphemelink" => some Trait.graphemeLink
  | "hex" | "hexdigit" => some Trait.hexDigit
  | "hyphen" => some Trait.hyphen
  | "idc" | "idcontinue" => some Trait.identifierContinue
  | "idcompatmathcontinue" => some Trait.mathContinue
  | "idcompatmathstart" => some Trait.mathStart
  | "ideo" | "ideographic" => some Trait.ideographic
  | "ids" | "idstart" => some Trait.identifierStart
  | "idsb" | "idsbinaryoperator" => some (CharSet.read "2ff0-2ff1 2ff4-2ffd 31ef ")
  | "idst" | "idstrinaryoperator" => some (CharSet.range 0x2ff2 0x2ff3)
  | "idsu" | "idsunaryoperator" => some (CharSet.range 0x2ffe 0x2fff)
  | "joinc" | "joincontrol" => some (CharSet.range 0x200c 0x200d)
  | "loe" | "logicalorderexception" => some Trait.shownFirst
  | "lower" | "lowercase" => some Trait.lowercase
  | "math" => some Trait.math
  | "mcm" | "modifiercombiningmark" => some Trait.modifierMark
  | "nchar" | "noncharactercodepoint" => some nonCharacters
  | "oalpha" | "otheralphabetic" => some Trait.otherAlphabetic
  | "odi" | "otherdefaultignorablecodepoint" => some Trait.otherIgnorable
  | "ogrext" | "othergraphemeextend" => some Trait.otherExtend
  | "oidc" | "otheridcontinue" => some Trait.otherContinue
  | "oids" | "otheridstart" => some Trait.otherStart
  | "olower" | "otherlowercase" => some Trait.otherLowercase
  | "omath" | "othermath" => some Trait.otherMath
  | "oupper" | "otheruppercase" => some Trait.otherUppercase
  | "patsyn" | "patternsyntax" => some Trait.patternSyntax
  | "patws" | "patternwhitespace" => some Trait.patternBlank
  | "pcm" | "prependedconcatenationmark" => some Trait.numberSign
  | "qmark" | "quotationmark" => some Trait.quotationMark
  | "radical" => some Trait.radical
  | "ri" | "regionalindicator" => some Break.regionalIndicator
  | "sd" | "softdotted" => some Trait.softDotted
  | "sterm" | "sentenceterminal" => some Trait.sentenceEnd
  | "term" | "terminalpunctuation" => some Trait.clauseEnd
  | "uideo" | "unifiedideograph" => some Trait.unifiedIdeograph
  | "upper" | "uppercase" => some Trait.uppercase
  | "vs" | "variationselector" => some Trait.variationSelector
  | "wspace" | "whitespace" | "space" => some Trait.whiteSpace
  | "xidc" | "xidcontinue" => some Trait.stableContinue
  | "xids" | "xidstart" => some Trait.stableStart
  | _ => none

/-! ### Looking up -/

/-- The general category or group of categories with a plain name. -/
def category? (plain : String) : Option CharSet :=
  match plain with
  | "any" => some .all
  | "assigned" => some (ofCategories [.unassigned]).compl
  | "ascii" => some (.range 0 127)
  | _ => (categoryNames.find? (·.1.contains plain)).map fun (_, cs) => ofCategories cs

/-- The code of the script with a plain name. -/
def script? (plain : String) : Option String :=
  (Script.names.find? (·.2.any (isName plain))).map (·.1)

/-- The set with a name that stands alone: a trait, else a category, else a script. -/
def named? (name : List Char) : Option CharSet :=
  let plain := plainName name
  (trait? plain).or ((category? plain).or ((script? plain).map Script.members))

/-- The edition with a plain name: its number, or the digits of its number behind a `v`. -/
def edition? (plain : String) : Option String :=
  Age.editions.find? fun e =>
    e == plain || "v" ++ String.ofList (e.toList.filter (· ≠ '.')) == plain

/-- The set with a name that is written as kind and value. -/
def valued? (kind value : List Char) : Option CharSet :=
  let plain := plainName value
  match plainName kind with
  | "gc" | "generalcategory" => category? plain
  | "sc" | "script" => (script? plain).map Script.members
  | "scx" | "scriptextensions" => (script? plain).map Script.users
  | "age" => (edition? plain).bind assignedBy?
  | "gcb" | "graphemeclusterbreak" => Break.members? (isName plain) Break.graphemeClasses
  | "wb" | "wordbreak" => Break.members? (isName plain) Break.wordClasses
  | "sb" | "sentencebreak" => Break.members? (isName plain) Break.sentenceClasses
  | _ => none

/-- Cuts a text at the first place where a word stands, and drops the word. -/
def cutAt? (word : List Char) : List Char → Option (List Char × List Char)
  | [] => none
  | c :: cs =>
    if word.isPrefixOf (c :: cs) then some ([], (c :: cs).drop word.length)
    else (cutAt? word cs).map fun (before, after) => (c :: before, after)

/-- The set that the text between the braces of `\p` names, and whether that text itself asks for
all others. -/
def read? (cs : List Char) : Option (CharSet × Bool) :=
  match cutAt? ['!', '='] cs with
  | some (kind, value) => (valued? kind value).map (·, true)
  | none =>
    match (cutAt? [':'] cs).or (cutAt? ['='] cs) with
    | some (kind, value) => (valued? kind value).map (·, false)
    | none => (named? cs).map (·, false)

end CodeMarkup.Regex.Property
