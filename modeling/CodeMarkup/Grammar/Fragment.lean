import CodeMarkup.Grammar.Mode
import CodeMarkup.Pattern.Source

/-! # Fragments of grammars

Patterns and modes that many languages have in common. -/

namespace CodeMarkup.Fragment

/-! ### Patterns -/

/-- Matches nothing. -/
def nothing : String := "\\b\\B"

/-- A letter, then letters, digits and underscores. -/
def identifier : String := "[a-zA-Z]\\w*"

/-- An identifier that may also start with an underscore. -/
def underscoreIdentifier : String := "[a-zA-Z_]\\w*"

/-- Decimal digits, perhaps with a point among them. -/
def number : String := "\\b\\d+(\\.\\d+)?"

/-- Hexadecimal, octal and decimal numbers, also with a fraction and an exponent. -/
def cNumber : String :=
  "(-?)(\\b0[xX][a-fA-F0-9]+|(\\b\\d+(\\.\\d*)?|\\.\\d+)([eE][-+]?\\d+)?)"

/-- Binary digits behind their mark. -/
def binaryNumber : String := "\\b(0b[01]+)"

/-- What stands before a slash that starts a regular expression and is no division. -/
def regexpStarters : String :=
  "!|!=|!==|%|%=|&|&&|&=|\\*|\\*=|\\+|\\+=|,|-|-=|/=|/|:|;|<<|<<=|<=|<|===|==|=|>>>=|>>=|>=|>>>|" ++
  ">>|>|\\?|\\[|\\\x7b|\\(|\\^|\\^=|\\||\\|=|\\|\\||~"

/-- The start of a line that names an interpreter. -/
def shebangStart : String := "^#![ ]*/"

/-- Marks that are looked for in comments. -/
def doctag : String := "(?:TODO|FIXME|NOTE|BUG|OPTIMIZE|HACK|XXX):"

/-- Words of plain English, which are seldom code. -/
def phrasalWords : String :=
  "\\b(a|an|the|are|I'm|isn't|don't|doesn't|won't|but|just|should|pretty|simply|enough|gonna|" ++
  "going|wtf|so|such|will|you|your|they|like|more)\\b"

/-- Units of lengths, angles, times and resolutions. -/
def cssUnits : String :=
  "(%|em|ex|ch|rem|vw|vh|vmin|vmax|cm|mm|in|pt|pc|px|deg|grad|rad|turn|s|ms|Hz|kHz|dpi|dpcm|dppx)?"

/-! ### Strings and escapes -/

/-- A backslash and what it escapes. -/
def backslashEscape : Mode := { beginPattern := "\\\\[\\s\\S]", relevance := some 0 }

/-- A string between two marks on one line. -/
def quoted (mark : String) : Build Mode := do
  return { className := "string", beginPattern := mark, endPattern := mark,
           illegal := some (.one "\\n"), contains := some [← Build.child backslashEscape] }

/-- A string between apostrophes. -/
def aposString : Build Mode := quoted "'"

/-- A string between quotes. -/
def quoteString : Build Mode := quoted "\""

/-! ### Comments -/

/-- Words of English, so that they are not taken for code. -/
def phrasalWordsMode : Mode := { beginPattern := phrasalWords }

/-- A comment between two patterns, with a mode laid over it. Words of English and tags are
recognised in any comment. -/
def comment (start stop : String) (overlay : Mode) : Build Mode := do
  let base : Mode :=
    { className := "comment", beginPattern := start, endPattern := stop, contains := some [] }
  let words ← Build.child phrasalWordsMode
  let tags ← Build.child { className := "doctag", beginPattern := doctag, relevance := some 0 }
  return ((base.merge overlay).contain words).contain tags

/-- A comment from two slashes to the end of the line. -/
def cLineComment : Build Mode := comment "//" "$" {}

/-- A comment between a slash and star and a star and slash. -/
def cBlockComment : Build Mode := comment "/\\*" "\\*/" {}

/-- A comment from a hash sign to the end of the line. -/
def hashComment : Build Mode := comment "#" "$" {}

/-- Refuses a match that is not at the very start of the code. -/
def atStart : Guard := fun found memory => (found.index == 0, memory)

/-- The line at the start of the code that names an interpreter, or this interpreter. -/
def shebang (binary : Option String) : Mode :=
  { className := "meta",
    beginPattern := match binary with
      | some binary => Pattern.concat [shebangStart, ".*\\b", binary, "\\b.*"]
      | none => shebangStart,
    endPattern := "$", relevance := some 0, onBegin := some atStart }

/-! ### Numbers and names -/

/-- A mode of a category that is worth nothing. -/
def plain (className pattern : String) : Mode :=
  { className, beginPattern := pattern, relevance := some 0 }

/-- A decimal number. -/
def numberMode : Mode := plain "number" number

/-- A number as in C. -/
def cNumberMode : Mode := plain "number" cNumber

/-- A binary number. -/
def binaryNumberMode : Mode := plain "number" binaryNumber

/-- A number with a unit. -/
def cssNumberMode : Mode := plain "number" (number ++ cssUnits)

/-- The name of what is being defined. -/
def titleMode : Mode := plain "title" identifier

/-- The name of what is being defined, perhaps with an underscore in front. -/
def underscoreTitleMode : Mode := plain "title" underscoreIdentifier

/-- A name behind a point, so that it is not taken for a keyword. -/
def methodGuard : Mode :=
  { beginPattern := "\\.\\s*" ++ underscoreIdentifier, relevance := some 0 }

/-- A regular expression between slashes on one line. -/
def regexpMode : Build Mode := do
  let brackets : Mode :=
    { beginPattern := "\\[", endPattern := "\\]", relevance := some 0,
      contains := some [← Build.child backslashEscape] }
  let literal : Mode :=
    { className := "regexp", beginPattern := "/", endPattern := "/[gimuy]*",
      illegal := some (.one "\\n"),
      contains := some [← Build.child backslashEscape, ← Build.child brackets] }
  return { beginPattern := "(?=/[^/\\n]*/)", contains := some [← Build.child literal] }

/-! ### Ends that repeat the begin -/

/-- The name under which the begin is remembered. -/
def beginKey : String := "_beginMatch"

/-- Remembers the first group of the begin. -/
def rememberBegin : Guard := fun found memory =>
  (true, memory.insert beginKey ((found.group? 1).getD ""))

/-- Refuses an end whose first group is not that of the begin. -/
def matchesBegin : Guard := fun found memory =>
  (memory.find? beginKey == some ((found.group? 1).getD ""), memory)

/-- A mode that ends only where the first group of its end is that of its begin. -/
def endSameAsBegin (m : Mode) : Mode :=
  { m with onBegin := some rememberBegin, onEnd := some matchesBegin }

end CodeMarkup.Fragment
