/-! # Pattern sources

Grammars hold patterns as texts. Here are the texts that are put together from others: literals that
stand for themselves, rows, and choices. -/

namespace CodeMarkup.Pattern

/-- Matches the empty text everywhere. -/
def everywhere : String := "\\B|\\b"

/-- The characters that mean something outside of brackets. -/
def metaChars : List Char :=
  ['\\', '.', '+', '*', '?', '(', ')', '|', '[', ']', '\x7b', '\x7d', '^', '$']

/-- A character that stands for itself. -/
def escapeChar (c : Char) : List Char := if metaChars.contains c then ['\\', c] else [c]

/-- The pattern that matches a text and nothing else. -/
def escape (literal : String) : String := String.ofList (literal.toList.flatMap escapeChar)

/-- The pattern that matches one pattern after the other. -/
def concat (parts : List String) : String := String.join parts

/-- A group that matches what one of the patterns matches. -/
def either (parts : List String) : String := "(" ++ "|".intercalate parts ++ ")"

/-- The source that a grammar's pattern is compiled from: anchors hold at every line, and case does
not matter if the language says so. -/
def flagged (source : String) (foldCase : Bool) : String :=
  (if foldCase then "(?mi)" else "(?m)") ++ source

end CodeMarkup.Pattern
