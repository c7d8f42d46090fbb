import CodeMarkup.Grammar.Fragment

/-! # JSON

JSON, in which comments are let pass. -/

namespace CodeMarkup.Bundled

open Build (share child)

/-- The words that are values. -/
def jsonLiterals : Keywords := Keywords.category {} "literal" "true false null"

/-- The root of JSON. A value goes up to the next comma or to the end of what it is in. -/
def jsonRoot : Build Mode := do
  let object ← Build.reserve
  let array ← Build.reserve
  let string ← child (← Fragment.quoteString)
  let number ← child Fragment.cNumberMode
  let lineComment ← child (← Fragment.cLineComment)
  let blockComment ← child (← Fragment.cBlockComment)
  let values := [string, number, .late object, .late array, lineComment, blockComment]
  let value : Mode :=
    { endPattern := ",", endsWithParent := some true, excludeEnd := some true,
      keywords := jsonLiterals, contains := some values }
  let key : Mode :=
    { className := "attr", beginPattern := "\"", endPattern := "\"", illegal := some (.one "\\n"),
      contains := some [← child Fragment.backslashEscape] }
  Build.fill object (← share
    { beginPattern := "\\\x7b", endPattern := "\\\x7d", illegal := some (.one "\\S"),
      contains := some [← child key, ← child { value with beginPattern := ":" }, lineComment,
        blockComment] })
  Build.fill array (← share
    { beginPattern := "\\[", endPattern := "\\]", illegal := some (.one "\\S"),
      contains := some [← child value] })
  return { keywords := jsonLiterals, illegal := some (.one "\\S"), contains := some values }

/-- JSON. -/
def json : Grammar := Grammar.build { name := "JSON" } jsonRoot

end CodeMarkup.Bundled
