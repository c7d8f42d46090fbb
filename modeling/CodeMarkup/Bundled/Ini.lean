import CodeMarkup.Grammar.Fragment

/-! # INI

Files of sections and keys, among them TOML. -/

namespace CodeMarkup.Bundled

open Build (share child)

/-- The variants of a mode. -/
def iniVariants (variants : List Mode) : Build (Option (List Key)) :=
  return some (← variants.mapM share)

/-- A key, bare or in quotes. -/
def iniKey : String := Pattern.either ["[A-Za-z0-9_-]+", "\"(\\\\\"|[^\"])*\"", "'[^']*'"]

/-- A row of keys with points between them, before a value. -/
def iniDottedKey : String :=
  Pattern.concat [iniKey, "(\\s*\\.\\s*", iniKey, ")*", "(?=\\s*=\\s*[^#\\s])"]

/-- The root of INI files. -/
def iniRoot : Build Mode := do
  let numbers : Mode :=
    { className := "number", relevance := some 0,
      variants := ← iniVariants
        [{ beginPattern := "([+-]+)?[\\d]+_[\\d_]+" }, { beginPattern := Fragment.number }] }
  let comments ← child
    { ← Fragment.comment ";" "$" {} with
      variants := ← iniVariants
        [{ beginPattern := ";", endPattern := "$" }, { beginPattern := "#", endPattern := "$" }] }
  let variableModes : Mode :=
    { className := "variable",
      variants := ← iniVariants
        [{ beginPattern := "\\$[\\w\\d\"][\\w\\d_]*" },
         { beginPattern := "\\$\\\x7b(.*?)\\\x7d" }] }
  let literals : Mode :=
    { className := "literal", beginPattern := "\\b(?:on|off|true|false|yes|no)\\b" }
  let strings : Mode :=
    { className := "string", contains := some [← child Fragment.backslashEscape],
      variants := ← iniVariants
        [{ beginPattern := "'''", endPattern := "'''", relevance := some 10 },
         { beginPattern := "\"\"\"", endPattern := "\"\"\"", relevance := some 10 },
         { beginPattern := "\"", endPattern := "\"" },
         { beginPattern := "'", endPattern := "'" }] }
  let array : Mode :=
    { beginPattern := "\\[", endPattern := "\\]", relevance := some 0,
      contains := some [comments, ← child literals, ← child variableModes, ← child strings,
        ← child numbers, .self] }
  let value ← share
    { endPattern := "$",
      contains := some [comments, ← child array, ← child literals, ← child variableModes,
        ← child strings, ← child numbers] }
  return {
    illegal := some (.one "\\S"),
    contains := some [comments,
      ← child { className := "section", beginPattern := "\\[+", endPattern := "\\]+" },
      ← child { className := "attr", beginPattern := iniDottedKey, starts := some value }] }

/-- INI files. -/
def ini : Grammar :=
  Grammar.build { name := "TOML, also INI", aliases := ["toml"], caseInsensitive := true } iniRoot

end CodeMarkup.Bundled
