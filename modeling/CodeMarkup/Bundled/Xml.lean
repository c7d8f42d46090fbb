import CodeMarkup.Grammar.Fragment

/-! # XML

XML and HTML, in which style sheets and scripts are embedded. -/

namespace CodeMarkup.Bundled

open Build (share child)

/-- A name of an attribute. -/
def xmlName : String := "[A-Z_a-z:][A-Z_a-z0-9:.-]*"

/-- A name of a tag. -/
def xmlTagName : String := "[A-Za-z0-9._:-]+"

/-- A tag around code in one of several languages. -/
def xmlEmbedded (tagInternals : Key) (tag : String) (languages : List String) : Build Mode := do
  return { className := "tag", beginPattern := "<" ++ tag ++ "(?=\\s|>)", endPattern := ">",
           keywords := Keywords.category {} "name" tag, contains := some [.mode tagInternals],
           starts := some (← share
             { endPattern := "</" ++ tag ++ ">", returnEnd := some true,
               subLanguage := some (.detect languages) }) }

/-- What stands in a declaration before or between brackets. -/
structure XmlDeclaration where
  words : Mode
  wordsInParentheses : Mode
  quoteString : Mode
  aposString : Mode

/-- A document type, which may hold declarations. -/
def xmlDoctype (d : XmlDeclaration) : Build Mode := do
  let declaration ← child
    { className := "meta", beginPattern := "<![a-z]", endPattern := ">",
      contains := some [← child d.words, ← child d.wordsInParentheses, ← child d.quoteString,
        ← child d.aposString] }
  let inBrackets ← child
    { beginPattern := "\\[", endPattern := "\\]", contains := some [declaration] }
  return { className := "meta", beginPattern := "<![a-z]", endPattern := ">",
           relevance := some 10,
           contains := some [← child d.words, ← child d.quoteString, ← child d.aposString,
             ← child d.wordsInParentheses, inBrackets] }

/-- What stands in a tag behind its name. -/
def xmlTagInternals (entities : Child) : Build Mode := do
  let inQuotes (mark : String) : Mode :=
    { beginPattern := mark, endPattern := mark, contains := some [entities] }
  let value ← child
    { className := "string", endsParent := some true,
      variants := some [← share (inQuotes "\""), ← share (inQuotes "'"),
        ← share { beginPattern := "[^\\s\"'=<>`]+" }] }
  return { endsWithParent := some true, illegal := some (.one "<"), relevance := some 0,
           contains := some [← child (Fragment.plain "attr" xmlName),
             ← child { beginPattern := "=\\s*", relevance := some 0, contains := some [value] }] }

/-- The root of XML. -/
def xmlRoot : Build Mode := do
  let entities ← child
    { className := "symbol", beginPattern := "&[a-z]+;|&#[0-9]+;|&#x[a-f0-9]+;" }
  let word ← child
    { className := "meta-keyword", beginPattern := "#?[a-z_][a-z1-9_-]+",
      illegal := some (.one "\\n") }
  let words : Mode := { beginPattern := "\\s", contains := some [word] }
  let doctype ← xmlDoctype {
    words,
    wordsInParentheses := { words with beginPattern := "\\(", endPattern := "\\)" },
    quoteString := { ← Fragment.quoteString with className := "meta-string" },
    aposString := { ← Fragment.aposString with className := "meta-string" } }
  let tagInternals ← share (← xmlTagInternals entities)
  let openTag : Mode :=
    { className := "tag",
      beginPattern := Pattern.concat
        ["<", "(?=", xmlTagName, Pattern.either ["/>", ">", "\\s"], ")"],
      endPattern := "/?>",
      contains := some [← child
        { Fragment.plain "name" xmlTagName with starts := some tagInternals }] }
  let closeTag : Mode :=
    { className := "tag", beginPattern := Pattern.concat ["</", "(?=", xmlTagName, ">)"],
      contains := some [← child (Fragment.plain "name" xmlTagName),
        ← child { beginPattern := ">", relevance := some 0, endsParent := some true }] }
  return {
    contains := some [← child doctype,
      ← child (← Fragment.comment "<!--" "-->" { relevance := some 10 }),
      ← child { beginPattern := "<!\\[CDATA\\[", endPattern := "\\]\\]>", relevance := some 10 },
      entities,
      ← child { className := "meta", beginPattern := "<\\?xml", endPattern := "\\?>",
                relevance := some 10 },
      ← child (← xmlEmbedded tagInternals "style" ["css", "xml"]),
      ← child (← xmlEmbedded tagInternals "script" ["javascript", "xml"]),
      ← child { className := "tag", beginPattern := "<>|</>" },
      ← child openTag, ← child closeTag] }

/-- XML and HTML. -/
def xml : Grammar :=
  Grammar.build
    { name := "HTML, XML",
      aliases := ["html", "xhtml", "rss", "atom", "xjb", "xsd", "xsl", "plist", "wsf", "svg"],
      caseInsensitive := true }
    xmlRoot

end CodeMarkup.Bundled
