import CodeMarkup.Grammar.Fragment

/-! # Bash

Bash and other shells like it. -/

namespace CodeMarkup.Bundled

open Build (share child)

/-- Shells that a first line can name. -/
def bashShells : List String :=
  ["fish", "bash", "zsh", "sh", "csh", "ksh", "tcsh", "dash", "scsh"]

/-- Words of the grammar of shells. -/
def bashKeywords : String := "if then else elif fi for while in do done case esac function"

/-- Words for truth values. -/
def bashLiterals : String := "true false"

/-- Commands that shells bring with them. -/
def bashBuiltIns : String :=
  "break cd continue eval exec exit export getopts hash pwd readonly return shift test times " ++
  "trap umask unset alias bind builtin caller command declare echo enable help let local logout " ++
  "mapfile printf read readarray source type typeset ulimit unalias set shopt autoload bg " ++
  "bindkey bye cap chdir clone comparguments compcall compctl compdescribe compfiles compgroups " ++
  "compquote comptags comptry compvalues dirs disable disown echotc echoti emulate fc fg float " ++
  "functions getcap getln history integer jobs kill limit log noglob popd print pushd pushln " ++
  "rehash sched setcap setopt stat suspend ttyctl unfunction unhash unlimit unsetopt vared wait " ++
  "whence where which zcompile zformat zftp zle zmodload zparseopts zprof zpty zregexparse " ++
  "zsocket zstyle ztcp"

/-- The words of shell scripts. -/
def bashWords : Keywords :=
  (((({ pattern := "\\b[a-z._-]+\\b" } : Keywords).category "keyword" bashKeywords).category
    "literal" bashLiterals).category "built_in" bashBuiltIns)

/-- The root of shell scripts. -/
def bashRoot : Build Mode := do
  let variableSlot ← Build.reserve
  let substSlot ← Build.reserve
  let anyVariable := Child.late variableSlot
  let bracedVariable ← share
    { beginPattern := "\\$\\\x7b", endPattern := "\\\x7d",
      contains := some [.self,
        ← child { beginPattern := ":-", contains := some [anyVariable] }] }
  let plainVariable ← share { beginPattern := "\\$[\\w\\d#@][\\w\\d_]*(?![\\w\\d])(?![$])" }
  Build.fill variableSlot (← share
    { className := "variable", variants := some [plainVariable, bracedVariable] })
  let quoteString ← child
    { className := "string", beginPattern := "\"", endPattern := "\"",
      contains := some [← child Fragment.backslashEscape, anyVariable, .late substSlot] }
  Build.fill substSlot (← share
    { className := "subst", beginPattern := "\\$\\(", endPattern := "\\)",
      contains := some [← child Fragment.backslashEscape, quoteString] })
  let hereDocument : Mode :=
    { beginPattern := "<<-?\\s*(?=\\w+)",
      starts := some (← share
        { contains := some [← child (Fragment.endSameAsBegin
            { className := "string", beginPattern := "(\\w+)", endPattern := "(\\w+)" })] }) }
  let arithmetic : Mode :=
    { beginPattern := "\\$\\(\\(", endPattern := "\\)\\)",
      contains := some [← child { className := "number", beginPattern := "\\d+#[0-9a-f]+" },
        ← child Fragment.numberMode, anyVariable] }
  let function : Mode :=
    { className := "function", beginPattern := "\\w[\\w\\d_]*\\s*\\(\\s*\\)\\s*\\\x7b",
      returnBegin := some true, relevance := some 0,
      contains := some [← child { Fragment.titleMode with beginPattern := "\\w[\\w\\d_]*" }] }
  let knownShebang : Mode :=
    { Fragment.shebang (some (Pattern.either bashShells)) with relevance := some 10 }
  return {
    keywords := some bashWords,
    contains := some [← child knownShebang, ← child (Fragment.shebang none), ← child function,
      ← child arithmetic, ← child (← Fragment.hashComment), ← child hereDocument, quoteString,
      ← child { beginPattern := "\\\\\"" },
      ← child { className := "string", beginPattern := "'", endPattern := "'" }, anyVariable] }

/-- Shell scripts. -/
def bash : Grammar := Grammar.build { name := "Bash", aliases := ["sh", "zsh"] } bashRoot

end CodeMarkup.Bundled
