import CodeMarkup.Bundled
import CodeMarkup.Highlight.Detection
import CodeMarkup.Markup.Tree
import CodeMarkup.Markup.Writer
import CodeMarkup.Text.Path

/-! # Highlighters

A highlighter is a registry of languages together with options. Grammars and options may come from
files; then it matters whether a file could be read, and whether its text could be. -/

namespace CodeMarkup

/-! ### Files -/

/-- What can go wrong with a file. -/
inductive FileProblem where
  /-- The file cannot be read. -/
  | unreadable
  /-- The text of the file is wrong. -/
  | unparsable (cause : Problem)
  /-- What the file says is refused. -/
  | refused (cause : Problem)
  deriving DecidableEq, Repr, Inhabited

namespace FileProblem

/-- What is said about a file of a kind first; nothing if all is in the cause. -/
def message (kind path : String) : FileProblem → String
  | unreadable => "Failed to read " ++ kind ++ " file " ++ path
  | unparsable _ => "Failed to parse " ++ kind ++ " file " ++ path
  | refused _ => ""

/-- The problem behind it. -/
def cause? : FileProblem → Option Problem
  | unreadable => none
  | unparsable cause => some cause
  | refused cause => some cause

end FileProblem

/-- Reads a grammar from JSON text. -/
def Grammar.parse (text : String) : Except Problem Grammar :=
  match Grammar.read text with
  | .ok g => .ok g
  | .error fault => .error (.document (.grammar fault))

/-- What is made of the text of a file, if it has been read. -/
def ofFile {α : Type} (parse : String → Except Problem α) :
    Option String → Except FileProblem α
  | none => .error .unreadable
  | some text =>
    match parse text with
    | .ok a => .ok a
    | .error p => .error (.unparsable p)

/-- The grammar in the text of a file. -/
def Grammar.ofFile : Option String → Except FileProblem Grammar := CodeMarkup.ofFile Grammar.parse

/-- The options in the text of a file. -/
def Options.ofFile : Option String → Except FileProblem Options := CodeMarkup.ofFile Options.read

/-! ### Highlighters -/

/-- Languages and options. -/
structure Highlighter (ρ : Type) [Engine ρ] where
  registry : Registry ρ := .empty
  options : Options := {}

namespace Highlighter

variable {ρ : Type} [Engine ρ]

/-- A highlighter with the bundled languages. -/
def withBundled : Except Problem (Highlighter ρ) :=
  match Bundled.register .empty with
  | .ok registry => .ok { registry }
  | .error p => .error p

/-- Registers a grammar. -/
def register (h : Highlighter ρ) (name : String) (g : Grammar) :
    Except Problem (Highlighter ρ) :=
  match h.registry.register name g with
  | .ok registry => .ok { h with registry }
  | .error p => .error p

/-- Registers a grammar in JSON text. -/
def registerText (h : Highlighter ρ) (name text : String) : Except Problem (Highlighter ρ) :=
  match Grammar.parse text with
  | .ok g => h.register name g
  | .error p => .error p

/-- Registers the grammar in the text of a file. -/
def registerFile (h : Highlighter ρ) (name : String) (text : Option String) :
    Except FileProblem (Highlighter ρ) :=
  match Grammar.ofFile text with
  | .error p => .error p
  | .ok g =>
    match h.register name g with
    | .ok h => .ok h
    | .error p => .error (.refused p)

/-- Changes options. -/
def configure (h : Highlighter ρ) (changes : Overrides) : Highlighter ρ :=
  { h with options := h.options.apply changes }

/-- The registered name of the language that the extension of a path means. -/
def languageForPath (h : Highlighter ρ) (path : String) : Option String :=
  (Text.extension? path).bind h.registry.canonicalName

/-- Goes through code in a language. -/
def highlight (h : Highlighter ρ) (name code : String) (ignoreIllegals : Bool)
    (continuation : Option (ModeStack ρ)) : Except Problem (Outcome ρ) :=
  CodeMarkup.highlight h.registry h.options name code ignoreIllegals continuation

/-- Goes through code in the language that fits best. -/
def detect (h : Highlighter ρ) (code : String) (subset : Option (List String)) :
    Except Problem (Detection ρ) :=
  CodeMarkup.detect h.registry h.options code subset

/-- The markup of a token tree, laid out. -/
def render (h : Highlighter ρ) (tree : Markup.Tree) : String :=
  h.options.fixMarkup (tree.root.render h.options.classPrefix)

end Highlighter

end CodeMarkup
