/-! # Layout of markup

Markup keeps the tabs and line breaks of the code. A `Layout` may replace the tabs at the start of a
line, also behind tags, and turn line breaks into elements. -/

namespace CodeMarkup.Markup

/-- What becomes of tabs and line breaks. -/
structure Layout where
  /-- What stands for a tab at the start of a line. -/
  tab : Option String := none
  /-- Whether line breaks are elements. -/
  breaks : Bool := false
  deriving DecidableEq, Repr, Inhabited

namespace Layout

/-- Splits a tag from what follows it: anything but a closing mark, at least one character, and a
closing mark. The opening mark has been read. -/
def tag? : List Char → Option (List Char × List Char)
  | '>' :: _ => none
  | cs =>
    match cs.dropWhile (· != '>') with
    | '>' :: rest => some (cs.takeWhile (· != '>') ++ ['>'], rest)
    | _ => none

/-- Splits the tabs and tags at the front of a text from what follows them; the number bounds them.
-/
def indent : Nat → List Char → List Char × List Char
  | 0, cs => ([], cs)
  | steps + 1, '\t' :: cs => let (run, rest) := indent steps cs; ('\t' :: run, rest)
  | steps + 1, '<' :: cs =>
    match tag? cs with
    | some (inside, rest) =>
      let (run, rest) := indent steps rest
      ('<' :: inside ++ run, rest)
    | none => ([], '<' :: cs)
  | _ + 1, cs => ([], cs)

/-- A character of an indent. -/
def indentChar (l : Layout) (c : Char) : List Char :=
  match c, l.tab with
  | '\t', some tab => tab.toList
  | c, _ => [c]

/-- A line break. -/
def lineBreak (l : Layout) : List Char := if l.breaks then ['<', 'b', 'r', '>'] else ['\n']

/-- Lays markup out, with a bound on the steps; `lineStart` says whether a line starts here. -/
def applyFor (l : Layout) : Nat → Bool → List Char → List Char
  | 0, _, cs => cs
  | _ + 1, _, [] => []
  | steps + 1, lineStart, c :: cs =>
    match if lineStart then indent (cs.length + 1) (c :: cs) else ([], []) with
    | (i :: run, rest) => (i :: run).flatMap l.indentChar ++ l.applyFor steps false rest
    | ([], _) =>
      if c = '\n' then l.lineBreak ++ l.applyFor steps true cs
      else c :: l.applyFor steps false cs

/-- Lays markup out. -/
def apply (l : Layout) (markup : String) : String :=
  String.ofList (l.applyFor markup.toList.length true markup.toList)

end Layout

end CodeMarkup.Markup
