import CodeMarkup.Regex.Expr

/-! # Writing expressions

An expression without hard parts is handed on as text, in the plain pattern language that knows
groups, alternatives, repetitions and sets only. Sets go into that text as they were written, so a
set whose brackets are paired differently there means something else. -/

namespace CodeMarkup.Regex.Expr

/-- A character that stands for itself. -/
def quoted (c : Char) : List Char :=
  if ['\\', '.', '+', '*', '?', '(', ')', '|', '[', ']', '\x7b', '\x7d', '^', '$', '#'].contains c
  then ['\\', c] else [c]

/-- A text in a group, if need be. -/
def groupedIf (needed : Bool) (cs : List Char) : List Char :=
  if needed then "(?:".toList ++ cs ++ [')'] else cs

/-- A text in which case does not matter, if so. -/
def foldedIf (foldCase : Bool) (cs : List Char) : List Char :=
  if foldCase then "(?i:".toList ++ cs ++ [')'] else cs

/-- An anchor. -/
def writeAnchor : Anchor → List Char
  | .textStart => ['^']
  | .textEnd => ['$']
  | .lineStart => "(?m:^)".toList
  | .lineEnd => "(?m:$)".toList
  | _ => []

/-- The bounds of a repetition. -/
def writeBounds (lo : Nat) : Option Nat → List Char
  | some 1 => if lo = 0 then ['?'] else counted (if lo = 1 then "1" else toString lo ++ ",1")
  | none => if lo = 0 then ['*'] else if lo = 1 then ['+'] else counted (toString lo ++ ",")
  | some hi => counted (if hi = lo then toString lo else toString lo ++ "," ++ toString hi)
where
  counted (s : String) : List Char := '\x7b' :: s.toList ++ ['\x7d']

mutual

/-- An expression without hard parts as text. `level` tells what binds it: nothing, alternatives, a
row or a repetition. -/
def write (level : Nat) : Expr → List Char
  | any newline => if newline then "(?s:.)".toList else ['.']
  | anchor a => writeAnchor a
  | char c foldCase => foldedIf foldCase (quoted c)
  | set written foldCase => foldedIf foldCase written.toList
  | seq es => groupedIf (1 < level) (writeRow es)
  | alt es => groupedIf (0 < level) (writeAlternatives es)
  | group _ e => '(' :: write 0 e ++ [')']
  | loop e lo hi greedy =>
    groupedIf (2 < level) (write 3 e ++ writeBounds lo hi ++ (if greedy then [] else ['?']))
  | _ => []

/-- Expressions that follow one another. -/
def writeRow : List Expr → List Char
  | [] => []
  | e :: es => write 2 e ++ writeRow es

/-- Alternatives with strokes between them. -/
def writeAlternatives : List Expr → List Char
  | [] => []
  | [e] => write 1 e
  | e :: es => write 1 e ++ '|' :: writeAlternatives es

end

end CodeMarkup.Regex.Expr
