import CodeMarkup.Regex.Expr
import CodeMarkup.Regex.Fault
import CodeMarkup.Text.Hex
import CodeMarkup.Text.Letter
import CodeMarkup.Text.Offset

/-! # Reading patterns

The reader walks a pattern from left to right and keeps the flags that are set, the groups that have
been opened and the names they have. Flags set inside a group stay set behind it; only a group that
lists flags itself (`(?i:…)`) takes them back. Of sets of characters only the end is looked for;
what they mean is found when the parts of the pattern are made ready to match.

`Parsed.read` is the whole reader: it gives the tree and the number of groups. -/

namespace CodeMarkup.Regex

/-- The flags that a pattern can set. -/
structure Flags where
  /-- `i`: case does not matter. -/
  foldCase : Bool := false
  /-- `m`: `^` and `$` hold at every line. -/
  multiLine : Bool := false
  /-- `s`: a dot takes line feeds too. -/
  dotAll : Bool := false
  /-- `U`: repetitions are lazy unless marked. -/
  swapGreed : Bool := false
  /-- `x`: blanks and comments to the end of the line do not count. -/
  ignoreBlanks : Bool := false
  deriving Repr

/-- Where the reader stands. -/
structure ReaderState where
  rest : List Char
  flags : Flags := {}
  /-- The number of groups opened so far. -/
  opened : Nat := 0
  /-- The names of groups, latest first. -/
  names : List (String × Nat) := []
  /-- Whether something refers to a group by number. -/
  numbered : Bool := false
  /-- References by number must be smaller. -/
  referenceLimit : Nat

/-- A step of the reader. -/
abbrev PatternReader := StateT ReaderState (Except Fault)

namespace PatternReader

/-! ### Moving on -/

/-- What is still to be read. -/
def rest : PatternReader (List Char) := return (← get).rest

/-- Goes on reading somewhere else. -/
def goTo (cs : List Char) : PatternReader Unit := modify ({ · with rest := cs })

/-- Drops characters. -/
def skip (n : Nat) : PatternReader Unit := modify fun s => { s with rest := s.rest.drop n }

/-- What is being dropped: blanks, a comment in a group, or a comment up to the end of the line. -/
inductive Dropping where
  | blanks
  | comment (escaped : Bool)
  | line

/-- Drops comments, and blanks if they do not count. A comment in a group lasts up to a closing
parenthesis that is not escaped, and there has to be one. -/
def dropBlanks (ignoreBlanks : Bool) : Dropping → List Char → Option (List Char)
  | .blanks, '(' :: '?' :: '#' :: rest => dropBlanks ignoreBlanks (.comment false) rest
  | .blanks, c :: rest =>
    if ignoreBlanks then
      if c = '#' then dropBlanks ignoreBlanks .line rest
      else if c = ' ' ∨ c = '\r' ∨ c = '\n' ∨ c = '\t' then dropBlanks ignoreBlanks .blanks rest
      else some (c :: rest)
    else some (c :: rest)
  | .comment false, ')' :: rest => dropBlanks ignoreBlanks .blanks rest
  | .comment escaped, c :: rest =>
    dropBlanks ignoreBlanks (.comment (!escaped && c = '\\')) rest
  | .line, c :: rest => dropBlanks ignoreBlanks (if c = '\n' then .blanks else .line) rest
  | .comment _, [] => none
  | _, [] => some []

/-- Drops comments, and blanks if they do not count. -/
def skipBlanks : PatternReader Unit := do
  let s ← get
  match dropBlanks s.flags.ignoreBlanks .blanks s.rest with
  | some cs => goTo cs
  | none => throw .unclosedGroup

/-- Wants a closing parenthesis. -/
def close : PatternReader Unit := do
  skipBlanks
  match ← rest with
  | ')' :: cs => goTo cs
  | _ => throw .unclosedGroup

/-! ### Numbers and names -/

/-- The numbers that fit a machine word. -/
def wordLimit : Nat := Nat.pow 2 64

/-- A decimal number at the front of a text. -/
def decimal? (cs : List Char) : Option (Nat × List Char) :=
  match cs.span Char.isDigit with
  | ([], _) => none
  | (ds, rest) =>
    let n := ds.foldl (fun n c => 10 * n + (c.toNat - '0'.toNat)) 0
    if n < wordLimit then some (n, rest) else none

/-- A character of a group name. -/
def isNameChar (c : Char) : Bool := Text.isAlphanumeric c || c == '_'

/-- A name between two delimiters, which may start with a hyphen if `relative`. -/
def name? (opening closing : List Char) (relative : Bool) (cs : List Char) :
    Option (String × List Char) :=
  if opening.isPrefixOf cs then
    let cs := cs.drop opening.length
    let (sign, cs) := match cs with
      | '-' :: rest => if relative then (['-'], rest) else ([], cs)
      | _ => ([], cs)
    let (name, rest) := cs.span isNameChar
    if (sign ++ name).isEmpty then none
    else if closing.isPrefixOf rest then
      some (String.ofList (sign ++ name), rest.drop closing.length)
    else none
  else none

/-- A reference to a group, which must have been opened. Group `0`, the whole match, is open from
the start and never closed. -/
def referTo (group : Nat) : PatternReader Expr := do
  if (← get).opened < group then throw .badReference
  return .reference group

/-- A reference by number. -/
def numberedReference : PatternReader Expr := do
  let s ← get
  match decimal? s.rest with
  | some (group, cs) =>
    if group < s.referenceLimit then
      set { s with rest := cs, numbered := true }
      referTo group
    else throw .badReference
  | none => throw .badReference

/-- The number that a name in a reference stands for: that of the group of this name, else the
name is read as a number, counted back from the last group opened if it has a minus sign. -/
def groupNamed? (s : ReaderState) (name : String) : Option Nat :=
  match s.names.lookup name with
  | some group => some group
  | none =>
    match name.toList with
    | '-' :: digits =>
      match decimal? digits with
      | some (0, []) => some 0
      | some (n, []) => if n ≤ s.opened + 1 then some (s.opened + 1 - n) else none
      | _ => none
    | digits =>
      match decimal? digits with
      | some (n, []) => some n
      | _ => none

/-- A reference by name. -/
def namedReference (opening closing : List Char) (relative : Bool) : PatternReader Expr := do
  let s ← get
  match name? opening closing relative s.rest with
  | some (name, cs) =>
    match groupNamed? s name with
    | some group =>
      goTo cs
      referTo group
    | none => throw .badGroupName
  | none => throw .badGroupName

/-! ### Escapes -/

/-- What an escape stands for. -/
inductive Escaped where
  | char (c : Char) (folds : Bool)
  /-- A set, as it is written. -/
  | set (written : String)
  | expr (e : Expr)

/-- The number that hexadecimal digits write. -/
def hexNumber? (cs : List Char) : Option Nat :=
  cs.foldl (fun n? c => do return 16 * (← n?) + (← Text.hexValue? c)) (some 0)

/-- The number at the front of a text that is written in hexadecimal digits: exactly `width` of
them, or up to eight between braces. -/
def hexCode? (width : Nat) (cs : List Char) : Option (Nat × List Char) :=
  let plain := cs.take width
  match if plain.length = width then hexNumber? plain else none with
  | some n => some (n, cs.drop width)
  | none =>
    match cs with
    | '\x7b' :: cs =>
      match cs.span fun c => (Text.hexValue? c).isSome with
      | (digits, '\x7d' :: after) =>
        if digits.isEmpty ∨ 8 < digits.length then none
        else (hexNumber? digits).map (·, after)
      | _ => none
    | _ => none

/-- The character with a code in hexadecimal digits. -/
def hexChar (width : Nat) : PatternReader Escaped := do
  match hexCode? width (← rest) with
  | some (n, after) =>
    if n.isValidChar then
      goTo after
      return .char (Char.ofNat n) true
    else throw .badCode
  | none => throw .badCode

/-- The set of a property, from behind `\p` or `\P`. -/
def property (letter : Char) : PatternReader Escaped := do
  match ← rest with
  | '\x7b' :: cs =>
    match cs.span (· ≠ '\x7d') with
    | (name, _ :: after) =>
      goTo after
      return .set (String.ofList ('\\' :: letter :: '\x7b' :: name ++ ['\x7d']))
    | (_, []) => throw .badEscape
  | c :: after =>
    goTo after
    return .set (String.ofList ['\\', letter, c])
  | [] => throw .badEscape

/-- The control character of an escaped letter. -/
def control? : Char → Option Char
  | 'a' => some '\x07'
  | 'f' => some '\x0c'
  | 'n' => some '\n'
  | 'r' => some '\r'
  | 't' => some '\t'
  | 'v' => some '\x0b'
  | 'e' => some '\x1b'
  | _ => none

/-- The condition or reference of an escape outside of brackets. -/
def outsideEscape? (c : Char) (after : List Char) : Option (PatternReader Escaped) :=
  match c with
  | 'k' => some do
    goTo after
    match after with
    | '\'' :: _ => return .expr (← namedReference ['\''] ['\''] true)
    | _ => return .expr (← namedReference ['<'] ['>'] true)
  | 'A' => some (goTo after *> pure (.expr (.anchor .textStart)))
  | 'z' => some (goTo after *> pure (.expr (.anchor .textEnd)))
  | 'b' => some <| match after with
    | '\x7b' :: _ => throw .badEscape
    | _ => goTo after *> pure (.expr (.anchor .wordEdge))
  | 'B' => some <| match after with
    | '\x7b' :: _ => throw .badEscape
    | _ => goTo after *> pure (.expr (.anchor .notWordEdge))
  | '<' => some (goTo after *> pure (.expr (.anchor .wordStart)))
  | '>' => some (goTo after *> pure (.expr (.anchor .wordEnd)))
  | 'K' => some (goTo after *> pure (.expr .keepOut))
  | 'G' => some (goTo after *> pure (.expr .searchStart))
  | _ => none

/-- The escape behind a backslash. -/
def escape (inBracket : Bool) : PatternReader Escaped := do
  match ← rest with
  | [] => throw .trailingBackslash
  | c :: after =>
    if c.isDigit then return .expr (← numberedReference)
    match if inBracket then none else outsideEscape? c after with
    | some read => read
    | none =>
      goTo after
      match c with
      | 'd' | 'D' | 's' | 'S' | 'w' | 'W' => return .set (String.ofList ['\\', c])
      | 'h' => return .set "[0-9A-Fa-f]"
      | 'H' => return .set "[^0-9A-Fa-f]"
      | 'x' => hexChar 2
      | 'u' => hexChar 4
      | 'U' => hexChar 8
      | 'p' | 'P' => property c
      | 'b' => return .char '\x08' false
      | _ =>
        match control? c with
        | some c => return .char c false
        | none =>
          if c.isAlpha && ! ['k', 'A', 'z', 'B', 'K', 'G'].contains c then throw .badEscape
          return .char c false

/-! ### Brackets -/

/-- The characters that a backslash has to stand before inside a bracket. -/
def isMeta (c : Char) : Bool :=
  ['\\', '.', '+', '*', '?', '(', ')', '|', '[', ']', '\x7b', '\x7d', '^', '$', '#', '&', '-',
    '~'].contains c

/-- The text of a bracket from behind its opening and a negation up to the bracket that closes it,
with `depth` brackets open and the characters found so far latest first; escapes are spelled out.
`steps` bounds the parts. -/
def bracketText : Nat → Nat → List Char → PatternReader String
  | 0, _, _ => throw .badClass
  | steps + 1, depth, found => do
    match ← rest with
    | [] => throw .badClass
    | '\\' :: after =>
      goTo after
      match ← escape true with
      | .char c _ => bracketText steps depth (if isMeta c then c :: '\\' :: found else c :: found)
      | .set written => bracketText steps depth (written.toList.reverse ++ found)
      | .expr _ => throw .badClass
    | '[' :: after =>
      goTo after
      bracketText steps (depth + 1) ('[' :: found)
    | ']' :: after =>
      goTo after
      if depth = 1 then return String.ofList (']' :: found).reverse
      bracketText steps (depth - 1) (']' :: found)
    | c :: after =>
      goTo after
      bracketText steps depth (c :: found)

/-- The start of a bracket from behind its opening, latest first, and what follows it: a negation,
and a closing bracket that comes first and does not close it. -/
def bracketStart (cs : List Char) : List Char × List Char :=
  let (found, cs) := match cs with
    | '^' :: cs => (['^', '['], cs)
    | cs => (['['], cs)
  match cs with
  | ']' :: cs => (']' :: found, cs)
  | _ => (found, cs)

/-- A bracketed set from behind its opening. `steps` bounds the parts. -/
def bracket (steps : Nat) : PatternReader Expr := do
  let s ← get
  let (found, cs) := bracketStart s.rest
  goTo cs
  return .set (← bracketText steps 1 found) s.flags.foldCase

/-! ### Repetitions -/

/-- The lower bound of a repetition in braces, `0` if there is none. -/
def lowerBound? (cs : List Char) : Option (Nat × List Char) :=
  match cs with
  | ',' :: _ => some (0, cs)
  | _ => decimal? cs

/-- The upper bound of a repetition in braces, from behind the lower one. The greatest number that
can be written stands for no bound. -/
def upperBound? (ignoreBlanks : Bool) (lo : Nat) (cs : List Char) :
    Option (Option Nat × List Char) :=
  match cs with
  | '\x7d' :: _ => some (some lo, cs)
  | ',' :: cs =>
    (dropBlanks ignoreBlanks .blanks cs).map fun cs =>
      match decimal? cs with
      | some (hi, cs) => (if hi + 1 = wordLimit then none else some hi, cs)
      | none => (none, cs)
  | _ => none

/-- What follows a closing brace. -/
def behindBrace? (cs : List Char) : Option (List Char) :=
  match cs with
  | '\x7d' :: cs => some cs
  | _ => none

/-- The bounds of a repetition in braces, from behind the opening one; comments and blanks may
stand between its parts. Nothing if it is not written like one: the brace then stands for itself. -/
def bounds? (ignoreBlanks : Bool) (cs : List Char) : Option (Nat × Option Nat × List Char) := do
  let skip := dropBlanks ignoreBlanks .blanks
  let (lo, cs) ← lowerBound? (← skip cs)
  let (hi, cs) ← upperBound? ignoreBlanks lo (← skip cs)
  let cs ← behindBrace? (← skip cs)
  return (lo, hi, cs)

/-- The bounds of a repetition at the front of a text, and what follows it. -/
def repetition? (ignoreBlanks : Bool) : List Char → Option (Nat × Option Nat × List Char)
  | '?' :: cs => some (0, some 1, cs)
  | '*' :: cs => some (0, none, cs)
  | '+' :: cs => some (1, none, cs)
  | '\x7b' :: cs => bounds? ignoreBlanks cs
  | _ => none

/-- Whether a mark follows that turns the greed of a repetition around. -/
def lazyMark : PatternReader Bool := do
  match ← rest with
  | '?' :: cs =>
    goTo cs
    return true
  | _ => return false

/-- A repetition, not to be matched in another way if a plus sign follows. -/
def possessive (e : Expr) : PatternReader Expr := do
  match ← rest with
  | '+' :: cs =>
    goTo cs
    return .atomic e
  | _ => return e

/-- Reads the repetition behind an expression, if there is one. -/
def repeated (e : Expr) : PatternReader Expr := do
  skipBlanks
  let s ← get
  match repetition? s.flags.ignoreBlanks s.rest with
  | none => return e
  | some (lo, hi, cs) =>
    if !e.isRepeatable then throw .notRepeatable
    goTo cs
    skipBlanks
    let marked ← lazyMark
    possessive (.loop e lo hi (marked == s.flags.swapGreed))

/-! ### Groups -/

/-- How deep groups may be nested. -/
def depthLimit : Nat := 64

/-- Sets or takes back a flag. -/
def Flags.put (f : Flags) (c : Char) (on : Bool) : Option Flags :=
  match c with
  | 'i' => some { f with foldCase := on }
  | 'm' => some { f with multiLine := on }
  | 's' => some { f with dotAll := on }
  | 'U' => some { f with swapGreed := on }
  | 'x' => some { f with ignoreBlanks := on }
  | 'u' => if on then some f else none
  | _ => none

/-- Reads a list of flags; `start` is the number of characters left behind the question mark,
`steps` bounds the flags. The answer is whether the list opens a group of its own. A list that
closes at once is refused, and so is one with nothing but a minus sign. -/
def flagList (start : Nat) : Nat → Bool → PatternReader Bool
  | 0, _ => throw .badFlag
  | steps + 1, negated => do
    skipBlanks
    let cs ← rest
    let onlySign := negated && cs.length + 1 == start
    match cs with
    | [] => throw .unclosedGroup
    | ')' :: after =>
      if cs.length = start ∨ onlySign then throw .badFlag
      goTo after
      return false
    | ':' :: after =>
      if onlySign then throw .badFlag
      goTo after
      return true
    | '-' :: after =>
      if negated then throw .badFlag
      goTo after
      flagList start steps true
    | c :: after =>
      match Flags.put (← get).flags c (!negated) with
      | some flags =>
        modify ({ · with flags, rest := after })
        flagList start steps negated
      | none => throw .badFlag

/-- What a group does, as the characters behind its opening parenthesis tell. -/
inductive GroupKind where
  | capture
  | around (ahead negated : Bool)
  | atomic
  | backReference
  | conditional
  | flags

/-- Opens a group with a name, from behind the bracket that opens the name. -/
def namedGroup (cs : List Char) : PatternReader GroupKind := do
  let s ← get
  match name? [] ['>'] false cs with
  | some (name, cs) =>
    let opened := s.opened + 1
    set { s with rest := cs, opened, names := (name, opened) :: s.names }
    return .capture
  | none => throw .badGroupName

/-- Opens a group, given what is left behind its opening parenthesis. -/
def groupKindOf (cs : List Char) : PatternReader GroupKind :=
  match cs with
  | '?' :: '=' :: cs => goTo cs *> pure (.around true false)
  | '?' :: '!' :: cs => goTo cs *> pure (.around true true)
  | '?' :: '<' :: '=' :: cs => goTo cs *> pure (.around false false)
  | '?' :: '<' :: '!' :: cs => goTo cs *> pure (.around false true)
  | '?' :: '<' :: cs => namedGroup cs
  | '?' :: 'P' :: '<' :: cs => namedGroup cs
  | '?' :: 'P' :: '=' :: cs => goTo cs *> pure .backReference
  | '?' :: '>' :: cs => goTo cs *> pure .atomic
  | '?' :: '(' :: cs => goTo cs *> pure .conditional
  | '?' :: cs => goTo cs *> pure .flags
  | _ => modify (fun s => { s with opened := s.opened + 1 }) *> pure .capture

/-- Reads the characters behind an opening parenthesis that tell what the group does. -/
def groupKind : PatternReader GroupKind := do
  skipBlanks
  groupKindOf (← rest)

/-- Reads a list of flags and, if the list opens a group, the content and the end of the group. -/
def flaggedGroup (content : PatternReader Expr) : PatternReader Expr := do
  let old := (← get).flags
  let start := (← rest).length
  if ← flagList start (start + 1) false then
    let e ← content
    match ← rest with
    | ')' :: cs =>
      modify ({ · with flags := old, rest := cs })
      return e
    | _ => throw .unclosedGroup
  else return .empty

/-- What a conditional asks: whether a group has matched, or an expression. -/
def asCondition : Expr → Expr
  | .reference group => .groupMatched group
  | e => e

/-- The conditional of a condition and what is written behind it: the first alternative is taken
if the condition holds, the others if it does not. -/
def conditionalOf (condition child : Expr) : Expr :=
  let (yes, no) := match child with
    | .alt (yes :: [no]) => (yes, no)
    | .alt (yes :: no) => (yes, .alt no)
    | _ => (child, .empty)
  if yes.isEmpty && no.isEmpty then condition else .conditional condition yes no

/-- One expression for a row of them. -/
def sequence : List Expr → Expr
  | [] => .empty
  | [e] => e
  | es => .seq es

mutual

/-- Reads alternatives. In each function the first number bounds the steps and the second is the
number of groups around the place. -/
def alternatives : Nat → Nat → PatternReader Expr
  | 0, _ => throw .tooDeep
  | steps + 1, depth => do
    let e ← branch steps depth []
    skipBlanks
    match ← rest with
    | '|' :: _ => return .alt (e :: (← furtherAlternatives steps depth))
    | _ =>
      let s ← get
      if s.numbered && !s.names.isEmpty then throw .mixedReferences
      return e

/-- Reads the alternatives behind the first. -/
def furtherAlternatives : Nat → Nat → PatternReader (List Expr)
  | 0, _ => throw .tooDeep
  | steps + 1, depth => do
    match ← rest with
    | '|' :: cs =>
      goTo cs
      let e ← branch steps depth []
      skipBlanks
      return e :: (← furtherAlternatives steps depth)
    | _ => return []

/-- Reads one alternative, the parts found so far latest first. -/
def branch : Nat → Nat → List Expr → PatternReader Expr
  | 0, _, _ => throw .tooDeep
  | steps + 1, depth, found => do
    skipBlanks
    match ← rest with
    | [] | '|' :: _ | ')' :: _ => return sequence found.reverse
    | _ =>
      let e ← repeated (← atom steps depth)
      branch steps depth (if e.isEmpty then found else e :: found)

/-- Reads what a repetition can stand behind. Nothing is read where a repetition stands already. -/
def atom : Nat → Nat → PatternReader Expr
  | 0, _ => throw .tooDeep
  | steps + 1, depth => do
    let s ← get
    match s.rest with
    | [] => return .empty
    | '.' :: cs => goTo cs *> pure (.any s.flags.dotAll)
    | '^' :: cs => goTo cs *> pure (.anchor (if s.flags.multiLine then .lineStart else .textStart))
    | '$' :: cs => goTo cs *> pure (.anchor (if s.flags.multiLine then .lineEnd else .textEnd))
    | '(' :: cs =>
      goTo cs
      group steps (depth + 1)
    | '\\' :: cs =>
      goTo cs
      match ← escape false with
      | .char c folds => return .char c (folds && s.flags.foldCase)
      | .set written => return .set written s.flags.foldCase
      | .expr e => return e
    | '[' :: cs => goTo cs *> bracket steps
    | c :: cs =>
      if c = '+' ∨ c = '*' ∨ c = '?' then return .empty
      goTo cs
      return .char c s.flags.foldCase

/-- Reads a group from behind its opening parenthesis. -/
def group : Nat → Nat → PatternReader Expr
  | 0, _ => throw .tooDeep
  | steps + 1, depth => do
    if depthLimit ≤ depth then throw .tooDeep
    match ← groupKind with
    | .capture =>
      let index := (← get).opened
      let e ← alternatives steps depth
      close
      return .group index e
    | .around ahead negated =>
      let e ← alternatives steps depth
      close
      return .around ahead negated e
    | .atomic =>
      let e ← alternatives steps depth
      close
      return .atomic e
    | .backReference => namedReference [] [')'] false
    | .conditional =>
      let condition ← match ← rest with
        | [] => throw .unclosedGroup
        | c :: _ =>
          if c.isDigit then numberedReference
          else if c = '\'' then namedReference ['\''] ['\''] true
          else if c = '<' then namedReference ['<'] ['>'] true
          else alternatives steps depth
      close
      let before ← rest
      let child ← alternatives steps depth
      if (← rest).length = before.length then
        match condition with
        | .reference group => close *> pure (.groupMatched group)
        | _ => throw .badConditional
      else
        close
        return conditionalOf (asCondition condition) child
    | .flags => flaggedGroup (alternatives steps depth)

end

end PatternReader

/-- A pattern that has been read. -/
structure Parsed where
  expr : Expr
  /-- The number of groups. -/
  groups : Nat

/-- Reads a pattern. -/
def Parsed.read (source : String) : Except Fault Parsed := do
  let cs := source.toList
  let limit := Text.byteSize cs / 2
  let (expr, s) ← (PatternReader.alternatives (8 * cs.length + 16) 0).run
    { rest := cs, referenceLimit := limit }
  if s.rest.isEmpty then return ⟨expr, s.opened⟩
  else throw .trailing

end CodeMarkup.Regex
