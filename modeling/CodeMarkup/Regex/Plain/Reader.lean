import CodeMarkup.Regex.Plain.Bracket
import CodeMarkup.Regex.Plain.Node

/-! # Reading plain patterns

The reader of the plain pattern language: groups, alternatives, repetitions and sets, and the flags
`i`, `m`, `s` and `U`, which last up to the end of the group they are set in. How deep the parts of
a pattern are nested is counted while they are read, and must not pass `Plain.heightLimit`. -/

namespace CodeMarkup.Regex.Plain

open Text (CharSet)

/-- The flags of plain patterns. -/
structure Flags where
  /-- `i`: case does not matter. -/
  foldCase : Bool := false
  /-- `m`: `^` and `$` hold at every line. -/
  multiLine : Bool := false
  /-- `s`: a dot takes line feeds too. -/
  dotAll : Bool := false
  /-- `U`: repetitions are lazy unless marked. -/
  swapGreed : Bool := false

/-- Where the reader stands. -/
structure ReaderState where
  rest : List Char
  flags : Flags := {}
  /-- The number of groups opened so far. -/
  opened : Nat := 0
  /-- The names of groups. -/
  names : List (List Char) := []

/-- A step of the reader. -/
abbrev Reader := StateT ReaderState (Except Fault)

/-- A part of a row: what it is, how deep it is nested, and whether it can be repeated. -/
structure Part where
  node : Node
  height : Nat := 0
  repeatable : Bool := true

namespace Reader

/-- What is still to be read. -/
def rest : Reader (List Char) := return (← get).rest

/-- Goes on reading somewhere else. -/
def goTo (cs : List Char) : Reader Unit := modify ({ · with rest := cs })

/-! ### Characters -/

/-- A character. -/
def charNode (foldCase : Bool) (c : Char) : Node :=
  if foldCase then
    match Text.caseVariants c with
    | [_] => .text [c]
    | cs => .ofSet (CharSet.ofCodes (cs.map Char.toNat))
  else .text [c]

/-- What a dot takes. -/
def dotSet (newline : Bool) : CharSet :=
  if newline then .all else CharSet.compl (.single '\n')

/-! ### Repetitions -/

/-- The numbers that a bound can be. -/
def boundLimit : Nat := Nat.pow 2 32

/-- A decimal number at the front of a text. -/
def decimal? (cs : List Char) : Option (Nat × List Char) :=
  match (cs.dropWhile Char.isWhitespace).span Char.isDigit with
  | ([], _) => none
  | (ds, cs) =>
    let n := ds.foldl (fun n c => 10 * n + (c.toNat - '0'.toNat)) 0
    if n < boundLimit then some (n, cs.dropWhile Char.isWhitespace) else none

/-- The bounds of a repetition from behind the opening brace. -/
def bounds? (cs : List Char) : Option (Nat × Option Nat × List Char) := do
  let (lo, cs) ← decimal? cs
  match cs with
  | '\x7d' :: cs => some (lo, some lo, cs)
  | ',' :: '\x7d' :: cs => some (lo, none, cs)
  | ',' :: cs =>
    match ← decimal? cs with
    | (hi, '\x7d' :: cs) => if lo ≤ hi then some (lo, some hi, cs) else none
    | _ => none
  | _ => none

/-- Repeats the last part of a row, which is kept latest first. -/
def repeatLast (lo : Nat) (hi : Option Nat) (cs : List Char) : List Part → Reader (List Part)
  | [] => throw .notRepeatable
  | part :: parts => do
    if !part.repeatable then throw .notRepeatable
    let lazyMark ← match cs with
      | '?' :: cs => goTo cs *> pure true
      | _ => goTo cs *> pure false
    let greedy := lazyMark == (← get).flags.swapGreed
    return ⟨.repetition part.node lo hi greedy, part.height + 1, true⟩ :: parts

/-! ### Groups -/

/-- Sets or takes back a flag. -/
def put (f : Flags) (c : Char) (on : Bool) : Option Flags :=
  match c with
  | 'i' => some { f with foldCase := on }
  | 'm' => some { f with multiLine := on }
  | 's' => some { f with dotAll := on }
  | 'U' => some { f with swapGreed := on }
  | _ => none

/-- Reads a list of flags, none twice, up to the colon or the parenthesis behind it. `seen` holds
the characters read. -/
def flagList : List Char → List Char → Flags → Option (Flags × List Char × List Char)
  | _, [], _ => none
  | seen, c :: cs, flags =>
    if c = ':' ∨ c = ')' then
      if seen.head? = some '-' then none else some (flags, seen, c :: cs)
    else if seen.contains c then none
    else if c = '-' then flagList (c :: seen) cs flags
    else match put flags c (!seen.contains '-') with
      | some flags => flagList (c :: seen) cs flags
      | none => none

/-- A character of a group name, at its start or later on. -/
def isNameChar (first : Bool) (c : Char) : Bool :=
  c == '_' || Text.isAlphanumeric c && (!first || !c.isDigit) ||
    (!first && (c == '.' || c == '[' || c == ']'))

/-- Reads the name of a group from behind its opening. -/
def groupName (cs : List Char) : Reader Unit := do
  match cs.span (· ≠ '>') with
  | (c :: name, _ :: after) =>
    let s ← get
    if isNameChar true c && name.all (isNameChar false) && !s.names.contains (c :: name) then
      set { s with rest := after, names := (c :: name) :: s.names }
    else throw .badGroupName
  | _ => throw .badGroupName

/-- What an opening parenthesis begins. -/
inductive Opening where
  | group (index : Nat)
  | plain (flags : Flags)
  | flags (flags : Flags)

/-- Opens a group that captures. -/
def newGroup : Reader Opening := do
  let s ← get
  set { s with opened := s.opened + 1 }
  return .group (s.opened + 1)

/-- Reads what follows an opening parenthesis. -/
def opening : Reader Opening := do
  let s ← get
  match s.rest with
  | '?' :: '=' :: _ | '?' :: '!' :: _ | '?' :: '<' :: '=' :: _ | '?' :: '<' :: '!' :: _ =>
    throw .badFlag
  | '?' :: 'P' :: '<' :: cs | '?' :: '<' :: cs => groupName cs *> newGroup
  | '?' :: cs =>
    match flagList [] cs s.flags with
    | some (flags, _, ':' :: cs) => goTo cs *> pure (.plain flags)
    | some (flags, _ :: _, _ :: cs) => goTo cs *> pure (.flags flags)
    | _ => throw .badFlag
  | _ => newGroup

/-! ### Rows and alternatives -/

/-- The height of parts that are put together. -/
def heightOf (heights : List Nat) : Nat :=
  let height := heights.foldl max 0
  if heights.length ≤ 1 then height else height + 1

/-- A row as one part, given its parts latest first. -/
def rowOf (parts : List Part) : Node × Nat :=
  (.concat (parts.reverse.map (·.node)), heightOf (parts.map (·.height)))

mutual

/-- Reads alternatives, those found so far latest first; in each function the number bounds the
steps. -/
def alternatives : Nat → List (Node × Nat) → Reader (Node × Nat)
  | 0, _ => throw .tooDeep
  | steps + 1, found => do
    let branch := rowOf (← row steps [])
    match ← rest with
    | '|' :: cs =>
      goTo cs
      alternatives steps (branch :: found)
    | _ =>
      let found := (branch :: found).reverse
      return (.alternation (found.map (·.1)), heightOf (found.map (·.2)))

/-- Reads parts that follow one another, those found so far latest first. -/
def row : Nat → List Part → Reader (List Part)
  | 0, _ => throw .tooDeep
  | steps + 1, found => do
    let s ← get
    match s.rest with
    | [] | ')' :: _ | '|' :: _ => return found
    | '(' :: cs =>
      goTo cs
      match ← opening with
      | .flags flags =>
        modify ({ · with flags })
        row steps (⟨.empty, 0, false⟩ :: found)
      | .group index =>
        let (node, height) ← inGroup steps s.flags
        row steps (⟨.group index node, height + 1, true⟩ :: found)
      | .plain flags =>
        modify ({ · with flags })
        let (node, height) ← inGroup steps s.flags
        row steps (⟨node, height + 1, true⟩ :: found)
    | '[' :: cs =>
      match Bracket.read s.flags.foldCase steps cs with
      | .ok (part, cs) =>
        goTo cs
        row steps (⟨.ofSet part.set, part.height, true⟩ :: found)
      | .error e => throw e
    | '?' :: cs => row steps (← repeatLast 0 (some 1) cs found)
    | '*' :: cs => row steps (← repeatLast 0 none cs found)
    | '+' :: cs => row steps (← repeatLast 1 none cs found)
    | '\x7b' :: cs =>
      match bounds? cs with
      | some (lo, hi, cs) => row steps (← repeatLast lo hi cs found)
      | none => throw .badCount
    | '\\' :: cs =>
      match escape? s.flags.foldCase cs with
      | some (.inl c, cs) =>
        goTo cs
        row steps (⟨charNode s.flags.foldCase c, 0, true⟩ :: found)
      | some (.inr set, cs) =>
        goTo cs
        row steps (⟨.ofSet set, 0, true⟩ :: found)
      | none => throw .badEscape
    | c :: cs =>
      goTo cs
      let node := match c with
        | '.' => Node.ofSet (dotSet s.flags.dotAll)
        | '^' => .anchor (if s.flags.multiLine then .lineStart else .textStart)
        | '$' => .anchor (if s.flags.multiLine then .lineEnd else .textEnd)
        | c => charNode s.flags.foldCase c
      row steps (⟨node, 0, true⟩ :: found)

/-- Reads a group up to its closing parenthesis; behind it the flags `old` hold again. -/
def inGroup : Nat → Flags → Reader (Node × Nat)
  | 0, _ => throw .tooDeep
  | steps + 1, old => do
    let found ← alternatives steps []
    match ← rest with
    | ')' :: cs =>
      modify ({ · with rest := cs, flags := old })
      return found
    | _ => throw .unclosedGroup

end

end Reader

/-- How deep the parts of a plain pattern may be nested. -/
def heightLimit : Nat := 250

/-- Reads a plain pattern. -/
def read (cs : List Char) : Except Fault Node := do
  let ((node, height), s) ← (Reader.alternatives (4 * cs.length + 16) []).run { rest := cs }
  if !s.rest.isEmpty then throw .trailing
  if heightLimit < height then throw .tooDeep
  return node

end CodeMarkup.Regex.Plain
