import CodeMarkup.Regex.Expr
import CodeMarkup.Text.CharSet

/-! # Plain patterns

The tree of a plain pattern, which is matched without backtracking. Trees are put together by
functions that leave out what has no effect: rows and alternatives are flat, characters that follow
one another are one text, alternatives of single characters are a set, and what alternatives begin
with in common is put before them. -/

namespace CodeMarkup.Regex.Plain

open Text (CharSet)

/-- A plain pattern. -/
inductive Node where
  | empty
  | text (cs : List Char)
  | set (s : CharSet)
  | anchor (a : Anchor)
  | seq (ns : List Node)
  /-- The alternatives, preferred ones first. -/
  | alt (ns : List Node)
  | group (index : Nat) (n : Node)
  | loop (n : Node) (lo : Nat) (hi : Option Nat) (greedy : Bool)
  deriving Inhabited, BEq

namespace Node

/-- A set; that of one character is a text. -/
def ofSet (s : CharSet) : Node :=
  match s.single? with
  | some c => text [c]
  | none => set s

/-! ### Rows -/

/-- Puts a part before a row, texts being joined and nothing being left out. -/
def push : Node → List Node → List Node
  | empty, row => row
  | text cs, text ds :: row => text (cs ++ ds) :: row
  | n, row => n :: row

/-- Puts a part before a row, its own parts if it is a row itself. -/
def pushAll : Node → List Node → List Node
  | seq ns, row => ns.foldr push row
  | n, row => push n row

/-- Parts that follow one another. -/
def concat (ns : List Node) : Node :=
  match ns.foldr pushAll [] with
  | [] => empty
  | [n] => n
  | row => seq row

/-! ### Alternatives -/

/-- The alternatives of an alternative. -/
def alternatives : Node → List Node
  | alt ns => ns
  | n => [n]

/-- The set of alternatives that are characters. -/
def charsOf? : List Node → Option CharSet
  | [] => some .empty
  | text [c] :: ns => (charsOf? ns).map (CharSet.union (.single c))
  | _ => none

/-- The set of alternatives that are sets. -/
def setsOf? : List Node → Option CharSet
  | [] => some .empty
  | set s :: ns => (setsOf? ns).map (CharSet.union s)
  | _ => none

/-- The parts of a row. -/
def row? : Node → Option (List Node)
  | seq ns => some ns
  | _ => none

/-- What two rows begin with. -/
def commonStart : List Node → List Node → List Node
  | m :: ms, n :: ns => if m == n then m :: commonStart ms ns else []
  | _, _ => []

/-- What all of some rows begin with. -/
def commonStarts : List (List Node) → List Node
  | [] => []
  | row :: rows => rows.foldl commonStart row

/-- One alternative stands for itself, characters and sets make a set. -/
def ofAlternatives (ns : List Node) : Node :=
  match ns with
  | [n] => n
  | _ =>
    match (charsOf? ns).or (setsOf? ns) with
    | some s => ofSet s
    | none => alt ns

/-- Alternatives. -/
def alternation (ns : List Node) : Node :=
  let ns := ns.flatMap alternatives
  match ofAlternatives ns with
  | alt ns =>
    match ns.mapM row? with
    | some rows =>
      match commonStarts rows with
      | [] => alt ns
      | start =>
        let ends := rows.map fun row => concat (row.drop start.length)
        concat (start ++ [ofAlternatives (ends.flatMap alternatives)])
    | none => alt ns
  | n => n

/-! ### Repetitions -/

mutual

/-- Whether a plain pattern never takes a character. -/
def isZeroWidth : Node → Bool
  | empty | anchor _ => true
  | text _ | set _ => false
  | seq ns | alt ns => allZeroWidth ns
  | group _ n => isZeroWidth n
  | loop n _ _ _ => isZeroWidth n

/-- Whether no part takes a character. -/
def allZeroWidth : List Node → Bool
  | [] => true
  | n :: ns => isZeroWidth n && allZeroWidth ns

end

/-- A repetition. What takes no character is not repeated more than once. -/
def repetition (n : Node) (lo : Nat) (hi : Option Nat) (greedy : Bool) : Node :=
  let (lo, hi) := if isZeroWidth n then (min lo 1, some (min (hi.getD 1) 1)) else (lo, hi)
  if lo = 0 ∧ hi = some 0 then empty
  else if lo = 1 ∧ hi = some 1 then n
  else loop n lo hi greedy

mutual

/-- Whether a plain pattern can match without taking a character. -/
def isNullable : Node → Bool
  | empty | anchor _ => true
  | text _ => false
  | set s => s.bounds.isEmpty
  | seq ns => allNullable ns
  | alt ns => anyNullable ns
  | group _ n => isNullable n
  | loop n lo _ _ => lo == 0 || isNullable n

/-- Whether each part is nullable. -/
def allNullable : List Node → Bool
  | [] => true
  | n :: ns => isNullable n && allNullable ns

/-- Whether one of the alternatives is nullable. -/
def anyNullable : List Node → Bool
  | [] => false
  | n :: ns => isNullable n || anyNullable ns

end

/-! ### Groups -/

mutual

/-- The greatest number of a group. -/
def lastGroup : Node → Nat
  | empty | text _ | set _ | anchor _ => 0
  | seq ns | alt ns => lastGroupOf ns
  | group i n => max i (lastGroup n)
  | loop n _ _ _ => lastGroup n

/-- The greatest number of a group of some patterns. -/
def lastGroupOf : List Node → Nat
  | [] => 0
  | n :: ns => max (lastGroup n) (lastGroupOf ns)

end

end Node

end CodeMarkup.Regex.Plain
