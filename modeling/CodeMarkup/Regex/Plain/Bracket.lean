import CodeMarkup.Regex.Fault
import CodeMarkup.Regex.Property
import CodeMarkup.Text.Letter

/-! # Sets in plain patterns

Reading a bracketed set: characters, ranges, escaped sets, brackets inside the bracket, named
classes such as `[:alpha:]` and the operations `&&`, `--` and `~~`, which bind equally and to the
left. Beside the set a reader tells how deep its parts are nested. -/

namespace CodeMarkup.Regex.Plain

open Text (CharSet)

/-- A set that has been read, and how deep its parts are nested. -/
structure Nested where
  set : CharSet
  height : Nat := 0

/-! ### Escapes -/

/-- What an escape stands for. -/
abbrev Escaped := Char ⊕ CharSet

/-- The set of a property from behind `\p`, and what follows it. -/
def property? (foldCase negated : Bool) (cs : List Char) : Option (CharSet × List Char) := do
  let (name, after) ← match cs with
    | '\x7b' :: cs =>
      match cs.span (· ≠ '\x7d') with
      | (name, _ :: after) => some (name, after)
      | (_, []) => none
    | c :: after => some ([c], after)
    | [] => none
  let (set, opposite) ← match cs, name with
    | '\x7b' :: _, _ => Property.read? name
    | _, _ => (Property.named? name).map (·, false)
  return (.complIf (negated != opposite) (.foldedIf foldCase set), after)

/-- The escape from behind a backslash, and what follows it. -/
def escape? (foldCase : Bool) : List Char → Option (Escaped × List Char)
  | 'd' :: cs => some (.inr Text.Trait.decimal, cs)
  | 'D' :: cs => some (.inr Text.Trait.decimal.compl, cs)
  | 's' :: cs => some (.inr Text.Trait.whiteSpace, cs)
  | 'S' :: cs => some (.inr Text.Trait.whiteSpace.compl, cs)
  | 'w' :: cs => some (.inr Text.wordSet, cs)
  | 'W' :: cs => some (.inr Text.wordSet.compl, cs)
  | 'p' :: cs => (property? foldCase false cs).map fun (s, cs) => (.inr s, cs)
  | 'P' :: cs => (property? foldCase true cs).map fun (s, cs) => (.inr s, cs)
  | c :: cs => if c.isAlphanum || 128 ≤ c.toNat then none else some (.inl c, cs)
  | [] => none

namespace Bracket

/-! ### Named classes -/

/-- The named classes, all within ASCII. -/
def namedClass? : String → Option CharSet
  | "alnum" => some (.read "30-39 41-5a 61-7a ")
  | "alpha" => some (.read "41-5a 61-7a ")
  | "ascii" => some (.range 0 0x7f)
  | "blank" => some (.read "9 20 ")
  | "cntrl" => some (.read "0-1f 7f ")
  | "digit" => some (.range 0x30 0x39)
  | "graph" => some (.range 0x21 0x7e)
  | "lower" => some (.range 0x61 0x7a)
  | "print" => some (.range 0x20 0x7e)
  | "punct" => some (.read "21-2f 3a-40 5b-60 7b-7e ")
  | "space" => some (.read "9-d 20 ")
  | "upper" => some (.range 0x41 0x5a)
  | "word" => some (.read "30-39 41-5a 5f 61-7a ")
  | "xdigit" => some (.read "30-39 41-46 61-66 ")
  | _ => none

/-- A named class behind an opening bracket, and what follows its closing bracket. -/
def named? (foldCase : Bool) : List Char → Option (CharSet × List Char)
  | ':' :: cs =>
    let (negated, cs) := match cs with
      | '^' :: cs => (true, cs)
      | _ => (false, cs)
    match cs.span (· ≠ ':') with
    | (name, ':' :: ']' :: cs) =>
      (namedClass? (String.ofList name)).map fun s =>
        (.complIf negated (.foldedIf foldCase s), cs)
    | _ => none
  | _ => none

/-! ### Ranges -/

/-- A character or an escape at the front of a text. -/
def bound? (foldCase : Bool) : List Char → Option (Escaped × List Char)
  | '\\' :: cs => escape? foldCase cs
  | c :: cs => some (.inl c, cs)
  | [] => none

/-- The set of a character or an escape. -/
def setOf : Escaped → CharSet
  | .inl c => .single c
  | .inr s => s

/-- A character, a range or an escaped set at the front of a text. -/
def item (foldCase : Bool) (cs : List Char) : Except Fault (CharSet × List Char) :=
  match bound? foldCase cs with
  | none => .error .badClass
  | some (first, rest) =>
    match rest with
    | [] => .error .badClass
    | '-' :: after =>
      match after with
      | [] => .error .badClass
      | ']' :: _ | '-' :: _ => .ok (setOf first, rest)
      | _ =>
        match first, bound? foldCase after with
        | .inl lo, some (.inl hi, rest) =>
          if lo ≤ hi then .ok (.range lo.toNat hi.toNat, rest) else .error .badRange
        | _, none => .error .badClass
        | _, _ => .error .setInRange
    | _ => .ok (setOf first, rest)

/-! ### Brackets -/

/-- The parts of a bracket read since the last operation. -/
structure Row where
  set : CharSet := .empty
  count : Nat := 0
  height : Nat := 0

/-- Adds a part to a row. -/
def Row.add (r : Row) (part : Nested) : Row :=
  ⟨r.set.union part.set, r.count + 1, max r.height part.height⟩

/-- A row as one part. -/
def Row.whole (r : Row) : Nested := ⟨r.set, if r.count ≤ 1 then r.height else r.height + 1⟩

/-- An operation between two parts of a bracket. -/
inductive Operation where
  | inter
  | diff
  | symmDiff

/-- What an operation does to two sets. -/
def Operation.apply : Operation → CharSet → CharSet → CharSet
  | inter => .inter
  | diff => .diff
  | symmDiff => .symmDiff

/-- Joins what stands to the left of an operation to what stands to the right. -/
def joinWith (foldCase : Bool) (left : Option (Nested × Operation)) (right : Nested) : Nested :=
  match left with
  | none => right
  | some (l, op) =>
    ⟨op.apply (.foldedIf foldCase l.set) (.foldedIf foldCase right.set),
      max l.height right.height + 1⟩

/-- An operation at the front of a text. -/
def operation? : List Char → Option (Operation × List Char)
  | '&' :: '&' :: cs => some (.inter, cs)
  | '-' :: '-' :: cs => some (.diff, cs)
  | '~' :: '~' :: cs => some (.symmDiff, cs)
  | _ => none

/-- Takes the hyphens at the front of a text, which stand for themselves. -/
def hyphens : List Char → Row → Row × List Char
  | '-' :: cs, r => hyphens cs (r.add ⟨.single '-', 0⟩)
  | cs, r => (r, cs)

/-- What follows an opening bracket up to its first part: whether the set is negated, the
characters that stand for themselves there, and the rest. -/
def opening (cs : List Char) : Bool × Row × List Char :=
  let (negated, cs) := match cs with
    | '^' :: cs => (true, cs)
    | _ => (false, cs)
  let (row, cs) := hyphens cs {}
  match row.count, cs with
  | 0, ']' :: cs => (negated, row.add ⟨.single ']', 0⟩, cs)
  | _, _ => (negated, row, cs)

/-- Reads a bracket from behind its opening, with `steps` bounding the parts read: `left` is what
stands before the last operation, `row` the parts since. The answer is the set and the text behind
the closing bracket. -/
def readBody (foldCase : Bool) : Nat → Bool → Option (Nested × Operation) → Row → List Char →
    Except Fault (Nested × List Char)
  | 0, _, _, _, _ => .error .badClass
  | steps + 1, negated, left, row, cs =>
    match operation? cs with
    | some (op, cs) =>
      readBody foldCase steps negated (some (joinWith foldCase left row.whole, op)) {} cs
    | none =>
      match cs with
      | [] => .error .badClass
      | ']' :: cs =>
        let whole := joinWith foldCase left row.whole
        .ok (⟨.complIf negated (.foldedIf foldCase whole.set), whole.height + 1⟩, cs)
      | '[' :: cs =>
        match named? foldCase cs with
        | some (s, cs) => readBody foldCase steps negated left (row.add ⟨s, 0⟩) cs
        | none =>
          let (negatedInside, start, cs) := opening cs
          match readBody foldCase steps negatedInside none start cs with
          | .ok (part, cs) => readBody foldCase steps negated left (row.add part) cs
          | .error e => .error e
      | cs =>
        match item foldCase cs with
        | .ok (s, cs) => readBody foldCase steps negated left (row.add ⟨s, 0⟩) cs
        | .error e => .error e

/-- Reads a bracketed set from behind its opening bracket, with `steps` bounding the parts read. -/
def read (foldCase : Bool) (steps : Nat) (cs : List Char) : Except Fault (Nested × List Char) :=
  let (negated, row, cs) := opening cs
  readBody foldCase steps negated none row cs

end Bracket

end CodeMarkup.Regex.Plain
