import CodeMarkup.Problem

/-! # Keyword tables

The words of a mode, ready to be looked up. Of two declarations of a word the later one counts. -/

namespace CodeMarkup

/-- What a keyword means. -/
structure KeywordEntry where
  category : String
  relevance : Nat
  deriving DecidableEq, Repr, Inhabited

/-- The keywords of a mode, the latest declaration first. -/
structure KeywordTable where
  entries : List (String × KeywordEntry)
  deriving Repr, Inhabited

namespace KeywordTable

/-- A text without regard to case, if case does not matter. -/
def folded (foldCase : Bool) (word : String) : String :=
  if foldCase then Text.lowercase word else word

/-- The text before the first bar and, if there is one, the text behind it. -/
def splitBar : List Char → List Char × Option (List Char)
  | [] => ([], none)
  | '|' :: cs => ([], some cs)
  | c :: cs => let (word, weight) := splitBar cs; (c :: word, weight)

/-- The number that decimal digits write, perhaps behind a plus sign, if it is no greater than a
relevance can be. -/
def number? (cs : List Char) : Option Nat :=
  let digits := match cs with
    | '+' :: ds => ds
    | ds => ds
  if digits.isEmpty || !digits.all Char.isDigit then none
  else
    let n := digits.foldl (fun n c => 10 * n + (c.toNat - '0'.toNat)) 0
    if n ≤ relevanceLimit then some n else none

/-- What a word counts for: its weight, nothing if it is common, else one. -/
def relevance? (word : String) : Option String → Option Nat
  | some weight => number? (Text.trim weight).toList
  | none => some (if Keywords.common.contains (Text.lowercase word) then 0 else 1)

/-- The entry that a declared word of a category makes. -/
def entry (foldCase : Bool) (category word : String) :
    Except GrammarProblem (String × KeywordEntry) :=
  let (key, weight) := splitBar (folded foldCase word).toList
  let key := String.ofList key
  let weight := weight.map String.ofList
  match relevance? key weight with
  | some relevance => .ok (key, ⟨category, relevance⟩)
  | none => .error (.badWeight (weight.getD "") key)

/-- The declared words with their categories. -/
def declarations (k : Keywords) : List (String × String) :=
  k.categories.flatMap fun (category, words) => words.map (category, ·)

/-- The table of a declaration. -/
def compile (foldCase : Bool) (k : Keywords) : Except GrammarProblem KeywordTable := do
  let entries ← (declarations k).mapM fun (category, word) => entry foldCase category word
  return ⟨entries.reverse⟩

/-- What a word means. -/
def find? (t : KeywordTable) (foldCase : Bool) (word : String) : Option KeywordEntry :=
  t.entries.lookup (folded foldCase word)

end KeywordTable

end CodeMarkup
