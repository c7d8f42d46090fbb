import CodeMarkup.Dictionary

/-! # Matches and guards

A mode of a grammar looks for several rules at once. A `Found` is a match of one of them, and a
`Guard` may refuse it; what the guards of a mode want to remember from its begin to its end is in
the mode's memory. -/

namespace CodeMarkup

/-- What the match of a rule does. -/
inductive RuleKind where
  /-- Enters the mode with this number. -/
  | begins (mode : Nat)
  /-- Leaves the mode. -/
  | ends
  /-- Shows that the text cannot be in the language. -/
  | illegal
  deriving DecidableEq, Repr, Inhabited

/-- A match of a rule. -/
structure Found where
  /-- The byte offset where the match starts. -/
  index : Nat
  /-- The text of the rule's groups, the whole rule first. -/
  groups : List (Option String)
  kind : RuleKind
  /-- The place of the rule among the rules of its mode. -/
  position : Nat
  deriving DecidableEq, Repr, Inhabited

namespace Found

/-- The text of a group. -/
def group? (f : Found) (n : Nat) : Option String := f.groups[n]?.join

/-- The matched text. -/
def lexeme (f : Found) : String := (f.group? 0).getD ""

/-- The byte offset behind the matched text. -/
def stop (f : Found) : Nat := f.index + f.lexeme.utf8ByteSize

end Found

/-- What the guards of a mode remember. -/
abbrev Memory := Dictionary String

/-- Says whether a match counts, and what to remember. -/
abbrev Guard := Found → Memory → Bool × Memory

end CodeMarkup
