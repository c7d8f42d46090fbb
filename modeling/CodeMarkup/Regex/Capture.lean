import CodeMarkup.Regex.Expr
import CodeMarkup.Text.Letter
import CodeMarkup.Text.Place

/-! # Places and captures

When an anchor holds at a place, and what a match records: for each end of each group the place
where it was last passed. Slot `2 * i` is the start of group `i`, slot `2 * i + 1` its end. -/

namespace CodeMarkup.Regex

open Text (Cursor Place)

/-! ### Anchors -/

/-- Whether the character before a place is one of a word. -/
def wordBefore (c : Cursor) : Bool := c.before.head?.any Text.isWord

/-- Whether the character after a place is one of a word. -/
def wordAfter (c : Cursor) : Bool := c.after.head?.any Text.isWord

/-- Whether an anchor holds at a place. -/
def Anchor.holds : Anchor → Cursor → Bool
  | textStart, c => c.before.isEmpty
  | textEnd, c => c.after.isEmpty
  | lineStart, c => c.before.head?.all (· == '\n')
  | lineEnd, c => c.after.head?.all (· == '\n')
  | wordStart, c => !wordBefore c && wordAfter c
  | wordEnd, c => wordBefore c && !wordAfter c
  | wordEdge, c => wordBefore c != wordAfter c
  | notWordEdge, c => wordBefore c == wordAfter c

/-! ### Captures -/

/-- The places recorded, latest first; nothing for a slot that has been cleared. -/
abbrev Marks := List (Nat × Option Place)

namespace Marks

/-- The place last recorded for a slot. -/
def place? (marks : Marks) (slot : Nat) : Option Place := (marks.lookup slot).join

/-- Both ends of a group, if it has matched. -/
def group? (marks : Marks) (group : Nat) : Option (Place × Place) := do
  let start ← marks.place? (2 * group)
  let stop ← marks.place? (2 * group + 1)
  return (start, stop)

end Marks

/-- A part of a text: the byte offsets of its start and its end. -/
structure Span where
  start : Nat
  stop : Nat
  deriving DecidableEq, Repr, Inhabited

/-- What a match has captured: the spans of the groups, group `0` being the whole match. -/
structure Captures where
  groups : Array (Option Span)
  deriving Repr

namespace Captures

/-- The span of a group. -/
def get? (c : Captures) (group : Nat) : Option Span := c.groups[group]?.join

/-- The captures that marks record, for so many groups beside the whole match. -/
def ofMarks (groups : Nat) (marks : Marks) : Captures :=
  ⟨((List.range (groups + 1)).map fun i =>
    (marks.group? i).map fun (start, stop) => ⟨start.offset, stop.offset⟩).toArray⟩

end Captures

end CodeMarkup.Regex
