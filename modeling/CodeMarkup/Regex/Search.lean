import CodeMarkup.Regex.Backtrack
import CodeMarkup.Regex.Reader

/-! # Searching

`Regex.compile` reads a pattern and prepares it, `Regex.search` finds the first place at or after an
offset where it matches, and `Regex.occurrences` all successive matches. A search sees the text
before its offset: anchors and look-behinds reach back over it. An offset inside a character is a
place to start from too, where little can match but what takes no character. -/

namespace CodeMarkup

open Regex
open Text (Cursor Place)

/-- How a pattern is matched. -/
inductive Regex.Body where
  | threads (m : Machine)
  | backtracking (p : Plan)

/-- A pattern that is ready to be searched for. -/
structure Regex where
  /-- The number of its groups, not counting the whole match. -/
  groups : Nat
  body : Regex.Body

namespace Regex

/-- Reads a pattern and prepares it. A pattern without hard parts is a plain one. -/
def compile (source : String) : Except Fault Regex := do
  let parsed ← Parsed.read source
  if parsed.expr.isHard then
    return ⟨parsed.groups, .backtracking (← Plan.ofExpr parsed.expr)⟩
  else
    let m ← Machine.ofText (parsed.expr.write 0)
    return ⟨m.groups, .threads m⟩

/-- Tries one place after the other, counting down the characters still to come. -/
def searchThreads (m : Machine) : List Char → Cursor → Option Marks
  | text, here =>
    match m.run here with
    | some (stop, marks) => some ((0, some ⟨here, 0⟩) :: (1, some ⟨stop, 0⟩) :: marks)
    | none =>
      match text, here.next? with
      | _ :: text, some (_, behind) => searchThreads m text behind
      | _, _ => none

/-- Tries so many places one after the other, other ways having been taken up so many times before.
Going on to the next place is such a way too. -/
def searchPlan (p : Plan) (start : Option Nat) : Nat → Place → Nat → Except Overrun (Option Marks)
  | 0, _, _ => .ok none
  | places + 1, here, taken =>
    match Walk.run p start here taken with
    | .matched way _ => .ok (some ((1, some way.here) :: way.marks))
    | .failed taken =>
      if backtrackLimit ≤ taken then .error .backtracking
      else match here.next? with
        | some behind => searchPlan p start places behind (taken + 1)
        | none => .ok none
    | .overrun cause => .error cause
    | .next _ => .error .backtracking

/-- The first match at or after a place. `resumed` says that the search goes on behind an empty
match, so that its start is no place to continue from. A walk over the text from inside a character
takes at most two steps for each character. -/
def searchFrom (re : Regex) (here : Place) (resumed : Bool) : Except Overrun (Option Captures) :=
  let captures (marks : Option Marks) := marks.map (Captures.ofMarks re.groups)
  match re.body with
  | .threads m => .ok (captures (here.ceil?.bind fun c => searchThreads m c.after c))
  | .backtracking p =>
    let start := if resumed then none else some here.offset
    match searchPlan p start (2 * here.cursor.after.length + 1) here 0 with
    | .ok marks => .ok (captures marks)
    | .error e => .error e

/-- The first match at or after a byte offset; none past the end. -/
def search (re : Regex) (text : List Char) (offset : Nat) : Except Overrun (Option Captures) :=
  let here := Place.ofOffset text offset
  if here.inside ≠ 0 ∧ here.cursor.after = [] then .ok none else re.searchFrom here false

/-- Where the search for the next match starts: behind the last match, and one character further
on if that was empty. -/
structure Progress where
  /-- The place to search from; none past the end. -/
  from? : Option Cursor
  /-- The end of the last match. -/
  last? : Option Nat

/-- The next match, if any, and how to go on; `skip` says whether searches behind an empty match
are told so. An empty match at the end of the last one is passed over. -/
def nextMatch (re : Regex) (skip : Bool) (p : Progress) :
    Except Overrun (Option (Option Captures × Progress)) :=
  match p.from? with
  | none => .ok none
  | some here =>
    let resumed := skip && p.last?.any (· < here.offset)
    match re.searchFrom ⟨here, 0⟩ resumed with
    | .error e => .error e
    | .ok none => .ok none
    | .ok (some found) =>
      match found.get? 0 with
      | none => .ok none
      | some ⟨start, stop⟩ =>
        let behind := here.advanceTo stop
        if start = stop then
          let from? := (behind.bind Cursor.next?).map (·.2)
          if p.last? = some stop then .ok (some (none, { p with from? }))
          else .ok (some (some found, ⟨from?, some stop⟩))
        else .ok (some (some found, ⟨behind, some stop⟩))

/-- The matches found in so many searches. -/
def matchesFor (re : Regex) (skip : Bool) : Nat → Progress → Except Overrun (List Captures)
  | 0, _ => .ok []
  | steps + 1, p => do
    match ← re.nextMatch skip p with
    | none => return []
    | some (none, p) => matchesFor re skip steps p
    | some (some found, p) => return found :: (← matchesFor re skip steps p)

/-- All successive matches with their captures. -/
def allCaptures (re : Regex) (text : List Char) : Except Overrun (List Captures) :=
  re.matchesFor false (2 * text.length + 4) ⟨some (Cursor.start text), none⟩

/-- The spans of all successive matches. -/
def occurrences (re : Regex) (text : List Char) : Except Overrun (List Span) := do
  let found ← re.matchesFor true (2 * text.length + 4) ⟨some (Cursor.start text), none⟩
  return found.filterMap (·.get? 0)

end Regex

end CodeMarkup
