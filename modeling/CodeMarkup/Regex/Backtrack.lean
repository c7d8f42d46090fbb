import CodeMarkup.Regex.Plan

/-! # Matching with backtracking

A plan is followed one task at a time. Where there are several ways to go on, the others are put on
a stack together with the place and the marks, and when a task fails the last of them is taken up.
How often this may happen is limited, and so is the height of the stack: a search that needs more
gives up.

`Walk.run` is the whole walk from a place. -/

namespace CodeMarkup.Regex

open Text (Cursor Place)

/-- Why a search gave up. -/
inductive Overrun where
  /-- Other ways were taken up too often. -/
  | backtracking
  /-- Too many ways were left for later. -/
  | stack
  deriving DecidableEq, Repr, Inhabited

/-- How often a search may take up another way. -/
def backtrackLimit : Nat := 1000000

/-- How many ways a search may leave for later. -/
def stackLimit : Nat := 1000000

/-- What is still to do before a match is complete. -/
inductive Task where
  | follow (p : Plan)
  | followAll (ps : List Plan)
  /-- The plan, or one of the others if it fails. -/
  | choose (ps : List Plan)
  | mark (slot : Nat)
  /-- The loop of a counted plan, gone round so many times. -/
  | again (times : Nat) (lo : Nat) (hi : Option Nat) (greedy : Bool) (p : Plan)
  /-- The loop of a guarded plan, gone round so many times, and the byte offset where it could last
  be left. -/
  | againGuarded (times : Nat) (left? : Option Nat) (lo : Nat) (greedy : Bool) (p : Plan)
  /-- Back to where a look-around stood. -/
  | returnTo (here : Place)
  /-- Forget the ways above the last depth noted. -/
  | commit
  /-- What should not match has matched: forget the ways above so many, and fail. -/
  | refuse (depth : Nat)

/-- A way to go on. -/
structure Way where
  tasks : List Task
  here : Place
  marks : Marks
  /-- How many ways are to be kept when something is committed to, latest first. A conditional notes
  it for both of its branches, but only the first one commits. -/
  depths : List Nat := []

/-- A walk: the way being followed, the ways left for later with their number, and how many times
another way has been taken up. -/
structure Walk where
  way : Way
  stack : List Way
  depth : Nat
  taken : Nat

/-- What a step of a walk leads to. -/
inductive Step where
  | next (w : Walk)
  | matched (way : Way) (taken : Nat)
  | failed (taken : Nat)
  | overrun (cause : Overrun)

namespace Walk

/-- Takes up the last way left. -/
def fail (w : Walk) : Step :=
  match w.stack with
  | [] => .failed w.taken
  | way :: stack =>
    if backtrackLimit ≤ w.taken then .overrun .backtracking
    else .next ⟨way, stack, w.depth - 1, w.taken + 1⟩

/-- Goes on with other tasks. -/
def doing (w : Walk) (tasks : List Task) : Walk := { w with way := { w.way with tasks } }

/-- Goes on with some tasks and leaves others for later. A search leaves one way more, which goes on
to the next place. -/
def branch (w : Walk) (now later : List Task) : Step :=
  if stackLimit ≤ w.depth + 1 then .overrun .stack
  else .next
    ⟨{ w.way with tasks := now }, { w.way with tasks := later } :: w.stack, w.depth + 1, w.taken⟩

/-- Goes on with one of two rows of tasks, and leaves the other for later. -/
def branchIf (w : Walk) (firstFirst : Bool) (first second : List Task) : Step :=
  if firstFirst then w.branch first second else w.branch second first

/-- Forgets the ways above so many. -/
def cut (w : Walk) (depth : Nat) : Walk :=
  { w with stack := w.stack.drop (w.depth - depth), depth := min w.depth depth }

/-- Notes how many ways are left for later. -/
def note (w : Walk) : Walk := { w with way := { w.way with depths := w.depth :: w.way.depths } }

/-- Forgets the ways above the last depth noted, and goes on. -/
def commit (w : Walk) (tasks : List Task) : Walk :=
  match w.way.depths with
  | [] => w.doing tasks
  | depth :: depths =>
    let w := w.cut depth
    { w with way := { w.way with tasks, depths } }

/-- Goes on at another place. -/
def moveTo (w : Walk) (here : Place) (tasks : List Task) : Walk :=
  { w with way := { w.way with tasks, here } }

/-- Goes on at another place, if there is one. -/
def moveOr (w : Walk) (here? : Option Place) (tasks : List Task) : Step :=
  match here? with
  | some here => .next (w.moveTo here tasks)
  | none => w.fail

/-- Goes on if a condition holds. -/
def goOnIf (w : Walk) (condition : Bool) (tasks : List Task) : Step :=
  if condition then .next (w.doing tasks) else w.fail

/-- Records a place. -/
def record (w : Walk) (slot : Nat) (tasks : List Task) : Walk :=
  { w with way := { w.way with tasks, marks := (slot, some w.way.here) :: w.way.marks } }

/-- The cursor behind a text that has to come next. -/
def passText? : List Char → Cursor → Option Cursor
  | [], here => some here
  | c :: cs, here =>
    match here.next? with
    | some (d, behind) => if c == d then passText? cs behind else none
    | none => none

/-- The place behind a text that has to come next, which starts between two characters. -/
def pass? (cs : List Char) (here : Place) : Option Place :=
  here.edge?.bind fun c => (passText? cs c).map (⟨·, 0⟩)

/-- The text that a group has matched. -/
def groupText? (marks : Marks) (group : Nat) : Option (List Char) := do
  let (start, stop) ← marks.group? group
  return (← start.edge?).upTo (← stop.edge?)

/-- Records both ends of groups by what a machine has recorded for its own groups, which are counted
from `own` on. -/
def transfer (found : Marks) (own : Nat) : List Nat → Marks → Marks
  | [], marks => marks
  | i :: groups, marks =>
    transfer found (own + 1) groups
      ((2 * i + 1, found.place? (2 * own + 1)) :: (2 * i, found.place? (2 * own)) :: marks)

/-- Goes on behind what a machine matches. -/
def runMachine (w : Walk) (m : Machine) (groups : List Nat) (tasks : List Task) : Step :=
  match w.way.here.edge?.bind m.run with
  | some (here, found) =>
    let marks := transfer found 1 groups w.way.marks
    .next { w with way := { w.way with tasks, here := ⟨here, 0⟩, marks } }
  | none => w.fail

/-- Looks around: goes back so many characters and follows the plan from there. -/
def lookAround (w : Walk) (back : Nat) (negated : Bool) (p : Plan) (tasks : List Task) : Step :=
  let start? := w.way.here.back? back
  if negated then
    -- what lies behind is the way left for later, which a match of the plan takes away
    match w.branch [.follow p, .refuse w.depth] tasks with
    | .next w =>
      match start? with
      | some here => .next (w.moveTo here w.way.tasks)
      | none => w.fail
    | other => other
  else w.moveOr start? (.follow p :: .returnTo w.way.here :: tasks)

/-- Follows a plan, with the tasks behind it; `start` is the place where the search started, unless
it only goes on behind an empty match. -/
def followPlan (start : Option Nat) (w : Walk) (tasks : List Task) : Plan → Step
  | .done => .next (w.doing tasks)
  | .any newline =>
    if !newline && w.way.here.char? == some '\n' then w.fail
    else w.moveOr w.way.here.next? tasks
  | .anchor a => w.goOnIf (w.way.here.edge?.any a.holds) tasks
  | .text cs => w.moveOr (pass? cs w.way.here) tasks
  | .machine m groups => w.runMachine m groups tasks
  | .seq ps => .next (w.doing (.followAll ps :: tasks))
  | .alt ps => .next (w.doing (.choose ps :: tasks))
  | .group i p => .next (w.record (2 * i) (.follow p :: .mark (2 * i + 1) :: tasks))
  | .optional greedy p => w.branchIf greedy (.follow p :: tasks) tasks
  | .star greedy p => w.branchIf greedy (.follow p :: .follow (.star greedy p) :: tasks) tasks
  | .counted lo hi greedy p => .next (w.doing (.again 0 lo hi greedy p :: tasks))
  | .guarded lo greedy p => .next (w.doing (.againGuarded 0 none lo greedy p :: tasks))
  | .around back negated p => w.lookAround back negated p tasks
  | .reference group =>
    w.moveOr ((groupText? w.way.marks group).bind (pass? · w.way.here)) tasks
  | .groupMatched group => w.goOnIf (w.way.marks.place? (2 * group)).isSome tasks
  | .atomic p => .next (w.note.doing (.follow p :: .commit :: tasks))
  | .keepOut => .next (w.record 0 tasks)
  | .searchStart => w.goOnIf (start.any (w.way.here.offset ≤ ·)) tasks
  | .conditional c t f =>
    w.note.branch (.follow c :: .commit :: .follow t :: tasks) (.follow f :: tasks)

/-- Does the next task. -/
def step (start : Option Nat) (w : Walk) : Step :=
  match w.way.tasks with
  | [] => .matched w.way w.taken
  | .follow p :: tasks => followPlan start w tasks p
  | .followAll [] :: tasks => .next (w.doing tasks)
  | .followAll (p :: ps) :: tasks => followPlan start w (.followAll ps :: tasks) p
  | .choose [] :: tasks => .next (w.doing tasks)
  | .choose [p] :: tasks => followPlan start w tasks p
  | .choose (p :: ps) :: tasks => w.branch (.follow p :: tasks) (.choose ps :: tasks)
  | .mark slot :: tasks => .next (w.record slot tasks)
  | .again times lo hi greedy p :: tasks =>
    if hi == some times then .next (w.doing tasks)
    else
      let round := .follow p :: .again (times + 1) lo hi greedy p :: tasks
      if lo ≤ times then w.branchIf greedy round tasks else .next (w.doing round)
  | .againGuarded times left? lo greedy p :: tasks =>
    let here := w.way.here.offset
    -- the last round has taken nothing, and nor would more of them
    if left? == some here then w.fail
    else
      let round := fun left? => .follow p :: .againGuarded (times + 1) left? lo greedy p :: tasks
      if lo ≤ times then w.branchIf greedy (round (some here)) tasks
      else .next (w.doing (round none))
  | .returnTo here :: tasks => .next (w.moveTo here tasks)
  | .commit :: tasks => .next (w.commit tasks)
  | .refuse depth :: _ => (w.cut depth).fail

/-- Walks on for at most so many steps. -/
def runFor (start : Option Nat) : Nat → Walk → Step
  | 0, _ => .overrun .backtracking
  | steps + 1, w =>
    match w.step start with
    | .next w => runFor start steps w
    | other => other

/-- How many steps a walk may take. Other ways are taken up less often than this by far, so only a
loop that goes round for ever is stopped here. -/
def stepLimit : Nat := Nat.pow 2 40

/-- The walk of a plan from a place, other ways having been taken up so many times before. -/
def run (p : Plan) (start : Option Nat) (here : Place) (taken : Nat) : Step :=
  runFor start stepLimit ⟨{ tasks := [.follow p], here, marks := [(0, some here)] }, [], 0, taken⟩

end Walk

end CodeMarkup.Regex
