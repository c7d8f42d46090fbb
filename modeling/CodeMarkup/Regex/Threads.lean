import CodeMarkup.Regex.Capture
import CodeMarkup.Regex.Plain.Reader
import CodeMarkup.Regex.Plain.Size

/-! # Matching without backtracking

A plain pattern is made into a small machine: states that take a character of a set, split in two,
record a place or check an anchor. All ways to match are followed side by side, one character at a
time, preferred ones first, and no state is entered twice at one place, so the time is bounded by
the number of states times the length of the text.

Of all matches from a place the one is found that the preferences of the pattern put first. -/

namespace CodeMarkup.Regex

open Plain (Node)
open Text (CharSet Cursor Place)

/-! ### Machines -/

/-- A state, with the states that follow it by number. -/
inductive ThreadState where
  | accept
  | take (s : CharSet) (next : Nat)
  | takeChar (c : Char) (next : Nat)
  | split (first second : Nat)
  | mark (slot : Nat) (next : Nat)
  | check (a : Anchor) (next : Nat)
  deriving Inhabited

/-- A machine, the state it starts in, and the number of its groups. -/
structure Machine where
  states : Array ThreadState
  start : Nat
  groups : Nat
  deriving Inhabited

namespace Machine

/-! ### Building -/

/-- Adds a state and answers its number. -/
def add (state : ThreadState) : StateM (Array ThreadState) Nat :=
  modifyGet fun states => (states.size, states.push state)

/-- A split that tries to go on with a repetition first if it is greedy, and last if not. -/
def choose (greedy : Bool) (body leave : Nat) : ThreadState :=
  if greedy then .split body leave else .split leave body

/-- Puts so many copies of a part one before the other, from the last one to the first. -/
def copies (part : Nat → StateM (Array ThreadState) Nat) :
    Nat → Nat → StateM (Array ThreadState) Nat
  | 0, next => return next
  | n + 1, next => do copies part n (← part next)

/-- Puts so many copies of a part one before the other, each of which may be left out together with
those behind it. -/
def optionals (part : Nat → StateM (Array ThreadState) Nat) (greedy : Bool) (leave : Nat) :
    Nat → Nat → StateM (Array ThreadState) Nat
  | 0, next => return next
  | n + 1, next => do
    let body ← part next
    optionals part greedy leave n (← add (choose greedy body leave))

/-- A loop around a part, which can be left out at first if it is `optional`. The state that decides
to go round again comes behind the part; it is entered at first too, unless the part may match
nothing: then a state of its own decides whether to go in. -/
def looped (part : Nat → StateM (Array ThreadState) Nat) (greedy optional nullable : Bool)
    (next : Nat) : StateM (Array ThreadState) Nat := do
  let again ← add .accept
  let body ← part again
  modify (·.setIfInBounds again (choose greedy body next))
  if optional then
    if nullable then add (choose greedy body next) else return again
  else return body

/-- Adds the states of a text. -/
def spell : List Char → Nat → StateM (Array ThreadState) Nat
  | [], next => return next
  | c :: cs, next => do add (.takeChar c (← spell cs next))

mutual

/-- Adds the states of a pattern that are followed by the state `next`, and answers the state to
enter it by. -/
def build : Node → Nat → StateM (Array ThreadState) Nat
  | .empty, next => return next
  | .text cs, next => spell cs next
  | .set s, next => add (.take s next)
  | .anchor a, next => add (.check a next)
  | .seq ns, next => buildRow ns next
  | .alt ns, next => buildBranches ns next
  | .group i n, next => do
    let close ← add (.mark (2 * i + 1) next)
    let body ← build n close
    add (.mark (2 * i) body)
  | .loop n 0 none greedy, next => looped (build n) greedy true n.isNullable next
  | .loop n (lo + 1) none greedy, next => do
    copies (build n) lo (← looped (build n) greedy false n.isNullable next)
  | .loop n lo (some hi) greedy, next => do
    copies (build n) lo (← optionals (build n) greedy next (hi - lo) next)

/-- Adds the states of parts that follow one another. -/
def buildRow : List Node → Nat → StateM (Array ThreadState) Nat
  | [], next => return next
  | n :: ns, next => do build n (← buildRow ns next)

/-- Adds the states of alternatives. -/
def buildBranches : List Node → Nat → StateM (Array ThreadState) Nat
  | [], next => add (.take .empty next)
  | [n], next => build n next
  | n :: ns, next => do
    let others ← buildBranches ns next
    let first ← build n next
    add (.split first others)

end

/-- The machine of a plain pattern. -/
def ofNode (n : Node) : Machine :=
  let (start, states) := (build n 0).run #[.accept]
  ⟨states, start, n.lastGroup⟩

/-- Reads a plain pattern, which must not be too large, and makes the machine of it. -/
def ofText (cs : List Char) : Except Fault Machine := do
  let n ← Plain.read cs
  if n.fits then return ofNode n else throw .tooLarge

/-! ### Running -/

/-- A way to match that is being followed: its state and the places it has recorded. -/
structure Thread where
  state : Nat
  marks : Marks

/-- The threads of one place, latest first, and which states have been entered there. -/
structure Crowd where
  entered : Array Bool
  threads : List Thread := []

/-- Nothing has been entered. -/
def nobody (m : Machine) : Crowd := { entered := Array.replicate m.states.size false }

/-- Enters states at a place, one after the other, and follows each up to the states that take a
character or accept; `steps` bounds the states on the way. -/
def enter (m : Machine) (here : Cursor) : Nat → List Thread → Crowd → Crowd
  | 0, _, crowd => crowd
  | _ + 1, [], crowd => crowd
  | steps + 1, t :: todo, crowd =>
    -- a thread that came here before is preferred
    if crowd.entered.getD t.state true then enter m here steps todo crowd
    else
      let crowd := { crowd with entered := crowd.entered.setIfInBounds t.state true }
      match m.states[t.state]? with
      | none => enter m here steps todo crowd
      | some (.split first second) =>
        enter m here steps ({ t with state := first } :: { t with state := second } :: todo) crowd
      | some (.mark slot next) =>
        enter m here steps (⟨next, (slot, some ⟨here, 0⟩) :: t.marks⟩ :: todo) crowd
      | some (.check a next) =>
        enter m here steps (if a.holds here then { t with state := next } :: todo else todo) crowd
      | some _ => enter m here steps todo { crowd with threads := t :: crowd.threads }

/-- Enters one state and what follows it. Every state is entered once at most and leads to two
others at most. -/
def enterAt (m : Machine) (here : Cursor) (t : Thread) (crowd : Crowd) : Crowd :=
  enter m here (3 * m.states.size + 3) [t] crowd

/-- Where the character `c` takes a state. -/
def ThreadState.after? (c : Char) : ThreadState → Option Nat
  | .take s next => if s.mem c then some next else none
  | .takeChar d next => if d == c then some next else none
  | _ => none

/-- Whether a thread has matched. -/
def accepts (m : Machine) (t : Thread) : Bool :=
  match m.states[t.state]? with
  | some .accept => true
  | _ => false

/-- Moves all threads over a character to the place behind it. -/
def advance (m : Machine) (c : Char) (behind : Cursor) (threads : List Thread) : Crowd :=
  threads.foldl (fun crowd t =>
    match (m.states[t.state]?).bind (ThreadState.after? c) with
    | some next => m.enterAt behind { t with state := next } crowd
    | none => crowd) m.nobody

/-- Follows the threads, preferred ones first, over the text that is still to come. A thread that
has matched ends those behind it. The answer is the best match: where it ends and what it has
recorded. -/
def follow (m : Machine) : List Char → Cursor → List Thread → Option (Cursor × Marks) →
    Option (Cursor × Marks)
  | text, here, threads, best =>
    let best := ((threads.find? m.accepts).map fun t => (here, t.marks)).or best
    match text, threads.takeWhile (!m.accepts ·) with
    | [], _ => best
    | _, [] => best
    | _ :: text, threads =>
      match here.next? with
      | some (c, behind) =>
        follow m text behind (advance m c behind threads).threads.reverse best
      | none => best

/-- The preferred match from a place. -/
def run (m : Machine) (here : Cursor) : Option (Cursor × Marks) :=
  follow m here.after here (m.enterAt here ⟨m.start, []⟩ m.nobody).threads.reverse none

end Machine

end CodeMarkup.Regex
