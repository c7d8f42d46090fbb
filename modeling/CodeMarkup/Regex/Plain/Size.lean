import CodeMarkup.Regex.Plain.Bytes
import CodeMarkup.Regex.Plain.Node
import Std.Data.HashMap

/-! # The size of plain patterns

A plain pattern is limited in size. What is counted is the memory of the machines that would match
it byte by byte, one reading forwards and one backwards: every state counts, and with it the
transitions of a state that takes one of several bytes and the alternatives of a state that forks.

Sets are made of states that share their ends. Ends are looked up in a memo of limited room, where a
later one takes the place of an earlier one with the same hash, so the sharing depends on the
numbers of the states and is found by going through the construction itself.

`Node.fits` is the test. -/

namespace CodeMarkup.Regex.Plain

open Text (CharSet)

/-! ### Counting -/

/-- The states made so far, and the memory that they hold beside themselves. -/
structure Tally where
  states : Nat := 0
  held : Nat := 0

/-- The memory that a machine may take. -/
def memoryLimit : Nat := 10485760

/-- A step of the count, which ends when the limit is passed. -/
abbrev Sizing := StateT Tally Option

namespace Sizing

/-- Sets the tally, unless it passes the limit. -/
def check (t : Tally) : Sizing Unit :=
  if 32 * t.states + t.held ≤ memoryLimit then set t else failure

/-- Adds a state that holds so much memory, and gives its number. -/
def add (held : Nat) : Sizing Nat := do
  let t ← get
  check ⟨t.states + 1, t.held + held⟩
  return t.states

/-- Adds an alternative to a state that forks. -/
def fork : Sizing Unit := do
  let t ← get
  check { t with held := t.held + 4 }

/-- Goes on from a state, which adds an alternative if it is one that forks. -/
def leave (forks : Bool) : Sizing Unit := if forks then fork else pure ()

end Sizing

open Sizing

/-- The states of a part: the number of the one it begins with, and whether the one it ends with
forks. -/
structure Span where
  start : Nat
  forks : Bool := false

/-! ### Hashes -/

/-- Puts a number into a hash. -/
def mix (hash : UInt64) (n : Nat) : UInt64 := (hash ^^^ n.toUInt64) * 1099511628211

/-- The hash of some numbers, among so many. -/
def hashOf (room : Nat) (ns : List Nat) : Nat :=
  (ns.foldl mix 14695981039346656037).toNat % room

/-- States by what they are, looked up by hash; the latest for each hash. -/
abbrev Memo := Std.HashMap Nat (List Nat × Nat)

/-- The state that is known for a key, or a new one. -/
def known (room held : Nat) (key : List Nat) : StateT Memo Sizing Nat := do
  let hash := hashOf room key
  match (← get)[hash]? with
  | some (k, id) =>
    if k == key then return id
    else fresh hash
  | none => fresh hash
where
  fresh (hash : Nat) : StateT Memo Sizing Nat := do
    let id ← Sizing.add held
    modify (·.insert hash (key, id))
    return id

/-! ### Sets -/

/-- A set within ASCII: one state that takes a byte. -/
def sizeOfAscii (ranges : Nat) : Sizing Span := do
  let _ ← add 0
  let start ← add (8 * ranges)
  return ⟨start, false⟩

/-- A set read backwards: its rows share how they go on. -/
def sizeOfReversed (rows : List (List ByteRange)) : Sizing Span := do
  let start ← add 0
  let stop ← add 0
  let each (row : List ByteRange) : StateT Memo Sizing Unit := do
    let _ ← row.foldlM (fun next r => known 1000 0 [next, r.lo, r.hi]) stop
    Sizing.fork
  let _ ← (rows.forM each).run {}
  return ⟨start, false⟩

/-- A state of a set that is not finished: its transitions with the states they go to, latest first,
and the range of the transition that is still to be finished. -/
structure Unfinished where
  done : List (ByteRange × Nat) := []
  last? : Option ByteRange := none

/-- The transitions when the last one goes to `next`. -/
def Unfinished.finish (u : Unfinished) (next : Nat) : List (ByteRange × Nat) :=
  match u.last? with
  | some r => (r, next) :: u.done
  | none => u.done

/-- The state with some transitions, given latest first. -/
def stateWith (transitions : List (ByteRange × Nat)) : StateT Memo Sizing Nat :=
  known 10000 (8 * transitions.length)
    (transitions.reverse.flatMap fun (r, next) => [r.lo, r.hi, next])

/-- Finishes the states of a path, given from the deepest on, as long as it is longer than `keep`,
and the last transition of the one that is left. -/
def finishPath (keep next : Nat) : List Unfinished → StateT Memo Sizing (List Unfinished)
  | [] => return []
  | [u] => return [{ done := u.finish next }]
  | u :: path => do
    if path.length < keep then return { done := u.finish next } :: path
    finishPath keep (← stateWith (u.finish next)) path

/-- How many states of a path, given from the root on, go on like a row. -/
def sharedLength : List ByteRange → List Unfinished → Nat
  | r :: row, u :: path => if u.last? = some r then sharedLength row path + 1 else 0
  | _, _ => 0

/-- Adds a row to the path of the rows before it. -/
def addRow (stop : Nat) (path : List Unfinished) (row : List ByteRange) :
    StateT Memo Sizing (List Unfinished) := do
  let shared := sharedLength row path.reverse
  let path ← finishPath (shared + 1) stop path
  match path, row.drop shared with
  | u :: above, r :: more =>
    return (more.map fun r => { last? := some r }).reverse ++ { u with last? := some r } :: above
  | path, _ => return path

/-- A set read forwards: states that go on alike are one. -/
def sizeOfForward (rows : List (List ByteRange)) : Sizing Span := do
  let stop ← add 0
  let build : StateT Memo Sizing Nat := do
    let path ← rows.foldlM (addRow stop) [{}]
    match ← finishPath 1 stop path with
    | root :: _ => stateWith root.done
    | [] => return stop
  return ⟨(← build.run {}).1, false⟩

/-- A set. -/
def sizeOfSet (backwards : Bool) (s : CharSet) : Sizing Span :=
  if s.bounds.all (· ≤ 128) then sizeOfAscii s.ranges.length
  else if backwards then sizeOfReversed (ByteRange.rows s)
  else sizeOfForward (ByteRange.rows s)

/-! ### Texts -/

/-- The bytes of a text. -/
def bytesOf (cs : List Char) : List Nat := cs.flatMap fun c => ByteRange.utf8 c.toNat

/-- A text: one state for each byte. -/
def sizeOfBytes : List Nat → Sizing Span
  | [] => return ⟨← add 0, false⟩
  | _ :: bytes => do
    let start ← add 0
    bytes.forM fun _ => do let _ ← add 0
    return ⟨start, false⟩

/-- The texts behind their first bytes, by those bytes. -/
def byFirst (words : List (List Nat)) : List (List (List Nat)) :=
  let firsts := (words.filterMap List.head?).eraseDups
  firsts.map fun b => words.filterMap fun
    | c :: word => if c = b then some word else none
    | [] => none

/-- A tree of texts that begin alike, without its leaves; the number bounds the depth. -/
def sizeOfTree : Nat → List (List Nat) → Sizing Span
  | 0, _ => return ⟨← add 0, false⟩
  | depth + 1, words => do
    let children := byFirst words
    children.forM fun words => do
      if words.any (!·.isEmpty) then
        let _ ← sizeOfTree depth words
    let _ ← add (if children.length ≤ 1 then 0 else 8 * children.length)
    let start ← add (if words.any List.isEmpty then 8 else 4)
    return ⟨start, false⟩

/-- Alternatives that are all texts. -/
def sizeOfTexts (words : List (List Nat)) : Sizing Span := do
  let _ ← add 0
  sizeOfTree ((words.map List.length).foldl max 0 + 1) words

/-- The texts of nodes that are texts. -/
def textsOf? : List Node → Option (List (List Char))
  | [] => some []
  | .text cs :: ns => (textsOf? ns).map (cs :: ·)
  | _ => none

/-! ### Patterns -/

/-- So many parts behind those before them. -/
def sizeOfMore (part : Sizing Span) : Nat → Span → Sizing Span
  | 0, before => return before
  | n + 1, before => do
    let one ← part
    leave before.forks
    sizeOfMore part n ⟨before.start, one.forks⟩

/-- Parts that follow one another, so many of them. -/
def sizeOfCopies (part : Sizing Span) : Nat → Sizing Span
  | 0 => return ⟨← add 0, false⟩
  | n + 1 => do sizeOfMore part n (← part)

/-- Parts any of which may be the last, so many of them, behind an end that may fork. -/
def sizeOfOptionals (part : Sizing Span) : Nat → Bool → Sizing Bool
  | 0, forks => return forks
  | n + 1, forks => do
    let _ ← add 0
    let one ← part
    leave forks
    fork
    fork
    sizeOfOptionals part n one.forks

/-- A repetition. -/
def sizeOfLoop (part : Sizing Span) (nullable : Bool) : Nat → Option Nat → Sizing Span
  | 0, some 1 => do
    let start ← add 0
    let one ← part
    let _ ← add 0
    fork
    fork
    leave one.forks
    return ⟨start, false⟩
  | 0, none => do
    if nullable then
      let one ← part
      let _ ← add 0
      leave one.forks
      fork
      let start ← add 0
      let _ ← add 0
      fork
      fork
      fork
      return ⟨start, false⟩
    else
      let start ← add 0
      let one ← part
      fork
      leave one.forks
      return ⟨start, true⟩
  | 1, none => do
    let one ← part
    let _ ← add 0
    leave one.forks
    fork
    return ⟨one.start, true⟩
  | lo + 1, none => do
    let before ← sizeOfCopies part lo
    let last ← part
    let _ ← add 0
    leave before.forks
    leave last.forks
    fork
    return ⟨before.start, true⟩
  | lo, some hi => do
    let before ← sizeOfCopies part lo
    if lo = hi then return before
    let _ ← add 0
    leave (← sizeOfOptionals part (hi - lo) before.forks)
    return ⟨before.start, false⟩

/-- Alternatives, given the first two of them and how to count the others. -/
def sizeOfBranches (first second : Sizing Span) (others : List (Sizing Span)) : Sizing Span := do
  let first ← first
  let second ← second
  let start ← add 0
  let _ ← add 0
  fork
  leave first.forks
  fork
  leave second.forks
  others.forM fun other => do
    let one ← other
    fork
    leave one.forks
  return ⟨start, false⟩

/-- Parts that follow one another. -/
def sizeOfRow : List (Sizing Span) → Sizing Span
  | [] => return ⟨← add 0, false⟩
  | [part] => part
  | part :: parts => do
    let first ← part
    let last ← parts.foldlM (fun before part => do
      let one ← part
      leave before.forks
      return one) first
    return ⟨first.start, last.forks⟩

namespace Node

mutual

/-- Counts a pattern, read forwards or backwards. Groups count only forwards. -/
def size (backwards : Bool) : Node → Sizing Span
  | empty | anchor _ => return ⟨← add 0, false⟩
  | text cs => sizeOfBytes (bytesOf cs)
  | set s => sizeOfSet backwards s
  | seq ns =>
    let parts := sizes backwards ns
    sizeOfRow (if backwards then parts.reverse else parts)
  | alt ns =>
    match textsOf? ns with
    | some texts =>
      let words := texts.map bytesOf
      sizeOfTexts (if backwards then words.map List.reverse else words)
    | none =>
      match sizes backwards ns with
      | first :: second :: others => sizeOfBranches first second others
      | [one] => one
      | [] => return ⟨← add 0, false⟩
  | group _ n =>
    if backwards then size backwards n
    else do
      let start ← add 0
      let inner ← size backwards n
      let _ ← add 0
      leave inner.forks
      return ⟨start, false⟩
  | loop n lo hi _ => sizeOfLoop (size backwards n) (isNullable n) lo hi

/-- How to count each of some patterns. -/
def sizes (backwards : Bool) : List Node → List (Sizing Span)
  | [] => []
  | n :: ns => size backwards n :: sizes backwards ns

end

mutual

/-- Whether a pattern can match at one end of the text only: its start, or read backwards its
end. -/
def isAnchored (backwards : Bool) : Node → Bool
  | anchor a => a == if backwards then .textEnd else .textStart
  | seq ns => rowAnchored backwards ns
  | alt ns => allAnchored backwards ns
  | group _ n => isAnchored backwards n
  | loop n lo _ _ => lo != 0 && isAnchored backwards n
  | _ => false

/-- Whether one of the parts before any character is taken is anchored. -/
def rowAnchored (backwards : Bool) : List Node → Bool
  | [] => false
  | n :: ns =>
    if backwards then rowAnchored backwards ns || allZeroWidth ns && isAnchored backwards n
    else isAnchored backwards n || isZeroWidth n && rowAnchored backwards ns

/-- Whether each alternative is anchored. -/
def allAnchored (backwards : Bool) : List Node → Bool
  | [] => true
  | n :: ns => isAnchored backwards n && allAnchored backwards ns

end

/-- Counts a whole machine. Unless it is anchored it begins with a loop over any bytes. -/
def sizeOfMachine (backwards : Bool) (n : Node) : Sizing Unit := do
  let free := !n.isAnchored backwards
  let _ ← add 0
  if free then
    let _ ← add 0
    let _ ← add 8
    fork
  let whole ← if backwards then n.size true else (group 0 n).size false
  let _ ← add 0
  leave whole.forks
  leave free

/-- Whether the machines of a pattern keep within the limit. -/
def fits (n : Node) : Bool :=
  ((sizeOfMachine false n).run {}).isSome && ((sizeOfMachine true n).run {}).isSome

end Node

end CodeMarkup.Regex.Plain
