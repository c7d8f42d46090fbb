/-! # Shifted runs of characters

A map between characters of which long runs are moved by the same distance. -/

namespace CodeMarkup.Text

/-- A run of code points `lo, lo + step, …, hi` whose images lie `shift` further on. -/
structure Shift where
  lo : Nat
  hi : Nat
  step : Nat
  shift : Int

namespace Shift

/-- Whether a code point is one of the run. -/
def covers (s : Shift) (n : Nat) : Bool :=
  s.lo ≤ n && n ≤ s.hi && (n - s.lo) % s.step == 0

/-- The code points of the run. -/
def members (s : Shift) : List Nat :=
  (List.range ((s.hi - s.lo) / s.step + 1)).map fun i => s.lo + i * s.step

/-- The image of a code point under the first run that covers it; itself if there is none. -/
def image (runs : List Shift) (n : Nat) : Nat :=
  match runs.find? (·.covers n) with
  | some s => ((n : Int) + s.shift).toNat
  | none => n

/-- The code points that the runs send to `n`. -/
def sources (runs : List Shift) (n : Nat) : List Nat :=
  runs.filterMap fun s =>
    let m := ((n : Int) - s.shift).toNat
    if s.covers m then some m else none

/-- The numbers of a written list of runs: blanks part them, and a minus sign stands before a
negative one. -/
def readInts (written : List Char) : List Int :=
  let digit (acc : Int × Bool × Bool × List Int) (c : Char) : Int × Bool × Bool × List Int :=
    let (n, negative, any, done) := acc
    if c = '-' then (n, true, any, done)
    else if '0' ≤ c ∧ c ≤ '9' then (10 * n + (c.toNat - '0'.toNat : Nat), negative, true, done)
    else if any then (0, false, false, (if negative then -n else n) :: done)
    else (0, false, false, done)
  ((written ++ [' ']).foldl digit (0, false, false, [])).2.2.2.reverse

/-- Takes the numbers of a written list of runs by fours. -/
def ofInts : List Int → List Shift
  | lo :: hi :: step :: shift :: rest => ⟨lo.toNat, hi.toNat, step.toNat, shift⟩ :: ofInts rest
  | _ => []

/-- The runs that a text writes, four numbers for each. -/
def read (written : String) : List Shift := ofInts (readInts written.toList)

end Shift

end CodeMarkup.Text
