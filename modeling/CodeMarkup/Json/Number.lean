/-! # Numbers as they are written

The parts of a number in JSON text, and whether it stays below infinity when it is worked out in
double precision: the digits are taken up one by one as long as they fit into 64 bits, and the
integer they make and the power of ten are rounded before they are multiplied, and after. So a
number a little below the largest double may be found too large, which depends on where its point
is. -/

namespace CodeMarkup.Json

/-! ### Parts -/

/-- A number as it is written. -/
structure Numeral where
  negative : Bool
  /-- The digits before the point. -/
  whole : List Char
  /-- The digits behind the point, if there is one. -/
  fraction : List Char := []
  /-- The exponent, if there is one. -/
  exponent? : Option Int := none

/-- The digits at the front of a text, of which there must be one. -/
def digits? (cs : List Char) : Option (List Char × List Char) :=
  match cs.span Char.isDigit with
  | ([], _) => none
  | (ds, rest) => some (ds, rest)

/-- The value of a decimal digit. -/
def digitValue (c : Char) : Nat := c.toNat - '0'.toNat

/-- The value of a row of decimal digits. -/
def decimal (digits : List Char) : Nat := digits.foldl (fun n c => 10 * n + digitValue c) 0

/-- An exponent, from behind its letter. -/
def exponent? (cs : List Char) : Option (Int × List Char) :=
  let (negative, cs) := match cs with
    | '-' :: rest => (true, rest)
    | '+' :: rest => (false, rest)
    | cs => (false, cs)
  (digits? cs).map fun (ds, rest) => (if negative then -(decimal ds : Int) else decimal ds, rest)

/-- The number at the front of a text. -/
def numeral? (cs : List Char) : Option (Numeral × List Char) := do
  let (negative, cs) := match cs with
    | '-' :: rest => (true, rest)
    | cs => (false, cs)
  let (whole, cs) ← digits? cs
  if whole.length > 1 ∧ whole.head? = some '0' then none
  let (fraction, cs) ← match cs with
    | '.' :: rest => digits? rest
    | cs => some ([], cs)
  match cs with
  | e :: rest =>
    if e = 'e' ∨ e = 'E' then
      (exponent? rest).map fun (n, rest) => (⟨negative, whole, fraction, some n⟩, rest)
    else some (⟨negative, whole, fraction, none⟩, cs)
  | [] => some (⟨negative, whole, fraction, none⟩, [])

/-! ### Size -/

/-- Digits taken up as an integer times a power of ten. -/
structure Scaled where
  digits : Nat := 0
  power : Int := 0
  /-- Whether a digit has been left out. -/
  full : Bool := false

namespace Scaled

/-- Takes up another digit, unless the integer would not fit into 64 bits. -/
def take? (s : Scaled) (c : Char) : Option Nat :=
  let n := 10 * s.digits + digitValue c
  if s.full ∨ Nat.pow 2 64 ≤ n then none else some n

/-- Takes up a digit before the point. -/
def takeWhole (s : Scaled) (c : Char) : Scaled :=
  match s.take? c with
  | some n => { s with digits := n }
  | none => { s with power := s.power + 1, full := true }

/-- Takes up a digit behind the point. -/
def takeFraction (s : Scaled) (c : Char) : Scaled :=
  match s.take? c with
  | some n => { s with digits := n, power := s.power - 1 }
  | none => { s with full := true }

/-- What is taken up of a number. -/
def ofNumeral (n : Numeral) : Scaled :=
  let whole := n.whole.foldl takeWhole {}
  let s := n.fraction.foldl takeFraction { whole with full := false }
  { s with power := s.power + n.exponent?.getD 0 }

/-- The integer with 53 significant bits that is nearest to a number, an even one of two. -/
def roundToDouble (n : Nat) : Nat :=
  let unit := Nat.pow 2 (n.log2 - 52)
  let rest := n % unit
  if unit < 2 * rest ∨ (2 * rest = unit ∧ n / unit % 2 = 1) then (n / unit + 1) * unit
  else n / unit * unit

/-- What is as near to infinity as to the largest double. -/
def infinityBound : Nat := Nat.pow 2 1024 - Nat.pow 2 970

/-- Whether a number stays below infinity. -/
def isFinite (s : Scaled) : Bool :=
  s.digits == 0 || s.power < 0 ||
    (s.power ≤ 308 &&
      roundToDouble s.digits * roundToDouble (Nat.pow 10 s.power.toNat) < infinityBound)

end Scaled

/-- Whether a number is a double. -/
def Numeral.isFinite (n : Numeral) : Bool := (Scaled.ofNumeral n).isFinite

/-- The value of a number that is written as an integer without sign. -/
def Numeral.unsigned? (n : Numeral) : Option Nat :=
  if n.negative || !n.fraction.isEmpty || n.exponent?.isSome then none else some (decimal n.whole)

end CodeMarkup.Json
