import CodeMarkup.Text.CharSet

/-! # Tables of code points

A table gives every code point the value of the last entry that starts at or before it. It is
written as text, one entry after the other: the number of code points in hexadecimal (small
letters), then the code of their value, then a blank. -/

namespace CodeMarkup.Text

/-- Values of code points, as the ascending starts of runs of one value. -/
structure RangeTable (α : Type) where
  entries : List (Nat × α)

namespace RangeTable

variable {α : Type}

/-- The state of reading a written table: the start of the entry, its length so far, its code so
far, newest character first, and the entries before it, latest first. -/
structure Reading (α : Type) where
  start : Nat
  length : Nat
  code : List Char
  entries : List (Nat × α)

/-- Reads one character of a written table. -/
def Reading.push (valueOf : List Char → α) (r : Reading α) (c : Char) : Reading α :=
  if c = ' ' then ⟨r.start + r.length, 0, [], (r.start, valueOf r.code.reverse) :: r.entries⟩
  else if r.code.isEmpty && (('0' ≤ c && c ≤ '9') || ('a' ≤ c && c ≤ 'f')) then
    { r with length := 16 * r.length + CharSet.digitValue c }
  else { r with code := c :: r.code }

/-- The table that a text writes, given the value of each code. -/
def read (valueOf : List Char → α) (written : String) : RangeTable α :=
  ⟨(written.toList.foldl (Reading.push valueOf) ⟨0, 0, [], []⟩).entries.reverse⟩

/-- The places where the values begin or cease to be of a kind. -/
def changes (p : α → Bool) : Bool → List (Nat × α) → List Nat
  | true, [] => [0x110000]
  | false, [] => []
  | i, (start, v) :: entries =>
    if p v == i then changes p i entries else start :: changes p (p v) entries

/-- The code points whose values are of a kind. -/
def setWhere (t : RangeTable α) (p : α → Bool) : CharSet :=
  CharSet.ofBounds (changes p false t.entries)

end RangeTable

end CodeMarkup.Text
