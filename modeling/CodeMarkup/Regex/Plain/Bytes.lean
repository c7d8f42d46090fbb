import CodeMarkup.Text.CharSet

/-! # Sets as byte sequences

The texts of the characters of a set in UTF-8, as rows of byte ranges: a character belongs to the
set iff its bytes lie in the ranges of one row, one by one. -/

namespace CodeMarkup.Regex.Plain

open Text (CharSet)

/-- A range of bytes, both ends included. -/
structure ByteRange where
  lo : Nat
  hi : Nat
  deriving DecidableEq, Repr, Inhabited

namespace ByteRange

/-- The bytes of a code point. -/
def utf8 (n : Nat) : List Nat :=
  if n < 0x80 then [n]
  else if n < 0x800 then [0xc0 + n / 64, 0x80 + n % 64]
  else if n < 0x10000 then [0xe0 + n / 4096, 0x80 + n / 64 % 64, 0x80 + n % 64]
  else [0xf0 + n / 262144, 0x80 + n / 4096 % 64, 0x80 + n / 64 % 64, 0x80 + n % 64]

/-- The place behind which a range of code points has to be cut for blocks of a size: behind the
block it begins in, if it does not begin with one, or before the block it ends in, if it does not
end with one. -/
def cutForBlock? (block lo hi : Nat) : Option Nat :=
  if lo / block = hi / block then none
  else if lo % block ≠ 0 then some (lo / block * block + block - 1)
  else if hi % block ≠ block - 1 then some (hi / block * block - 1)
  else none

/-- The place behind which a range of code points has to be cut before it is one row. -/
def cut? (lo hi : Nat) : Option Nat :=
  match [0x7f, 0x7ff, 0xffff].find? fun most => lo ≤ most && most < hi with
  | some most => some most
  | none =>
    if hi ≤ 0x7f then none
    else [64, 4096, 262144].findSome? fun block => cutForBlock? block lo hi

/-- The rows of a range of code points. -/
def rowsBetween (lo hi : Nat) : List (List ByteRange) :=
  match cut? lo hi with
  | some mid =>
    if lo ≤ mid ∧ mid < hi then rowsBetween lo mid ++ rowsBetween (mid + 1) hi else []
  | none => [List.zipWith ByteRange.mk (utf8 lo) (utf8 hi)]
termination_by hi - lo

/-- The rows of a set, without the code points that are no characters. -/
def rows (s : CharSet) : List (List ByteRange) :=
  (s.diff (.range 0xd800 0xdfff)).ranges.flatMap fun (lo, hi) => rowsBetween lo hi

end ByteRange

end CodeMarkup.Regex.Plain
