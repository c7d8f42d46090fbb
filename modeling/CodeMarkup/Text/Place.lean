import CodeMarkup.Text.Cursor

/-! # Places by bytes

A byte offset may fall between two characters, inside a character, or past the end of a text. A
`Place` says which: it is the last cursor that is not behind the offset, and the bytes from there.

`Place.offset_settle` says that a place stands where it was asked for, and `Place.text_settle` that
looking for it keeps the text. -/

namespace CodeMarkup.Text

/-- A place in the bytes of a text. -/
structure Place where
  /-- The last place between two characters that is not behind this one. -/
  cursor : Cursor
  /-- The bytes from there: more than none inside a character and past the end only. -/
  inside : Nat := 0
  deriving Inhabited

namespace Place

/-- The bytes before a place. -/
def offset (p : Place) : Nat := p.cursor.offset + p.inside

/-- The cursor at a place between two characters. -/
def edge? (p : Place) : Option Cursor := if p.inside = 0 then some p.cursor else none

/-- The bytes before the place behind a character. -/
theorem byteSize_behind {b : List Char} {k : Nat} (h : k = byteSize b) (x : Char) :
    k + x.utf8Size = byteSize (x :: b) := by
  rw [byteSize_cons, h, Nat.add_comm]

/-- The place `n` bytes behind a cursor, given as both sides of it and the bytes before it. -/
def settle (n : Nat) : (before after : List Char) → (offset : Nat) → offset = byteSize before →
    Place
  | b, [], k, h => ⟨⟨b, [], k, h⟩, n⟩
  | b, x :: a, k, h =>
    if n < x.utf8Size then ⟨⟨b, x :: a, k, h⟩, n⟩
    else settle (n - x.utf8Size) (x :: b) a (k + x.utf8Size) (byteSize_behind h x)

/-- A place stands as many bytes behind the cursor as asked for. -/
theorem offset_settle (n : Nat) (b a : List Char) (k : Nat) (h : k = byteSize b) :
    (settle n b a k h).offset = k + n := by
  induction a generalizing n b k with
  | nil => rfl
  | cons x a ih =>
    simp only [settle]
    split
    · rfl
    · exact (ih _ _ _ _).trans (by omega)

/-- A place stands in the text that it was looked for in. -/
theorem text_settle (n : Nat) (b a : List Char) (k : Nat) (h : k = byteSize b) :
    (settle n b a k h).cursor.text = b.reverse ++ a := by
  induction a generalizing n b k with
  | nil => rfl
  | cons x a ih =>
    simp only [settle]
    split
    · rfl
    · exact (ih _ _ _ _).trans (by simp)

/-- The place `n` bytes behind a cursor. -/
def behind (c : Cursor) (n : Nat) : Place := settle n c.before c.after c.offset c.offset_eq

/-- The place at a byte offset of a text. -/
def ofOffset (cs : List Char) (n : Nat) : Place := behind (Cursor.start cs) n

theorem offset_ofOffset (cs : List Char) (n : Nat) : (ofOffset cs n).offset = n := by
  simp [ofOffset, behind, offset_settle, Cursor.start]

/-- The character at a place; none inside a character and at the end. -/
def char? (p : Place) : Option Char := p.edge?.bind (·.after.head?)

/-- The place behind the next character. From inside a character it is two bytes on, as from the
start of a character of two bytes. -/
def next? (p : Place) : Option Place :=
  if p.inside = 0 then p.cursor.next?.map fun (_, c) => ⟨c, 0⟩
  else if p.cursor.after.isEmpty then none
  else some (behind p.cursor (p.inside + 2))

/-- The place `n` characters further back; the first of them is the one that the place is in. -/
def back? (p : Place) : Nat → Option Place
  | 0 => some p
  | n + 1 =>
    if p.inside = 0 then (p.cursor.back? (n + 1)).map (⟨·, 0⟩)
    else (p.cursor.back? n).map (⟨·, 0⟩)

/-- The first cursor that is not before a place; none past the end. -/
def ceil? (p : Place) : Option Cursor :=
  if p.inside = 0 then some p.cursor else p.cursor.next?.map (·.2)

end Place

end CodeMarkup.Text
