import CodeMarkup.Text.Offset

/-! # Cursors

A cursor is a place in a text together with the characters on both sides of it, so that looking
back is as cheap as looking ahead. The characters before it are kept nearest first.

`Cursor.text_next?` says that moving keeps the text, and `Cursor.advanceTo` moves on to a byte
offset. -/

namespace CodeMarkup.Text

/-- A place between two characters of a text. -/
structure Cursor where
  /-- The characters before the place, nearest first. -/
  before : List Char
  /-- The characters after the place. -/
  after : List Char
  /-- The bytes before the place. -/
  offset : Nat
  offset_eq : offset = byteSize before

namespace Cursor

instance : Inhabited Cursor := ⟨⟨[], [], 0, rfl⟩⟩

/-- The cursor at the start of a text. -/
def start (cs : List Char) : Cursor := ⟨[], cs, 0, rfl⟩

/-- The whole text that a cursor stands in. -/
def text (c : Cursor) : List Char := c.before.reverse ++ c.after

/-- The character after the place and the cursor behind it. -/
def next? : Cursor → Option (Char × Cursor)
  | ⟨_, [], _, _⟩ => none
  | ⟨b, x :: a, n, h⟩ => some (x, ⟨x :: b, a, n + x.utf8Size, by simp [h, Nat.add_comm]⟩)

/-- The cursor `n` characters further back. -/
def back? : Cursor → Nat → Option Cursor
  | c, 0 => some c
  | ⟨[], _, _, _⟩, _ + 1 => none
  | ⟨x :: b, a, n, h⟩, k + 1 =>
    back? ⟨b, x :: a, n - x.utf8Size, by simp [h]⟩ k

/-- Moving on keeps the text. -/
theorem text_next? {c d : Cursor} {x : Char} (h : c.next? = some (x, d)) : d.text = c.text := by
  obtain ⟨b, a, n, hn⟩ := c
  cases a with
  | nil => simp [next?] at h
  | cons y a =>
    simp only [next?, Option.some.injEq, Prod.mk.injEq] at h
    obtain ⟨rfl, rfl⟩ := h
    simp [text]

/-- Moving on leaves one character less to come. -/
theorem length_after_next? {c d : Cursor} {x : Char} (h : c.next? = some (x, d)) :
    d.after.length + 1 = c.after.length := by
  obtain ⟨b, a, n, hn⟩ := c
  cases a with
  | nil => simp [next?] at h
  | cons y a =>
    simp only [next?, Option.some.injEq, Prod.mk.injEq] at h
    obtain ⟨rfl, rfl⟩ := h
    simp

/-- Moving on passes the bytes of the character. -/
theorem offset_next? {c d : Cursor} {x : Char} (h : c.next? = some (x, d)) :
    d.offset = c.offset + x.utf8Size := by
  obtain ⟨b, a, n, hn⟩ := c
  cases a with
  | nil => simp [next?] at h
  | cons y a =>
    simp only [next?, Option.some.injEq, Prod.mk.injEq] at h
    obtain ⟨rfl, rfl⟩ := h
    rfl

/-- Moves on until `n` bytes are behind, given both sides of the place and the bytes before it. -/
def seek (n : Nat) : (before after : List Char) → (offset : Nat) → offset = byteSize before →
    Option Cursor
  | b, [], k, h => if n ≤ k then some ⟨b, [], k, h⟩ else none
  | b, x :: a, k, h =>
    if n ≤ k then some ⟨b, x :: a, k, h⟩
    else seek n (x :: b) a (k + x.utf8Size) (by simp [h, Nat.add_comm])

/-- Moves on until `n` bytes are behind; not past the end. -/
def advanceTo (n : Nat) (c : Cursor) : Option Cursor := seek n c.before c.after c.offset c.offset_eq

/-- The characters from one cursor to a later one in the same text. -/
def upTo (c d : Cursor) : List Char := c.after.take (c.after.length - d.after.length)

end Cursor

end CodeMarkup.Text
