/-! # Byte offsets in a text

A text is a list of characters, and a place in it is the number of bytes that the UTF-8 form of the
characters before the place takes. A byte count that falls inside a character, or past the end,
names no place: the cuts below answer `none` there.

`append_of_splitAt?` and `byteSize_of_splitAt?` say that a cut loses nothing and is made where it
was asked for; `splitAt?_byteSize` says that every place between two characters can be cut at. -/

namespace CodeMarkup.Text

/-- The bytes of the UTF-8 form of a text. -/
def byteSize : List Char → Nat
  | [] => 0
  | c :: cs => c.utf8Size + byteSize cs

@[simp] theorem byteSize_nil : byteSize [] = 0 := rfl

@[simp] theorem byteSize_cons (c : Char) (cs : List Char) :
    byteSize (c :: cs) = c.utf8Size + byteSize cs := rfl

@[simp] theorem byteSize_append (cs ds : List Char) :
    byteSize (cs ++ ds) = byteSize cs + byteSize ds := by
  induction cs with
  | nil => simp
  | cons c cs ih => simp [ih, Nat.add_assoc]

/-- The text before and the text after a byte offset. -/
def splitAt? : List Char → Nat → Option (List Char × List Char)
  | cs, 0 => some ([], cs)
  | [], _ + 1 => none
  | c :: cs, n + 1 =>
    if c.utf8Size ≤ n + 1 then
      (splitAt? cs (n + 1 - c.utf8Size)).map fun (before, after) => (c :: before, after)
    else none

/-- Cutting loses no character. -/
theorem append_of_splitAt? {cs : List Char} {n : Nat} {before after : List Char}
    (h : splitAt? cs n = some (before, after)) : before ++ after = cs := by
  fun_induction splitAt? cs n generalizing before after with
  | case1 cs => simp_all
  | case2 n => simp at h
  | case3 c cs n hc ih =>
    obtain ⟨⟨b, a⟩, hs, he⟩ := Option.map_eq_some_iff.1 h
    simp only [Prod.mk.injEq] at he
    obtain ⟨rfl, rfl⟩ := he
    simp [ih hs]
  | case4 c cs n hc => simp at h

/-- The cut is made after as many bytes as asked for. -/
theorem byteSize_of_splitAt? {cs : List Char} {n : Nat} {before after : List Char}
    (h : splitAt? cs n = some (before, after)) : byteSize before = n := by
  fun_induction splitAt? cs n generalizing before after with
  | case1 cs => simp_all
  | case2 n => simp at h
  | case3 c cs n hc ih =>
    obtain ⟨⟨b, a⟩, hs, he⟩ := Option.map_eq_some_iff.1 h
    simp only [Prod.mk.injEq] at he
    obtain ⟨rfl, rfl⟩ := he
    have := ih hs
    simp only [byteSize_cons]
    omega
  | case4 c cs n hc => simp at h

/-- Every place between two characters can be cut at. -/
theorem splitAt?_byteSize (before after : List Char) :
    splitAt? (before ++ after) (byteSize before) = some (before, after) := by
  induction before with
  | nil => simp [splitAt?]
  | cons c cs ih =>
    obtain ⟨k, hk⟩ : ∃ k, c.utf8Size + byteSize cs = k + 1 :=
      ⟨c.utf8Size + byteSize cs - 1, by have := c.utf8Size_pos; omega⟩
    rw [List.cons_append, byteSize_cons, hk, splitAt?, if_pos (by omega)]
    rw [show k + 1 - c.utf8Size = byteSize cs by omega, ih]
    rfl

/-- The text after a byte offset. -/
def dropTo? : List Char → Nat → Option (List Char)
  | cs, 0 => some cs
  | [], _ + 1 => none
  | c :: cs, n + 1 => if c.utf8Size ≤ n + 1 then dropTo? cs (n + 1 - c.utf8Size) else none

/-- The text after an offset is the second part of the cut there. -/
theorem dropTo?_eq (cs : List Char) (n : Nat) : dropTo? cs n = (splitAt? cs n).map Prod.snd := by
  fun_induction dropTo? cs n with
  | case1 cs => simp [splitAt?]
  | case2 n => rfl
  | case3 c cs n hc ih => simp [splitAt?, hc, ih, Function.comp_def]
  | case4 c cs n hc => simp [splitAt?, hc]

/-- The text between two byte offsets, if both are places and in order. -/
def slice? (cs : List Char) (start stop : Nat) : Option (List Char) :=
  match dropTo? cs start with
  | some rest => if start ≤ stop then (splitAt? rest (stop - start)).map Prod.fst else none
  | none => none

/-- The place after the character that starts at `n`. -/
def nextPlace? (cs : List Char) (n : Nat) : Option Nat :=
  match dropTo? cs n with
  | some (c :: _) => some (n + c.utf8Size)
  | _ => none

/-- The last place at or before `n`. -/
def floorPlace (cs : List Char) (n : Nat) : Nat :=
  match cs with
  | [] => 0
  | c :: cs => if c.utf8Size ≤ n then c.utf8Size + floorPlace cs (n - c.utf8Size) else 0

/-- The first place at or after `n`, or the end of the text. -/
def ceilPlace : List Char → Nat → Nat
  | _, 0 => 0
  | [], _ + 1 => 0
  | c :: cs, n + 1 => c.utf8Size + ceilPlace cs (n + 1 - c.utf8Size)

end CodeMarkup.Text
