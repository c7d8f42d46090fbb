import CodeMarkup.Text.Offset

/-! # Parts of a text

A text is cut at places: byte offsets between two of its characters. What is cut out and what is
left behind a place are here described by the characters around them, so that nothing more has to
be known of the cuts themselves. -/

namespace CodeMarkup.Text

/-- A byte offset between two characters of a text, or at one of its ends. -/
def IsPlace (cs : List Char) (n : Nat) : Prop :=
  ∃ before after, cs = before ++ after ∧ byteSize before = n

/-- The characters behind a place; none behind what is no place. -/
def rest (cs : List Char) (n : Nat) : List Char := (dropTo? cs n).getD []

theorem byteSize_eq_zero {cs : List Char} (h : byteSize cs = 0) : cs = [] := by
  cases cs with
  | nil => rfl
  | cons c cs =>
    have := c.utf8Size_pos
    simp only [byteSize_cons] at h
    omega

theorem utf8ByteSize_ofList (cs : List Char) : (String.ofList cs).utf8ByteSize = byteSize cs := by
  induction cs with
  | nil => simp
  | cons c cs ih =>
    rw [String.ofList_cons, String.utf8ByteSize_append, String.utf8ByteSize_singleton, ih]
    rfl

/-! ### Cuts -/

theorem dropTo?_eq_some {cs : List Char} {n : Nat} {after : List Char} :
    dropTo? cs n = some after ↔ ∃ before, cs = before ++ after ∧ byteSize before = n := by
  rw [dropTo?_eq, Option.map_eq_some_iff]
  constructor
  · rintro ⟨⟨before, a⟩, h, rfl⟩
    exact ⟨before, (append_of_splitAt? h).symm, byteSize_of_splitAt? h⟩
  · rintro ⟨before, rfl, rfl⟩
    exact ⟨(before, after), splitAt?_byteSize before after, rfl⟩

/-- What is behind a place. -/
theorem rest_byteSize (before after : List Char) : rest (before ++ after) (byteSize before) = after := by
  rw [rest, dropTo?_eq_some.mpr ⟨before, rfl, rfl⟩]
  rfl

theorem rest_zero (cs : List Char) : rest cs 0 = cs := rest_byteSize [] cs

theorem rest_of_not_isPlace {cs : List Char} {n : Nat} (h : ¬ IsPlace cs n) : rest cs n = [] := by
  rw [rest]
  cases hd : dropTo? cs n with
  | none => rfl
  | some after =>
    obtain ⟨before, hc, hb⟩ := dropTo?_eq_some.mp hd
    exact absurd ⟨before, after, hc, hb⟩ h

theorem slice?_eq_some {cs part : List Char} {a b : Nat} :
    slice? cs a b = some part ↔
      ∃ before after, cs = before ++ part ++ after ∧ byteSize before = a ∧ a + byteSize part = b := by
  unfold slice?
  constructor
  · intro h
    cases hd : dropTo? cs a with
    | none => simp [hd] at h
    | some r =>
      obtain ⟨before, rfl, rfl⟩ := dropTo?_eq_some.mp hd
      simp only [hd] at h
      split at h
      · next hle =>
        obtain ⟨⟨p, after⟩, hs, rfl⟩ := Option.map_eq_some_iff.mp h
        have hp : byteSize p = b - byteSize before := byteSize_of_splitAt? hs
        exact ⟨before, after, by rw [List.append_assoc, append_of_splitAt? hs], rfl, by
          show byteSize before + byteSize p = b
          omega⟩
      · simp at h
  · rintro ⟨before, after, rfl, rfl, rfl⟩
    rw [List.append_assoc, dropTo?_eq_some.mpr ⟨before, rfl, rfl⟩]
    simp only [Nat.le_add_right, if_true, Nat.add_sub_cancel_left, splitAt?_byteSize,
      Option.map_some]

/-- What is cut out up to a place and what is behind that place are what is behind the first one. -/
theorem append_rest {cs part : List Char} {a b : Nat} (h : slice? cs a b = some part) :
    part ++ rest cs b = rest cs a := by
  obtain ⟨before, after, rfl, rfl, rfl⟩ := slice?_eq_some.mp h
  rw [← byteSize_append, rest_byteSize, List.append_assoc, rest_byteSize]

theorem isPlace_left {cs part : List Char} {a b : Nat} (h : slice? cs a b = some part) :
    IsPlace cs a := by
  obtain ⟨before, after, rfl, rfl, -⟩ := slice?_eq_some.mp h
  exact ⟨before, part ++ after, List.append_assoc _ _ _, rfl⟩

theorem isPlace_right {cs part : List Char} {a b : Nat} (h : slice? cs a b = some part) :
    IsPlace cs b := by
  obtain ⟨before, after, rfl, rfl, rfl⟩ := slice?_eq_some.mp h
  exact ⟨before ++ part, after, rfl, byteSize_append before part⟩

/-! ### Places -/

theorem isPlace_zero (cs : List Char) : IsPlace cs 0 := ⟨[], cs, rfl, rfl⟩

theorem isPlace_end (cs : List Char) : IsPlace cs (byteSize cs) := ⟨cs, [], by simp, rfl⟩

theorem IsPlace.le {cs : List Char} {n : Nat} (h : IsPlace cs n) : n ≤ byteSize cs := by
  obtain ⟨before, after, rfl, rfl⟩ := h
  rw [byteSize_append]
  omega

/-- Two places in order can be cut at. -/
theorem exists_slice? {cs : List Char} {a b : Nat} (ha : IsPlace cs a) (hb : IsPlace cs b)
    (hab : a ≤ b) : ∃ part, slice? cs a b = some part := by
  obtain ⟨x, y, rfl, rfl⟩ := ha
  obtain ⟨z, w, he, rfl⟩ := hb
  rcases List.append_eq_append_iff.mp he with ⟨part, rfl, rfl⟩ | ⟨part, rfl, rfl⟩
  · exact ⟨part, slice?_eq_some.mpr ⟨x, w, by simp, rfl, (byteSize_append x part).symm⟩⟩
  · rw [byteSize_append] at hab
    obtain rfl : part = [] := byteSize_eq_zero (by omega)
    exact ⟨[], slice?_eq_some.mpr ⟨z, y, by simp, by simp, by simp⟩⟩

/-- From a place to the end everything behind the place can be cut out. -/
theorem slice?_end {cs : List Char} {a : Nat} (ha : IsPlace cs a) :
    slice? cs a (byteSize cs) = some (rest cs a) := by
  obtain ⟨before, after, rfl, rfl⟩ := ha
  rw [rest_byteSize]
  exact slice?_eq_some.mpr ⟨before, [], by simp, rfl, (byteSize_append before after).symm⟩

/-- The place behind a character is behind it. -/
theorem nextPlace?_eq_some {cs : List Char} {n m : Nat} (h : nextPlace? cs n = some m) :
    n < m ∧ ∃ c, slice? cs n m = some [c] := by
  unfold nextPlace? at h
  split at h
  · next c after hd =>
    obtain ⟨before, rfl, rfl⟩ := dropTo?_eq_some.mp hd
    have := c.utf8Size_pos
    cases h
    exact ⟨by omega, c, slice?_eq_some.mpr ⟨before, after, by simp, rfl, by simp⟩⟩
  · simp at h

/-- There is a place behind each place but the end. -/
theorem nextPlace?_eq_none {cs : List Char} {n : Nat} (h : nextPlace? cs n = none)
    (hn : IsPlace cs n) : n = byteSize cs := by
  obtain ⟨before, after, rfl, rfl⟩ := hn
  cases after with
  | nil => simp
  | cons c after => simp [nextPlace?, dropTo?_eq_some.mpr ⟨before, rfl, rfl⟩] at h

/-! ### The nearest places -/

theorem IsPlace.cons {cs : List Char} {n : Nat} (h : IsPlace cs n) (c : Char) :
    IsPlace (c :: cs) (c.utf8Size + n) := by
  obtain ⟨before, after, rfl, rfl⟩ := h
  exact ⟨c :: before, after, rfl, rfl⟩

theorem isPlace_floorPlace : ∀ (cs : List Char) (n : Nat), IsPlace cs (floorPlace cs n)
  | [], _ => isPlace_zero []
  | c :: cs, n => by
    unfold floorPlace
    split
    · exact (isPlace_floorPlace cs _).cons c
    · exact isPlace_zero _

theorem floorPlace_le : ∀ (cs : List Char) (n : Nat), floorPlace cs n ≤ n
  | [], n => Nat.zero_le n
  | c :: cs, n => by
    unfold floorPlace
    split
    · have := floorPlace_le cs (n - c.utf8Size)
      omega
    · exact Nat.zero_le n

theorem isPlace_ceilPlace : ∀ (cs : List Char) (n : Nat), IsPlace cs (ceilPlace cs n)
  | cs, 0 => by cases cs <;> exact isPlace_zero _
  | [], _ + 1 => isPlace_zero []
  | c :: cs, n + 1 => (isPlace_ceilPlace cs (n + 1 - c.utf8Size)).cons c

/-- The first place at or behind an offset is behind it, or is the end. -/
theorem le_ceilPlace : ∀ (cs : List Char) (n : Nat), min n (byteSize cs) ≤ ceilPlace cs n
  | cs, 0 => by simp
  | [], _ + 1 => by simp
  | c :: cs, n + 1 => by
    have ih := le_ceilPlace cs (n + 1 - c.utf8Size)
    rw [ceilPlace, byteSize_cons]
    omega

end CodeMarkup.Text
