/-! # Sets of characters

A set of code points is kept as its bounds: the places, in ascending order, where membership
changes. A code point belongs to the set iff the number of bounds at or below it is odd.

All operations on two sets are one walk along both rows of bounds (`CharSet.combine`), and
`CharSet.memCode_combine` says that the walk does pointwise what it is told to. -/

namespace CodeMarkup.Text

/-- A set of code points. -/
structure CharSet where
  /-- Where membership changes. -/
  bounds : List Nat
  ascending : bounds.Pairwise (· < ·)
  deriving DecidableEq

namespace CharSet

/-! ### Membership -/

/-- Whether a code point is inside, given whether the code points before the first bound are. -/
def inside : Bool → List Nat → Nat → Bool
  | i, [], _ => i
  | i, b :: bs, n => if n < b then i else inside (!i) bs n

/-- Whether a code point belongs to a set. -/
def memCode (s : CharSet) (n : Nat) : Bool := inside false s.bounds n

/-- Whether a character belongs to a set. -/
def mem (s : CharSet) (c : Char) : Bool := s.memCode c.toNat

theorem inside_of_lt {i : Bool} {bs : List Nat} {n : Nat} (h : ∀ b ∈ bs, n < b) :
    inside i bs n = i := by
  cases bs with
  | nil => rfl
  | cons b bs => simp [inside, h b]

/-! ### Making sets -/

instance : Inhabited CharSet := ⟨⟨[], .nil⟩⟩

/-- The set without members. -/
def empty : CharSet := ⟨[], .nil⟩

/-- Two bounds ascend. -/
theorem pairwise_pair {lo hi : Nat} (h : lo < hi) : [lo, hi].Pairwise (· < ·) :=
  List.pairwise_cons.2 ⟨fun _ hb => List.mem_singleton.1 hb ▸ h, List.pairwise_singleton _ _⟩

/-- The code points from `lo` to `hi`, both included. -/
def range (lo hi : Nat) : CharSet :=
  if h : lo ≤ hi then ⟨[lo, hi + 1], pairwise_pair (Nat.lt_succ_of_le h)⟩ else empty

/-- The set of one character. -/
def single (c : Char) : CharSet := range c.toNat c.toNat

/-- All code points. -/
def all : CharSet := range 0 0x10ffff

/-- The part of a row that ascends, from `n` on. -/
def ascendingFrom : Nat → List Nat → List Nat
  | _, [] => []
  | n, b :: bs => if n ≤ b then b :: ascendingFrom (b + 1) bs else ascendingFrom n bs

theorem le_of_mem_ascendingFrom {bs : List Nat} {n b : Nat} (h : b ∈ ascendingFrom n bs) :
    n ≤ b := by
  induction bs generalizing n with
  | nil => simp [ascendingFrom] at h
  | cons c bs ih =>
    simp only [ascendingFrom] at h
    split at h
    · rcases List.mem_cons.1 h with rfl | h
      · assumption
      · have := ih h
        omega
    · exact ih h

theorem pairwise_ascendingFrom (n : Nat) (bs : List Nat) :
    (ascendingFrom n bs).Pairwise (· < ·) := by
  induction bs generalizing n with
  | nil => simp [ascendingFrom]
  | cons b bs ih =>
    simp only [ascendingFrom]
    split
    · exact List.pairwise_cons.2 ⟨fun _ h => le_of_mem_ascendingFrom h, ih _⟩
    · exact ih n

/-- The set with the bounds of an ascending row; what does not ascend is left out. -/
def ofBounds (bs : List Nat) : CharSet := ⟨ascendingFrom 0 bs, pairwise_ascendingFrom 0 bs⟩

/-! ### Operations -/

/-- A bound, if something changes at it. -/
def boundIf (before after : Bool) (b : Nat) (bs : List Nat) : List Nat :=
  if before == after then bs else b :: bs

/-- The bounds of a combination, given whether the code points before all bounds are members of
the one set and of the other. -/
def merge (op : Bool → Bool → Bool) : Bool → Bool → List Nat → List Nat → List Nat
  | _, _, [], [] => []
  | i, j, x :: xs, [] => boundIf (op i j) (op (!i) j) x (merge op (!i) j xs [])
  | i, j, [], y :: ys => boundIf (op i j) (op i (!j)) y (merge op i (!j) [] ys)
  | i, j, x :: xs, y :: ys =>
    if x < y then boundIf (op i j) (op (!i) j) x (merge op (!i) j xs (y :: ys))
    else if y < x then boundIf (op i j) (op i (!j)) y (merge op i (!j) (x :: xs) ys)
    else boundIf (op i j) (op (!i) (!j)) x (merge op (!i) (!j) xs ys)
termination_by _ _ xs ys => xs.length + ys.length

theorem mem_of_mem_boundIf {i j : Bool} {b n : Nat} {bs : List Nat} (h : n ∈ boundIf i j b bs) :
    n = b ∨ n ∈ bs := by
  unfold boundIf at h
  split at h
  · exact .inr h
  · exact List.mem_cons.1 h

/-- A combination has no bounds but those of the two sets. -/
theorem mem_of_mem_merge {op : Bool → Bool → Bool} {i j : Bool} {xs ys : List Nat} {n : Nat}
    (h : n ∈ merge op i j xs ys) : n ∈ xs ∨ n ∈ ys := by
  fun_induction merge op i j xs ys with
  | case1 => simp at h
  | case2 i j x xs ih | case3 i j y ys ih =>
    rcases mem_of_mem_boundIf h with rfl | h
    · simp
    · have := ih h
      simp_all
  | case4 i j x xs y ys _ ih | case5 i j x xs y ys _ _ ih | case6 i j x xs y ys _ _ ih =>
    rcases mem_of_mem_boundIf h with rfl | h
    · simp
    · have := ih h
      grind

theorem pairwise_boundIf {i j : Bool} {b : Nat} {bs : List Nat} (h : bs.Pairwise (· < ·))
    (hb : ∀ n ∈ bs, b < n) : (boundIf i j b bs).Pairwise (· < ·) := by
  unfold boundIf
  split
  · exact h
  · exact List.pairwise_cons.2 ⟨hb, h⟩

/-- The bounds of a combination ascend. -/
theorem pairwise_merge {op : Bool → Bool → Bool} {i j : Bool} {xs ys : List Nat}
    (hx : xs.Pairwise (· < ·)) (hy : ys.Pairwise (· < ·)) :
    (merge op i j xs ys).Pairwise (· < ·) := by
  fun_induction merge op i j xs ys with
  | case1 => exact .nil
  | case2 i j x xs ih =>
    obtain ⟨hx₁, hx₂⟩ := List.pairwise_cons.1 hx
    exact pairwise_boundIf (ih hx₂ hy) fun n hn => by
      rcases mem_of_mem_merge hn with h | h
      · exact hx₁ n h
      · simp at h
  | case3 i j y ys ih =>
    obtain ⟨hy₁, hy₂⟩ := List.pairwise_cons.1 hy
    exact pairwise_boundIf (ih hx hy₂) fun n hn => by
      rcases mem_of_mem_merge hn with h | h
      · simp at h
      · exact hy₁ n h
  | case4 i j x xs y ys hxy ih =>
    obtain ⟨hx₁, hx₂⟩ := List.pairwise_cons.1 hx
    have hy₁ := (List.pairwise_cons.1 hy).1
    exact pairwise_boundIf (ih hx₂ hy) fun n hn => by
      rcases mem_of_mem_merge hn with h | h
      · exact hx₁ n h
      · rcases List.mem_cons.1 h with rfl | h
        · exact hxy
        · exact Nat.lt_trans hxy (hy₁ n h)
  | case5 i j x xs y ys _ hyx ih =>
    obtain ⟨hy₁, hy₂⟩ := List.pairwise_cons.1 hy
    have hx₁ := (List.pairwise_cons.1 hx).1
    exact pairwise_boundIf (ih hx hy₂) fun n hn => by
      rcases mem_of_mem_merge hn with h | h
      · rcases List.mem_cons.1 h with rfl | h
        · exact hyx
        · exact Nat.lt_trans hyx (hx₁ n h)
      · exact hy₁ n h
  | case6 i j x xs y ys hxy hyx ih =>
    obtain ⟨hx₁, hx₂⟩ := List.pairwise_cons.1 hx
    obtain ⟨hy₁, hy₂⟩ := List.pairwise_cons.1 hy
    have : x = y := by omega
    subst this
    exact pairwise_boundIf (ih hx₂ hy₂) fun n hn => by
      rcases mem_of_mem_merge hn with h | h
      · exact hx₁ n h
      · exact hy₁ n h

/-- Membership behind a bound that may have been left out. -/
theorem inside_boundIf {i j : Bool} {b n : Nat} {bs : List Nat} (h : ∀ m ∈ bs, b < m) :
    inside i (boundIf i j b bs) n = if n < b then i else inside j bs n := by
  unfold boundIf
  split
  · have hij : i = j := by simp_all
    subst hij
    split
    · exact inside_of_lt fun m hm => Nat.lt_trans ‹n < b› (h m hm)
    · rfl
  · have hij : (!i) = j := by
      cases i <;> cases j <;> simp_all
    simp [inside, hij]

theorem inside_merge {op : Bool → Bool → Bool} {i j : Bool} {xs ys : List Nat} {n : Nat}
    (hx : xs.Pairwise (· < ·)) (hy : ys.Pairwise (· < ·)) :
    inside (op i j) (merge op i j xs ys) n = op (inside i xs n) (inside j ys n) := by
  fun_induction merge op i j xs ys with
  | case1 => rfl
  | case2 i j x xs ih =>
    obtain ⟨hx₁, hx₂⟩ := List.pairwise_cons.1 hx
    rw [inside_boundIf fun m hm => (mem_of_mem_merge hm).elim (hx₁ m) (by simp), ih hx₂ hy]
    by_cases h : n < x <;> simp [inside, h]
  | case3 i j y ys ih =>
    obtain ⟨hy₁, hy₂⟩ := List.pairwise_cons.1 hy
    rw [inside_boundIf fun m hm => (mem_of_mem_merge hm).elim (by simp) (hy₁ m), ih hx hy₂]
    by_cases h : n < y <;> simp [inside, h]
  | case4 i j x xs y ys hxy ih =>
    obtain ⟨hx₁, hx₂⟩ := List.pairwise_cons.1 hx
    have hy₁ := (List.pairwise_cons.1 hy).1
    rw [inside_boundIf fun m hm => (mem_of_mem_merge hm).elim (hx₁ m) fun h => by
        rcases List.mem_cons.1 h with rfl | h
        · exact hxy
        · exact Nat.lt_trans hxy (hy₁ m h), ih hx₂ hy]
    by_cases h : n < x
    · have : n < y := Nat.lt_trans h hxy
      simp [inside, h, this]
    · simp [inside, h]
  | case5 i j x xs y ys _ hyx ih =>
    obtain ⟨hy₁, hy₂⟩ := List.pairwise_cons.1 hy
    have hx₁ := (List.pairwise_cons.1 hx).1
    rw [inside_boundIf fun m hm => (mem_of_mem_merge hm).elim (fun h => by
        rcases List.mem_cons.1 h with rfl | h
        · exact hyx
        · exact Nat.lt_trans hyx (hx₁ m h)) (hy₁ m), ih hx hy₂]
    by_cases h : n < y
    · have : n < x := Nat.lt_trans h hyx
      simp [inside, h, this]
    · simp [inside, h]
  | case6 i j x xs y ys hxy hyx ih =>
    obtain ⟨hx₁, hx₂⟩ := List.pairwise_cons.1 hx
    obtain ⟨hy₁, hy₂⟩ := List.pairwise_cons.1 hy
    have : x = y := by omega
    subst this
    rw [inside_boundIf fun m hm => (mem_of_mem_merge hm).elim (hx₁ m) (hy₁ m), ih hx₂ hy₂]
    by_cases h : n < x <;> simp [inside, h]

/-- The code points whose memberships in two sets are combined to `true`; an operation that makes
members of what is in neither set is not meant. -/
def combine (op : Bool → Bool → Bool) (s t : CharSet) : CharSet :=
  ⟨merge op false false s.bounds t.bounds, pairwise_merge s.ascending t.ascending⟩

/-- Combining sets combines membership. -/
theorem memCode_combine {op : Bool → Bool → Bool} (h : op false false = false) (s t : CharSet)
    (n : Nat) : (combine op s t).memCode n = op (s.memCode n) (t.memCode n) := by
  have := @inside_merge op false false _ _ n s.ascending t.ascending
  rwa [h] at this

/-- The members of either set. -/
def union (s t : CharSet) : CharSet := combine (· || ·) s t

/-- The members of both sets. -/
def inter (s t : CharSet) : CharSet := combine (· && ·) s t

/-- The members of the first set that the second one lacks. -/
def diff (s t : CharSet) : CharSet := combine (fun i j => i && !j) s t

/-- The members of one of the sets only. -/
def symmDiff (s t : CharSet) : CharSet := combine (fun i j => i != j) s t

/-- All other code points. -/
def compl (s : CharSet) : CharSet := diff all s

/-- The set, or all other code points. -/
def complIf (negated : Bool) (s : CharSet) : CharSet := if negated then compl s else s

/-- The members of any of some sets. -/
def unions (sets : List CharSet) : CharSet := sets.foldl union empty

@[simp] theorem memCode_union (s t : CharSet) (n : Nat) :
    (union s t).memCode n = (s.memCode n || t.memCode n) := memCode_combine rfl s t n

@[simp] theorem memCode_inter (s t : CharSet) (n : Nat) :
    (inter s t).memCode n = (s.memCode n && t.memCode n) := memCode_combine rfl s t n

@[simp] theorem memCode_diff (s t : CharSet) (n : Nat) :
    (diff s t).memCode n = (s.memCode n && !t.memCode n) := memCode_combine rfl s t n

@[simp] theorem memCode_symmDiff (s t : CharSet) (n : Nat) :
    (symmDiff s t).memCode n = (s.memCode n != t.memCode n) := memCode_combine rfl s t n

@[simp] theorem memCode_empty (n : Nat) : empty.memCode n = false := rfl

theorem memCode_range (lo hi n : Nat) :
    (range lo hi).memCode n = (decide (lo ≤ n) && decide (n ≤ hi)) := by
  unfold range
  split
  · by_cases h₁ : n < lo
    · simp [memCode, inside, h₁, Nat.not_le.2 h₁]
    · by_cases h₂ : n < hi + 1
      · simp [memCode, inside, h₁, h₂, Nat.not_lt.1 h₁, Nat.lt_succ_iff.1 h₂]
      · have : ¬ n ≤ hi := by omega
        simp [memCode, inside, h₁, h₂, this]
  · by_cases h₁ : lo ≤ n
    · have : ¬ n ≤ hi := by omega
      simp [this]
    · simp [h₁]

/-- Characters are code points, so taking the others swaps members and non-members. -/
@[simp] theorem mem_compl (s : CharSet) (c : Char) : (compl s).mem c = !s.mem c := by
  have h : c.toNat ≤ 0x10ffff := by
    have := c.valid
    simp only [UInt32.isValidChar, Nat.isValidChar] at this
    have : c.toNat = c.val.toNat := rfl
    omega
  simp [mem, compl, all, memCode_range, h]

/-! ### Ranges -/

/-- The runs of members between bounds. -/
def rangesOf : List Nat → List (Nat × Nat)
  | lo :: b :: bs => (lo, b - 1) :: rangesOf bs
  | [lo] => [(lo, 0x10ffff)]
  | [] => []

/-- The longest runs of members, in ascending order, both ends included. -/
def ranges (s : CharSet) : List (Nat × Nat) := rangesOf s.bounds

/-- The only member of a set, if it has just one. -/
def single? (s : CharSet) : Option Char :=
  match s.bounds with
  | [lo, b] => if b = lo + 1 ∧ lo.isValidChar then some (Char.ofNat lo) else none
  | _ => none

/-! ### Written sets -/

/-- The bounds of single code points, each two further on. -/
def everySecond (lo : Nat) : Nat → List Nat
  | 0 => []
  | n + 1 => lo :: (lo + 1) :: everySecond (lo + 2) n

/-- The state of reading a written set: the number being read, the first end of its range if it is
the last one, and the bounds found so far, latest first. -/
structure Reading where
  number : Nat := 0
  first? : Option Nat := none
  stepped : Bool := false
  bounds : List Nat := []

/-- Adds the range that has been read. -/
def Reading.close (r : Reading) : Reading :=
  match r.first?, r.stepped with
  | none, _ => { bounds := (r.number + 1) :: r.number :: r.bounds }
  | some lo, false => { bounds := (r.number + 1) :: lo :: r.bounds }
  | some lo, true =>
    { bounds := (everySecond lo ((r.number - lo) / 2 + 1)).reverse ++ r.bounds }

/-- The value of a small hexadecimal digit. -/
def digitValue (c : Char) : Nat :=
  if c ≤ '9' then c.toNat - '0'.toNat else c.toNat - 'a'.toNat + 10

/-- Reads one character of a written set. -/
def Reading.push (r : Reading) (c : Char) : Reading :=
  if c = ' ' then r.close
  else if c = '-' then { r with number := 0, first? := some r.number }
  else if c = '/' then { r with stepped := true }
  else if r.stepped then r
  else { r with number := 16 * r.number + digitValue c }

/-- The set that a text writes: code points in small hexadecimal digits and ranges of them such as
`61-7a`, in ascending order, a blank behind each. A range followed by `/2` has only every second of
its code points. -/
def read (written : String) : CharSet :=
  ofBounds (written.toList.foldl Reading.push {}).bounds.reverse

end CharSet

end CodeMarkup.Text
