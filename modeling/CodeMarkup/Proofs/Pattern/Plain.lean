import CodeMarkup.Pattern.Join
import Mathlib.Data.List.TakeDrop
import Mathlib.Data.List.TakeWhile

/-! # Plain patterns

Joining goes through a pattern by parts and does not read it. Whether its parts are those that a
reader sees is a matter of the parts alone: brackets must not hold other brackets, and of the groups
with a question mark and the escapes only some may stand there. Such a pattern is plain
(`Pattern.Plain`).

The lemmas here tell which part stands at the front of a text, and from that what moving the
references on, being plain and counting groups come to. -/

namespace CodeMarkup.Pattern

namespace Part

/-! ### Parts at the front -/

theorem readFor_eq_read : ∀ (steps : Nat) (cs : List Char), cs.length ≤ steps →
    readFor steps cs = read cs := by
  have h : ∀ (steps more : Nat) (cs : List Char), cs.length ≤ steps →
      readFor (steps + more) cs = readFor steps cs := by
    intro steps
    induction steps with
    | zero =>
      intro more cs h
      obtain rfl := List.length_eq_zero_iff.mp (Nat.le_zero.mp h)
      cases more <;> simp [readFor]
    | succ steps ih =>
      intro more cs h
      cases cs with
      | nil => rw [Nat.add_right_comm, readFor, readFor]
      | cons c cs =>
        have := length_next c cs
        simp only [List.length_cons] at this h
        rw [Nat.add_right_comm, readFor, readFor, ih more _ (by omega)]
  intro steps cs hl
  obtain ⟨more, rfl⟩ := Nat.exists_eq_add_of_le hl
  exact h cs.length more cs (Nat.le_refl _)

theorem read_cons (c : Char) (cs : List Char) :
    read (c :: cs) = (next c cs).1 :: read (next c cs).2 := by
  have h : (next c cs).2.length ≤ cs.length := Nat.le_of_lt_succ (length_next c cs)
  rw [read, List.length_cons, readFor, readFor_eq_read _ _ h]

/-- Whether a character is a part of its own wherever it stands. -/
def isOther (c : Char) : Bool := c != '[' && c != '(' && c != '\\'

theorem read_other {c : Char} (h : isOther c) (cs : List Char) :
    read (c :: cs) = other c :: read cs := by
  simp only [isOther, Bool.and_eq_true, bne_iff_ne] at h
  have hn : next c cs = (other c, cs) := by
    unfold next
    split <;> simp_all
  rw [read_cons, hn]

theorem read_openingMark (cs : List Char) : read ('(' :: '?' :: cs) = openingMark :: read cs := by
  rw [read_cons, next]

theorem read_opening {cs : List Char} (h : cs.head? ≠ some '?') :
    read ('(' :: cs) = opening :: read cs := by
  have hn : next '(' cs = (opening, cs) := by
    unfold next
    split <;> simp_all
  rw [read_cons, hn]

theorem read_reference {d : Char} (h : '1' ≤ d ∧ d ≤ '9') (cs : List Char) :
    read ('\\' :: d :: cs) =
      reference (d :: cs.takeWhile Char.isDigit) :: read (cs.dropWhile Char.isDigit) := by
  rw [read_cons, next, if_pos h]

theorem read_escape {d : Char} (h : ¬('1' ≤ d ∧ d ≤ '9')) (cs : List Char) :
    read ('\\' :: d :: cs) = escape d :: read cs := by
  rw [read_cons, next, if_neg h]

theorem read_bracket {cs inside rest : List Char} (h : bracketEnd? cs = some (inside, rest)) :
    read ('[' :: cs) = bracket ('[' :: inside) :: read rest := by
  have hn : next '[' cs = (bracket ('[' :: inside), rest) := by
    simp [next, h]
  rw [read_cons, hn]

theorem read_unclosed {cs : List Char} (h : bracketEnd? cs = none) :
    read ('[' :: cs) = other '[' :: read cs := by
  have hn : next '[' cs = (other '[', cs) := by
    simp [next, h]
  rw [read_cons, hn]

end Part

/-! ### Moving references on -/

/-- The characters of a pattern whose references are moved on. -/
def moved (offset : Nat) (cs : List Char) : List Char := (Part.read cs).flatMap (Part.shifted offset)

/-- The number of groups that a text opens. -/
def groupsIn (cs : List Char) : Nat := Part.groupCount (Part.read cs)

/-! ### Plain parts -/

/-- Whether what follows `\p` or `\P` is a name in braces or a letter, without a character that
means something to a reader of parts. -/
def namesProperty (after : List Char) : Bool :=
  match after with
  | '\x7b' :: cs => (cs.takeWhile (· ≠ '\x7d')).all fun c => Part.isOther c && c != ']'
  | c :: _ => Part.isOther c && c != ']'
  | [] => false

/-- Whether the rest of a bracket, from behind its opening, holds no other bracket. -/
def insidePlain : List Char → Bool
  | [] => true
  | '\\' :: c :: cs => (c != 'p' && c != 'P' || namesProperty cs) && insidePlain cs
  | c :: cs => c != '[' && insidePlain cs

/-- Whether a bracket, from behind its opening, is plain: a closing bracket does not come first, and
no bracket is inside. -/
def bracketPlain (inside : List Char) : Bool :=
  inside != [']'] && inside != ['^', ']'] && insidePlain inside

/-- Whether what follows `(?` makes a group without captures, a condition on the text around the
place, or a group with a name. -/
def marksGroup (after : List Char) : Bool :=
  match after with
  | ':' :: _ | '=' :: _ | '!' :: _ | '>' :: _ | '<' :: _ => true
  | 'P' :: '<' :: _ => true
  | _ => false

/-- Whether an escape is plain. References are by number, and not to the whole match; with
`directives`, a pattern may say where its match starts and ask where the search did. -/
def escapePlain (directives : Bool) (c : Char) (after : List Char) : Bool :=
  c != '0' && c != 'k' && (c != 'p' && c != 'P' || namesProperty after) &&
    (directives || c != 'K' && c != 'G')

/-- Whether a part is plain, given what follows it. -/
def Part.isPlain (directives : Bool) (p : Part) (after : List Char) : Bool :=
  match p with
  | other c => c != '['
  | bracket cs => bracketPlain cs.tail
  | opening | reference _ => true
  | openingMark => marksGroup after
  | escape c => escapePlain directives c after

/-- Whether all parts are plain. -/
def Part.allPlain (directives : Bool) : List Part → Bool
  | [] => true
  | p :: ps => p.isPlain directives (ps.flatMap text) && allPlain directives ps

/-- A text that a reader sees by the same parts as the joining. -/
def Plain (directives : Bool) (cs : List Char) : Prop := Part.allPlain directives (Part.read cs) = true

instance (directives : Bool) (cs : List Char) : Decidable (Plain directives cs) :=
  inferInstanceAs (Decidable (_ = true))

/-! ### Moving on in a plain text -/

section Front

variable {c : Char} {cs : List Char} (offset : Nat) (directives : Bool)

theorem moved_nil : moved offset [] = [] := rfl

theorem moved_other (h : Part.isOther c) (cs : List Char) :
    moved offset (c :: cs) = c :: moved offset cs := by
  rw [moved, Part.read_other h, List.flatMap_cons]
  rfl

theorem moved_openingMark (cs : List Char) :
    moved offset ('(' :: '?' :: cs) = '(' :: '?' :: moved offset cs := by
  rw [moved, Part.read_openingMark, List.flatMap_cons]
  rfl

theorem moved_opening (h : cs.head? ≠ some '?') :
    moved offset ('(' :: cs) = '(' :: moved offset cs := by
  rw [moved, Part.read_opening h, List.flatMap_cons]
  rfl

theorem moved_escape (h : ¬('1' ≤ c ∧ c ≤ '9')) (cs : List Char) :
    moved offset ('\\' :: c :: cs) = '\\' :: c :: moved offset cs := by
  rw [moved, Part.read_escape h, List.flatMap_cons]
  rfl

theorem moved_reference (h : '1' ≤ c ∧ c ≤ '9')
    (hn : digitsValue (c :: cs.takeWhile Char.isDigit) < numberLimit) :
    moved offset ('\\' :: c :: cs) =
      '\\' :: ((toString (digitsValue (c :: cs.takeWhile Char.isDigit) + offset)).toList ++
        moved offset (cs.dropWhile Char.isDigit)) := by
  rw [moved, Part.read_reference h, List.flatMap_cons, Part.shifted, if_pos hn]
  rfl

theorem moved_bracket {inside rest : List Char} (h : Part.bracketEnd? cs = some (inside, rest)) :
    moved offset ('[' :: cs) = '[' :: (inside ++ moved offset rest) := by
  rw [moved, Part.read_bracket h, List.flatMap_cons]
  rfl

theorem plain_other (h : Part.isOther c) : Plain directives (c :: cs) ↔ Plain directives cs := by
  have hc : c ≠ '[' := by
    simp only [Part.isOther, Bool.and_eq_true, bne_iff_ne] at h
    exact h.1.1
  simp [Plain, Part.read_other h, Part.allPlain, Part.isPlain, hc]

theorem plain_openingMark :
    Plain directives ('(' :: '?' :: cs) ↔ marksGroup cs ∧ Plain directives cs := by
  simp [Plain, Part.read_openingMark, Part.allPlain, Part.isPlain, Part.text_read]

theorem plain_opening (h : cs.head? ≠ some '?') :
    Plain directives ('(' :: cs) ↔ Plain directives cs := by
  simp [Plain, Part.read_opening h, Part.allPlain, Part.isPlain]

theorem plain_escape (h : ¬('1' ≤ c ∧ c ≤ '9')) :
    Plain directives ('\\' :: c :: cs) ↔ escapePlain directives c cs ∧ Plain directives cs := by
  simp [Plain, Part.read_escape h, Part.allPlain, Part.isPlain, Part.text_read]

theorem plain_reference (h : '1' ≤ c ∧ c ≤ '9') :
    Plain directives ('\\' :: c :: cs) ↔ Plain directives (cs.dropWhile Char.isDigit) := by
  simp [Plain, Part.read_reference h, Part.allPlain, Part.isPlain]

theorem plain_bracket {inside rest : List Char} (h : Part.bracketEnd? cs = some (inside, rest)) :
    Plain directives ('[' :: cs) ↔ bracketPlain inside ∧ Plain directives rest := by
  simp [Plain, Part.read_bracket h, Part.allPlain, Part.isPlain]

/-- A bracket of a plain text is closed. -/
theorem Plain.bracketEnd (h : Plain directives ('[' :: cs)) :
    ∃ inside rest, Part.bracketEnd? cs = some (inside, rest) := by
  cases hb : Part.bracketEnd? cs with
  | some found => exact ⟨found.1, found.2, rfl⟩
  | none => simp [Plain, Part.read_unclosed hb, Part.allPlain, Part.isPlain] at h

theorem groupsIn_other (h : Part.isOther c) : groupsIn (c :: cs) = groupsIn cs := by
  simp [groupsIn, Part.read_other h, Part.groupCount, Part.opensGroup]

theorem groupsIn_openingMark :
    groupsIn ('(' :: '?' :: cs) = (if opensNamed cs then 1 else 0) + groupsIn cs := by
  simp [groupsIn, Part.read_openingMark, Part.groupCount, Part.opensGroup, Part.text_read]

theorem groupsIn_opening (h : cs.head? ≠ some '?') : groupsIn ('(' :: cs) = 1 + groupsIn cs := by
  simp [groupsIn, Part.read_opening h, Part.groupCount, Part.opensGroup]

theorem groupsIn_escape (h : ¬('1' ≤ c ∧ c ≤ '9')) :
    groupsIn ('\\' :: c :: cs) = groupsIn cs := by
  simp [groupsIn, Part.read_escape h, Part.groupCount, Part.opensGroup]

theorem groupsIn_reference (h : '1' ≤ c ∧ c ≤ '9') :
    groupsIn ('\\' :: c :: cs) = groupsIn (cs.dropWhile Char.isDigit) := by
  simp [groupsIn, Part.read_reference h, Part.groupCount, Part.opensGroup]

theorem groupsIn_bracket {inside rest : List Char}
    (h : Part.bracketEnd? cs = some (inside, rest)) : groupsIn ('[' :: cs) = groupsIn rest := by
  simp [groupsIn, Part.read_bracket h, Part.groupCount, Part.opensGroup]

/-! ### Characters at the front -/

/-- Moving references on keeps the first character. -/
theorem exists_moved_cons (c : Char) (cs : List Char) : ∃ ds, moved offset (c :: cs) = c :: ds := by
  rw [moved, Part.read_cons, List.flatMap_cons]
  fun_cases Part.next c cs with
  | case5 d cs h =>
    rw [Part.shifted]
    split <;> exact ⟨_, rfl⟩
  | _ => exact ⟨_, rfl⟩

variable {p : Char → Bool}

theorem moved_eq_append (hp : ∀ c, p c → Part.isOther c) : ∀ cs : List Char,
    moved offset cs = cs.takeWhile p ++ moved offset (cs.dropWhile p)
  | [] => rfl
  | c :: cs => by
    by_cases hc : p c
    · rw [List.takeWhile_cons_of_pos hc, List.dropWhile_cons_of_pos hc, moved_other _ (hp c hc),
        moved_eq_append hp cs, List.cons_append]
    · rw [List.takeWhile_cons_of_neg hc, List.dropWhile_cons_of_neg hc, List.nil_append]

theorem plain_dropWhile (hp : ∀ c, p c → Part.isOther c) : ∀ cs : List Char,
    Plain directives (cs.dropWhile p) ↔ Plain directives cs
  | [] => Iff.rfl
  | c :: cs => by
    by_cases hc : p c
    · rw [List.dropWhile_cons_of_pos hc, plain_dropWhile hp cs, plain_other _ (hp c hc)]
    · rw [List.dropWhile_cons_of_neg hc]

theorem groupsIn_dropWhile (hp : ∀ c, p c → Part.isOther c) : ∀ cs : List Char,
    groupsIn (cs.dropWhile p) = groupsIn cs
  | [] => rfl
  | c :: cs => by
    by_cases hc : p c
    · rw [List.dropWhile_cons_of_pos hc, groupsIn_dropWhile hp cs, groupsIn_other (hp c hc)]
    · rw [List.dropWhile_cons_of_neg hc]

/-- A run of characters at the front is kept, if what follows the text does not go on with it. -/
theorem span_moved (hp : ∀ c, p c → Part.isOther c) (cs : List Char) {tail : List Char}
    (ht : tail.head?.all (!p ·)) : (moved offset cs ++ tail).span p =
      (cs.takeWhile p, moved offset (cs.dropWhile p) ++ tail) := by
  have hall : ∀ c ∈ cs.takeWhile p, p c := fun c hc => List.mem_takeWhile_imp hc
  have hstop : ∀ ds, ds = cs.dropWhile p → (moved offset ds ++ tail).takeWhile p = [] ∧
      (moved offset ds ++ tail).dropWhile p = moved offset ds ++ tail := by
    intro ds hd
    cases ds with
    | nil => cases tail <;> simp_all [moved_nil]
    | cons c ds =>
      have hc : ¬p c := by
        have := List.head?_dropWhile_not p cs
        rw [← hd] at this
        simpa using this
      obtain ⟨rest, hr⟩ := exists_moved_cons offset c ds
      simp [hr, hc]
  obtain ⟨htake, hdrop⟩ := hstop _ rfl
  rw [List.span_eq_takeWhile_dropWhile, moved_eq_append offset hp cs, List.append_assoc,
    List.takeWhile_append_of_pos hall, List.dropWhile_append_of_pos hall, htake, hdrop,
    List.append_nil]

end Front

end CodeMarkup.Pattern
