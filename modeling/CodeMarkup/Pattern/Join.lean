/-! # Joining patterns

When patterns are joined into one, each in a group of its own, the groups of a pattern get new
numbers, and its references by number have to follow. The joining does not read the patterns: it
goes through them part by part (`Part.read`), where a part is a bracket, an opening parenthesis, an
escape, or any other character.

`Part.text_read` says that going through a pattern by parts loses nothing. -/

namespace CodeMarkup.Pattern

/-- A part of a pattern, as far as numbering groups goes. -/
inductive Part where
  /-- A character without meaning here. -/
  | other (c : Char)
  /-- A bracket with everything up to its end. -/
  | bracket (cs : List Char)
  /-- An opening parenthesis. -/
  | opening
  /-- An opening parenthesis with a question mark. -/
  | openingMark
  /-- A reference by number: the digits. -/
  | reference (digits : List Char)
  /-- Any other escape. -/
  | escape (c : Char)
  deriving DecidableEq, Repr

namespace Part

/-- The text of a part. -/
def text : Part → List Char
  | other c => [c]
  | bracket cs => cs
  | opening => ['(']
  | openingMark => ['(', '?']
  | reference digits => '\\' :: digits
  | escape c => ['\\', c]

/-- The rest of a bracket with its end, and what follows it. -/
def bracketEnd? : List Char → Option (List Char × List Char)
  | [] => none
  | ']' :: cs => some ([']'], cs)
  | ['\\'] => none
  | '\\' :: c :: cs => (bracketEnd? cs).map fun (inside, rest) => ('\\' :: c :: inside, rest)
  | c :: cs => (bracketEnd? cs).map fun (inside, rest) => (c :: inside, rest)

/-- The part at the front of a text that is not empty, and what follows it. -/
def next (c : Char) (cs : List Char) : Part × List Char :=
  match c, cs with
  | '[', cs =>
    match bracketEnd? cs with
    | some (inside, rest) => (bracket ('[' :: inside), rest)
    | none => (other '[', cs)
  | '(', '?' :: cs => (openingMark, cs)
  | '(', cs => (opening, cs)
  | '\\', d :: cs =>
    if '1' ≤ d ∧ d ≤ '9' then
      (reference (d :: cs.takeWhile Char.isDigit), cs.dropWhile Char.isDigit)
    else (escape d, cs)
  | c, cs => (other c, cs)

/-- A bracket and what follows it are the text they were found in. -/
theorem append_of_bracketEnd? {cs inside rest : List Char}
    (h : bracketEnd? cs = some (inside, rest)) : inside ++ rest = cs := by
  fun_induction bracketEnd? cs generalizing inside with
  | case1 => simp at h
  | case2 cs =>
    simp only [Option.some.injEq, Prod.mk.injEq] at h
    obtain ⟨rfl, rfl⟩ := h
    rfl
  | case3 => simp at h
  | case4 c cs ih =>
    obtain ⟨⟨i, r⟩, hs, he⟩ := Option.map_eq_some_iff.1 h
    simp only [Prod.mk.injEq] at he
    obtain ⟨rfl, rfl⟩ := he
    simp [ih hs]
  | case5 c cs _ _ _ ih =>
    obtain ⟨⟨i, r⟩, hs, he⟩ := Option.map_eq_some_iff.1 h
    simp only [Prod.mk.injEq] at he
    obtain ⟨rfl, rfl⟩ := he
    simp [ih hs]

/-- A part and what follows it are the text they were found in. -/
theorem text_next (c : Char) (cs : List Char) :
    (next c cs).1.text ++ (next c cs).2 = c :: cs := by
  fun_cases next c cs with
  | case1 cs inside rest h => simp [text, append_of_bracketEnd? h]
  | case5 d cs h => simp [text, List.takeWhile_append_dropWhile]
  | _ => simp [text]

/-- What follows a part is shorter than the text. -/
theorem length_next (c : Char) (cs : List Char) : (next c cs).2.length < (c :: cs).length := by
  have h := congrArg List.length (text_next c cs)
  have hp : 0 < (next c cs).1.text.length := by
    fun_cases next c cs <;> simp [text]
  rw [List.length_append] at h
  omega

/-- The parts of a text, with a bound on their number. -/
def readFor : Nat → List Char → List Part
  | 0, _ => []
  | _ + 1, [] => []
  | steps + 1, c :: cs => (next c cs).1 :: readFor steps (next c cs).2

/-- The parts of a text. -/
def read (cs : List Char) : List Part := readFor cs.length cs

theorem text_readFor (steps : Nat) (cs : List Char) (h : cs.length ≤ steps) :
    (readFor steps cs).flatMap text = cs := by
  induction steps generalizing cs with
  | zero => simp_all [readFor]
  | succ steps ih =>
    cases cs with
    | nil => rfl
    | cons c cs =>
      have hl := length_next c cs
      rw [readFor, List.flatMap_cons, ih _ (by simp only [List.length_cons] at h hl; omega),
        text_next]

/-- **Going through a pattern by parts loses nothing.** -/
theorem text_read (cs : List Char) : (read cs).flatMap text = cs :=
  text_readFor _ _ (Nat.le_refl _)

end Part

/-! ### Numbering -/

/-- Whether an opening parenthesis with a question mark opens a named group. -/
def opensNamed (after : List Char) : Bool :=
  match after with
  | 'P' :: '<' :: _ => true
  | '<' :: '=' :: _ | '<' :: '!' :: _ => false
  | '<' :: _ => true
  | _ => false

/-- Whether a part opens a group, given what follows it. -/
def Part.opensGroup (p : Part) (after : List Part) : Bool :=
  match p with
  | opening => true
  | openingMark => opensNamed (after.flatMap text)
  | _ => false

/-- The number of groups that the parts of a pattern open. -/
def Part.groupCount : List Part → Nat
  | [] => 0
  | p :: ps => (if p.opensGroup ps then 1 else 0) + groupCount ps

/-- The number that decimal digits write. -/
def digitsValue (digits : List Char) : Nat :=
  digits.foldl (fun n c => 10 * n + (c.toNat - '0'.toNat)) 0

/-- Numbers from this one on are too great to be numbers of groups. -/
def numberLimit : Nat := Nat.pow 2 64

/-- The text of a part whose references are moved on; numbers that are too great are kept. -/
def Part.shifted (offset : Nat) : Part → List Char
  | reference digits =>
    if digitsValue digits < numberLimit then '\\' :: (toString (digitsValue digits + offset)).toList
    else '\\' :: digits
  | p => p.text

/-- The text of a pattern whose references are moved on. -/
def shifted (offset : Nat) (source : String) : String :=
  String.ofList ((Part.read source.toList).flatMap (Part.shifted offset))

/-- The patterns, each in a group and with its references moved on, given the number of groups
before them. -/
def wrapped : Nat → List String → List String
  | _, [] => []
  | before, source :: sources =>
    ("(" ++ shifted (before + 1) source ++ ")") ::
      wrapped (before + 1 + Part.groupCount (Part.read source.toList)) sources

/-- The patterns, each in a group of its own, with a text between them. -/
def join (sources : List String) (separator : String) : String :=
  separator.intercalate (wrapped 0 sources)

end CodeMarkup.Pattern
