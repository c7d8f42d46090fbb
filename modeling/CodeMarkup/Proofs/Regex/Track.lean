import CodeMarkup.Proofs.Pattern.Plain
import CodeMarkup.Regex.Reader

/-! # A pattern inside another one

When a plain pattern becomes a part of a longer one, the references in it are moved on by the number
of groups before it, and a parenthesis or a bar follows. What is left to read of it inside the longer
pattern then tracks what is left when it is read alone (`Placement.Tracks`). The helpers that the
reader uses to look at the text that is left find the same in both. -/

namespace CodeMarkup.Regex

open Pattern (moved Plain groupsIn)
open Pattern.Part (isOther)
open PatternReader

/-- Where a pattern stands in another one. -/
structure Placement where
  /-- The flags that are set. -/
  flags : Flags
  /-- Whether the pattern may say where its match starts, and ask where the search did. -/
  directives : Bool
  /-- The number of groups before it. -/
  offset : Nat
  /-- The number of groups opened when all of it has been read alone. -/
  total : Nat
  /-- What follows it: the end of the text, a closing parenthesis, or a bar. -/
  tail : List Char
  closed : tail = [] ∨ ∃ c cs, tail = c :: cs ∧ (c = ')' ∨ c = '|')
  noBlanks : flags.ignoreBlanks = false

namespace Placement

variable {p : Placement} {n : Nat} {c : Char} {cs cs' : List Char}

/-- What is left of a pattern when it is read alone, `n` groups having been opened, and when it is
read inside another one. -/
structure Tracks (p : Placement) (n : Nat) (cs cs' : List Char) : Prop where
  plain : Plain p.directives cs
  image : cs' = moved p.offset cs ++ p.tail
  counted : n + groupsIn cs = p.total

/-! ### Characters at the front -/

theorem Tracks.nil (h : p.Tracks n [] cs') : cs' = p.tail := by
  rw [h.image, Pattern.moved_nil, List.nil_append]

theorem Tracks.end (h : p.Tracks n [] cs') :
    cs' = [] ∨ ∃ c ds, cs' = c :: ds ∧ (c = ')' ∨ c = '|') := by
  rw [h.nil]
  exact p.closed

/-- The next character is the same. -/
theorem Tracks.cons (h : p.Tracks n (c :: cs) cs') : ∃ ds, cs' = c :: ds := by
  obtain ⟨ds, hd⟩ := Pattern.exists_moved_cons p.offset c cs
  exact ⟨ds ++ p.tail, by rw [h.image, hd, List.cons_append]⟩

/-- What holds of the next character of the pattern alone holds inside the other one, too. -/
theorem Tracks.head?_all (h : p.Tracks n cs cs') {q : Char → Bool} (hq : q ')') (hbar : q '|')
    (hc : cs.head?.all q) : cs'.head?.all q := by
  cases cs with
  | nil =>
    rcases h.end with rfl | ⟨_, ds, rfl, rfl | rfl⟩
    · rfl
    · exact hq
    · exact hbar
  | cons c cs =>
    obtain ⟨ds, rfl⟩ := h.cons
    exact hc

theorem Tracks.head?_ne (h : p.Tracks n cs cs') {x : Char} (hx : ')' ≠ x) (hbar : '|' ≠ x)
    (hc : cs.head? ≠ some x) : cs'.head? ≠ some x := by
  have hall := h.head?_all (q := (· != x)) (by simpa using hx) (by simpa using hbar) (by
    cases cs <;> simp_all)
  rintro he
  rw [he] at hall
  simp at hall

/-- A bar comes next in both or in neither, unless the pattern is at its end and a bar follows. -/
theorem Tracks.bar_or (h : p.Tracks n cs cs') (hc : cs.head? ≠ some '|') :
    (cs = [] ∧ p.tail.head? = some '|') ∨ cs'.head? ≠ some '|' := by
  cases cs with
  | nil =>
    by_cases ht : p.tail.head? = some '|'
    · exact Or.inl ⟨rfl, ht⟩
    · exact Or.inr (h.nil ▸ ht)
  | cons c cs =>
    obtain ⟨ds, rfl⟩ := h.cons
    exact Or.inr hc

/-- A character that is a part of its own is the same, and passed in both. -/
theorem Tracks.other (h : p.Tracks n (c :: cs) cs') (hc : isOther c) :
    ∃ ds, cs' = c :: ds ∧ p.Tracks n cs ds := by
  refine ⟨moved p.offset cs ++ p.tail, ?_, (Pattern.plain_other _ hc).mp h.plain, rfl, ?_⟩
  · rw [h.image, Pattern.moved_other _ hc, List.cons_append]
  · rw [← h.counted, Pattern.groupsIn_other hc]

/-- Such characters are the same, and passed in both. -/
theorem Tracks.others : ∀ {pre : List Char}, (∀ c ∈ pre, isOther c) → ∀ {cs cs' : List Char},
    p.Tracks n (pre ++ cs) cs' → ∃ ds, cs' = pre ++ ds ∧ p.Tracks n cs ds
  | [], _, cs, cs', h => ⟨cs', rfl, h⟩
  | c :: pre, hp, cs, cs', h => by
    obtain ⟨ds, rfl, hd⟩ := h.other (hp c List.mem_cons_self)
    obtain ⟨es, rfl, he⟩ := hd.others fun c hc => hp c (List.mem_cons_of_mem _ hc)
    exact ⟨es, rfl, he⟩

/-- A run of such characters is the same, and passed in both. -/
theorem Tracks.span (h : p.Tracks n cs cs') {q : Char → Bool} (hq : ∀ c, q c → isOther c)
    (he : q ')' = false) (hbar : q '|' = false) :
    (cs'.span q).1 = (cs.span q).1 ∧ p.Tracks n (cs.span q).2 (cs'.span q).2 := by
  have ht : p.tail.head?.all (!q ·) := by
    rcases p.closed with ht | ⟨_, ts, ht, rfl | rfl⟩ <;> simp [ht, he, hbar]
  rw [h.image, Pattern.span_moved _ hq cs ht, List.span_eq_takeWhile_dropWhile]
  exact ⟨rfl, (Pattern.plain_dropWhile _ hq _).mpr h.plain, rfl, by
    rw [Pattern.groupsIn_dropWhile hq, h.counted]⟩

/-! ### Blanks -/

/-- Without a comment at the front nothing is dropped. -/
theorem dropBlanks_eq (h : ∀ ds, cs ≠ '(' :: '?' :: '#' :: ds) :
    dropBlanks false .blanks cs = some cs := by
  unfold dropBlanks
  split <;> simp_all

theorem Plain.dropBlanks {directives : Bool} (h : Plain directives cs) :
    dropBlanks false .blanks cs = some cs := by
  refine dropBlanks_eq ?_
  rintro ds rfl
  exact absurd ((Pattern.plain_openingMark directives).mp h).1 (by simp [Pattern.marksGroup])

theorem Tracks.dropBlanks (h : p.Tracks n cs cs') : dropBlanks false .blanks cs' = some cs' := by
  refine dropBlanks_eq ?_
  rintro ds rfl
  cases cs with
  | nil => rcases h.end with h | ⟨_, _, h, rfl | rfl⟩ <;> cases h
  | cons c cs =>
    obtain ⟨es, he⟩ := h.cons
    obtain ⟨rfl, rfl⟩ := List.cons.inj he
    have hi := h.image
    by_cases hq : cs.head? = some '?'
    · obtain ⟨es, rfl⟩ := List.head?_eq_some_iff.mp hq
      obtain ⟨hm, hp⟩ := (Pattern.plain_openingMark _).mp h.plain
      rw [Pattern.moved_openingMark] at hi
      cases es with
      | nil => cases hm
      | cons e es =>
        obtain ⟨fs, hf⟩ := Pattern.exists_moved_cons p.offset e es
        simp only [hf, List.cons_append, List.cons.injEq, true_and] at hi
        obtain ⟨rfl, -⟩ := hi
        simp [Pattern.marksGroup] at hm
    · rw [Pattern.moved_opening _ hq] at hi
      cases cs with
      | nil =>
        rcases p.closed with ht | ⟨_, _, ht, rfl | rfl⟩ <;> simp [Pattern.moved_nil, ht] at hi
      | cons e es =>
        obtain ⟨fs, hf⟩ := Pattern.exists_moved_cons p.offset e es
        simp only [hf, List.cons_append, List.cons.injEq, true_and] at hi
        obtain ⟨rfl, -⟩ := hi
        simp at hq

/-! ### Numbers -/

theorem isOther_of_isDigit (h : c.isDigit) : isOther c := by
  simp only [isOther, Bool.and_eq_true, bne_iff_ne]
  refine ⟨⟨?_, ?_⟩, ?_⟩ <;> rintro rfl <;> revert h <;> decide

/-- Nothing is found in both, or the same with texts behind it that track each other. -/
def SameRest {α : Type} (p : Placement) (n : Nat) :
    Option (α × List Char) → Option (α × List Char) → Prop
  | some (a, cs), some (a', cs') => a' = a ∧ p.Tracks n cs cs'
  | none, none => True
  | _, _ => False

omit n in
theorem SameRest.cases {α : Type} {n : Nat} {x x' : Option (α × List Char)}
    (h : p.SameRest n x x') : (x = none ∧ x' = none) ∨
      ∃ a cs cs', x = some (a, cs) ∧ x' = some (a, cs') ∧ p.Tracks n cs cs' := by
  cases x <;> cases x'
  · exact Or.inl ⟨rfl, rfl⟩
  · exact h.elim
  · exact h.elim
  · next x x' =>
    obtain ⟨a, cs⟩ := x
    obtain ⟨a', cs'⟩ := x'
    obtain ⟨rfl, ht⟩ := h
    exact Or.inr ⟨_, cs, cs', rfl, rfl, ht⟩

theorem Tracks.decimal? (h : p.Tracks n cs cs') :
    p.SameRest n (decimal? cs) (decimal? cs') := by
  obtain ⟨hd, hr⟩ := h.span (q := Char.isDigit) (fun c => isOther_of_isDigit) rfl rfl
  unfold PatternReader.decimal?
  rw [← Prod.eta (cs.span Char.isDigit), ← Prod.eta (cs'.span Char.isDigit), hd]
  cases (cs.span Char.isDigit).1 with
  | nil => trivial
  | cons d ds =>
    dsimp only
    split
    · exact ⟨rfl, hr⟩
    · trivial

/-! ### Repetitions -/

theorem Tracks.lowerBound? (h : p.Tracks n cs cs') :
    p.SameRest n (lowerBound? cs) (lowerBound? cs') := by
  by_cases hc : cs.head? = some ','
  · obtain ⟨ds, rfl⟩ := List.head?_eq_some_iff.mp hc
    obtain ⟨es, rfl⟩ := h.cons
    exact ⟨rfl, h⟩
  · have hc' := h.head?_ne (by decide) (by decide) hc
    have hl : ∀ ds : List Char, ds.head? ≠ some ',' →
        PatternReader.lowerBound? ds = PatternReader.decimal? ds := by
      intro ds hd
      unfold PatternReader.lowerBound?
      split <;> simp_all
    rw [hl cs hc, hl cs' hc']
    exact h.decimal?

theorem Tracks.upperBound? (h : p.Tracks n cs cs') (lo : Nat) :
    p.SameRest n (upperBound? false lo cs) (upperBound? false lo cs') := by
  cases cs with
  | nil =>
    rcases h.end with rfl | ⟨_, _, rfl, rfl | rfl⟩ <;> trivial
  | cons c cs =>
    by_cases hb : c = '\x7d'
    · subst hb
      obtain ⟨ds, rfl⟩ := h.cons
      exact ⟨rfl, h⟩
    · by_cases hc : c = ','
      · subst hc
        obtain ⟨ds, rfl, hd⟩ := h.other rfl
        have hn := hd.decimal?
        simp only [PatternReader.upperBound?, Plain.dropBlanks hd.plain, hd.dropBlanks,
          Option.map_some]
        cases hx : PatternReader.decimal? cs <;> cases hy : PatternReader.decimal? ds
        · exact ⟨rfl, hd⟩
        · rw [hx, hy] at hn
          exact hn.elim
        · rw [hx, hy] at hn
          exact hn.elim
        · rw [hx, hy] at hn
          exact ⟨by rw [hn.1], hn.2⟩
      · obtain ⟨ds, rfl⟩ := h.cons
        have hn : ∀ es : List Char, PatternReader.upperBound? false lo (c :: es) = none := by
          intro es
          unfold PatternReader.upperBound?
          split <;> simp_all
        rw [hn, hn]
        trivial

/-- Bounds are found in neither, or the same with texts behind them that track each other. -/
def SameBounds (p : Placement) (n : Nat) :
    Option (Nat × Option Nat × List Char) → Option (Nat × Option Nat × List Char) → Prop
  | some (lo, hi, cs), some (lo', hi', cs') => lo' = lo ∧ hi' = hi ∧ p.Tracks n cs cs'
  | none, none => True
  | _, _ => False

theorem Tracks.bounds? (h : p.Tracks n cs cs') :
    p.SameBounds n (bounds? false cs) (bounds? false cs') := by
  unfold PatternReader.bounds?
  simp only [Plain.dropBlanks h.plain, h.dropBlanks, Option.bind_eq_bind, Option.bind_some]
  rcases h.lowerBound?.cases with ⟨hx, hy⟩ | ⟨lo, ds, ds', hx, hy, hd⟩
  · rw [hx, hy]
    trivial
  simp only [hx, hy, Plain.dropBlanks hd.plain, hd.dropBlanks, Option.bind_some]
  rcases (hd.upperBound? lo).cases with ⟨hx, hy⟩ | ⟨hi, es, es', hx, hy, he⟩
  · rw [hx, hy]
    trivial
  simp only [hx, hy, Plain.dropBlanks he.plain, he.dropBlanks, Option.bind_some]
  cases es with
  | nil =>
    rcases he.end with rfl | ⟨_, _, rfl, rfl | rfl⟩ <;> trivial
  | cons c es =>
    by_cases hc : c = '\x7d'
    · subst hc
      obtain ⟨fs, rfl, hf⟩ := he.other rfl
      exact ⟨rfl, rfl, hf⟩
    · obtain ⟨fs, rfl⟩ := he.cons
      have hn : ∀ gs : List Char, behindBrace? (c :: gs) = none := by
        intro gs
        unfold behindBrace?
        split <;> simp_all
      rw [hn, hn]
      trivial

theorem Tracks.repetition? (h : p.Tracks n cs cs') :
    p.SameBounds n (repetition? false cs) (repetition? false cs') := by
  cases cs with
  | nil =>
    rcases h.end with rfl | ⟨_, _, rfl, rfl | rfl⟩ <;> trivial
  | cons c cs =>
    by_cases hq : c ∈ ['?', '*', '+', '\x7b']
    · simp only [List.mem_cons, List.not_mem_nil, or_false] at hq
      obtain ⟨ds, rfl, hd⟩ := h.other (by rcases hq with rfl | rfl | rfl | rfl <;> rfl)
      rcases hq with rfl | rfl | rfl | rfl
      · exact ⟨rfl, rfl, hd⟩
      · exact ⟨rfl, rfl, hd⟩
      · exact ⟨rfl, rfl, hd⟩
      · exact hd.bounds?
    · obtain ⟨ds, rfl⟩ := h.cons
      have hn : ∀ es : List Char, PatternReader.repetition? false (c :: es) = none := by
        intro es
        unfold PatternReader.repetition?
        split <;> simp_all
      rw [hn, hn]
      trivial

/-! ### Names -/

theorem isOther_of_isNameChar (h : isNameChar c) : isOther c := by
  simp only [isOther, Bool.and_eq_true, bne_iff_ne]
  refine ⟨⟨?_, ?_⟩, ?_⟩ <;> rintro rfl <;> exact absurd h (by decide)

theorem name?_eq (cs : List Char) : name? [] ['>'] false cs =
    if (cs.span isNameChar).1.isEmpty then none
    else match (cs.span isNameChar).2 with
      | '>' :: rest => some (String.ofList (cs.span isNameChar).1, rest)
      | _ => none := by
  have h : name? [] ['>'] false cs =
      if ([] ++ (cs.span isNameChar).1).isEmpty then none
      else if ['>'].isPrefixOf (cs.span isNameChar).2 then
        some (String.ofList ([] ++ (cs.span isNameChar).1), (cs.span isNameChar).2.drop 1)
      else none := by
    unfold name?
    rw [if_pos (by rfl)]
    dsimp only [List.length_nil, List.drop_zero]
    split
    · split
      · contradiction
      · rfl
    · rfl
  rw [h, List.nil_append]
  split
  · rfl
  · cases (cs.span isNameChar).2 with
    | nil => rfl
    | cons d ds =>
      by_cases hd : d = '>'
      · subst hd
        rfl
      · have hp : ['>'].isPrefixOf (d :: ds) = false := by
          simp [List.isPrefixOf, Ne.symm hd]
        rw [hp]
        split <;> simp_all

/-- The name of a group from behind its opening bracket. -/
theorem Tracks.name? (h : p.Tracks n cs cs') :
    p.SameRest n (name? [] ['>'] false cs) (name? [] ['>'] false cs') := by
  obtain ⟨hw, hr⟩ := h.span (q := isNameChar) (fun c => isOther_of_isNameChar) rfl rfl
  rw [name?_eq, name?_eq, hw]
  split
  · trivial
  · generalize (cs.span isNameChar).2 = ds at hr
    generalize (cs'.span isNameChar).2 = ds' at hr
    cases ds with
    | nil =>
      rcases hr.end with rfl | ⟨_, _, rfl, rfl | rfl⟩ <;> trivial
    | cons d ds =>
      by_cases hd : d = '>'
      · subst hd
        obtain ⟨es, rfl, he⟩ := hr.other rfl
        exact ⟨rfl, he⟩
      · obtain ⟨es, rfl⟩ := hr.cons
        split <;> split <;> simp_all
        trivial

end Placement

end CodeMarkup.Regex
