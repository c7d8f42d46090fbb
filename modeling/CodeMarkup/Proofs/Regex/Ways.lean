import CodeMarkup.Engine
import CodeMarkup.Text.Fold

/-! # Ways to match

What a pattern means to an engine that tries the alternatives in their order: all the ways in which
an expression matches at a place, preferred ones first (`Expr.ways`). A search finds the first place
where there is a way, and the first way there (`Parsed.search`); an engine that does so is
`LeftmostFirst`. Which characters a character or a set of a pattern stands for is left open
(`Letters`). -/

namespace CodeMarkup.Regex

open Text (Cursor byteSize)

/-- Which characters of a text the characters and the sets of a pattern match. -/
structure Letters where
  char : Char → Bool → Char → Bool
  set : String → Bool → Char → Bool

/-- Where a way to match ends, and what has been recorded on it. -/
structure Arrival where
  here : Cursor
  marks : Marks

namespace Arrival

/-- Records the place in a slot. -/
def record (a : Arrival) (slot : Nat) : Arrival :=
  { a with marks := (slot, some ⟨a.here, 0⟩) :: a.marks }

/-- Goes on at another place. -/
def moveTo (a : Arrival) (here : Cursor) : Arrival := { a with here }

/-- Passes one character. -/
def pass (a : Arrival) (takes : Char → Bool) : List Arrival :=
  match a.here.next? with
  | some (c, behind) => if takes c then [a.moveTo behind] else []
  | none => []

/-- Goes on if a condition holds. -/
def goOnIf (a : Arrival) (condition : Bool) : List Arrival := if condition then [a] else []

/-- Goes back so many characters and on from there. -/
def goBack (a : Arrival) (n : Nat) (onwards : Arrival → List Arrival) : List Arrival :=
  match a.here.back? n with
  | some here => onwards (a.moveTo here)
  | none => []

/-- Passes the text that a group has matched. -/
def passGroup (a : Arrival) (group : Nat) : List Arrival :=
  match Walk.groupText? a.marks group with
  | some cs => ((Walk.passText? cs a.here).map a.moveTo).toList
  | none => []

/-- Stays at the place, given the ways in which it was looked around; only the first one counts. -/
def stay (a : Arrival) (negated : Bool) (found : List Arrival) : List Arrival :=
  if negated then a.goOnIf found.isEmpty else (found.take 1).map (·.moveTo a.here)

end Arrival

/-! ### Rounds -/

/-- Goes round so many times. -/
def rounds (round : Arrival → List Arrival) : Nat → Arrival → List Arrival
  | 0, a => [a]
  | n + 1, a => (round a).flatMap (rounds round n)

/-- Goes round at most so many times. -/
def roundsUpTo (greedy : Bool) (round : Arrival → List Arrival) : Nat → Arrival → List Arrival
  | 0, a => [a]
  | n + 1, a =>
    let more := (round a).flatMap (roundsUpTo greedy round n)
    if greedy then more ++ [a] else a :: more

/-- The rounds that do not end where they started. -/
def movingRound (round : Arrival → List Arrival) (a : Arrival) : List Arrival :=
  (round a).filter (·.here.offset != a.here.offset)

/-- Goes round at least `lo` and at most `hi` times. Without an upper bound each round that need not
be made takes a character. -/
def roundsBetween (round : Arrival → List Arrival) (lo : Nat) (hi : Option Nat) (greedy : Bool)
    (a : Arrival) : List Arrival :=
  match hi with
  | some hi => (rounds round (min lo hi) a).flatMap (roundsUpTo greedy round (hi - lo))
  | none => (rounds round lo a).flatMap fun a =>
      roundsUpTo greedy (movingRound round) a.here.after.length a

/-! ### Expressions -/

namespace Expr

variable (letters : Letters) (start : Nat)

mutual

/-- The ways in which an expression matches, preferred ones first; `start` is the byte offset where
the search started. A look-behind goes back as many characters as it takes, which is for each of its
alternatives to tell. -/
def ways : Expr → Arrival → List Arrival
  | .empty, a => [a]
  | .any newline, a => a.pass fun c => newline || c != '\n'
  | .anchor k, a => a.goOnIf (k.holds a.here)
  | .char c foldCase, a => a.pass (letters.char c foldCase)
  | .set written foldCase, a => a.pass (letters.set written foldCase)
  | .seq es, a => waysThrough es a
  | .alt es, a => waysOfAny es a
  | .group i e, a => (ways e (a.record (2 * i))).map (·.record (2 * i + 1))
  | .around true negated e, a => a.stay negated (ways e a)
  | .around false negated (.alt es), a => a.stay negated (waysBehind es a)
  | .around false negated e, a => a.stay negated (a.goBack e.minSize (ways e))
  | .loop e lo hi greedy, a => roundsBetween (ways e) lo hi greedy a
  | .reference i, a => a.passGroup i
  | .atomic e, a => (ways e a).take 1
  | .keepOut, a => [a.record 0]
  | .searchStart, a => a.goOnIf (start ≤ a.here.offset)
  | .groupMatched i, a => a.goOnIf (a.marks.place? (2 * i)).isSome
  | .conditional c t f, a =>
    match (ways c a).head? with
    | some b => ways t b
    | none => ways f a

/-- The ways in which one expression after the other matches. -/
def waysThrough : List Expr → Arrival → List Arrival
  | [], a => [a]
  | e :: es, a => (ways e a).flatMap (waysThrough es)

/-- The ways in which any of the expressions matches. -/
def waysOfAny : List Expr → Arrival → List Arrival
  | [], _ => []
  | e :: es, a => ways e a ++ waysOfAny es a

/-- The ways in which any of the expressions matches from as far back as it takes. -/
def waysBehind : List Expr → Arrival → List Arrival
  | [], _ => []
  | e :: es, a => a.goBack e.minSize (ways e) ++ waysBehind es a

end

end Expr

end CodeMarkup.Regex

/-! ### Searches -/

namespace CodeMarkup.Text.Cursor

/-- The place between two parts of a text. -/
def between (before after : List Char) : Cursor :=
  ⟨before.reverse, after, byteSize before, by
    induction before with
    | nil => rfl
    | cons c cs ih => simp [ih, Nat.add_comm]⟩

/-- The places from one on, given both sides of it and the bytes before it. -/
def onwardsFrom : (before after : List Char) → (offset : Nat) → offset = byteSize before →
    List Cursor
  | b, [], k, h => [⟨b, [], k, h⟩]
  | b, x :: a, k, h =>
    ⟨b, x :: a, k, h⟩ :: onwardsFrom (x :: b) a (k + x.utf8Size) (Place.byteSize_behind h x)

/-- The places from one on to the end of the text. -/
def onwards (c : Cursor) : List Cursor := onwardsFrom c.before c.after c.offset c.offset_eq

end CodeMarkup.Text.Cursor

namespace CodeMarkup.Regex

open Text (Cursor byteSize)

/-- What the first way to match at a place records. -/
def Parsed.matchAt? (p : Parsed) (letters : Letters) (start : Nat) (here : Cursor) :
    Option Marks :=
  (p.expr.ways letters start (Arrival.record ⟨here, []⟩ 0)).head?.map fun a => (a.record 1).marks

/-- The captures of the first match at or after a place. -/
def Parsed.search (p : Parsed) (letters : Letters) (here : Cursor) : Option Captures :=
  (here.onwards.findSome? (p.matchAt? letters here.offset)).map (Captures.ofMarks p.groups)

/-- An engine that accepts no more patterns than are read here, and counts their groups by their
opening parentheses. -/
def ReadsPatterns (ρ : Type) [Engine ρ] : Prop :=
  ∀ {source : String} {re : ρ}, Engine.compile source = .ok re →
    ∃ p, Parsed.read source = .ok p ∧ Engine.groupCount re = p.groups

/-- An engine that searches in this way. -/
structure LeftmostFirst (ρ : Type) [Engine ρ] (letters : Letters) : Prop where
  exists_parsed : ∀ {source : String} {re : ρ}, Engine.compile source = .ok re →
    ∃ p, Parsed.read source = .ok p ∧ Engine.groupCount re = p.groups ∧
      ∀ before after : List Char, Engine.search re (before ++ after) (byteSize before) =
        .ok (p.search letters (Cursor.between before after))

theorem LeftmostFirst.readsPatterns {ρ : Type} [Engine ρ] {letters : Letters}
    (h : LeftmostFirst ρ letters) : ReadsPatterns ρ := fun hre => by
  obtain ⟨p, hp, hg, -⟩ := h.exists_parsed hre
  exact ⟨p, hp, hg⟩

/-! ### The engine that follows the ways -/

/-- Characters match themselves, or those that differ in case only, and sets match what a machine
for them does. -/
def Letters.standard : Letters where
  char c foldCase d := if foldCase then Text.simpleFold c == Text.simpleFold d else c == d
  set written foldCase d :=
    match Machine.ofText (Expr.write 1 (.set written foldCase)) with
    | .ok m => (m.run (Cursor.start [d])).isSome
    | .error _ => false

/-- A pattern to be searched for by going through the ways in which it matches. -/
structure Tried where
  pattern : Parsed

namespace Tried

/-- The spans of all successive matches from a place on. An empty match at the end of the last one is
passed over. -/
def spansFrom (p : Parsed) : Nat → Option Nat → Cursor → List Span
  | 0, _, _ => []
  | steps + 1, last?, here =>
    match (p.search .standard here).bind (·.get? 0) with
    | none => []
    | some s =>
      let behind? := (here.advanceTo s.stop).bind fun c =>
        if s.start = s.stop then c.next?.map (·.2) else some c
      let others := (behind?.map (spansFrom p steps (some s.stop))).getD []
      if s.start = s.stop ∧ last? = some s.stop then others else s :: others

end Tried

instance : Engine Tried where
  compile source := (Parsed.read source).map Tried.mk
  groupCount re := re.pattern.groups
  search re text offset :=
    .ok ((Text.splitAt? text offset).bind fun (before, after) =>
      re.pattern.search .standard (Cursor.between before after))
  occurrences re text :=
    .ok (Tried.spansFrom re.pattern (2 * text.length + 2) none (Cursor.start text))

theorem Tried.leftmostFirst : LeftmostFirst Tried .standard where
  exists_parsed {source re} h := by
    change (Parsed.read source).map Tried.mk = .ok re at h
    cases hr : Parsed.read source with
    | error fault =>
      rw [hr] at h
      cases h
    | ok p =>
      rw [hr] at h
      obtain rfl := Except.ok.inj h
      refine ⟨p, rfl, rfl, fun before after => ?_⟩
      change Except.ok ((Text.splitAt? _ _).bind _) = _
      rw [Text.splitAt?_byteSize]
      rfl

theorem Tried.exists_compile {source : String} {n : Nat}
    (h : (Parsed.read source).map Parsed.groups = .ok n) :
    ∃ re : Tried, Engine.compile source = .ok re ∧ Engine.groupCount re = n := by
  cases hr : Parsed.read source with
  | error fault =>
    rw [hr] at h
    cases h
  | ok p =>
    rw [hr] at h
    refine ⟨⟨p⟩, ?_, Except.ok.inj h⟩
    change (Parsed.read source).map Tried.mk = _
    rw [hr]
    rfl

end CodeMarkup.Regex
