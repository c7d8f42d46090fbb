import CodeMarkup.Engine
import CodeMarkup.Grammar.Guard
import CodeMarkup.Pattern.Join
import CodeMarkup.Problem
import CodeMarkup.Text.Offset

/-! # Looking for several rules at once

The rules of a mode are joined into one pattern, in which every rule has a group of its own, so that
one search finds the first place where any of them matches. The rule that matched is the first one
whose group took part.

When a match is refused, the search goes on at the same place with the rules behind the refused one,
and from the next character on with all rules. `Matcher.find` is that search. -/

namespace CodeMarkup

/-- A pattern to look for, and what its match does. -/
structure Rule where
  kind : RuleKind
  source : String
  /-- The number of groups in the source. -/
  groups : Nat
  deriving DecidableEq, Repr, Inhabited

/-! ### Choices -/

/-- The rules of a mode from one of them on, joined into one pattern. -/
structure Choice (ρ : Type) where
  /-- The place of the first rule among all rules of the mode. -/
  first : Nat
  rules : List Rule
  source : String
  /-- The joined pattern; none if there are no rules. -/
  regex? : Option ρ

namespace Choice

variable {ρ : Type} [Engine ρ]

/-- Joins the rules from one of them on; gives the joined source if it is refused. -/
def ofRules (all : List Rule) (foldCase : Bool) (first : Nat) :
    Except (String × Regex.Fault) (Choice ρ) :=
  let rules := all.drop first
  if rules.isEmpty then .ok ⟨first, [], "", none⟩
  else
    let source := Pattern.join (rules.map Rule.source) "|"
    match Engine.compile (Pattern.flagged source foldCase) with
    | .ok regex => .ok ⟨first, rules, source, some regex⟩
    | .error fault => .error (source, fault)

/-- The first rule whose group took part in a match, its group and its place; the group and the
place of the first rule are given. -/
def participant? (c : Regex.Captures) : Nat → Nat → List Rule → Option (Rule × Nat × Nat)
  | _, _, [] => none
  | group, position, r :: rs =>
    if (c.get? group).isSome then some (r, group, position)
    else participant? c (group + r.groups + 1) (position + 1) rs

/-- The text that a group matched. -/
def groupText? (text : List Char) (c : Regex.Captures) (group : Nat) : Option String :=
  (c.get? group).map fun s => String.ofList ((Text.slice? text s.start s.stop).getD [])

/-- The match that captures in a text record. -/
def foundIn? (ch : Choice ρ) (text : List Char) (c : Regex.Captures) : Option Found :=
  match c.get? 0, participant? c 1 ch.first ch.rules with
  | some whole, some (r, group, position) =>
    some ⟨whole.start, (List.range (r.groups + 1)).map fun g => groupText? text c (group + g),
      r.kind, position⟩
  | _, _ => none

/-- The first match at or after a byte offset. -/
def search (ch : Choice ρ) (text : List Char) (offset : Nat) : Except Problem (Option Found) :=
  match ch.regex? with
  | none => .ok none
  | some regex =>
    match Engine.search regex text offset with
    | .ok captures => .ok (captures.bind (ch.foundIn? text))
    | .error e => .error (.search ch.source (.overrun e))

end Choice

/-! ### Matchers -/

/-- A choice that is made up when it is first wanted. -/
abbrev LazyChoice (ρ : Type) := Thunk (Except (String × Regex.Fault) (Choice ρ))

/-- The choices that start with each of the rules. -/
def choicesOf (ρ : Type) [Engine ρ] (rules : List Rule) (foldCase : Bool) : Array (LazyChoice ρ) :=
  ((List.range (max rules.length 1)).map fun first =>
    Thunk.mk fun _ => Choice.ofRules rules foldCase first).toArray

/-- The rules of a mode with their choices. -/
structure Matcher (ρ : Type) [Engine ρ] where
  rules : List Rule
  foldCase : Bool
  choices : Array (LazyChoice ρ)
  choices_eq : choices = choicesOf ρ rules foldCase

namespace Matcher

variable {ρ : Type} [Engine ρ]

/-- The matcher of these rules. -/
def ofChecked (rules : List Rule) (foldCase : Bool) : Matcher ρ :=
  ⟨rules, foldCase, choicesOf ρ rules foldCase, rfl⟩

/-- The matcher that has no rules and finds nothing. -/
def empty : Matcher ρ := ofChecked [] false

/-- A rule whose pattern is accepted. -/
def check (ρ : Type) [Engine ρ] (kind : RuleKind) (source : String) : Except GrammarProblem Rule :=
  match (Engine.compile source : Except Regex.Fault ρ) with
  | .ok re => .ok ⟨kind, source, Engine.groupCount re⟩
  | .error fault => .error (.badPattern source fault)

/-- Checks rules one by one, then together. -/
def ofRules (rules : List (RuleKind × String)) (foldCase : Bool) :
    Except GrammarProblem (Matcher ρ) := do
  let checked ← rules.mapM fun (kind, source) => check ρ kind source
  let m : Matcher ρ := ofChecked checked foldCase
  -- patterns that are fine one by one may not be so together
  match m.choices[0]? with
  | none => return m
  | some ch =>
    match ch.get with
    | .ok _ => return m
    | .error (source, fault) => throw (.badCombination source fault)

/-- The choice that starts with a rule. -/
def choice (m : Matcher ρ) (first : Nat) : Except Problem (Choice ρ) :=
  match m.choices[first]? with
  | none => .error (.search "" (.noRule first))
  | some ch =>
    match ch.get with
    | .ok ch => .ok ch
    | .error (source, fault) => .error (.search source (.refused fault))

/-- The first match at or after an offset, among the rules from one of them on. -/
def searchFrom (m : Matcher ρ) (first : Nat) (text : List Char) (offset : Nat) :
    Except Problem (Option Found) := do
  (← m.choice first).search text offset

/-- The rule to go on with if this match is refused; the first one if there is none behind it. -/
def ruleAfter (m : Matcher ρ) (found : Found) : Nat :=
  if found.position + 1 < m.rules.length then found.position + 1 else 0

/-- The next match at or after an offset and the rule to go on with. Only the first rule may be
looked for further on: a later one has to match right there, or else all rules are looked for from
the next character on. -/
def find (m : Matcher ρ) (first : Nat) (text : List Char) (offset : Nat) :
    Except Problem (Option (Found × Nat)) := do
  let here ← m.searchFrom first text offset
  let found ←
    if first = 0 || here.any (·.index == offset) then pure here
    else match Text.nextPlace? text offset with
      | some next => m.searchFrom 0 text next
      | none => pure none
  return found.map fun f => (f, m.ruleAfter f)

end Matcher

end CodeMarkup
