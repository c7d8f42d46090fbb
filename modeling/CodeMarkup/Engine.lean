import CodeMarkup.Pattern.Source
import CodeMarkup.Regex.Search

/-! # Engines

What the rest of the library wants of patterns: that a source can be compiled and searched for.
Grammars are compiled and code is gone through with any engine; `Regex` is one. -/

namespace CodeMarkup

/-- Patterns that can be compiled and searched for. -/
class Engine (ρ : Type) where
  /-- Reads the source of a pattern. -/
  compile : (source : String) → Except Regex.Fault ρ
  /-- The number of groups, not counting the whole match. -/
  groupCount : ρ → Nat
  /-- The first match that starts at or after a byte offset. -/
  search : ρ → (text : List Char) → (offset : Nat) →
    Except Regex.Overrun (Option Regex.Captures)
  /-- All successive matches. -/
  occurrences : ρ → (text : List Char) → Except Regex.Overrun (List Regex.Span)

namespace Engine

variable {ρ : Type} [Engine ρ]

/-- Whether a pattern matches at a byte offset. -/
def matchesAt (re : ρ) (text : List Char) (offset : Nat) : Except Regex.Overrun Bool :=
  match search re text offset with
  | .ok found => .ok ((found.bind (·.get? 0)).any (·.start == offset))
  | .error e => .error e

end Engine

instance : Engine Regex where
  compile := Regex.compile
  groupCount := Regex.groups
  search := Regex.search
  occurrences := Regex.occurrences

/-- A compiled pattern with its source. -/
structure Prepared (ρ : Type) where
  source : String
  regex : ρ

/-- Compiles a pattern of a grammar. -/
def Prepared.compile {ρ : Type} [Engine ρ] (foldCase : Bool) (source : String) :
    Except Regex.Fault (Prepared ρ) :=
  match Engine.compile (Pattern.flagged source foldCase) with
  | .ok regex => .ok ⟨Pattern.flagged source foldCase, regex⟩
  | .error fault => .error fault

end CodeMarkup
