import CodeMarkup.Grammar.Mode
import CodeMarkup.Language.KeywordTable
import CodeMarkup.Language.Matcher

/-! # Languages

A language is a grammar that is ready for code to be gone through. Its modes have numbers, the root
being number `0`, and know each other by them. -/

namespace CodeMarkup

/-- A mode that is ready for code. -/
structure CompiledMode (ρ : Type) [Engine ρ] where
  className : Option String
  beginPattern : String
  /-- The end of the mode itself. -/
  endPattern : Option String
  endRegex : Option (Prepared ρ)
  /-- The end of the mode itself or, where the mode ends with its parent, of the modes around it. -/
  terminator : String
  illegal : Option String
  keywords : Option KeywordTable
  /-- What a word looks like. -/
  keywordPattern : Prepared ρ
  relevance : Nat
  endsWithParent : Bool
  endsParent : Bool
  endSameAsBegin : Bool
  skip : Bool
  excludeBegin : Bool
  excludeEnd : Bool
  returnBegin : Bool
  returnEnd : Bool
  subLanguage : Option Delegate
  /-- Whether a begin right behind a point is refused. -/
  skipAfterDot : Bool
  onBegin : Option Guard
  onEnd : Option Guard
  /-- The modes that may begin inside. -/
  children : List Nat
  /-- The mode that follows at once. -/
  starts : Option Nat
  matcher : Matcher ρ

/-- A language that is ready for code. -/
structure Language (ρ : Type) [Engine ρ] where
  /-- The name to display. -/
  name : String
  aliases : List String
  caseInsensitive : Bool
  disableAutodetect : Bool
  supersetOf : Option String
  classNameAliases : Dictionary String
  modes : Array (CompiledMode ρ)
  size_pos : 0 < modes.size

namespace Language

variable {ρ : Type} [Engine ρ]

/-- The mode with a number, if there is one. -/
def mode? (l : Language ρ) (id : Nat) : Option (CompiledMode ρ) := l.modes[id]?

/-- The mode of the whole code. -/
def root (l : Language ρ) : CompiledMode ρ := l.modes[(⟨0, l.size_pos⟩ : Fin l.modes.size)]

/-- The mode with a number, or the root. -/
def mode (l : Language ρ) (id : Nat) : CompiledMode ρ := (l.mode? id).getD l.root

theorem mode_zero (l : Language ρ) : l.mode 0 = l.root := by
  rw [mode, mode?, Array.getElem?_eq_getElem l.size_pos]
  rfl

/-- The number of modes. -/
def size (l : Language ρ) : Nat := l.modes.size

/-- The category to display for a category. -/
def displayClass (l : Language ρ) (category : String) : String :=
  (l.classNameAliases.find? category).getD category

/-- The modes that can be reached from a mode, each going on to those that it contains and the one
that follows it. -/
def reachableWithin (l : Language ρ) : Nat → List Nat → List Nat → List Nat
  | 0, _, seen => seen
  | _ + 1, [], seen => seen
  | steps + 1, id :: ids, seen =>
    if seen.contains id then l.reachableWithin steps ids seen
    else
      let m := l.mode id
      l.reachableWithin steps (m.children ++ m.starts.toList ++ ids) (id :: seen)

/-- The numbers of the modes that can be reached from the root, in order. -/
def reachable (l : Language ρ) : List Nat :=
  let links := l.modes.foldl (fun n m => n + m.children.length + 1) 0
  let seen := l.reachableWithin (links + l.size + 1) [0] []
  (List.range l.size).filter seen.contains

end Language

end CodeMarkup
