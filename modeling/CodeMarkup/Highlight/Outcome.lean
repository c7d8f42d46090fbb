import CodeMarkup.Language.Basic
import CodeMarkup.Markup.Event

/-! # Outcomes

What is known when code has been gone through: what was seen, what it counts for, and which modes
were still open, so that further code can be gone through from there. -/

namespace CodeMarkup

variable {ρ : Type} [Engine ρ]

/-- A mode that has begun. -/
structure Frame (ρ : Type) where
  mode : Nat
  /-- The end of the mode, if it was only known at its begin. -/
  endOverride : Option (Prepared ρ)
  /-- What its guards remember. -/
  memory : Memory

/-- The frame of a mode that has just begun. -/
def Frame.new {ρ : Type} (mode : Nat) : Frame ρ := ⟨mode, none, .empty⟩

/-- The modes that were open in code of a language, innermost first. -/
structure ModeStack (ρ : Type) where
  /-- The registered name of the language. -/
  language : String
  frames : List (Frame ρ)

namespace ModeStack

/-- The number of open modes, the root included. -/
def depth {ρ : Type} (s : ModeStack ρ) : Nat := s.frames.length

/-- The numbers of the open modes, the root first. -/
def modes {ρ : Type} (s : ModeStack ρ) : List Nat := (s.frames.map Frame.mode).reverse

/-- The frames to go on with in code of a language, if they are frames of that language. -/
def framesFor? (s : ModeStack ρ) (name : String) (l : Language ρ) : Option (List (Frame ρ)) :=
  if s.language == name && s.frames.getLast?.map Frame.mode == some 0 &&
      s.frames.all fun f => (l.mode? f.mode).isSome then
    some s.frames
  else none

end ModeStack

/-- What going through code has led to. -/
structure Outcome (ρ : Type) where
  /-- The registered name of the language; none if the code was left as it is. -/
  language : Option String
  relevance : Nat
  events : List Markup.Event
  /-- Whether the code was found not to be in the language. -/
  illegal : Bool
  /-- The modes open at the end. -/
  top : Option (ModeStack ρ)
  /-- What went wrong, if the code was left as it is for that. -/
  problem : Option Problem

namespace Outcome

/-- The events of code that is left as it is. -/
def plainEvents (code : String) : List Markup.Event := [.text code, .finish]

/-- Leaves code as it is. -/
def plain {ρ : Type} (code : String) (language : Option String) : Outcome ρ :=
  ⟨language, 0, plainEvents code, false, none, none⟩

/-- What an outcome builds. -/
def build {ρ : Type} (σ : Type) [Markup.Sink σ] (o : Outcome ρ) (classPrefix : String) : σ :=
  Markup.Sink.ofEvents classPrefix o.events

/-- The markup of an outcome. -/
def value {ρ : Type} (σ : Type) [Markup.Sink σ] (o : Outcome ρ) (classPrefix : String) : String :=
  Markup.Sink.html (o.build σ classPrefix)

end Outcome

/-- The sum of two relevances, as far as the limit. -/
def addRelevance (a b : Nat) : Nat := min (a + b) relevanceLimit

end CodeMarkup
