/-! # Events

Going through code gives a row of events: text, nodes that open and close, keywords, and the events
of embedded code. A `Sink` is what can be built from them. It may close a node when none is open;
then nothing happens. -/

namespace CodeMarkup.Markup

/-- What going through code reports. -/
inductive Event where
  /-- Plain text; empty text says nothing. -/
  | text (s : String)
  /-- A node of a category opens. -/
  | opening (kind : String)
  /-- The node opened last closes. -/
  | closing
  /-- All open nodes close. -/
  | closingAll
  /-- A node of a category with just this text; empty text says nothing. -/
  | keyword (s kind : String)
  /-- Embedded code has been gone through, as the language named. -/
  | embedded (name : Option String) (events : List Event)
  /-- The code has ended. -/
  | finish
  deriving Inhabited, Repr

/-- What can be built from events. -/
class Sink (σ : Type) where
  /-- Nothing built yet; the classes of nodes are written behind a prefix. -/
  blank : (classPrefix : String) → σ
  text : σ → String → σ
  opening : σ → String → σ
  closing : σ → σ
  closingAll : σ → σ
  /-- Puts what has been built from embedded code in place. -/
  embed : σ → (inner : σ) → (name : Option String) → σ
  finish : σ → σ
  /-- The markup of what has been built. -/
  html : σ → String

namespace Sink

variable {σ : Type} [Sink σ]

/-- Adds a keyword: a node with just its text. -/
def keyword (s : σ) (word kind : String) : σ :=
  if word.isEmpty then s else closing (text (opening s kind) word)

mutual

/-- Adds an event; what embedded code gives is built with the same prefix. -/
def feed (classPrefix : String) (s : σ) : Event → σ
  | .text t => text s t
  | .opening kind => opening s kind
  | .closing => closing s
  | .closingAll => closingAll s
  | .keyword word kind => keyword s word kind
  | .embedded name events => embed s (feedAll classPrefix (blank classPrefix) events) name
  | .finish => finish s

/-- Adds a row of events. -/
def feedAll (classPrefix : String) (s : σ) : List Event → σ
  | [] => s
  | e :: es => feedAll classPrefix (feed classPrefix s e) es

end

/-- Rows of events may be added one after the other. -/
theorem feedAll_append (classPrefix : String) (s : σ) (es fs : List Event) :
    feedAll classPrefix s (es ++ fs) = feedAll classPrefix (feedAll classPrefix s es) fs := by
  induction es generalizing s with
  | nil => simp [feedAll]
  | cons e es ih => simp [feedAll, ih]

/-- What a row of events builds. -/
def ofEvents (classPrefix : String) (events : List Event) : σ :=
  feedAll classPrefix (blank classPrefix) events

end Sink

end CodeMarkup.Markup
