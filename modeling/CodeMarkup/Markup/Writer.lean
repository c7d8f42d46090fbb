import CodeMarkup.Markup.Event
import CodeMarkup.Markup.Token

/-! # Writing markup

`Writer` turns events into markup as they come and remembers only how many spans are open. -/

namespace CodeMarkup.Markup

/-- Markup that is being written. -/
structure Writer where
  classPrefix : String
  /-- The markup so far. -/
  markup : String
  /-- The number of open spans. -/
  depth : Nat
  deriving Inhabited, Repr

namespace Writer

/-- Nothing written yet. -/
def blank (classPrefix : String) : Writer := ⟨classPrefix, "", 0⟩

/-- Writes text. -/
def text (w : Writer) (s : String) : Writer := { w with markup := w.markup ++ escape s }

/-- Starts a span. -/
def opening (w : Writer) (kind : String) : Writer :=
  { w with markup := w.markup ++ spanStart (w.classPrefix ++ kind), depth := w.depth + 1 }

/-- Ends the span started last. -/
def closing (w : Writer) : Writer :=
  match w.depth with
  | 0 => w
  | depth + 1 => { w with markup := w.markup ++ spanEnd, depth }

/-- The ends of so many spans. -/
def spanEnds : Nat → String
  | 0 => ""
  | n + 1 => spanEnd ++ spanEnds n

/-- Ends all open spans. -/
def closingAll (w : Writer) : Writer :=
  { w with markup := w.markup ++ spanEnds w.depth, depth := 0 }

/-- The markup, with all spans ended. -/
def intoMarkup (w : Writer) : String := w.closingAll.markup

/-- Puts the markup of embedded code in place, in a span if its language has a name. -/
def embed (w inner : Writer) (name : Option String) : Writer :=
  { w with markup := w.markup ++ inSpan name inner.intoMarkup }

instance : Sink Writer where
  blank := blank
  text := text
  opening := opening
  closing := closing
  closingAll := closingAll
  embed := embed
  finish := closingAll
  html := markup

end Writer

end CodeMarkup.Markup
