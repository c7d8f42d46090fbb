import CodeMarkup.Grammar.Guard
import CodeMarkup.Grammar.Keywords

/-! # Grammars

A grammar says how the code of a language is divided. Its modes are stretches of code that begin and
end with some pattern and may contain other modes. Modes that refer to each other stand on a `Shelf`
and are named by their keys there: two references with one key mean one and the same mode. A slot is
a place for a key that is not known yet, so that modes can contain each other.

`Mode.merge` lays one mode over another, and `Build` puts modes on the shelf one after the other. -/

namespace CodeMarkup

/-- The place of a mode on the shelf. -/
abbrev Key := Nat

/-- What a mode may contain. -/
inductive Child where
  /-- The mode itself. -/
  | self
  /-- A mode on the shelf. -/
  | mode (key : Key)
  /-- The mode that a slot will have been filled with. -/
  | late (slot : Nat)
  deriving DecidableEq, Repr, Inhabited

/-- Patterns that cannot occur in a mode. -/
inductive Illegal where
  | one (pattern : String)
  | any (patterns : List String)
  deriving DecidableEq, Repr, Inhabited

/-- The languages that the content of a mode is written in. -/
inductive Delegate where
  /-- One language. -/
  | named (name : String)
  /-- The language among these that fits best; among all if there are none. -/
  | detect (names : List String)
  deriving DecidableEq, Repr, Inhabited

/-- A stretch of code: how to recognise it and what it is called. Everything may be left open, so
that a mode can be laid over another. -/
structure Mode where
  /-- The category of the stretch. -/
  className : Option String := none
  beginPattern : Option String := none
  endPattern : Option String := none
  /-- A begin without an end. -/
  matchPattern : Option String := none
  /-- The words that the mode begins with, separated by blanks. -/
  beginKeywords : Option String := none
  keywords : Option Keywords := none
  /-- What a word looks like, said beside the keywords. -/
  lexemes : Option String := none
  illegal : Option Illegal := none
  contains : Option (List Child) := none
  /-- Modes to be laid over this one, each giving a mode of its own. -/
  variants : Option (List Key) := none
  /-- The mode that follows at once when this one ends. -/
  starts : Option Key := none
  /-- What the mode counts for when languages are compared. -/
  relevance : Option Nat := none
  /-- Whether the end of the mode around it is an end of this one too. -/
  endsWithParent : Option Bool := none
  /-- Whether its end is an end of the mode around it too. -/
  endsParent : Option Bool := none
  /-- Whether it ends only at the text it began with. -/
  endSameAsBegin : Option Bool := none
  /-- Whether its text counts as content of the mode around it. -/
  skip : Option Bool := none
  /-- Whether the text of the begin belongs to the mode around it. -/
  excludeBegin : Option Bool := none
  /-- Whether the text of the end belongs to the mode around it. -/
  excludeEnd : Option Bool := none
  /-- Whether the text of the begin is gone through again inside. -/
  returnBegin : Option Bool := none
  /-- Whether the text of the end is gone through again outside. -/
  returnEnd : Option Bool := none
  subLanguage : Option Delegate := none
  onBegin : Option Guard := none
  onEnd : Option Guard := none
  deriving Inhabited

namespace Mode

/-- Adds a child at the end. -/
def contain (m : Mode) (child : Child) : Mode :=
  { m with contains := some (m.contains.getD [] ++ [child]) }

/-- A mode under another one, which takes precedence in everything that it says. The result has no
variants. -/
def merge (base overlay : Mode) : Mode where
  className := overlay.className <|> base.className
  beginPattern := overlay.beginPattern <|> base.beginPattern
  endPattern := overlay.endPattern <|> base.endPattern
  matchPattern := overlay.matchPattern <|> base.matchPattern
  beginKeywords := overlay.beginKeywords <|> base.beginKeywords
  keywords := overlay.keywords <|> base.keywords
  lexemes := overlay.lexemes <|> base.lexemes
  illegal := overlay.illegal <|> base.illegal
  contains := overlay.contains <|> base.contains
  variants := none
  starts := overlay.starts <|> base.starts
  relevance := overlay.relevance <|> base.relevance
  endsWithParent := overlay.endsWithParent <|> base.endsWithParent
  endsParent := overlay.endsParent <|> base.endsParent
  endSameAsBegin := overlay.endSameAsBegin <|> base.endSameAsBegin
  skip := overlay.skip <|> base.skip
  excludeBegin := overlay.excludeBegin <|> base.excludeBegin
  excludeEnd := overlay.excludeEnd <|> base.excludeEnd
  returnBegin := overlay.returnBegin <|> base.returnBegin
  returnEnd := overlay.returnEnd <|> base.returnEnd
  subLanguage := overlay.subLanguage <|> base.subLanguage
  onBegin := overlay.onBegin <|> base.onBegin
  onEnd := overlay.onEnd <|> base.onEnd

end Mode

/-! ### The shelf -/

/-- The modes that can be referred to. -/
structure Shelf where
  modes : Array Mode := #[]
  /-- The keys in the slots; nothing in a slot that has not been filled. -/
  slots : Array (Option Key) := #[]
  deriving Inhabited

namespace Shelf

/-- The mode with a key; a mode that says nothing, if there is none. -/
def mode (s : Shelf) (key : Key) : Mode := (s.modes[key]?).getD {}

/-- The ways in which a mode on the shelf can be met: as it is, and with each of its variants laid
over it. -/
def places (s : Shelf) : List (Key × Option Nat) :=
  (List.range s.modes.size).flatMap fun key =>
    (key, none) :: (List.range ((s.mode key).variants.getD []).length).map fun n => (key, some n)

/-- The key in a slot. -/
def inSlot? (s : Shelf) (slot : Nat) : Option Key := s.slots[slot]?.join

/-- Whether the end of a mode, or of a mode that follows it, is also given by the mode around it.
The first number bounds the modes looked at. -/
def dependsOnParentWithin (s : Shelf) : Nat → Mode → Bool
  | 0, _ => false
  | steps + 1, m =>
    m.endsWithParent == some true ||
      m.starts.any fun key => s.dependsOnParentWithin steps (s.mode key)

/-- Whether the end of a mode, or of a mode that follows it, is also given by the mode around it. -/
def dependsOnParent (s : Shelf) (m : Mode) : Bool := s.dependsOnParentWithin (s.modes.size + 1) m

end Shelf

/-- Puts modes on the shelf. -/
abbrev Build := StateM Shelf

namespace Build

/-- Puts a mode on the shelf. -/
def share (m : Mode) : Build Key := fun s => (s.modes.size, { s with modes := s.modes.push m })

/-- Puts a mode on the shelf, to be contained in another. -/
def child (m : Mode) : Build Child := return .mode (← share m)

/-- Makes a slot. -/
def reserve : Build Nat := fun s => (s.slots.size, { s with slots := s.slots.push none })

/-- Fills a slot, unless it has been filled. -/
def fill (slot : Nat) (key : Key) : Build Unit := fun s =>
  match s.inSlot? slot with
  | some _ => ((), s)
  | none => ((), { s with slots := s.slots.setIfInBounds slot (some key) })

end Build

/-! ### Grammars -/

/-- The grammar of a language. -/
structure Grammar where
  /-- The name to display, if it is not the name the grammar is registered under. -/
  name : Option String := none
  aliases : List String := []
  caseInsensitive : Bool := false
  /-- Whether the language is left aside when languages are guessed. -/
  disableAutodetect : Bool := false
  /-- The language that this one extends. -/
  supersetOf : Option String := none
  /-- The categories to display in place of others. -/
  classNameAliases : Dictionary String := .empty
  /-- The mode of the whole code. -/
  root : Mode := {}
  shelf : Shelf := {}
  deriving Inhabited

namespace Grammar

/-- The grammar whose root is built on an empty shelf. -/
def build (language : Grammar) (root : Build Mode) : Grammar :=
  let (root, shelf) := root.run {}
  { language with root, shelf }

/-- The language in which nothing stands out. -/
def plaintext : Grammar := { name := "Plain text", disableAutodetect := true }

end Grammar

end CodeMarkup
