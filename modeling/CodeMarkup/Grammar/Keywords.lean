import CodeMarkup.Text.Letter

/-! # Keyword declarations

A grammar names the words that mean something in a mode, under the categories they belong to. A word
may carry its weight behind a bar. -/

namespace CodeMarkup

/-- The greatest relevance. -/
def relevanceLimit : Nat := 4294967295

/-- The keywords of a mode. -/
structure Keywords where
  /-- What a word looks like, if the mode says so. -/
  pattern : Option String := none
  /-- Categories and the words in them, later ones taking precedence. -/
  categories : List (String × List String) := []
  deriving DecidableEq, Repr, Inhabited

namespace Keywords

/-- The category of keywords that are declared without one. -/
def defaultCategory : String := "keyword"

/-- Words that are common to so many languages that they are no sign of any. -/
def common : List String :=
  ["of", "and", "for", "in", "not", "or", "if", "then", "parent", "list", "value"]

/-- Adds a category with words. -/
def categoryList (k : Keywords) (name : String) (words : List String) : Keywords :=
  { k with categories := k.categories ++ [(name, words)] }

/-- Adds a category with the words that blanks separate. -/
def category (k : Keywords) (name words : String) : Keywords :=
  k.categoryList name (Text.words words)

/-- Words of the default category, separated by blanks. -/
def ofWords (words : String) : Keywords := category {} defaultCategory words

/-- Whether there are no words. -/
def isEmpty (k : Keywords) : Bool := k.categories.all fun (_, words) => words.isEmpty

end Keywords

end CodeMarkup
