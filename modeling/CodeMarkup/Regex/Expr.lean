/-! # Pattern expressions

The tree that a pattern is read into, and what can be said of a tree without matching it: how many
characters it takes at least, whether it always takes the same number, and whether it needs
backtracking.

Sets of characters are not looked into here: a set is kept as it is written, and counts as one
character. -/

namespace CodeMarkup.Regex

/-- A condition on a place between two characters. -/
inductive Anchor where
  | textStart
  | textEnd
  | lineStart
  | lineEnd
  | wordStart
  | wordEnd
  | wordEdge
  | notWordEdge
  deriving DecidableEq, Repr

/-- A pattern. Groups are numbered from `1` in the order of their opening parentheses. -/
inductive Expr where
  | empty
  /-- Any character; a line feed only if `newline`. -/
  | any (newline : Bool)
  | anchor (a : Anchor)
  | char (c : Char) (foldCase : Bool)
  /-- A set of characters as it is written. -/
  | set (written : String) (foldCase : Bool)
  | seq (es : List Expr)
  /-- The alternatives, preferred ones first. -/
  | alt (es : List Expr)
  | group (index : Nat) (e : Expr)
  /-- A condition on the text ahead of the place or behind it. -/
  | around (ahead negated : Bool) (e : Expr)
  | loop (e : Expr) (lo : Nat) (hi : Option Nat) (greedy : Bool)
  /-- The text that a group has matched. -/
  | reference (group : Nat)
  /-- As `e`, but once matched it is not matched in another way. -/
  | atomic (e : Expr)
  /-- The match is said to start here. -/
  | keepOut
  /-- The place where the search started. -/
  | searchStart
  /-- Whether a group has matched. -/
  | groupMatched (group : Nat)
  | conditional (condition yes no : Expr)
  deriving Repr, Inhabited

namespace Expr

/-- Whether nothing is left of an expression. -/
def isEmpty : Expr → Bool
  | empty => true
  | _ => false

/-- What a repetition may stand behind. -/
def isRepeatable : Expr → Bool
  | empty | anchor _ | around .. => false
  | _ => true

/-! ### Sizes, in characters -/

mutual

/-- The least number of characters that an expression takes. -/
def minSize : Expr → Nat
  | empty | anchor _ | around .. | reference _ | keepOut | searchStart | groupMatched _ => 0
  | any _ | char .. | set .. => 1
  | seq es => sumSizes es
  | alt es => leastSize es
  | group _ e | atomic e => minSize e
  | loop e lo _ _ => minSize e * lo
  | conditional c t f => minSize c + min (minSize t) (minSize f)

/-- The sum of the least sizes. -/
def sumSizes : List Expr → Nat
  | [] => 0
  | e :: es => minSize e + sumSizes es

/-- The least of the least sizes. -/
def leastSize : List Expr → Nat
  | [] => 0
  | [e] => minSize e
  | e :: es => min (minSize e) (leastSize es)

end

mutual

/-- Whether an expression takes the same number of characters however it matches. -/
def isConstSize : Expr → Bool
  | empty | anchor _ | around .. | keepOut | searchStart | groupMatched _ => true
  | any _ | char .. | set .. => true
  | reference _ => false
  | seq es => allConstSize es
  | alt es => allOfOneSize es
  | group _ e | atomic e => isConstSize e
  | loop e lo hi _ => isConstSize e && hi == some lo
  | conditional c t f => isConstSize c && isConstSize t && isConstSize f &&
      minSize c + minSize t == minSize f

/-- Whether each expression takes one number of characters. -/
def allConstSize : List Expr → Bool
  | [] => true
  | e :: es => isConstSize e && allConstSize es

/-- Whether all expressions take one and the same number of characters. -/
def allOfOneSize : List Expr → Bool
  | [] => true
  | [e] => isConstSize e
  | e :: e' :: es => isConstSize e && minSize e == minSize e' && allOfOneSize (e' :: es)

end

/-! ### Hard parts -/

mutual

/-- Whether an expression needs backtracking: what matches may depend on what a group has matched,
or it looks around, or at the edges of words. -/
def isHard : Expr → Bool
  | empty | any _ | char .. | set .. => false
  | anchor a => match a with
    | .wordStart | .wordEnd | .wordEdge | .notWordEdge => true
    | _ => false
  | seq es | alt es => anyHard es
  | group _ e => isHard e
  | loop e _ _ _ => isHard e
  | around .. | reference _ | atomic _ | keepOut | searchStart | groupMatched _
  | conditional .. => true

/-- Whether one of the expressions needs backtracking. -/
def anyHard : List Expr → Bool
  | [] => false
  | e :: es => isHard e || anyHard es

end

/-! ### Groups -/

mutual

/-- The numbers of the groups of an expression, in order. -/
def groups : Expr → List Nat
  | empty | any _ | anchor _ | char .. | set .. | reference _ | keepOut | searchStart
  | groupMatched _ => []
  | seq es | alt es => groupsOf es
  | group i e => i :: groups e
  | around _ _ e | atomic e => groups e
  | loop e _ _ _ => groups e
  | conditional c t f => groups c ++ groups t ++ groups f

/-- The numbers of the groups of some expressions, in order. -/
def groupsOf : List Expr → List Nat
  | [] => []
  | e :: es => groups e ++ groupsOf es

end

end Expr

end CodeMarkup.Regex
