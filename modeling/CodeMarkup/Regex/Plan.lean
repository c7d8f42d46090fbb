import CodeMarkup.Regex.Threads
import CodeMarkup.Regex.Written

/-! # Plans

A plan is an expression prepared for backtracking. Parts that need no backtracking, and that nothing
has to be tried again behind, are handed to machines that match them in one go; a plan says where.
They are handed over as text, in the language of plain patterns.

`Plan.ofExpr` takes the context into account: where the place behind an expression may ask for
another way to match it (`hard`), only parts of constant size are handed over, since each way to
match them ends at the same place. -/

namespace CodeMarkup.Regex

/-- An expression prepared for backtracking. -/
inductive Plan where
  | done
  | any (newline : Bool)
  | anchor (a : Anchor)
  /-- A text as it is. -/
  | text (cs : List Char)
  /-- A part that is matched in one go, and the numbers of the groups in it. -/
  | machine (m : Machine) (groups : List Nat)
  | seq (ps : List Plan)
  | alt (ps : List Plan)
  | group (index : Nat) (p : Plan)
  /-- At most once. -/
  | optional (greedy : Bool) (p : Plan)
  /-- Any number of times; each time takes a character. -/
  | star (greedy : Bool) (p : Plan)
  /-- Between `lo` and `hi` times. -/
  | counted (lo : Nat) (hi : Option Nat) (greedy : Bool) (p : Plan)
  /-- At least `lo` times, and no time more at the place where it was last possible to leave. -/
  | guarded (lo : Nat) (greedy : Bool) (p : Plan)
  /-- The text goes on like this, or came to the place like this, `back` characters long. -/
  | around (back : Nat) (negated : Bool) (p : Plan)
  | reference (group : Nat)
  | groupMatched (group : Nat)
  | atomic (p : Plan)
  | keepOut
  | searchStart
  | conditional (condition yes no : Plan)
  deriving Inhabited

namespace Plan

mutual

/-- The text that an expression stands for, if it is one in which case matters. -/
def literal? : Expr → Option (List Char)
  | .char c false => some [c]
  | .seq es => literals? es
  | _ => none

/-- The text that expressions stand for together, if each is one in which case matters. -/
def literals? : List Expr → Option (List Char)
  | [] => some []
  | e :: es => do return (← literal? e) ++ (← literals? es)

end

/-- A plan that leaves expressions without hard parts to one machine, unless they are a text. -/
def ofEasy (es : List Expr) : Except Fault Plan :=
  match literals? es with
  | some [] => .ok done
  | some cs => .ok (text cs)
  | none => do return machine (← Machine.ofText (es.flatMap (Expr.write 1))) (Expr.groupsOf es)

/-- Whether a part of a row can be handed over although something behind it is hard. -/
def isRigid (e : Expr) : Bool := e.isConstSize && !e.isHard

/-- Cuts a row in three: a start of rigid parts, a middle, and an end of parts that can be handed
over, which have to be rigid too if the context is hard. -/
def parts (hard : Bool) (es : List Expr) : List Expr × List Expr × List Expr :=
  let first := es.takeWhile isRigid
  let others := es.drop first.length
  let easy := fun e => if hard then isRigid e else !e.isHard
  let last := (others.reverse.takeWhile easy).reverse
  (first, others.take (others.length - last.length), last)

/-- The plan of a look-around, given the plan of what it looks for. A look-behind has to know how
far to go back. -/
def lookAround (ahead negated : Bool) (e : Expr) (p : Plan) : Except Fault Plan :=
  if ahead then .ok (around 0 negated p)
  else if e.isConstSize then .ok (around e.minSize negated p)
  else .error .lookBehindLength

/-- The plan of an expression; `steps` bounds the nesting. -/
def ofExprWithin : Nat → Bool → Expr → Except Fault Plan
  | 0, _, _ => throw .tooDeep
  | steps + 1, hard, e =>
    if !hard && !e.isHard then ofEasy [e]
    else match e with
    | .empty => return done
    | .any newline => return any newline
    | .char .. | .set .. => ofEasy [e]
    | .anchor a => return anchor a
    | .seq es => do
      let (first, middle, last) := parts hard es
      let first ← ofEasy first
      let middle ← middle.mapM (ofExprWithin steps true)
      let last ← ofEasy last
      return seq (first :: middle ++ [last])
    | .alt es => return alt (← es.mapM (ofExprWithin steps hard))
    | .group i e => return group i (← ofExprWithin steps hard e)
    | .loop e lo hi greedy => do
      if lo = 0 ∧ hi = some 1 then
        return optional greedy (← ofExprWithin steps hard e)
      let p ← ofExprWithin steps true e
      match lo, hi with
      | lo, none =>
        if e.minSize = 0 then return guarded lo greedy p
        match lo with
        | 0 => return star greedy p
        | 1 => return seq [p, star greedy p]
        | lo => return counted lo none greedy p
      | lo, some hi => return counted lo (some hi) greedy p
    | .around ahead negated e => do
      match ahead, e with
      | false, .alt es =>
        -- alternatives of different sizes are each looked for by themselves
        if e.isConstSize then
          lookAround ahead negated e (← ofExprWithin steps false e)
        else
          let ps ← es.mapM fun e => do
            lookAround ahead negated e (← ofExprWithin steps false e)
          return if negated then seq ps else alt ps
      | _, _ => lookAround ahead negated e (← ofExprWithin steps false e)
    | .reference i => return reference i
    | .groupMatched i => return groupMatched i
    | .atomic e => return atomic (← ofExprWithin steps false e)
    | .keepOut => return keepOut
    | .searchStart => return searchStart
    | .conditional c t f => do
      let c ← ofExprWithin steps hard c
      let t ← ofExprWithin steps hard t
      let f ← ofExprWithin steps hard f
      return conditional c t f

end Plan

namespace Expr

mutual

/-- How deep an expression is nested. -/
def height : Expr → Nat
  | seq es | alt es => heightOf es + 1
  | group _ e | around _ _ e | loop e _ _ _ | atomic e => height e + 1
  | conditional c t f => max (height c) (max (height t) (height f)) + 1
  | _ => 1

/-- The greatest height of some expressions. -/
def heightOf : List Expr → Nat
  | [] => 0
  | e :: es => max (height e) (heightOf es)

end

end Expr

/-- The plan of an expression. -/
def Plan.ofExpr (e : Expr) : Except Fault Plan := ofExprWithin e.height true e

end CodeMarkup.Regex
