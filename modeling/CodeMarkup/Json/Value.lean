/-! # JSON values

A value keeps the members of an object in the order they are written, repeated names included: who
reads an object decides what a repetition means. Of numbers only the unsigned integers are kept,
since nothing else is ever asked for. -/

namespace CodeMarkup

/-- A JSON value. -/
inductive Json where
  | null
  | bool (value : Bool)
  /-- A number; its value, if it is written as an integer without sign. -/
  | number (value : Option Nat)
  | string (value : String)
  | array (items : List Json)
  | object (members : List (String × Json))
  deriving Inhabited, Repr

namespace Json

mutual

/-- How deep arrays and objects are nested. -/
def height : Json → Nat
  | .array items => heightItems items + 1
  | .object members => heightMembers members + 1
  | _ => 1

/-- The height of the highest item. -/
def heightItems : List Json → Nat
  | [] => 0
  | j :: js => max (height j) (heightItems js)

/-- The height of the highest member. -/
def heightMembers : List (String × Json) → Nat
  | [] => 0
  | (_, j) :: ms => max (height j) (heightMembers ms)

end

/-! ### Simple readings -/

/-- The text of a string. -/
def string? : Json → Option String
  | .string s => some s
  | _ => none

/-- A truth value. -/
def bool? : Json → Option Bool
  | .bool b => some b
  | _ => none

/-- The texts of an array of strings. -/
def strings? : Json → Option (List String)
  | .array items => items.mapM string?
  | _ => none

/-- Reads an attribute that may be absent: `null` stands for absence. -/
def optional? {α : Type} (read : Json → Option α) : Json → Option (Option α)
  | .null => some none
  | j => (read j).map some

end Json

end CodeMarkup
