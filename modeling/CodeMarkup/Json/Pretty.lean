import CodeMarkup.Json.Quote
import CodeMarkup.Json.Value

/-! # Writing JSON over several lines

Every item and member stands on a line of its own, two blanks deeper than what it belongs to; an
array or object without any is closed at once. -/

namespace CodeMarkup.Json

/-- A new line, indented by so many levels. -/
def newLine (depth : Nat) : String := "\n" ++ String.ofList (List.replicate (2 * depth) ' ')

mutual

/-- The text of a value that stands at a depth. -/
def prettyAt (depth : Nat) : Json → String
  | .null => "null"
  | .bool true => "true"
  | .bool false => "false"
  | .number value => toString (value.getD 0)
  | .string s => quote s
  | .array [] => "[]"
  | .array (j :: js) =>
    "[" ++ newLine (depth + 1) ++ prettyAt (depth + 1) j ++ prettyItems (depth + 1) js ++
      newLine depth ++ "]"
  | .object [] => "\x7b\x7d"
  | .object ((name, j) :: ms) =>
    "\x7b" ++ newLine (depth + 1) ++ quote name ++ ": " ++ prettyAt (depth + 1) j ++
      prettyMembers (depth + 1) ms ++ newLine depth ++ "\x7d"

/-- The items after the first one. -/
def prettyItems (depth : Nat) : List Json → String
  | [] => ""
  | j :: js => "," ++ newLine depth ++ prettyAt depth j ++ prettyItems depth js

/-- The members after the first one. -/
def prettyMembers (depth : Nat) : List (String × Json) → String
  | [] => ""
  | (name, j) :: ms =>
    "," ++ newLine depth ++ quote name ++ ": " ++ prettyAt depth j ++ prettyMembers depth ms

end

/-- The text of a value over several lines. -/
def pretty (j : Json) : String := prettyAt 0 j

end CodeMarkup.Json
