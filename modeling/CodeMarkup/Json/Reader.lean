import CodeMarkup.Json.Number
import CodeMarkup.Json.Value
import CodeMarkup.Text.Hex

/-! # Reading JSON

Reading is strict: no comments, no trailing commas, no control characters inside strings, every
escaped surrogate part of a pair, no number that would be infinite, and fewer than 128 levels of
nesting.

`readValue?` reads one value and gives the text behind it, `Json.read?` wants nothing but blanks
behind it. -/

namespace CodeMarkup.Json

/-- How many levels of arrays and objects are refused. -/
def depthLimit : Nat := 128

/-- Drops the blanks that JSON allows between its parts. -/
def skipBlanks : List Char → List Char
  | c :: cs => if c = ' ' ∨ c = '\n' ∨ c = '\t' ∨ c = '\r' then skipBlanks cs else c :: cs
  | [] => []

/-! ### Strings -/

/-- Four hexadecimal digits. -/
def hexUnit? : List Char → Option (Nat × List Char)
  | a :: b :: c :: d :: rest => do
    let a ← Text.hexValue? a
    let b ← Text.hexValue? b
    let c ← Text.hexValue? c
    let d ← Text.hexValue? d
    some (((a * 16 + b) * 16 + c) * 16 + d, rest)
  | _ => none

/-- The character of an escape whose letter is not `u`. -/
def shortEscape? : Char → Option Char
  | '"' => some '"'
  | '\\' => some '\\'
  | '/' => some '/'
  | 'b' => some '\x08'
  | 'f' => some '\x0c'
  | 'n' => some '\n'
  | 'r' => some '\r'
  | 't' => some '\t'
  | _ => none

/-- The character that `\u` and the digits after it stand for: one unit, or two that are a
surrogate pair. -/
def longEscape? (cs : List Char) : Option (Char × List Char) := do
  let (high, rest) ← hexUnit? cs
  if 0xdc00 ≤ high ∧ high ≤ 0xdfff then none
  else if 0xd800 ≤ high ∧ high ≤ 0xdbff then
    match rest with
    | '\\' :: 'u' :: rest =>
      let (low, rest) ← hexUnit? rest
      if 0xdc00 ≤ low ∧ low ≤ 0xdfff then
        some (Char.ofNat (0x10000 + (high - 0xd800) * 0x400 + (low - 0xdc00)), rest)
      else none
    | _ => none
  else some (Char.ofNat high, rest)

/-- The rest of a string after its opening quote, with `steps` bounding the characters read; the
characters found so far come nearest first. -/
def readString? : Nat → List Char → List Char → Option (String × List Char)
  | 0, _, _ => none
  | _ + 1, _, [] => none
  | _ + 1, found, '"' :: rest => some (String.ofList found.reverse, rest)
  | steps + 1, found, '\\' :: 'u' :: rest =>
    match longEscape? rest with
    | some (c, rest) => readString? steps (c :: found) rest
    | none => none
  | steps + 1, found, '\\' :: c :: rest =>
    match shortEscape? c with
    | some c => readString? steps (c :: found) rest
    | none => none
  | steps + 1, found, c :: rest =>
    if c < ' ' then none else readString? steps (c :: found) rest

/-! ### Numbers -/

/-- A number. -/
def readNumber? (cs : List Char) : Option (Json × List Char) :=
  match numeral? cs with
  | some (n, rest) => if n.isFinite then some (.number n.unsigned?, rest) else none
  | none => none

/-! ### Values -/

/-- Drops a word from the front of a text. -/
def dropWord? : List Char → List Char → Option (List Char)
  | [], rest => some rest
  | w :: ws, c :: cs => if w = c then dropWord? ws cs else none
  | _ :: _, [] => none

/-- What a step of the reader is in the middle of. -/
inductive Place where
  | value
  | items (done : List Json)
  | members (done : List (String × Json))

/-- Reads from the middle of a value, with `levels` bounding the nesting and `steps` the parts
read. Blanks before the place have been dropped; items and members that are done come latest
first, and what comes next is an item or member, not the end. -/
def readAt? : Nat → Nat → Place → List Char → Option (Json × List Char)
  | 0, _, _, _ => none
  | steps + 1, levels, .value, cs =>
    match cs with
    | 'n' :: rest => (dropWord? ['u', 'l', 'l'] rest).map (.null, ·)
    | 't' :: rest => (dropWord? ['r', 'u', 'e'] rest).map (.bool true, ·)
    | 'f' :: rest => (dropWord? ['a', 'l', 's', 'e'] rest).map (.bool false, ·)
    | '"' :: rest => (readString? (rest.length + 1) [] rest).map fun (s, rest) => (.string s, rest)
    | '[' :: rest =>
      if levels ≤ 1 then none
      else match skipBlanks rest with
        | ']' :: rest => some (.array [], rest)
        | rest => readAt? steps (levels - 1) (.items []) rest
    | '\x7b' :: rest =>
      if levels ≤ 1 then none
      else match skipBlanks rest with
        | '\x7d' :: rest => some (.object [], rest)
        | rest => readAt? steps (levels - 1) (.members []) rest
    | cs => readNumber? cs
  | steps + 1, levels, .items done, cs =>
    match readAt? steps levels .value cs with
    | none => none
    | some (item, rest) =>
      match skipBlanks rest with
      | ',' :: rest => readAt? steps levels (.items (item :: done)) (skipBlanks rest)
      | ']' :: rest => some (.array (item :: done).reverse, rest)
      | _ => none
  | steps + 1, levels, .members done, cs =>
    match cs with
    | '"' :: rest =>
      match readString? (rest.length + 1) [] rest with
      | none => none
      | some (name, rest) =>
        match skipBlanks rest with
        | ':' :: rest =>
          match readAt? steps levels .value (skipBlanks rest) with
          | none => none
          | some (value, rest) =>
            match skipBlanks rest with
            | ',' :: rest =>
              readAt? steps levels (.members ((name, value) :: done)) (skipBlanks rest)
            | '\x7d' :: rest => some (.object ((name, value) :: done).reverse, rest)
            | _ => none
        | _ => none
    | _ => none

/-- The value at the front of a text and the text behind it. -/
def readValue? (text : String) : Option (Json × List Char) :=
  let cs := skipBlanks text.toList
  readAt? (2 * cs.length + 2) depthLimit .value cs

/-- The value that a text writes. -/
def read? (text : String) : Option Json :=
  match readValue? text with
  | some (value, rest) => if (skipBlanks rest).isEmpty then some value else none
  | none => none

end CodeMarkup.Json
