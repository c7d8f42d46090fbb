import CodeMarkup.Json.Reader

/-! # Skipping JSON

A member that nobody asks for is skipped rather than read. That is less strict: a number may be as
large and a value as deeply nested as it likes, and an escaped surrogate need not be part of a pair.

`Json.readSome? wanted` reads a text like `Json.read?`, but skips members of the outermost object
whose names are not wanted. -/

namespace CodeMarkup.Json

/-! ### Skipping -/

/-- The text behind a string, given the text behind its opening quote; `steps` bounds the characters
passed. -/
def skipString? : Nat → List Char → Option (List Char)
  | 0, _ => none
  | _ + 1, [] => none
  | _ + 1, '"' :: rest => some rest
  | steps + 1, '\\' :: 'u' :: rest => (hexUnit? rest).bind fun (_, rest) => skipString? steps rest
  | steps + 1, '\\' :: c :: rest => (shortEscape? c).bind fun _ => skipString? steps rest
  | steps + 1, c :: rest => if c < ' ' then none else skipString? steps rest

/-- The text behind the name of a member and its colon. -/
def skipName? : List Char → Option (List Char)
  | '"' :: rest =>
    match (skipString? (rest.length + 1) rest).map skipBlanks with
    | some (':' :: rest) => some rest
    | _ => none
  | _ => none

/-- The text behind a value that is no array and no object. -/
def skipScalar? : List Char → Option (List Char)
  | 'n' :: rest => dropWord? ['u', 'l', 'l'] rest
  | 't' :: rest => dropWord? ['r', 'u', 'e'] rest
  | 'f' :: rest => dropWord? ['a', 'l', 's', 'e'] rest
  | '"' :: rest => skipString? (rest.length + 1) rest
  | cs => (numeral? cs).map (·.2)

/-- What a value that is being skipped is in. -/
inductive Frame where
  | array
  | object

/-- Goes on behind a value in some frames, innermost first: out of those that end there, and up to
the next value of the first one that does not. The answer is the frames left and the text still to
come. -/
def nextValue? : List Frame → List Char → Option (List Frame × List Char)
  | [], cs => some ([], cs)
  | f :: frames, cs =>
    match f, skipBlanks cs with
    | .array, ',' :: rest => some (f :: frames, rest)
    | .object, ',' :: rest => (skipName? (skipBlanks rest)).map (f :: frames, ·)
    | .array, ']' :: rest => nextValue? frames rest
    | .object, '\x7d' :: rest => nextValue? frames rest
    | _, _ => none

/-- Skips a value in some frames and what follows it up to the end of the outermost frame; `steps`
bounds the values passed. -/
def skipWithin? : Nat → List Frame → List Char → Option (List Char)
  | 0, _, _ => none
  | steps + 1, frames, cs =>
    let goOn := fun
      | none => none
      | some ([], rest) => some rest
      | some (frames, rest) => skipWithin? steps frames rest
    match skipBlanks cs with
    | '[' :: rest =>
      match skipBlanks rest with
      | ']' :: rest => goOn (nextValue? frames rest)
      | rest => skipWithin? steps (.array :: frames) rest
    | '\x7b' :: rest =>
      match skipBlanks rest with
      | '\x7d' :: rest => goOn (nextValue? frames rest)
      | rest =>
        match skipName? rest with
        | some rest => skipWithin? steps (.object :: frames) rest
        | none => none
    | cs =>
      match skipScalar? cs with
      | some rest => goOn (nextValue? frames rest)
      | none => none

/-- The text behind the value at the front of a text. -/
def skipValue? (cs : List Char) : Option (List Char) := skipWithin? (cs.length + 1) [] cs

/-! ### Reading what is wanted -/

/-- Reads the members of an object from the first quote on; those found so far come latest first,
and `steps` bounds how many there are. -/
def readMembers? (wanted : String → Bool) :
    Nat → List (String × Json) → List Char → Option (Json × List Char)
  | 0, _, _ => none
  | steps + 1, done, '"' :: rest => do
    let (name, rest) ← readString? (rest.length + 1) [] rest
    match skipBlanks rest with
    | ':' :: rest =>
      let (done, rest) ←
        if wanted name then
          (readAt? (2 * rest.length + 2) (depthLimit - 1) .value (skipBlanks rest)).map
            fun (value, rest) => ((name, value) :: done, rest)
        else (skipValue? rest).map (done, ·)
      match skipBlanks rest with
      | ',' :: rest => readMembers? wanted steps done (skipBlanks rest)
      | '\x7d' :: rest => some (.object done.reverse, rest)
      | _ => none
    | _ => none
  | _ + 1, _, _ => none

/-- The value that a text writes; if it is an object, with the members that are wanted. -/
def readSome? (wanted : String → Bool) (text : String) : Option Json :=
  match skipBlanks text.toList with
  | '\x7b' :: rest =>
    match skipBlanks rest with
    | '"' :: rest =>
      match readMembers? wanted (rest.length + 1) [] ('"' :: rest) with
      | some (value, rest) => if (skipBlanks rest).isEmpty then some value else none
      | none => none
    | _ => read? text
  | _ => read? text

end CodeMarkup.Json
