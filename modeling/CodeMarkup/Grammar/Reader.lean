import CodeMarkup.Grammar.Mode
import CodeMarkup.Json.Reader

/-! # Grammars in JSON

A mode is an object of attributes, or an array of them in the order of `attributeNames`. Attributes
that nobody knows are left aside, an attribute given twice is refused, and `null` leaves an
attribute open. A grammar is an object that holds the attributes of the root beside its own. -/

namespace CodeMarkup.Grammar

/-- Why JSON is no grammar. -/
inductive ReadFault where
  | malformed
  /-- A child that is given by a word other than `self`. -/
  | unknownReference (word : String)
  deriving DecidableEq, Repr, Inhabited

/-- Reads modes and puts them on the shelf. -/
abbrev Reading := StateT Shelf (Except ReadFault)

namespace Reading

/-- What is read, or the fault that there is nothing to read. -/
def ofOption {α : Type} : Option α → Reading α
  | some a => return a
  | none => throw .malformed

/-- Puts a mode on the shelf. -/
def share (m : Mode) : Reading Key := fun s => .ok (Build.share m s)

/-- Forgets what exactly is wrong. -/
def hidingFault {α : Type} (r : Reading α) : Reading α := fun s =>
  match r s with
  | .ok result => .ok result
  | .error _ => .error .malformed

end Reading

/-! ### Simple attributes -/

/-- A number that is no greater than a relevance can be. -/
def weight? : Json → Option Nat
  | .number (some n) => if n ≤ relevanceLimit then some n else none
  | _ => none

/-- One pattern or several. -/
def illegal? : Json → Option Illegal
  | .string s => some (.one s)
  | .array items => (items.mapM Json.string?).map .any
  | _ => none

/-- One language or several. -/
def delegate? : Json → Option Delegate
  | .string s => some (.named s)
  | .array items => (items.mapM Json.string?).map .detect
  | _ => none

/-- Adds the categories that the members of an object give; the member `$pattern` says what a word
looks like. -/
def categories? : Keywords → List (String × Json) → Option Keywords
  | k, [] => some k
  | k, (name, j) :: ms =>
    match name, j with
    | "$pattern", .string s => categories? { k with pattern := some s } ms
    | "$pattern", _ => none
    | name, .string s => categories? (k.category name s) ms
    | name, j => match j.strings? with
      | some words => categories? (k.categoryList name words) ms
      | none => none

/-- Words of the default category, or categories. -/
def keywords? : Json → Option Keywords
  | .string s => some (Keywords.ofWords s)
  | .array items =>
    (items.mapM Json.string?).map (Keywords.categoryList {} Keywords.defaultCategory)
  | .object members => categories? {} members
  | _ => none

/-! ### Modes -/

/-- The attributes of a mode in order. -/
def attributeNames : List String :=
  ["className", "begin", "end", "match", "beginKeywords", "keywords", "lexemes", "illegal",
    "contains", "variants", "starts", "relevance", "endsWithParent", "endsParent",
    "endSameAsBegin", "skip", "excludeBegin", "excludeEnd", "returnBegin", "returnEnd",
    "subLanguage"]

/-- A mode with one more attribute, of those that hold no modes. -/
def simpleAttribute? (name : String) (j : Json) (m : Mode) : Option Mode :=
  match name with
  | "className" => (j.optional? Json.string?).map fun v => { m with className := v }
  | "begin" => (j.optional? Json.string?).map fun v => { m with beginPattern := v }
  | "end" => (j.optional? Json.string?).map fun v => { m with endPattern := v }
  | "match" => (j.optional? Json.string?).map fun v => { m with matchPattern := v }
  | "beginKeywords" => (j.optional? Json.string?).map fun v => { m with beginKeywords := v }
  | "keywords" => (j.optional? keywords?).map fun v => { m with keywords := v }
  | "lexemes" => (j.optional? Json.string?).map fun v => { m with lexemes := v }
  | "illegal" => (j.optional? illegal?).map fun v => { m with illegal := v }
  | "relevance" => (j.optional? weight?).map fun v => { m with relevance := v }
  | "endsWithParent" => (j.optional? Json.bool?).map fun v => { m with endsWithParent := v }
  | "endsParent" => (j.optional? Json.bool?).map fun v => { m with endsParent := v }
  | "endSameAsBegin" => (j.optional? Json.bool?).map fun v => { m with endSameAsBegin := v }
  | "skip" => (j.optional? Json.bool?).map fun v => { m with skip := v }
  | "excludeBegin" => (j.optional? Json.bool?).map fun v => { m with excludeBegin := v }
  | "excludeEnd" => (j.optional? Json.bool?).map fun v => { m with excludeEnd := v }
  | "returnBegin" => (j.optional? Json.bool?).map fun v => { m with returnBegin := v }
  | "returnEnd" => (j.optional? Json.bool?).map fun v => { m with returnEnd := v }
  | "subLanguage" => (j.optional? delegate?).map fun v => { m with subLanguage := v }
  | _ => none

mutual

/-- A mode. -/
def readMode : Json → Reading Mode
  | .object members => readMembers [] {} members
  | .array items => readItems attributeNames {} items
  | _ => throw .malformed

/-- A mode with the attributes among the members of an object; some have been there already. -/
def readMembers (seen : List String) (m : Mode) : List (String × Json) → Reading Mode
  | [] => return m
  | (name, j) :: ms => do
    if attributeNames.contains name then
      if seen.contains name then throw .malformed
      let m ← readAttribute name m j
      readMembers (name :: seen) m ms
    else readMembers seen m ms

/-- A mode with the attributes that have the given names in order. -/
def readItems (names : List String) (m : Mode) : List Json → Reading Mode
  | [] => return m
  | j :: js =>
    match names with
    | [] => throw .malformed
    | name :: names => do
      let m ← readAttribute name m j
      readItems names m js

/-- A mode with one more attribute. -/
def readAttribute (name : String) (m : Mode) : Json → Reading Mode
  | .null => Reading.ofOption (if attributeNames.contains name then some m else none)
  | .array items =>
    match name with
    | "contains" => do
      let children ← readChildren items
      return { m with contains := some children }
    | "variants" => do
      let variants ← readVariants items
      return { m with variants := some variants }
    | "starts" => do
      let starts ← readItems attributeNames {} items
      return { m with starts := some (← Reading.share starts) }
    | name => Reading.ofOption (simpleAttribute? name (.array items) m)
  | .object members =>
    match name with
    | "starts" => do
      let starts ← readMembers [] {} members
      return { m with starts := some (← Reading.share starts) }
    | name => Reading.ofOption (simpleAttribute? name (.object members) m)
  | j => Reading.ofOption (simpleAttribute? name j m)

/-- The children of a mode: modes, or the word `self`. What is wrong inside a child is not told. -/
def readChildren : List Json → Reading (List Child)
  | [] => return []
  | .string word :: js => do
    if word != "self" then throw (.unknownReference word)
    return .self :: (← readChildren js)
  | j :: js => do
    let m ← (readMode j).hidingFault
    let key ← Reading.share m
    return .mode key :: (← readChildren js)

/-- The variants of a mode. -/
def readVariants : List Json → Reading (List Key)
  | [] => return []
  | j :: js => do
    let m ← readMode j
    let key ← Reading.share m
    return key :: (← readVariants js)

end

/-! ### Grammars -/

/-- A member that is a string. -/
def stringMember? (member : String × Json) : Option (String × String) :=
  member.2.string?.map (member.1, ·)

/-- A grammar with the attributes of its own among the members of an object; some have been there
already. -/
def ownMembers? (seen : List String) (g : Grammar) : List (String × Json) → Option Grammar
  | [] => some g
  | (name, j) :: ms =>
    let one? : Option (Option Grammar) :=
      match name with
      | "name" => some ((j.optional? Json.string?).map fun v => { g with name := v })
      | "aliases" => some (j.strings?.map fun v => { g with aliases := v })
      | "caseInsensitive" => some (j.bool?.map fun v => { g with caseInsensitive := v })
      | "disableAutodetect" => some (j.bool?.map fun v => { g with disableAutodetect := v })
      | "supersetOf" => some ((j.optional? Json.string?).map fun v => { g with supersetOf := v })
      | "classNameAliases" => some (match j with
        | .object ms => (ms.mapM stringMember?).map fun v =>
          { g with classNameAliases := .ofList v }
        | _ => none)
      | _ => none
    match one? with
    | none => ownMembers? seen g ms
    | some none => none
    | some (some g) => if seen.contains name then none else ownMembers? (name :: seen) g ms

/-- The grammar that a value stands for. -/
def ofJson : Json → Except ReadFault Grammar
  | .object members =>
    match ownMembers? [] {} members with
    | none => .error .malformed
    | some g =>
      match (readMembers [] {} members).run {} with
      | .ok (root, shelf) => .ok { g with root, shelf }
      | .error fault => .error fault
  | _ => .error .malformed

/-- Reads a grammar from JSON text. -/
def read (text : String) : Except ReadFault Grammar :=
  match Json.readValue? text with
  | none => .error .malformed
  | some (value, rest) =>
    match ofJson value with
    | .error fault => .error fault
    | .ok g => if (Json.skipBlanks rest).isEmpty then .ok g else .error .malformed

end CodeMarkup.Grammar
