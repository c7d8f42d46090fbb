import CodeMarkup.Json.Reader
import CodeMarkup.Markup.Layout
import CodeMarkup.Problem

/-! # Options

The options of a highlighter, and `Overrides` that change some of them. Both are read from JSON
objects, in which an option may be spelled in two or three ways and `null` leaves an option as it
is. -/

namespace CodeMarkup

/-- The options of a highlighter. -/
structure Options where
  /-- What stands before a category in the class of a span. -/
  classPrefix : String := "hljs-"
  /-- What stands for a tab at the start of a line of markup. -/
  tabReplace : Option String := none
  /-- Whether line breaks of markup are elements. -/
  useLineBreaksAsElement : Bool := false
  /-- The languages to guess from, if not all. -/
  languages : Option (List String) := none
  /-- Whether code is left as it is when going through it fails. -/
  safeMode : Bool := true
  deriving DecidableEq, Repr, Inhabited

/-- Options to be changed. -/
structure Overrides where
  classPrefix : Option String := none
  tabReplace : Option String := none
  useLineBreaksAsElement : Option Bool := none
  languages : Option (List String) := none
  safeMode : Option Bool := none
  deriving DecidableEq, Repr, Inhabited

namespace Options

/-- Changes the options that are to be changed. -/
def apply (o : Options) (changes : Overrides) : Options where
  classPrefix := changes.classPrefix.getD o.classPrefix
  tabReplace := changes.tabReplace <|> o.tabReplace
  useLineBreaksAsElement := changes.useLineBreaksAsElement.getD o.useLineBreaksAsElement
  languages := changes.languages <|> o.languages
  safeMode := changes.safeMode.getD o.safeMode

/-- The layout of markup. -/
def layout (o : Options) : Markup.Layout := ⟨o.tabReplace, o.useLineBreaksAsElement⟩

/-- Lays markup out; nothing changes unless an option says so. -/
def fixMarkup (o : Options) (markup : String) : String :=
  if o.tabReplace.isNone && !o.useLineBreaksAsElement then markup else o.layout.apply markup

end Options

namespace Overrides

/-! ### Reading -/

/-- The names of the option for the class prefix. -/
def classPrefixNames : List String := ["class_prefix", "classPrefix"]

/-- The names of the option for tabs. -/
def tabReplaceNames : List String := ["tab_replace", "tabReplace"]

/-- The names of the option for line breaks. -/
def lineBreakNames : List String :=
  ["use_line_breaks_as_element", "useLineBreaksAsElement", "useBR"]

/-- The name of the option for the languages to guess. -/
def languagesNames : List String := ["languages"]

/-- The names of the option for safe mode. -/
def safeModeNames : List String := ["safe_mode", "safeMode"]

/-- All names of options. -/
def recognized : List String :=
  classPrefixNames ++ tabReplaceNames ++ lineBreakNames ++ languagesNames ++ safeModeNames

/-- The value under the names of an option: none if it is not there, a problem if it is there
twice. -/
def valueOf (members : Dictionary Json) (names : List String) :
    Except DocumentProblem (Option Json) :=
  match names.filterMap members.find? with
  | [] => .ok none
  | [value] => .ok (some value)
  | _ => .error .malformed

/-- Reads an option. -/
def option {α : Type} (read : Json → Option α) (members : Dictionary Json) (names : List String) :
    Except DocumentProblem (Option α) := do
  match ← valueOf members names with
  | none => return none
  | some value =>
    match value.optional? read with
    | some v => return v
    | none => throw .malformed

/-- The changes that a value asks for. Of members with the same name the last one counts. -/
def ofJson : Json → Except DocumentProblem Overrides
  | .object members => do
    let d := Dictionary.ofList members
    let classPrefix ← option Json.string? d classPrefixNames
    let tabReplace ← option Json.string? d tabReplaceNames
    let useLineBreaksAsElement ← option Json.bool? d lineBreakNames
    let languages ← option Json.strings? d languagesNames
    let safeMode ← option Json.bool? d safeModeNames
    return { classPrefix, tabReplace, useLineBreaksAsElement, languages, safeMode }
  | _ => .error .notAnObject

/-- Reads changes from JSON text. -/
def read (text : String) : Except Problem Overrides :=
  match Json.read? text with
  | none => .error (.document .malformed)
  | some value =>
    match ofJson value with
    | .ok changes => .ok changes
    | .error cause => .error (.document cause)

/-- The options that are to be changed as JSON. -/
def toJson (c : Overrides) : Json :=
  .object <|
    (c.classPrefix.map fun v => ("class_prefix", Json.string v)).toList ++
    (c.tabReplace.map fun v => ("tab_replace", Json.string v)).toList ++
    (c.useLineBreaksAsElement.map fun v => ("use_line_breaks_as_element", Json.bool v)).toList ++
    (c.languages.map fun v => ("languages", Json.array (v.map .string))).toList ++
    (c.safeMode.map fun v => ("safe_mode", Json.bool v)).toList

end Overrides

namespace Options

/-- Reads options from JSON text; those that are not there have their usual values. -/
def read (text : String) : Except Problem Options := return apply {} (← Overrides.read text)

/-- The options as JSON. -/
def toJson (o : Options) : Json :=
  .object [
    ("class_prefix", .string o.classPrefix),
    ("tab_replace", (o.tabReplace.map Json.string).getD .null),
    ("use_line_breaks_as_element", .bool o.useLineBreaksAsElement),
    ("languages", (o.languages.map fun v => Json.array (v.map .string)).getD .null),
    ("safe_mode", .bool o.safeMode)]

end Options

end CodeMarkup
