/-! # Text inside markup

The characters that mean something to markup are written as entities. -/

namespace CodeMarkup.Markup

/-- A character as it stands in markup. -/
def escapeChar : Char → List Char
  | '&' => ['&', 'a', 'm', 'p', ';']
  | '<' => ['&', 'l', 't', ';']
  | '>' => ['&', 'g', 't', ';']
  | '"' => ['&', 'q', 'u', 'o', 't', ';']
  | '\'' => ['&', '#', 'x', '2', '7', ';']
  | c => [c]

/-- A text as it stands in markup, between tags or inside a quoted attribute. -/
def escape (s : String) : String := String.ofList (s.toList.flatMap escapeChar)

/-- Text is escaped one character at a time. -/
theorem escape_append (s t : String) : escape (s ++ t) = escape s ++ escape t := by
  simp [escape]

end CodeMarkup.Markup
