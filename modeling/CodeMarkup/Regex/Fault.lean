/-! # What can be wrong with a pattern -/

namespace CodeMarkup.Regex

/-- Why a pattern is refused. -/
inductive Fault where
  /-- Something stands behind the end of the pattern: a closing parenthesis too many. -/
  | trailing
  /-- A group, comment or flag list is not closed. -/
  | unclosedGroup
  /-- A bracket is not closed, or holds something that is no character and no set. -/
  | badClass
  /-- A range from a greater to a smaller character. -/
  | badRange
  /-- A set where the end of a range is wanted. -/
  | setInRange
  /-- A repetition of nothing, of a look-around or of an assertion. -/
  | notRepeatable
  /-- A repetition with more at least than at most, or with a count that is no number or too
  great. -/
  | badCount
  /-- A pattern that needs too many states. -/
  | tooLarge
  /-- Groups nested too deep. -/
  | tooDeep
  /-- A backslash at the end. -/
  | trailingBackslash
  /-- An escaped letter that means nothing, or a property that nobody knows. -/
  | badEscape
  /-- A code of a character that is not one. -/
  | badCode
  /-- A flag that nobody knows. -/
  | badFlag
  /-- A group name that is empty, not closed or unknown. -/
  | badGroupName
  /-- A reference to a group that has not been opened. -/
  | badReference
  /-- Numbered references together with named groups. -/
  | mixedReferences
  /-- A conditional without a branch. -/
  | badConditional
  /-- A look-behind of more than one length. -/
  | lookBehindLength
  deriving DecidableEq, Repr, Inhabited

end CodeMarkup.Regex
