/-! # File names in paths -/

namespace CodeMarkup.Text

/-- The parts of a path between slashes, first to last. -/
def pathParts : List Char → List (List Char)
  | [] => [[]]
  | c :: cs =>
    match c, pathParts cs with
    | '/', parts => [] :: parts
    | c, part :: parts => (c :: part) :: parts
    | c, [] => [[c]]

/-- The name of the file that a path leads to. Empty parts and single points lead nowhere; a path
that leads up ends at no name. -/
def fileName? (path : String) : Option (List Char) :=
  match ((pathParts path.toList).filter fun part => !part.isEmpty && part != ['.']).getLast? with
  | some ['.', '.'] => none
  | name => name

/-- The extension of a file name: what stands behind its last point, unless that is the start of the
name. -/
def extensionOf? (name : List Char) : Option String :=
  let behind := (name.reverse.takeWhile (· != '.')).reverse
  let before := name.take (name.length - behind.length)
  if before.length ≤ 1 then none else some (String.ofList behind)

/-- The extension of the file that a path leads to. -/
def extension? (path : String) : Option String := (fileName? path).bind extensionOf?

end CodeMarkup.Text
