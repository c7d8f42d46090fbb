import CodeMarkup.Json.Pretty
import CodeMarkup.Json.Skip
import CodeMarkup.Markup.Token

/-! # Token trees as JSON

A leaf is a string and a node an object, whose category and embedding are written only where there
is something to say. Reading takes a node also as an array of its parts in order, and leaves members
it does not know aside; a part given twice is refused. -/

namespace CodeMarkup.Markup

/-! ### Writing -/

/-- The object of a node whose children are written already. -/
def nodeJson (category : Option String) (embedded : Bool) (children : List Json) : Json :=
  .object ((category.map fun kind => ("category", Json.string kind)).toList ++
    (if embedded then [("sublanguage", Json.bool true)] else []) ++
    [("children", .array children)])

mutual

/-- A token as JSON. -/
def Token.toJson : Token → Json
  | .text s => .string s
  | .node category embedded children => nodeJson category embedded (Token.listToJson children)

/-- A row of tokens as JSON. -/
def Token.listToJson : List Token → List Json
  | [] => []
  | t :: ts => t.toJson :: Token.listToJson ts

end

/-- A node as JSON. -/
def Node.toJson (n : Node) : Json := n.token.toJson

/-! ### Reading -/

/-- A part of a node that is read from JSON. -/
inductive NodePart where
  | category (kind : Option String)
  | embedded (value : Bool)
  | children (tokens : List Token)

/-- The parts of a node, each at most once. -/
structure NodeParts where
  category : Option (Option String) := none
  embedded : Option Bool := none
  children : Option (List Token) := none

namespace NodeParts

/-- Adds a part that has not been there. -/
def add? (ps : NodeParts) : NodePart → Option NodeParts
  | .category kind => if ps.category.isSome then none else some { ps with category := some kind }
  | .embedded value => if ps.embedded.isSome then none else some { ps with embedded := some value }
  | .children ts => if ps.children.isSome then none else some { ps with children := some ts }

/-- The node with these parts. -/
def node (ps : NodeParts) : Node :=
  ⟨ps.category.join, ps.embedded.getD false, ps.children.getD []⟩

end NodeParts

/-- The category that a value stands for. -/
def categoryOfJson? (j : Json) : Option NodePart := (j.optional? Json.string?).map .category

/-- The embedding that a value stands for. -/
def embeddedOfJson? (j : Json) : Option NodePart := j.bool?.map .embedded

mutual

/-- The token that a value stands for. -/
def Token.ofJson? : Json → Option Token
  | .string s => some (.text s)
  | .object members => (partsOfMembers? {} members).map fun ps => ps.node.token
  | .array items => (partsOfItems? {} items).map fun ps => ps.node.token
  | _ => none

/-- The tokens that the items of an array stand for. -/
def Token.listOfJson? : List Json → Option (List Token)
  | [] => some []
  | j :: js =>
    match Token.ofJson? j, Token.listOfJson? js with
    | some t, some ts => some (t :: ts)
    | _, _ => none

/-- The children that a value stands for. -/
def childrenOfJson? : Json → Option NodePart
  | .array items => (Token.listOfJson? items).map .children
  | _ => none

/-- Adds the parts that the members of an object name. -/
def partsOfMembers? (ps : NodeParts) : List (String × Json) → Option NodeParts
  | [] => some ps
  | (name, j) :: ms =>
    if name = "category" then
      match (categoryOfJson? j).bind ps.add? with
      | some ps => partsOfMembers? ps ms
      | none => none
    else if name = "sublanguage" then
      match (embeddedOfJson? j).bind ps.add? with
      | some ps => partsOfMembers? ps ms
      | none => none
    else if name = "children" then
      match (childrenOfJson? j).bind ps.add? with
      | some ps => partsOfMembers? ps ms
      | none => none
    else partsOfMembers? ps ms

/-- Adds the parts that the items of an array give in order. -/
def partsOfItems? (ps : NodeParts) : List Json → Option NodeParts
  | [] => some ps
  | [a] => (categoryOfJson? a).bind ps.add?
  | [a, b] => ((categoryOfJson? a).bind ps.add?).bind fun ps => (embeddedOfJson? b).bind ps.add?
  | [a, b, c] =>
    match (categoryOfJson? a).bind ps.add? with
    | none => none
    | some ps =>
      match (embeddedOfJson? b).bind ps.add? with
      | none => none
      | some ps => (childrenOfJson? c).bind ps.add?
  | _ => none

end

namespace Node

/-- The node that a value stands for. -/
def ofJson? : Json → Option Node
  | .object members => (partsOfMembers? {} members).map NodeParts.node
  | .array items => (partsOfItems? {} items).map NodeParts.node
  | _ => none

/-- Whether a member of an object is a part of a node. -/
def isPart (name : String) : Bool := ["category", "sublanguage", "children"].contains name

/-- Reads a node from JSON text. Members of the outermost object that are no parts of a node are not
looked into; inside of children all are. -/
def read? (text : String) : Option Node := (Json.readSome? isPart text).bind ofJson?

end Node

end CodeMarkup.Markup
