import CodeMarkup.Json.Value
import CodeMarkup.Markup.Token

/-! # Token trees as element trees

The form that renderers of virtual documents take: texts, and elements with a class. Nodes without a
class are not seen, their children stand in their place. -/

namespace CodeMarkup.Markup

/-- A text, or a span of a class with what is in it. -/
inductive Hast where
  | text (value : String)
  | span (className : String) (children : List Hast)
  deriving Inhabited, Repr

mutual

/-- The elements of a token. -/
def Token.hast (classPrefix : String) : Token → List Hast
  | .text s => [.text s]
  | .node category embedded children =>
    match cssClass classPrefix category embedded with
    | some name => [.span name (Token.hastAll classPrefix children)]
    | none => Token.hastAll classPrefix children

/-- The elements of a row of tokens. -/
def Token.hastAll (classPrefix : String) : List Token → List Hast
  | [] => []
  | t :: ts => t.hast classPrefix ++ Token.hastAll classPrefix ts

end

/-- The elements inside a node. -/
def Node.hast (classPrefix : String) (n : Node) : List Hast := Token.hastAll classPrefix n.children

namespace Hast

mutual

/-- An element as JSON. -/
def toJson : Hast → Json
  | .text value => .object [("type", .string "text"), ("value", .string value)]
  | .span name children =>
    .object [("type", .string "element"), ("tagName", .string "span"),
      ("properties", .object [("className", .array [.string name])]),
      ("children", .array (listToJson children))]

/-- Elements as JSON. -/
def listToJson : List Hast → List Json
  | [] => []
  | h :: hs => toJson h :: listToJson hs

end

/-- A document of elements as JSON. -/
def document (children : List Hast) : Json :=
  .object [("type", .string "root"), ("children", .array (listToJson children))]

end Hast

end CodeMarkup.Markup
