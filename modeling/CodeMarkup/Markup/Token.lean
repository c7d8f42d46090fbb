import CodeMarkup.Markup.Escape

/-! # Token trees

Highlighted code is a tree: leaves of text, and nodes that say what the text in them is. The root
has no category. `Node.text` is the code that a tree carries and `Node.render` its markup, where
every node with a category is a span. -/

namespace CodeMarkup.Markup

/-- A leaf of text or a node with the tokens in it. The category of a node that is the root of an
embedded language is the name of that language. -/
inductive Token where
  | text (s : String)
  | node (category : Option String) (embedded : Bool) (children : List Token)
  deriving Inhabited, Repr

/-- A node of a token tree. -/
structure Node where
  category : Option String
  /-- Whether this is the root of an embedded language. -/
  embedded : Bool
  children : List Token
  deriving Inhabited, Repr

namespace Node

/-- A node without children. -/
def empty (category : Option String) : Node := ⟨category, false, []⟩

/-- A node as a token of the node around it. -/
def token (n : Node) : Token := .node n.category n.embedded n.children

end Node

/-! ### Text -/

mutual

/-- The text in a token. -/
def Token.chars : Token → String
  | .text s => s
  | .node _ _ children => Token.charsOf children

/-- The text in a row of tokens. -/
def Token.charsOf : List Token → String
  | [] => ""
  | t :: ts => t.chars ++ Token.charsOf ts

end

theorem Token.charsOf_append (ts us : List Token) :
    Token.charsOf (ts ++ us) = Token.charsOf ts ++ Token.charsOf us := by
  induction ts with
  | nil => simp [Token.charsOf]
  | cons t ts ih => simp [Token.charsOf, ih, String.append_assoc]

/-- The text in a node, in the order of its leaves. -/
def Node.text (n : Node) : String := Token.charsOf n.children

/-! ### Building -/

/-- Appends text to a row of tokens, to the last one if that is text. -/
def Token.pushText : List Token → String → List Token
  | [], s => [.text s]
  | [.text t], s => [.text (t ++ s)]
  | t :: ts, s => t :: Token.pushText ts s

/-- The text is appended, whatever becomes of the leaves. -/
theorem Token.charsOf_pushText (ts : List Token) (s : String) :
    Token.charsOf (Token.pushText ts s) = Token.charsOf ts ++ s := by
  fun_induction Token.pushText ts s with
  | case1 s => simp [Token.charsOf, Token.chars]
  | case2 s t => simp [Token.charsOf, Token.chars]
  | case3 t ts s _ ih => simp [Token.charsOf, ih, String.append_assoc]

namespace Node

/-- Appends text to the children, to the last one if that is text. -/
def pushText (n : Node) (s : String) : Node := { n with children := Token.pushText n.children s }

/-- Appends a child. -/
def push (n : Node) (t : Token) : Node := { n with children := n.children ++ [t] }

theorem text_pushText (n : Node) (s : String) : (n.pushText s).text = n.text ++ s :=
  Token.charsOf_pushText n.children s

theorem text_push (n : Node) (t : Token) : (n.push t).text = n.text ++ t.chars := by
  simp [push, text, Token.charsOf_append, Token.charsOf]

end Node

mutual

/-- A token inside which neighbouring leaves of text are one. -/
def Token.collapse : Token → Token
  | .text s => .text s
  | .node category embedded children => .node category embedded (Token.collapseOnto [] children)

/-- A row of tokens, appended to a row in which neighbouring leaves of text are one already. -/
def Token.collapseOnto (done : List Token) : List Token → List Token
  | [] => done
  | .text s :: ts => Token.collapseOnto (Token.pushText done s) ts
  | .node category embedded children :: ts =>
    Token.collapseOnto (done ++ [.node category embedded (Token.collapseOnto [] children)]) ts

end

/-- A node inside which neighbouring leaves of text are one. -/
def Node.collapse (n : Node) : Node := { n with children := Token.collapseOnto [] n.children }

/-! ### Markup -/

/-- The start of a span of a class. -/
def spanStart (className : String) : String := "<span class=\"" ++ className ++ "\">"

/-- The end of a span. -/
def spanEnd : String := "</span>"

/-- The class of a node: the category behind the prefix, or the bare name of an embedded
language. -/
def cssClass (classPrefix : String) (category : Option String) (embedded : Bool) :
    Option String :=
  category.map fun kind => if embedded then kind else classPrefix ++ kind

/-- Markup inside a span of a class, if there is one. -/
def inSpan (className : Option String) (markup : String) : String :=
  match className with
  | some name => spanStart name ++ markup ++ spanEnd
  | none => markup

mutual

/-- The markup of a token. -/
def Token.render (classPrefix : String) : Token → String
  | .text s => escape s
  | .node category embedded children =>
    inSpan (cssClass classPrefix category embedded) (Token.renderAll classPrefix children)

/-- The markup of a row of tokens. -/
def Token.renderAll (classPrefix : String) : List Token → String
  | [] => ""
  | t :: ts => t.render classPrefix ++ Token.renderAll classPrefix ts

end

theorem Token.renderAll_append (classPrefix : String) (ts us : List Token) :
    Token.renderAll classPrefix (ts ++ us) =
      Token.renderAll classPrefix ts ++ Token.renderAll classPrefix us := by
  induction ts with
  | nil => simp [Token.renderAll]
  | cons t ts ih => simp [Token.renderAll, ih, String.append_assoc]

/-- Whether text is a leaf of its own or not cannot be seen in the markup. -/
theorem Token.renderAll_pushText (classPrefix : String) (ts : List Token) (s : String) :
    Token.renderAll classPrefix (Token.pushText ts s) =
      Token.renderAll classPrefix ts ++ escape s := by
  fun_induction Token.pushText ts s with
  | case1 s => simp [Token.renderAll, Token.render]
  | case2 s t => simp [Token.renderAll, Token.render, escape_append]
  | case3 t ts s _ ih => simp [Token.renderAll, ih, String.append_assoc]

/-- The markup of a node. -/
def Node.render (classPrefix : String) (n : Node) : String := n.token.render classPrefix

end CodeMarkup.Markup
