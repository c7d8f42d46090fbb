import CodeMarkup.Proofs.Markup.Agreement

/-! # Element trees show what markup shows

An element tree is written as JSON. Whoever reads it (`Hast.shown?`) puts together what the texts and
the spans in it stand for: with escaped texts and spans as tags that is markup, with the texts alone
it is the text. The markup and the text read from the element tree of a token tree are those of the
tree itself (`Tree.hast_shows`).

Both ways to show a tree pass over nodes without a category: the tree without them, their children in
their place (`Token.spliced`), is shown in the same way. -/

namespace CodeMarkup.Markup

/-! ### Reading element trees -/

namespace Hast

/-- The text of a member of an object. -/
def textOf? (name : String) (members : List (String × Json)) : Option String :=
  (members.lookup name).bind Json.string?

/-- The classes of an element, with blanks between them. -/
def classOf? (members : List (String × Json)) : Option String :=
  match members.lookup "properties" with
  | some (.object properties) =>
    ((properties.lookup "className").bind Json.strings?).map (" ".intercalate ·)
  | _ => none

section Shown

variable (text : String → String) (span : (tag className inner : String) → String)

mutual

/-- What an element tree that is written as JSON shows, given what a text shows and what an element
shows around its children. -/
def shown? : Json → Option String
  | .object members =>
    match textOf? "type" members with
    | some "root" => shownInside? members
    | some "element" => do
      let tag ← textOf? "tagName" members
      let className ← classOf? members
      return span tag className (← shownInside? members)
    | some "text" => (textOf? "value" members).map text
    | _ => none
  | _ => none

/-- What the children of an object show. -/
def shownInside? : List (String × Json) → Option String
  | [] => none
  | ("children", .array items) :: _ => shownAll? items
  | _ :: members => shownInside? members

/-- What a row of elements shows. -/
def shownAll? : List Json → Option String
  | [] => some ""
  | j :: js => do return (← shown? j) ++ (← shownAll? js)

end

end Shown

/-- An element in markup, with its classes. -/
def tagged (tag className inner : String) : String :=
  "<" ++ tag ++ " class=\"" ++ className ++ "\">" ++ inner ++ "</" ++ tag ++ ">"

/-- The markup of an element tree that is written as JSON: texts are escaped, and an element is a tag
with its classes around its children. -/
def markup? (j : Json) : Option String := shown? escape tagged j

/-- The texts in an element tree that is written as JSON, in order. -/
def content? (j : Json) : Option String := shown? id (fun _ _ inner => inner) j

/-! ### Element trees of tokens -/

section Written

variable (text : String → String) (span : (tag className inner : String) → String)

mutual

/-- What an element shows. -/
def shown : Hast → String
  | .text value => text value
  | .span name children => span "span" name (shownAll children)

/-- What a row of elements shows. -/
def shownAll : List Hast → String
  | [] => ""
  | h :: hs => shown h ++ shownAll hs

end

theorem shownAll_append (hs is : List Hast) :
    shownAll text span (hs ++ is) = shownAll text span hs ++ shownAll text span is := by
  induction hs with
  | nil => rw [List.nil_append, shownAll, String.empty_append]
  | cons h hs ih => rw [List.cons_append, shownAll, ih, shownAll, String.append_assoc]

/-- An element with a class is read as that element around its children. -/
theorem shown?_element (tag className : String) (items : List Json) :
    shown? text span (.object [("type", .string "element"), ("tagName", .string tag),
      ("properties", .object [("className", .array [.string className])]),
      ("children", .array items)]) = (shownAll? text span items).map (span tag className) := by
  have hclass : classOf? [("type", .string "element"), ("tagName", .string tag),
      ("properties", .object [("className", .array [.string className])]),
      ("children", .array items)] = some className := by rfl
  have hinside : shownInside? text span [("type", .string "element"), ("tagName", .string tag),
      ("properties", .object [("className", .array [.string className])]),
      ("children", .array items)] = shownAll? text span items := by rfl
  rw [shown?, hclass, hinside]
  cases shownAll? text span items <;> rfl

mutual

/-- An element is read as it was written. -/
theorem shown?_toJson : ∀ h : Hast, shown? text span h.toJson = some (shown text span h)
  | .text value => by
    rw [toJson, shown?, shown]
    rfl
  | .span name children => by
    rw [toJson, shown?_element, shownAll?_listToJson children, shown, Option.map_some]

theorem shownAll?_listToJson : ∀ hs : List Hast,
    shownAll? text span (listToJson hs) = some (shownAll text span hs)
  | [] => by rw [listToJson, shownAll?, shownAll]
  | h :: hs => by
    rw [listToJson, shownAll?, shown?_toJson h, shownAll?_listToJson hs, shownAll]
    rfl

end

/-- A document is read as its elements were written. -/
theorem shown?_document (hs : List Hast) :
    shown? text span (document hs) = some (shownAll text span hs) := by
  rw [← shownAll?_listToJson, document]
  rfl

end Written

end Hast

mutual

/-- The elements of a token have its markup. -/
theorem Token.shownAll_hast (classPrefix : String) : ∀ t : Token,
    Hast.shownAll escape Hast.tagged (t.hast classPrefix) = t.render classPrefix
  | .text s => by
    rw [Token.hast, Hast.shownAll, Hast.shown, Hast.shownAll, String.append_empty, Token.render]
  | .node category embedded children => by
    have ih := Token.shownAll_hastAll classPrefix children
    rw [Token.hast, Token.render]
    cases cssClass classPrefix category embedded with
    | none => exact ih
    | some name =>
      dsimp only
      rw [Hast.shownAll, Hast.shown, Hast.shownAll, String.append_empty, ih]
      simp [Hast.tagged, inSpan, spanStart, spanEnd, String.append_assoc]

theorem Token.shownAll_hastAll (classPrefix : String) : ∀ ts : List Token,
    Hast.shownAll escape Hast.tagged (Token.hastAll classPrefix ts) =
      Token.renderAll classPrefix ts
  | [] => by rw [Token.hastAll, Hast.shownAll, Token.renderAll]
  | t :: ts => by
    rw [Token.hastAll, Hast.shownAll_append, Token.shownAll_hast classPrefix t,
      Token.shownAll_hastAll classPrefix ts, Token.renderAll]

end

mutual

/-- The elements of a token have its text. -/
theorem Token.content_hast (classPrefix : String) : ∀ t : Token,
    Hast.shownAll id (fun _ _ inner => inner) (t.hast classPrefix) = t.chars
  | .text s => by
    rw [Token.hast, Hast.shownAll, Hast.shown, Hast.shownAll, String.append_empty, Token.chars, id]
  | .node category embedded children => by
    have ih := Token.content_hastAll classPrefix children
    rw [Token.hast, Token.chars]
    cases cssClass classPrefix category embedded with
    | none => exact ih
    | some name =>
      dsimp only
      rw [Hast.shownAll, Hast.shown, Hast.shownAll, String.append_empty, ih]

theorem Token.content_hastAll (classPrefix : String) : ∀ ts : List Token,
    Hast.shownAll id (fun _ _ inner => inner) (Token.hastAll classPrefix ts) = Token.charsOf ts
  | [] => by rw [Token.hastAll, Hast.shownAll, Token.charsOf]
  | t :: ts => by
    rw [Token.hastAll, Hast.shownAll_append, Token.content_hast classPrefix t,
      Token.content_hastAll classPrefix ts, Token.charsOf]

end

/-! ### Nodes without a category -/

namespace Token

mutual

/-- The tokens that stand in the place of a token where nodes without a category are left out: their
children are in their place. -/
def spliced : Token → List Token
  | .text s => [.text s]
  | .node none _ children => splicedAll children
  | .node (some kind) embedded children => [.node (some kind) embedded (splicedAll children)]

/-- A row of tokens without the nodes that have no category, their children in their place. -/
def splicedAll : List Token → List Token
  | [] => []
  | t :: ts => t.spliced ++ splicedAll ts

end

mutual

/-- Whether all nodes in a token have a category. -/
def isTitled : Token → Bool
  | .text _ => true
  | .node category _ children => category.isSome && allTitled children

/-- Whether all nodes in a row of tokens have a category. -/
def allTitled : List Token → Bool
  | [] => true
  | t :: ts => t.isTitled && allTitled ts

end

theorem allTitled_append (ts us : List Token) :
    allTitled (ts ++ us) = (allTitled ts && allTitled us) := by
  induction ts with
  | nil => rfl
  | cons t ts ih => rw [List.cons_append, allTitled, ih, allTitled, Bool.and_assoc]

theorem hastAll_append (classPrefix : String) (ts us : List Token) :
    hastAll classPrefix (ts ++ us) = hastAll classPrefix ts ++ hastAll classPrefix us := by
  induction ts with
  | nil => rfl
  | cons t ts ih => rw [List.cons_append, hastAll, ih, hastAll, List.append_assoc]

mutual

theorem allTitled_spliced : ∀ t : Token, allTitled t.spliced
  | .text _ => by rw [spliced, allTitled, allTitled, isTitled]; rfl
  | .node none _ children => by rw [spliced]; exact allTitled_splicedAll children
  | .node (some _) _ children => by
    rw [spliced, allTitled, allTitled, isTitled, allTitled_splicedAll children]
    rfl

/-- No node without a category is left. -/
theorem allTitled_splicedAll : ∀ ts : List Token, allTitled (splicedAll ts)
  | [] => rfl
  | t :: ts => by
    rw [splicedAll, allTitled_append, allTitled_spliced t, allTitled_splicedAll ts]
    rfl

end

mutual

theorem renderAll_spliced (classPrefix : String) : ∀ t : Token,
    renderAll classPrefix t.spliced = t.render classPrefix
  | .text s => by rw [spliced, renderAll, renderAll, String.append_empty]
  | .node none embedded children => by
    rw [spliced, renderAll_splicedAll classPrefix children, render]
    rfl
  | .node (some kind) embedded children => by
    rw [spliced, renderAll, renderAll, String.append_empty, render,
      renderAll_splicedAll classPrefix children, render]

/-- The markup does not show nodes without a category. -/
theorem renderAll_splicedAll (classPrefix : String) : ∀ ts : List Token,
    renderAll classPrefix (splicedAll ts) = renderAll classPrefix ts
  | [] => by rw [splicedAll]
  | t :: ts => by
    rw [splicedAll, renderAll_append, renderAll_spliced classPrefix t,
      renderAll_splicedAll classPrefix ts, renderAll]

end

mutual

theorem hastAll_spliced (classPrefix : String) : ∀ t : Token,
    hastAll classPrefix t.spliced = t.hast classPrefix
  | .text s => by rw [spliced, hastAll, hastAll, List.append_nil]
  | .node none embedded children => by
    rw [spliced, hastAll_splicedAll classPrefix children, hast]
    rfl
  | .node (some kind) embedded children => by
    rw [spliced, hastAll, hastAll, List.append_nil, hast, hastAll_splicedAll classPrefix children,
      hast]

/-- The elements do not show nodes without a category. -/
theorem hastAll_splicedAll (classPrefix : String) : ∀ ts : List Token,
    hastAll classPrefix (splicedAll ts) = hastAll classPrefix ts
  | [] => by rw [splicedAll]
  | t :: ts => by
    rw [splicedAll, hastAll_append, hastAll_spliced classPrefix t,
      hastAll_splicedAll classPrefix ts, hastAll]

end

end Token

/-! ### Trees -/

namespace Tree

/-- A tree without the nodes that have no category, the root apart. -/
def spliced (t : Tree) : Tree :=
  { t with root := { t.root with children := Token.splicedAll t.root.children } }

/-- The markup of a root without a category is that of its children. -/
theorem html_eq_renderAll {t : Tree} (h : t.root.category = none) :
    t.html = Token.renderAll t.classPrefix t.root.children := by
  rw [html, Node.render, Node.token, Token.render, h]
  rfl

/-- **The element tree of a tree shows what its markup shows.** Read with escaped texts and with tags
it is the markup, read for its texts alone it is the text. Nodes without a category, however many and
however deep, are passed over by both: with their children in their place both are the same. -/
theorem hast_shows (classPrefix : String) (es : List Event) :
    let tree : Tree := Sink.ofEvents classPrefix es
    Hast.markup? tree.hast = some tree.html ∧ Hast.content? tree.hast = some tree.content ∧
      Token.allTitled tree.spliced.tokens ∧ tree.spliced.html = tree.html ∧
        tree.spliced.hast = tree.hast := by
  intro tree
  have hroot : tree.root.category = none := (renders_ofEvents classPrefix es).root
  refine ⟨?_, ?_, Token.allTitled_splicedAll tree.root.children, ?_, ?_⟩
  · rw [Hast.markup?, hast, Node.hast, Hast.shown?_document, Token.shownAll_hastAll,
      html_eq_renderAll hroot]
  · rw [Hast.content?, hast, Node.hast, Hast.shown?_document, Token.content_hastAll, content,
      Node.text]
  · rw [html_eq_renderAll (t := tree.spliced) hroot, html_eq_renderAll hroot]
    exact Token.renderAll_splicedAll tree.classPrefix tree.root.children
  · rw [hast, hast, Node.hast, Node.hast]
    exact congrArg Hast.document (Token.hastAll_splicedAll tree.classPrefix tree.root.children)

end Tree

end CodeMarkup.Markup
