import CodeMarkup.Markup.Token
import CodeMarkup.Proofs.Markup.Entities

/-! # Markup carries the text of its tree

Read from left to right, markup is made of tags, each going from an opening mark to the next closing
mark, and of the characters between them (`pieces`). Where no class has a closing mark in it, the
markup of a tree reads as the spans of its nodes around the escaped text of its leaves
(`Token.pieces_render`). So its tags are properly nested, and what is between them reads as the text
of the tree (`Node.render_carries`). -/

namespace CodeMarkup.Markup

/-! ### Reading markup -/

/-- What markup is made of. -/
inductive Piece where
  /-- A character between tags. -/
  | char (c : Char)
  /-- A tag, without its marks. -/
  | tag (inside : List Char)
  /-- A tag that has not been closed when the markup ends. -/
  | unclosed (inside : List Char)
  deriving DecidableEq, Repr

/-- The pieces of markup, of which the inside of a tag may have been read, latest first. -/
def piecesFrom : Option (List Char) → List Char → List Piece
  | none, [] => []
  | some inside, [] => [.unclosed inside.reverse]
  | none, c :: cs => if c = '<' then piecesFrom (some []) cs else .char c :: piecesFrom none cs
  | some inside, c :: cs =>
    if c = '>' then .tag inside.reverse :: piecesFrom none cs
    else piecesFrom (some (c :: inside)) cs

/-- The pieces of markup. -/
def pieces (markup : String) : List Piece := piecesFrom none markup.toList

/-- The characters between tags. -/
def visible : List Piece → List Char
  | [] => []
  | .char c :: ps => c :: visible ps
  | .tag _ :: ps => visible ps
  | .unclosed _ :: ps => visible ps

/-- The tag that starts a span of a class. -/
def startTag (className : String) : Piece := .tag ("span class=\"" ++ className ++ "\"").toList

/-- The tag that ends a span. -/
def endTag : Piece := .tag ['/', 's', 'p', 'a', 'n']

/-- Pieces with no other tags than those of spans, each of which ends after the spans in it. -/
inductive Nested : List Piece → Prop
  | nil : Nested []
  | char (c : Char) {ps : List Piece} : Nested ps → Nested (.char c :: ps)
  | span (className : String) {inner ps : List Piece} :
      Nested inner → Nested ps → Nested (startTag className :: inner ++ endTag :: ps)

theorem visible_append : ∀ ps qs : List Piece, visible (ps ++ qs) = visible ps ++ visible qs
  | [], _ => rfl
  | .char c :: ps, qs => congrArg (c :: ·) (visible_append ps qs)
  | .tag _ :: ps, qs => visible_append ps qs
  | .unclosed _ :: ps, qs => visible_append ps qs

theorem visible_chars : ∀ cs : List Char, visible (cs.map .char) = cs
  | [] => rfl
  | c :: cs => congrArg (c :: ·) (visible_chars cs)

theorem nested_chars : ∀ cs : List Char, Nested (cs.map .char)
  | [] => .nil
  | c :: cs => .char c (nested_chars cs)

theorem Nested.append {ps qs : List Piece} (hp : Nested ps) (hq : Nested qs) :
    Nested (ps ++ qs) := by
  induction hp with
  | nil => exact hq
  | char c _ ih => exact .char c ih
  | span className hinner _ _ ih =>
    rw [List.append_assoc, List.cons_append, List.cons_append]
    exact .span className hinner ih

/-- Text without opening marks is no tag. -/
theorem piecesFrom_chars : ∀ {front : List Char}, '<' ∉ front → ∀ cs,
    piecesFrom none (front ++ cs) = front.map .char ++ piecesFrom none cs
  | [], _, _ => rfl
  | c :: front, h, cs => by
    obtain ⟨hc, hfront⟩ := not_or.mp (fun hm => h (List.mem_cons.mpr hm))
    rw [List.cons_append, piecesFrom, if_neg (Ne.symm hc), piecesFrom_chars hfront]
    rfl

theorem piecesFrom_inside : ∀ {front : List Char} (inside : List Char), '>' ∉ front → ∀ cs,
    piecesFrom (some inside) (front ++ '>' :: cs) =
      .tag (inside.reverse ++ front) :: piecesFrom none cs
  | [], inside, _, cs => by
    rw [List.nil_append, piecesFrom, if_pos rfl, List.append_nil]
  | c :: front, inside, h, cs => by
    obtain ⟨hc, hfront⟩ := not_or.mp (fun hm => h (List.mem_cons.mpr hm))
    rw [List.cons_append, piecesFrom, if_neg (Ne.symm hc), piecesFrom_inside _ hfront,
      List.reverse_cons, List.append_assoc, List.singleton_append]

theorem piecesFrom_spanStart {className : String} (h : '>' ∉ className.toList) (cs : List Char) :
    piecesFrom none ((spanStart className).toList ++ cs) =
      startTag className :: piecesFrom none cs := by
  have hinside : '>' ∉ ("span class=\"" ++ className ++ "\"").toList := by
    rw [String.toList_append, String.toList_append, List.mem_append, List.mem_append]
    rintro ((hm | hm) | hm)
    · exact absurd hm (by decide)
    · exact h hm
    · exact absurd hm (by decide)
  have hmarkup : (spanStart className).toList ++ cs =
      '<' :: (("span class=\"" ++ className ++ "\"").toList ++ '>' :: cs) := by
    simp [spanStart]
  rw [hmarkup, piecesFrom, if_pos rfl, piecesFrom_inside [] hinside]
  rfl

theorem piecesFrom_spanEnd (cs : List Char) :
    piecesFrom none (spanEnd.toList ++ cs) = endTag :: piecesFrom none cs := by
  have hmarkup : spanEnd.toList ++ cs = '<' :: (['/', 's', 'p', 'a', 'n'] ++ '>' :: cs) := by
    simp [spanEnd]
  rw [hmarkup, piecesFrom, if_pos rfl, piecesFrom_inside [] (by decide)]
  rfl

theorem piecesFrom_escape (s : String) (cs : List Char) :
    piecesFrom none ((escape s).toList ++ cs) = (escape s).toList.map .char ++ piecesFrom none cs :=
  piecesFrom_chars (fun h => not_mem_escape s '<' h List.mem_cons_self) cs

/-! ### The markup of trees -/

mutual

/-- The categories and names of embedded languages in a token. -/
def Token.categories : Token → List String
  | .text _ => []
  | .node category _ children => category.toList ++ Token.categoriesOf children

/-- The categories and names of embedded languages in a row of tokens. -/
def Token.categoriesOf : List Token → List String
  | [] => []
  | t :: ts => t.categories ++ Token.categoriesOf ts

end

/-- Pieces inside a span of a class, if there is one. -/
def inTags (className : Option String) (ps : List Piece) : List Piece :=
  match className with
  | some name => startTag name :: ps ++ [endTag]
  | none => ps

mutual

/-- The pieces that a token ought to have: its text, escaped, and the tags of its nodes. -/
def Token.pieces (classPrefix : String) : Token → List Piece
  | .text s => (escape s).toList.map .char
  | .node category embedded children =>
    inTags (cssClass classPrefix category embedded) (Token.piecesOf classPrefix children)

/-- The pieces that a row of tokens ought to have. -/
def Token.piecesOf (classPrefix : String) : List Token → List Piece
  | [] => []
  | t :: ts => t.pieces classPrefix ++ Token.piecesOf classPrefix ts

end

theorem nested_inTags (className : Option String) {ps : List Piece} (h : Nested ps) :
    Nested (inTags className ps) := by
  cases className with
  | none => exact h
  | some name => exact .span name h .nil

theorem visible_inTags (className : Option String) (ps : List Piece) :
    visible (inTags className ps) = visible ps := by
  cases className with
  | none => rfl
  | some name => exact (visible_append ps [endTag]).trans (List.append_nil _)

theorem piecesFrom_inSpan {className : Option String} (h : ∀ name ∈ className, '>' ∉ name.toList)
    {markup : String} {ps : List Piece}
    (hmarkup : ∀ cs, piecesFrom none (markup.toList ++ cs) = ps ++ piecesFrom none cs)
    (cs : List Char) : piecesFrom none ((inSpan className markup).toList ++ cs) =
      inTags className ps ++ piecesFrom none cs := by
  cases className with
  | none => exact hmarkup cs
  | some name =>
    unfold inSpan inTags
    simp only [String.toList_append, List.append_assoc]
    rw [piecesFrom_spanStart (h name rfl), hmarkup, piecesFrom_spanEnd]
    simp

/-- The class of a node has no closing mark in it, if neither its prefix nor its category has. -/
theorem not_mem_cssClass {classPrefix : String} (hp : '>' ∉ classPrefix.toList)
    {category : Option String} (h : ∀ name ∈ category, '>' ∉ name.toList) (embedded : Bool) :
    ∀ name ∈ cssClass classPrefix category embedded, '>' ∉ name.toList := by
  intro name hname
  obtain ⟨kind, hkind, rfl⟩ := Option.map_eq_some_iff.mp hname
  cases embedded with
  | true => exact h kind hkind
  | false =>
    rw [if_neg Bool.false_ne_true, String.toList_append, List.mem_append]
    exact not_or.mpr ⟨hp, h kind hkind⟩

mutual

theorem Token.nested_pieces (classPrefix : String) : ∀ t : Token, Nested (t.pieces classPrefix)
  | .text _ => nested_chars _
  | .node _ _ children => nested_inTags _ (Token.nested_piecesOf classPrefix children)

theorem Token.nested_piecesOf (classPrefix : String) :
    ∀ ts : List Token, Nested (Token.piecesOf classPrefix ts)
  | [] => .nil
  | t :: ts => (t.nested_pieces classPrefix).append (Token.nested_piecesOf classPrefix ts)

end

mutual

theorem Token.visible_pieces (classPrefix : String) :
    ∀ t : Token, visible (t.pieces classPrefix) = (escape t.chars).toList
  | .text s => visible_chars _
  | .node _ _ children => by
    rw [Token.pieces, visible_inTags, Token.visible_piecesOf classPrefix children, Token.chars]

theorem Token.visible_piecesOf (classPrefix : String) : ∀ ts : List Token,
    visible (Token.piecesOf classPrefix ts) = (escape (Token.charsOf ts)).toList
  | [] => rfl
  | t :: ts => by
    rw [Token.piecesOf, visible_append, t.visible_pieces classPrefix,
      Token.visible_piecesOf classPrefix ts, Token.charsOf, escape_append, String.toList_append]

end

mutual

/-- The markup of a token reads as the pieces that the token ought to have. -/
theorem Token.pieces_render {classPrefix : String} (hp : '>' ∉ classPrefix.toList) :
    ∀ (t : Token), (∀ name ∈ t.categories, '>' ∉ name.toList) →
    ∀ cs, piecesFrom none ((t.render classPrefix).toList ++ cs) =
      t.pieces classPrefix ++ piecesFrom none cs
  | .text s, _, cs => piecesFrom_escape s cs
  | .node category embedded children, h, cs => by
    rw [Token.categories, List.forall_mem_append] at h
    exact piecesFrom_inSpan
      (not_mem_cssClass hp (fun name hname => h.1 name (Option.mem_toList.mpr hname)) embedded)
      (Token.pieces_renderAll hp children h.2) cs

theorem Token.pieces_renderAll {classPrefix : String} (hp : '>' ∉ classPrefix.toList) :
    ∀ (ts : List Token), (∀ name ∈ Token.categoriesOf ts, '>' ∉ name.toList) →
    ∀ cs, piecesFrom none ((Token.renderAll classPrefix ts).toList ++ cs) =
      Token.piecesOf classPrefix ts ++ piecesFrom none cs
  | [], _, _ => rfl
  | t :: ts, h, cs => by
    rw [Token.categoriesOf, List.forall_mem_append] at h
    rw [Token.renderAll, Token.piecesOf, String.toList_append, List.append_assoc,
      Token.pieces_render hp t h.1, Token.pieces_renderAll hp ts h.2, List.append_assoc]

end

/-- **Markup carries exactly the text.** If no category, name of an embedded language or class
prefix has a closing mark in it, the markup of a tree reads as the spans of its nodes, properly
nested around its text. Between the tags the text stands escaped, just once, without any mark or
quote, and reading its entities, from left to right or one kind after the other, gives it back. -/
theorem Node.render_carries (n : Node) (classPrefix : String) (hp : '>' ∉ classPrefix.toList)
    (h : ∀ name ∈ n.token.categories, '>' ∉ name.toList) :
    pieces (n.render classPrefix) = n.token.pieces classPrefix ∧
      Nested (pieces (n.render classPrefix)) ∧
      visible (pieces (n.render classPrefix)) = (escape n.text).toList ∧
      (∀ c ∈ visible (pieces (n.render classPrefix)), c ∉ ['<', '>', '"', '\'']) ∧
      readEntities (visible (pieces (n.render classPrefix))) = n.text.toList ∧
      unescape (visible (pieces (n.render classPrefix))) = n.text.toList ∧
      Function.Injective escape := by
  have hpieces : pieces (n.render classPrefix) = n.token.pieces classPrefix := by
    have hread := Token.pieces_render hp n.token h []
    rw [List.append_nil] at hread
    exact hread.trans (List.append_nil _)
  have hvisible : visible (n.token.pieces classPrefix) = (escape n.text).toList :=
    n.token.visible_pieces classPrefix
  rw [hpieces, hvisible]
  exact ⟨rfl, n.token.nested_pieces classPrefix, rfl, not_mem_escape n.text,
    readEntities_escape n.text, unescape_escape n.text, escape_injective⟩

/-- A node with a quote in its category and text that looks like entities and tags, an embedded
language, and an empty node without a category. -/
def thorny : Node where
  category := none
  embedded := false
  children := [.text "&lt;", .node (some "a\"<b") false [.text "<i>&amp;amp;", .node none false []],
    .node (some "xml") true [.text "&#x27;'\""]]

/-- The text of the node is read back from its markup. -/
theorem Node.render_carries_thorny : Nested (pieces (thorny.render "hljs-")) ∧
    unescape (visible (pieces (thorny.render "hljs-"))) = thorny.text.toList ∧
    thorny.render "hljs-" = "&amp;lt;<span class=\"hljs-a\"<b\">&lt;i&gt;&amp;amp;amp;</span>" ++
      "<span class=\"xml\">&amp;#x27;&#x27;&quot;</span>" := by
  obtain ⟨-, hnested, -, -, -, hread, -⟩ :=
    thorny.render_carries "hljs-" (by decide) (by decide)
  exact ⟨hnested, hread, by decide +kernel⟩

end CodeMarkup.Markup
