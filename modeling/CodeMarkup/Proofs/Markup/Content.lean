import CodeMarkup.Markup.Tree

/-! # The text of a tree

The text that a row of events carries is that of its leaves, keywords and embedded code in order. A
tree that is built from the events carries it too, as soon as all its nodes are closed. -/

namespace CodeMarkup.Markup

mutual

/-- The text that an event carries. -/
def Event.chars : Event → String
  | .text s => s
  | .keyword s _ => s
  | .embedded _ events => Event.charsOf events
  | .opening _ | .closing | .closingAll | .finish => ""

/-- The text that a row of events carries. -/
def Event.charsOf : List Event → String
  | [] => ""
  | e :: es => e.chars ++ Event.charsOf es

end

theorem Event.charsOf_append : ∀ es fs : List Event,
    Event.charsOf (es ++ fs) = Event.charsOf es ++ Event.charsOf fs
  | [], fs => by simp [Event.charsOf]
  | e :: es, fs => by simp [Event.charsOf, Event.charsOf_append es fs, String.append_assoc]

/-! ### Collapsing -/

mutual

theorem Token.chars_collapse : ∀ t : Token, t.collapse.chars = t.chars
  | .text s => by simp [Token.collapse]
  | .node category embedded children => by
    rw [Token.collapse, Token.chars, Token.charsOf_collapseOnto [] children, Token.chars]
    simp [Token.charsOf]

/-- Collapsing a row keeps its text. -/
theorem Token.charsOf_collapseOnto : ∀ done ts : List Token,
    Token.charsOf (Token.collapseOnto done ts) = Token.charsOf done ++ Token.charsOf ts
  | done, [] => by simp [Token.collapseOnto, Token.charsOf]
  | done, .text s :: ts => by
    rw [Token.collapseOnto, Token.charsOf_collapseOnto _ ts, Token.charsOf_pushText]
    simp [Token.charsOf, Token.chars, String.append_assoc]
  | done, .node category embedded children :: ts => by
    rw [Token.collapseOnto, Token.charsOf_collapseOnto _ ts, Token.charsOf_append]
    simp [Token.charsOf, Token.chars, Token.charsOf_collapseOnto [] children, String.append_assoc]

end

theorem Node.text_collapse (n : Node) : n.collapse.text = n.text := by
  simp [Node.collapse, Node.text, Token.charsOf_collapseOnto, Token.charsOf]

/-! ### Building -/

namespace Tree

/-- The text in open nodes, given innermost first. -/
def openText : List Node → String
  | [] => ""
  | n :: ns => openText ns ++ n.text

/-- The text in a tree, open nodes included. -/
def chars (t : Tree) : String := t.root.text ++ openText t.opened

theorem chars_blank (classPrefix : String) : (blank classPrefix).chars = "" := by
  simp [blank, chars, openText, Node.empty, Node.text, Token.charsOf]

/-- What is added to the innermost open node comes last. -/
theorem chars_modifyTop {t : Tree} {f : Node → Node} {s : String}
    (hf : ∀ n, (f n).text = n.text ++ s) : (t.modifyTop f).chars = t.chars ++ s := by
  obtain ⟨p, root, opened⟩ := t
  cases opened with
  | nil => simp [modifyTop, chars, openText, hf]
  | cons n ns => simp [modifyTop, chars, openText, hf, String.append_assoc]

theorem chars_text (t : Tree) (s : String) : (t.text s).chars = t.chars ++ s := by
  unfold text
  split
  · next h => simp [String.isEmpty_iff.mp h]
  · exact chars_modifyTop fun n => Node.text_pushText n s

theorem chars_opening (t : Tree) (kind : String) : (t.opening kind).chars = t.chars := by
  simp [opening, chars, openText, Node.empty, Node.text, Token.charsOf]

theorem chars_token (n : Node) : n.token.chars = n.text := by
  rw [Node.token, Token.chars, Node.text]

theorem chars_closing (t : Tree) : t.closing.chars = t.chars := by
  obtain ⟨p, root, opened⟩ := t
  cases opened with
  | nil => rfl
  | cons n ns =>
    have h := chars_modifyTop (t := ⟨p, root, ns⟩) (f := (·.push n.token)) (s := n.text) fun m => by
      rw [Node.text_push, chars_token]
    rw [closing, h]
    simp [chars, openText, String.append_assoc]

theorem text_closeInto (root : Node) : ∀ opened : List Node,
    (closeInto root opened).text = root.text ++ openText opened
  | [] => by simp [closeInto, openText]
  | [n] => by simp [closeInto, openText, Node.text_push, chars_token]
  | n :: m :: ns => by
    rw [closeInto, text_closeInto root (m.push n.token :: ns)]
    simp [openText, Node.text_push, chars_token, String.append_assoc]
  termination_by opened => opened.length

/-- Closing all nodes brings the text of the tree to its root. -/
theorem text_intoRoot (t : Tree) : t.intoRoot.text = t.chars :=
  text_closeInto t.root t.opened

theorem chars_closingAll (t : Tree) : t.closingAll.chars = t.chars := by
  rw [← text_intoRoot t, chars]
  simp [closingAll, intoRoot, openText]

theorem chars_embed (t inner : Tree) (name : Option String) :
    (t.embed inner name).chars = t.chars ++ inner.chars := by
  rw [← text_intoRoot inner]
  refine chars_modifyTop fun n => ?_
  rw [Node.text_push, Token.chars, Node.text, Node.text]

theorem chars_keyword (t : Tree) (word kind : String) :
    (Sink.keyword t word kind).chars = t.chars ++ word := by
  unfold Sink.keyword
  split
  · next h => simp [String.isEmpty_iff.mp h]
  · show (closing (text (opening t kind) word)).chars = _
    rw [chars_closing, chars_text, chars_opening]

/-- The text of a tree that has been finished is all in its root. -/
theorem content_finish (t : Tree) : t.finish.content = t.chars := by
  rw [← text_intoRoot t]
  simp [finish, content, modifyTop, closingAll, intoRoot, Node.text_collapse]

theorem chars_finish (t : Tree) : t.finish.chars = t.chars := by
  rw [← content_finish t, content, chars]
  simp [finish, modifyTop, closingAll, openText]

mutual

/-- An event adds the text that it carries. -/
theorem chars_feed (classPrefix : String) : ∀ (t : Tree) (e : Event),
    (Sink.feed classPrefix t e).chars = t.chars ++ e.chars
  | t, .text s => by rw [Sink.feed, Event.chars]; exact chars_text t s
  | t, .opening kind => by rw [Sink.feed, Event.chars, String.append_empty]; exact chars_opening t kind
  | t, .closing => by rw [Sink.feed, Event.chars, String.append_empty]; exact chars_closing t
  | t, .closingAll => by rw [Sink.feed, Event.chars, String.append_empty]; exact chars_closingAll t
  | t, .keyword word kind => by rw [Sink.feed, Event.chars]; exact chars_keyword t word kind
  | t, .embedded name events => by
    have h := chars_embed t (Sink.feedAll classPrefix (blank classPrefix) events) name
    rw [chars_feedAll classPrefix _ events, chars_blank, String.empty_append] at h
    rw [Sink.feed, Event.chars, ← h]
    rfl
  | t, .finish => by rw [Sink.feed, Event.chars, String.append_empty]; exact chars_finish t

/-- A row of events adds the text that it carries. -/
theorem chars_feedAll (classPrefix : String) : ∀ (t : Tree) (es : List Event),
    (Sink.feedAll classPrefix t es).chars = t.chars ++ Event.charsOf es
  | t, [] => by simp [Sink.feedAll, Event.charsOf]
  | t, e :: es => by
    rw [Sink.feedAll, chars_feedAll classPrefix _ es, chars_feed classPrefix t e, Event.charsOf,
      String.append_assoc]

end

/-- **The text of a tree is the text of the events it was built from**, if they end as they
should. -/
theorem content_ofEvents (classPrefix : String) (es : List Event) :
    (Sink.ofEvents classPrefix (es ++ [.finish]) : Tree).content = Event.charsOf es := by
  rw [Sink.ofEvents, Sink.feedAll_append]
  have h := content_finish (Sink.feedAll classPrefix (blank classPrefix) es)
  rw [chars_feedAll, chars_blank, String.empty_append] at h
  rw [← h, Sink.feedAll, Sink.feedAll, Sink.feed]
  rfl

end Tree

end CodeMarkup.Markup
