import CodeMarkup.Markup.Tree
import CodeMarkup.Markup.Writer

/-! # Trees and writers agree

A tree is rendered when all events are there, a writer writes markup as they come. In between a
relation holds: what has been written is the markup of the tree, every open node being a span that
has been started (`Tree.Renders`). Every event keeps the relation, so that both have as many open
nodes all the time and the same markup when these have been closed (`agree_ofEvents`), be it at the
end of the code (`html_ofEvents`). -/

namespace CodeMarkup.Markup

/-! ### Related sinks -/

/-- A relation between what two sinks hold that events keep. -/
structure Sink.Related {σ τ : Type} [Sink σ] [Sink τ] (classPrefix : String)
    (R : σ → τ → Prop) : Prop where
  blank : R (Sink.blank classPrefix) (Sink.blank classPrefix)
  text : ∀ {s t}, R s t → ∀ word, R (Sink.text s word) (Sink.text t word)
  opening : ∀ {s t}, R s t → ∀ kind, R (Sink.opening s kind) (Sink.opening t kind)
  closing : ∀ {s t}, R s t → R (Sink.closing s) (Sink.closing t)
  closingAll : ∀ {s t}, R s t → R (Sink.closingAll s) (Sink.closingAll t)
  embed : ∀ {s t i j}, R s t → R i j → ∀ name, R (Sink.embed s i name) (Sink.embed t j name)
  finish : ∀ {s t}, R s t → R (Sink.finish s) (Sink.finish t)

namespace Sink.Related

variable {σ τ : Type} [Sink σ] [Sink τ] {classPrefix : String} {R : σ → τ → Prop}

theorem keyword (h : Related classPrefix R) {s : σ} {t : τ} (hst : R s t) (word kind : String) :
    R (Sink.keyword s word kind) (Sink.keyword t word kind) := by
  unfold Sink.keyword
  split
  · exact hst
  · exact h.closing (h.text (h.opening hst kind) word)

mutual

theorem feed (h : Related classPrefix R) {s : σ} {t : τ} (hst : R s t) :
    ∀ e : Event, R (Sink.feed classPrefix s e) (Sink.feed classPrefix t e)
  | .text word => by rw [Sink.feed, Sink.feed]; exact h.text hst word
  | .opening kind => by rw [Sink.feed, Sink.feed]; exact h.opening hst kind
  | .closing => by rw [Sink.feed, Sink.feed]; exact h.closing hst
  | .closingAll => by rw [Sink.feed, Sink.feed]; exact h.closingAll hst
  | .keyword word kind => by rw [Sink.feed, Sink.feed]; exact h.keyword hst word kind
  | .embedded name events => by
    rw [Sink.feed, Sink.feed]
    exact h.embed hst (feedAll h h.blank events) name
  | .finish => by rw [Sink.feed, Sink.feed]; exact h.finish hst

/-- What the same events build is related. -/
theorem feedAll (h : Related classPrefix R) {s : σ} {t : τ} (hst : R s t) :
    ∀ es : List Event, R (Sink.feedAll classPrefix s es) (Sink.feedAll classPrefix t es)
  | [] => by rw [Sink.feedAll, Sink.feedAll]; exact hst
  | e :: es => by
    rw [Sink.feedAll, Sink.feedAll]
    exact feedAll h (feed h hst e) es

end

end Sink.Related

/-! ### The markup of collapsed tokens -/

mutual

theorem Token.render_collapse (classPrefix : String) :
    ∀ t : Token, t.collapse.render classPrefix = t.render classPrefix
  | .text s => by rw [Token.collapse]
  | .node category embedded children => by
    rw [Token.collapse, Token.render, Token.render,
      Token.renderAll_collapseOnto classPrefix [] children, Token.renderAll, String.empty_append]

/-- Collapsing a row keeps its markup. -/
theorem Token.renderAll_collapseOnto (classPrefix : String) : ∀ done ts : List Token,
    Token.renderAll classPrefix (Token.collapseOnto done ts) =
      Token.renderAll classPrefix done ++ Token.renderAll classPrefix ts
  | done, [] => by rw [Token.collapseOnto, Token.renderAll, String.append_empty]
  | done, .text s :: ts => by
    rw [Token.collapseOnto, Token.renderAll_collapseOnto classPrefix _ ts,
      Token.renderAll_pushText, Token.renderAll, Token.render, String.append_assoc]
  | done, .node category embedded children :: ts => by
    have h := Token.render_collapse classPrefix (.node category embedded children)
    rw [Token.collapse] at h
    rw [Token.collapseOnto, Token.renderAll_collapseOnto classPrefix _ ts, Token.renderAll_append,
      Token.renderAll, h, Token.renderAll, Token.renderAll, String.append_empty,
      String.append_assoc]

end

/-! ### The markup of a tree in the middle -/

namespace Tree

/-- The markup of a root and of the nodes open inside it, given innermost first: their spans have
started and have not ended. -/
def markupSoFar (classPrefix : String) (root : Node) : List Node → String
  | [] => Token.renderAll classPrefix root.children
  | n :: ns => markupSoFar classPrefix root ns ++
      (((cssClass classPrefix n.category n.embedded).map spanStart).getD "" ++
        Token.renderAll classPrefix n.children)

/-- A node that has been opened, and not embedded. -/
def IsOpened (n : Node) : Prop := n.category.isSome ∧ n.embedded = false

/-- What a writer has written is the markup of a tree so far. -/
structure Renders (classPrefix : String) (t : Tree) (w : Writer) : Prop where
  treePrefix : t.classPrefix = classPrefix
  writerPrefix : w.classPrefix = classPrefix
  root : t.root.category = none
  opened : ∀ n ∈ t.opened, IsOpened n
  depth : w.depth = t.opened.length
  markup : w.markup = markupSoFar classPrefix t.root t.opened

variable {classPrefix : String} {t : Tree} {w : Writer}

/-- A change of a node that keeps what it is and adds to its markup. -/
structure Adds (classPrefix : String) (f : Node → Node) (s : String) : Prop where
  category : ∀ n, (f n).category = n.category
  embedded : ∀ n, (f n).embedded = n.embedded
  markup : ∀ n, Token.renderAll classPrefix (f n).children =
    Token.renderAll classPrefix n.children ++ s

theorem adds_pushText (classPrefix s : String) : Adds classPrefix (·.pushText s) (escape s) :=
  ⟨fun _ => rfl, fun _ => rfl, fun n => Token.renderAll_pushText classPrefix n.children s⟩

theorem adds_push (classPrefix : String) (token : Token) :
    Adds classPrefix (·.push token) (token.render classPrefix) where
  category _ := rfl
  embedded _ := rfl
  markup n := by
    rw [Node.push, Token.renderAll_append, Token.renderAll, Token.renderAll, String.append_empty]

theorem adds_collapse (classPrefix : String) : Adds classPrefix Node.collapse "" where
  category _ := rfl
  embedded _ := rfl
  markup n := by
    rw [Node.collapse, Token.renderAll_collapseOnto, Token.renderAll, String.empty_append,
      String.append_empty]

/-- What is added to the innermost open node is written behind everything else. -/
theorem Renders.modifyTop (h : Renders classPrefix t w) {f : Node → Node} {s : String}
    (hf : Adds classPrefix f s) :
    Renders classPrefix (t.modifyTop f) { w with markup := w.markup ++ s } := by
  obtain ⟨p, root, opened⟩ := t
  have hm := h.markup
  cases opened with
  | nil =>
    refine ⟨h.treePrefix, h.writerPrefix, (hf.category root).trans h.root, h.opened, h.depth, ?_⟩
    simp only [markupSoFar] at hm
    simp only [Tree.modifyTop, markupSoFar, hm, hf.markup]
  | cons n ns =>
    refine ⟨h.treePrefix, h.writerPrefix, h.root, ?_, h.depth, ?_⟩
    · refine List.forall_mem_cons.mpr ⟨?_, fun m hm => h.opened m (List.mem_cons_of_mem _ hm)⟩
      rw [IsOpened, hf.category, hf.embedded]
      exact h.opened n List.mem_cons_self
    · simp only [markupSoFar] at hm
      simp only [Tree.modifyTop, markupSoFar, hm, hf.category, hf.embedded, hf.markup,
        String.append_assoc]

/-! ### Closing nodes -/

theorem render_token (classPrefix : String) {n : Node} (hn : IsOpened n) :
    n.token.render classPrefix = ((cssClass classPrefix n.category n.embedded).map spanStart).getD ""
      ++ Token.renderAll classPrefix n.children ++ spanEnd := by
  obtain ⟨kind, hk⟩ := Option.isSome_iff_exists.mp hn.1
  rw [Node.token, Token.render, cssClass, hk]
  rfl

/-- The node that is closed ends with its span. -/
theorem markupSoFar_push (classPrefix : String) (root : Node) {n : Node} (hn : IsOpened n) :
    ∀ ns : List Node, markupSoFar classPrefix root (n :: ns) ++ spanEnd =
      match ns with
      | [] => markupSoFar classPrefix (root.push n.token) []
      | m :: ms => markupSoFar classPrefix root (m.push n.token :: ms)
  | [] => by
    simp only [markupSoFar, (adds_push classPrefix n.token).markup, render_token classPrefix hn,
      String.append_assoc]
  | m :: ms => by
    have hp := adds_push classPrefix n.token
    simp only [markupSoFar, hp.markup, hp.category, hp.embedded, render_token classPrefix hn,
      String.append_assoc]

/-- All open nodes end with their spans. -/
theorem renderAll_closeInto (classPrefix : String) (root : Node) : ∀ opened : List Node,
    (∀ n ∈ opened, IsOpened n) →
    Token.renderAll classPrefix (closeInto root opened).children =
        markupSoFar classPrefix root opened ++ Writer.spanEnds opened.length ∧
      (closeInto root opened).category = root.category
  | [], _ => by
    rw [closeInto, markupSoFar, List.length_nil, Writer.spanEnds, String.append_empty]
    exact ⟨rfl, rfl⟩
  | [n], h => by
    have hp := markupSoFar_push classPrefix root (h n List.mem_cons_self) []
    rw [closeInto, List.length_singleton, Writer.spanEnds, Writer.spanEnds, String.append_empty, hp]
    exact ⟨rfl, rfl⟩
  | n :: m :: ns, h => by
    have hp := markupSoFar_push classPrefix root (h n List.mem_cons_self) (m :: ns)
    have ih := renderAll_closeInto classPrefix root (m.push n.token :: ns) (by
      refine List.forall_mem_cons.mpr ⟨h m (by simp), fun k hk => h k (by simp [hk])⟩)
    have hlength : (n :: m :: ns).length = (m.push n.token :: ns).length + 1 := rfl
    rw [closeInto, hlength, Writer.spanEnds, ← String.append_assoc, hp]
    exact ih
  termination_by opened => opened.length

theorem Renders.closing (h : Renders classPrefix t w) :
    Renders classPrefix t.closing w.closing := by
  obtain ⟨p, root, opened⟩ := t
  have hd := h.depth
  cases opened with
  | nil =>
    rw [Writer.closing, hd]
    exact h
  | cons n ns =>
    have hn := h.opened n List.mem_cons_self
    have hm := h.markup
    have hp := markupSoFar_push classPrefix root hn ns
    rw [Writer.closing, hd]
    dsimp only [List.length_cons] at hm ⊢
    rw [← hm] at hp
    cases ns with
    | nil => exact ⟨h.treePrefix, h.writerPrefix, h.root, by simp [Tree.closing, Tree.modifyTop], rfl, hp⟩
    | cons m ms =>
      refine ⟨h.treePrefix, h.writerPrefix, h.root, ?_, rfl, hp⟩
      exact List.forall_mem_cons.mpr ⟨h.opened m (by simp), fun k hk => h.opened k (by simp [hk])⟩

theorem Renders.closingAll (h : Renders classPrefix t w) :
    Renders classPrefix t.closingAll w.closingAll := by
  obtain ⟨hmarkup, hcategory⟩ := renderAll_closeInto classPrefix t.root t.opened h.opened
  refine ⟨h.treePrefix, h.writerPrefix, hcategory.trans h.root, by simp [Tree.closingAll], rfl, ?_⟩
  rw [Writer.closingAll, h.depth, h.markup, ← hmarkup]
  rfl

/-! ### Events -/

theorem renders_blank (classPrefix : String) :
    Renders classPrefix (blank classPrefix) (Writer.blank classPrefix) :=
  ⟨rfl, rfl, rfl, by simp [blank], rfl, rfl⟩

theorem Renders.text (h : Renders classPrefix t w) (s : String) :
    Renders classPrefix (t.text s) (w.text s) := by
  unfold Tree.text
  split
  · next he =>
    rw [String.isEmpty_iff.mp he]
    exact { h with markup := (String.append_empty).trans h.markup }
  · exact h.modifyTop (adds_pushText classPrefix s)

theorem Renders.opening (h : Renders classPrefix t w) (kind : String) :
    Renders classPrefix (t.opening kind) (w.opening kind) := by
  refine ⟨h.treePrefix, h.writerPrefix, h.root, ?_, congrArg (· + 1) h.depth, ?_⟩
  · exact List.forall_mem_cons.mpr ⟨⟨rfl, rfl⟩, h.opened⟩
  · simp [Tree.opening, Writer.opening, markupSoFar, h.markup, h.writerPrefix, Node.empty, cssClass,
      Token.renderAll]

theorem Renders.finish (h : Renders classPrefix t w) :
    Renders classPrefix t.finish w.closingAll := by
  have hf := h.closingAll.modifyTop (adds_collapse classPrefix)
  exact { hf with markup := (String.append_empty).symm.trans hf.markup }

/-- With all nodes closed, the markup of the root has been written. -/
theorem Renders.intoMarkup (h : Renders classPrefix t w) :
    w.intoMarkup = t.intoRoot.render classPrefix := by
  have hc := h.closingAll
  rw [Writer.intoMarkup, hc.markup, Tree.intoRoot, Node.render, Node.token, Token.render, hc.root]
  rfl

/-- The markup of a tree without open nodes has been written. -/
theorem Renders.html (h : Renders classPrefix t w) (ho : t.opened = []) : t.html = w.markup := by
  rw [h.markup, ho, Tree.html, Node.render, Node.token, Token.render, h.root, h.treePrefix]
  rfl

theorem Renders.embed (h : Renders classPrefix t w) {inner : Tree} {written : Writer}
    (hi : Renders classPrefix inner written) (name : Option String) :
    Renders classPrefix (t.embed inner name) (w.embed written name) := by
  have hc := hi.closingAll
  have hadd := adds_push classPrefix (.node name true inner.intoRoot.children)
  have hrender : (Token.node name true inner.intoRoot.children).render classPrefix =
      inSpan name written.intoMarkup := by
    rw [Token.render, Writer.intoMarkup, hc.markup]
    cases name <;> rfl
  rw [hrender] at hadd
  exact h.modifyTop hadd

/-- **What a writer writes is the markup of the tree**, as events come. -/
theorem related_renders (classPrefix : String) :
    Sink.Related classPrefix (Renders classPrefix) where
  blank := renders_blank classPrefix
  text h := h.text
  opening h := h.opening
  closing h := h.closing
  closingAll h := h.closingAll
  embed h hi := h.embed hi
  finish h := h.finish

end Tree

/-- What a tree and a writer hold of the same events. -/
theorem renders_ofEvents (classPrefix : String) (es : List Event) :
    Tree.Renders classPrefix (Sink.ofEvents classPrefix es) (Sink.ofEvents classPrefix es) :=
  (Tree.related_renders classPrefix).feedAll (Tree.renders_blank classPrefix) es

/-- **A tree and a writer agree** on all events, whether or not what opens is closed: after each of
them as many nodes are open, and when all are closed the markup is the same. -/
theorem agree_ofEvents (classPrefix : String) (es : List Event) :
    let tree : Tree := Sink.ofEvents classPrefix es
    let writer : Writer := Sink.ofEvents classPrefix es
    (∀ n, (Sink.ofEvents classPrefix (es.take n) : Writer).depth =
        (Sink.ofEvents classPrefix (es.take n) : Tree).opened.length) ∧
      Sink.html (Sink.closingAll writer) = Sink.html (Sink.closingAll tree) ∧
      writer.intoMarkup = tree.intoRoot.render classPrefix := by
  intro tree writer
  have h : Tree.Renders classPrefix tree writer := renders_ofEvents classPrefix es
  refine ⟨fun n => (renders_ofEvents classPrefix (es.take n)).depth, ?_, h.intoMarkup⟩
  exact (h.closingAll.html rfl).symm

/-- **A tree and a writer have the same markup** of events that end as they should. -/
theorem html_ofEvents (classPrefix : String) (es : List Event) :
    Sink.html (Sink.ofEvents classPrefix (es ++ [.finish]) : Tree) =
      Sink.html (Sink.ofEvents classPrefix (es ++ [.finish]) : Writer) := by
  refine (renders_ofEvents classPrefix (es ++ [.finish])).html ?_
  rw [Sink.ofEvents, Sink.feedAll_append, Sink.feedAll, Sink.feedAll, Sink.feed]
  rfl

end CodeMarkup.Markup
