import CodeMarkup.Markup.Event
import CodeMarkup.Markup.Hast
import CodeMarkup.Markup.NodeJson

/-! # Building token trees

`Tree` keeps the root and the nodes that are still open. An open node is not part of its parent
before it closes. -/

namespace CodeMarkup.Markup

/-- A token tree that is being built. -/
structure Tree where
  classPrefix : String
  /-- The root, without what is still open. -/
  root : Node
  /-- The open nodes, innermost first. -/
  opened : List Node
  deriving Inhabited, Repr

namespace Tree

/-- A tree without text. -/
def blank (classPrefix : String) : Tree := ⟨classPrefix, Node.empty none, []⟩

/-- Changes the innermost open node. -/
def modifyTop (t : Tree) (f : Node → Node) : Tree :=
  match t.opened with
  | [] => { t with root := f t.root }
  | n :: ns => { t with opened := f n :: ns }

/-- Appends text to the innermost open node. -/
def text (t : Tree) (s : String) : Tree := if s.isEmpty then t else t.modifyTop (·.pushText s)

/-- Opens a node. -/
def opening (t : Tree) (kind : String) : Tree :=
  { t with opened := Node.empty (some kind) :: t.opened }

/-- Closes the innermost open node. -/
def closing (t : Tree) : Tree :=
  match t.opened with
  | [] => t
  | n :: ns => ({ t with opened := ns } : Tree).modifyTop (·.push n.token)

/-- Closes the open nodes into a root, innermost first. -/
def closeInto (root : Node) : List Node → Node
  | [] => root
  | [n] => root.push n.token
  | n :: m :: ns => closeInto root (m.push n.token :: ns)
  termination_by opened => opened.length

/-- Closes all open nodes. -/
def closingAll (t : Tree) : Tree := { t with root := closeInto t.root t.opened, opened := [] }

/-- The root, with all nodes closed. -/
def intoRoot (t : Tree) : Node := t.closingAll.root

/-- Puts the tree of embedded code in place. -/
def embed (t inner : Tree) (name : Option String) : Tree :=
  t.modifyTop (·.push (.node name true inner.intoRoot.children))

/-- Closes all nodes and joins neighbouring leaves of text. -/
def finish (t : Tree) : Tree := t.closingAll.modifyTop Node.collapse

/-- The markup of the root. -/
def html (t : Tree) : String := t.root.render t.classPrefix

instance : Sink Tree where
  blank := blank
  text := text
  opening := opening
  closing := closing
  closingAll := closingAll
  embed := embed
  finish := finish
  html := html

/-- The tokens at the root. -/
def tokens (t : Tree) : List Token := t.root.children

/-- The text of the root. -/
def content (t : Tree) : String := t.root.text

/-- The root as JSON text. -/
def json (t : Tree) : String := t.root.toJson.pretty

/-- The root as an element tree. -/
def hast (t : Tree) : Json := Hast.document (t.root.hast t.classPrefix)

end Tree

end CodeMarkup.Markup
