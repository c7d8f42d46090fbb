import CodeMarkup.Proofs.Markup.Agreement
import CodeMarkup.Proofs.Markup.Content

/-! # Merged text

A tree is merged if no leaves of text stand side by side in it. Collapsing a tree merges it and does
nothing else: the text, the markup and the nodes in their order stay, and a tree that is merged
already is left as it is (`Token.collapseOnto_of_merged`). A tree that is built from events merges
text as it comes and has no empty leaf (`Tree.isTidy_ofEvents`), so that finishing it only closes the
open nodes (`collapse_normal_form`). -/

namespace CodeMarkup.Markup

namespace Token

/-- Whether a token is a leaf of text. -/
def isText : Token → Bool
  | .text _ => true
  | .node .. => false

/-- Whether a row of tokens starts with a leaf of text. -/
def startsText (ts : List Token) : Bool := ts.head?.any isText

/-- Whether a row of tokens ends with a leaf of text. -/
def endsText (ts : List Token) : Bool := ts.getLast?.any isText

mutual

/-- Whether no leaves of text stand side by side in a token, at any depth. -/
def isMerged : Token → Bool
  | .text _ => true
  | .node _ _ children => allMerged children

/-- Whether no leaves of text stand side by side in a row of tokens, at any depth. -/
def allMerged : List Token → Bool
  | [] => true
  | t :: ts => t.isMerged && !(t.isText && startsText ts) && allMerged ts

end

mutual

/-- Whether no leaf of text in a token is empty. -/
def isFilled : Token → Bool
  | .text s => !s.isEmpty
  | .node _ _ children => allFilled children

/-- Whether no leaf of text in a row of tokens is empty. -/
def allFilled : List Token → Bool
  | [] => true
  | t :: ts => t.isFilled && allFilled ts

end

mutual

/-- A token without the text in it. -/
def bare : Token → List Token
  | .text _ => []
  | .node category embedded children => [.node category embedded (bareAll children)]

/-- A row of tokens without the text in them. -/
def bareAll : List Token → List Token
  | [] => []
  | t :: ts => t.bare ++ bareAll ts

end

/-! ### Rows -/

theorem allMerged_append : ∀ ts us : List Token, allMerged (ts ++ us) =
    (allMerged ts && !(endsText ts && startsText us) && allMerged us)
  | [], us => by simp [allMerged, endsText]
  | [t], us => by simp [allMerged, endsText, startsText]
  | t :: u :: ts, us => by
    have ih := allMerged_append (u :: ts) us
    have hends : endsText (t :: u :: ts) = endsText (u :: ts) := by
      simp [endsText]
    have hstarts : startsText ((u :: ts) ++ us) = startsText (u :: ts) := rfl
    rw [List.cons_append, allMerged, ih, hstarts, hends]
    conv => rhs; rw [allMerged]
    simp only [Bool.and_assoc]

theorem allFilled_append (ts us : List Token) :
    allFilled (ts ++ us) = (allFilled ts && allFilled us) := by
  induction ts with
  | nil => simp [allFilled]
  | cons t ts ih => rw [List.cons_append, allFilled, ih, allFilled, Bool.and_assoc]

theorem bareAll_append (ts us : List Token) : bareAll (ts ++ us) = bareAll ts ++ bareAll us := by
  induction ts with
  | nil => rfl
  | cons t ts ih => rw [List.cons_append, bareAll, ih, bareAll, List.append_assoc]

/-- Text becomes a leaf of its own, or the end of the leaf that is there. -/
theorem pushText_cases (ts : List Token) (s : String) :
    endsText ts = false ∧ pushText ts s = ts ++ [.text s] ∨
      ∃ us t, ts = us ++ [.text t] ∧ pushText ts s = us ++ [.text (t ++ s)] := by
  fun_induction pushText ts s with
  | case1 s => exact .inl ⟨rfl, rfl⟩
  | case2 s t => exact .inr ⟨[], _, rfl, rfl⟩
  | case3 t ts s hne ih =>
    cases ts with
    | nil =>
      refine .inl ⟨?_, rfl⟩
      cases t with
      | text t => exact absurd rfl (hne t rfl)
      | node => rfl
    | cons u ts =>
      rcases ih with ⟨hends, heq⟩ | ⟨us, v, hts, heq⟩
      · refine .inl ⟨?_, by rw [heq]; rfl⟩
        rw [← hends]
        simp [endsText]
      · exact .inr ⟨t :: us, v, by rw [hts]; rfl, by rw [heq]; rfl⟩

theorem allMerged_pushText {ts : List Token} (h : allMerged ts) (s : String) :
    allMerged (pushText ts s) := by
  rcases pushText_cases ts s with ⟨hends, heq⟩ | ⟨us, t, rfl, heq⟩
  · rw [heq, allMerged_append, h, hends]
    rfl
  · rw [allMerged_append] at h
    rw [heq, allMerged_append]
    exact h

theorem allFilled_pushText {ts : List Token} (h : allFilled ts) {s : String}
    (hs : s.isEmpty = false) : allFilled (pushText ts s) := by
  rcases pushText_cases ts s with ⟨-, heq⟩ | ⟨us, t, rfl, heq⟩
  · rw [heq, allFilled_append, h, allFilled, isFilled, hs]
    rfl
  · have hts : (t ++ s).isEmpty = false := by simp_all
    rw [allFilled_append, Bool.and_eq_true] at h
    rw [heq, allFilled_append, h.1, allFilled, isFilled, hts]
    rfl

theorem bareAll_pushText (ts : List Token) (s : String) : bareAll (pushText ts s) = bareAll ts := by
  rcases pushText_cases ts s with ⟨-, heq⟩ | ⟨us, t, rfl, heq⟩
  · rw [heq, bareAll_append]
    exact List.append_nil _
  · rw [heq, bareAll_append, bareAll_append]
    rfl

/-- A node may follow whatever there is. -/
theorem allMerged_push {ts : List Token} (h : allMerged ts) {category : Option String}
    {embedded : Bool} {children : List Token} (hchildren : allMerged children) :
    allMerged (ts ++ [.node category embedded children]) := by
  rw [allMerged_append, h, allMerged, isMerged, hchildren]
  simp [startsText, isText, allMerged]

/-! ### Collapsing -/

/-- A row that is collapsed is merged. -/
theorem allMerged_collapseOnto : ∀ (done ts : List Token), allMerged done →
    allMerged (collapseOnto done ts)
  | done, [], h => by rwa [collapseOnto]
  | done, .text s :: ts, h => by
    rw [collapseOnto]
    exact allMerged_collapseOnto _ ts (allMerged_pushText h s)
  | done, .node category embedded children :: ts, h => by
    rw [collapseOnto]
    exact allMerged_collapseOnto _ ts
      (allMerged_push h (allMerged_collapseOnto [] children rfl))

/-- Collapsing keeps the nodes. -/
theorem bareAll_collapseOnto : ∀ done ts : List Token,
    bareAll (collapseOnto done ts) = bareAll done ++ bareAll ts
  | done, [] => by rw [collapseOnto, bareAll, List.append_nil]
  | done, .node category embedded children :: ts => by
    rw [collapseOnto, bareAll_collapseOnto _ ts, bareAll_append, bareAll, bareAll, bare,
      bareAll_collapseOnto [] children, bareAll, bareAll, bare, List.nil_append, List.append_nil,
      List.append_assoc]
  | done, .text s :: ts => by
    rw [collapseOnto, bareAll_collapseOnto _ ts, bareAll_pushText, bareAll, bare, List.nil_append]

/-- What is merged is left as it is. -/
theorem collapseOnto_of_merged : ∀ done ts : List Token, allMerged (done ++ ts) →
    collapseOnto done ts = done ++ ts
  | done, [], _ => by rw [collapseOnto, List.append_nil]
  | done, .text s :: ts, h => by
    have hends : endsText done = false := by
      rw [allMerged_append] at h
      simp only [startsText, List.head?_cons, Option.any_some, isText, Bool.and_eq_true,
        Bool.and_true, Bool.not_eq_true'] at h
      exact h.1.2
    have hpush : pushText done s = done ++ [.text s] := by
      rcases pushText_cases done s with ⟨-, heq⟩ | ⟨us, t, rfl, -⟩
      · exact heq
      · simp [endsText, isText] at hends
    rw [collapseOnto, hpush, collapseOnto_of_merged _ ts (by simpa using h), List.append_assoc]
    rfl
  | done, .node category embedded children :: ts, h => by
    have hchildren : allMerged children := by
      rw [allMerged_append, allMerged, isMerged] at h
      simp only [Bool.and_eq_true] at h
      exact h.2.1.1
    rw [collapseOnto, collapseOnto_of_merged [] children hchildren, List.nil_append,
      collapseOnto_of_merged _ ts (by simpa using h), List.append_assoc]
    rfl

end Token

/-! ### Trees -/

/-- A node in which no leaves of text stand side by side and none is empty, at any depth. -/
structure Node.IsTidy (n : Node) : Prop where
  merged : Token.allMerged n.children
  filled : Token.allFilled n.children

namespace Node.IsTidy

theorem empty (category : Option String) : (Node.empty category).IsTidy := ⟨rfl, rfl⟩

variable {n m : Node} (h : n.IsTidy)

include h

theorem pushText {s : String} (hs : s.isEmpty = false) : (n.pushText s).IsTidy :=
  ⟨Token.allMerged_pushText h.merged s, Token.allFilled_pushText h.filled hs⟩

theorem push (hm : m.IsTidy) (category : Option String) (embedded : Bool) :
    (n.push (.node category embedded m.children)).IsTidy where
  merged := Token.allMerged_push h.merged hm.merged
  filled := by
    rw [Node.push, Token.allFilled_append, h.filled, Token.allFilled, Token.isFilled, hm.filled]
    rfl

theorem collapse_eq : n.collapse = n := by
  rw [Node.collapse, Token.collapseOnto_of_merged [] n.children h.merged, List.nil_append]

end Node.IsTidy

namespace Tree

/-- A tree whose root and open nodes are tidy. -/
def IsTidy (t : Tree) : Prop := ∀ n ∈ t.root :: t.opened, n.IsTidy

variable {t : Tree} (h : t.IsTidy)

include h

/-- A change that keeps nodes tidy keeps the tree tidy. -/
theorem IsTidy.modifyTop {f : Node → Node} (hf : ∀ n : Node, n.IsTidy → (f n).IsTidy) :
    (t.modifyTop f).IsTidy := by
  obtain ⟨p, root, opened⟩ := t
  obtain ⟨hroot, hopened⟩ := List.forall_mem_cons.mp h
  cases opened with
  | nil => exact List.forall_mem_cons.mpr ⟨hf root hroot, hopened⟩
  | cons n ns =>
    obtain ⟨hn, hns⟩ := List.forall_mem_cons.mp hopened
    exact List.forall_mem_cons.mpr ⟨hroot, List.forall_mem_cons.mpr ⟨hf n hn, hns⟩⟩

theorem IsTidy.text (s : String) : (t.text s).IsTidy := by
  unfold Tree.text
  split
  · exact h
  · next hs => exact h.modifyTop fun n hn => hn.pushText (Bool.eq_false_iff.mpr hs)

theorem IsTidy.opening (kind : String) : (t.opening kind).IsTidy := by
  obtain ⟨hroot, hopened⟩ := List.forall_mem_cons.mp h
  exact List.forall_mem_cons.mpr ⟨hroot, List.forall_mem_cons.mpr ⟨.empty _, hopened⟩⟩

theorem IsTidy.closing : t.closing.IsTidy := by
  obtain ⟨p, root, opened⟩ := t
  cases opened with
  | nil => exact h
  | cons n ns =>
    obtain ⟨hroot, hopened⟩ := List.forall_mem_cons.mp h
    obtain ⟨hn, hns⟩ := List.forall_mem_cons.mp hopened
    have hrest : IsTidy ⟨p, root, ns⟩ := List.forall_mem_cons.mpr ⟨hroot, hns⟩
    exact hrest.modifyTop fun m hm => hm.push hn n.category n.embedded

omit h in
theorem isTidy_closeInto {root : Node} (hroot : root.IsTidy) : ∀ opened : List Node,
    (∀ n ∈ opened, n.IsTidy) → (closeInto root opened).IsTidy
  | [], _ => by rwa [closeInto]
  | [n], h => by
    rw [closeInto]
    exact hroot.push (h n List.mem_cons_self) n.category n.embedded
  | n :: m :: ns, h => by
    obtain ⟨hn, hrest⟩ := List.forall_mem_cons.mp h
    obtain ⟨hm, hns⟩ := List.forall_mem_cons.mp hrest
    rw [closeInto]
    exact isTidy_closeInto hroot _
      (List.forall_mem_cons.mpr ⟨hm.push hn n.category n.embedded, hns⟩)
  termination_by opened => opened.length

theorem IsTidy.intoRoot : t.intoRoot.IsTidy := by
  obtain ⟨hroot, hopened⟩ := List.forall_mem_cons.mp h
  exact isTidy_closeInto hroot t.opened hopened

theorem IsTidy.closingAll : t.closingAll.IsTidy :=
  List.forall_mem_cons.mpr ⟨h.intoRoot, List.forall_mem_nil _⟩

theorem IsTidy.embed {inner : Tree} (hinner : inner.IsTidy) (name : Option String) :
    (t.embed inner name).IsTidy :=
  h.modifyTop fun _ hn => hn.push hinner.intoRoot name true

/-- Finishing a tidy tree closes its open nodes and does nothing else. -/
theorem IsTidy.finish_eq : t.finish = t.closingAll := by
  change { t.closingAll with root := t.intoRoot.collapse } = t.closingAll
  rw [h.intoRoot.collapse_eq]
  rfl

omit h

/-- **Every event keeps a tree tidy.** -/
theorem related_isTidy (classPrefix : String) :
    Sink.Related classPrefix fun (t _ : Tree) => t.IsTidy where
  blank := List.forall_mem_cons.mpr ⟨.empty none, List.forall_mem_nil _⟩
  text h := h.text
  opening h := h.opening
  closing h := h.closing
  closingAll h := h.closingAll
  embed h hi := h.embed hi
  finish {t _} h := by
    change t.finish.IsTidy
    rw [h.finish_eq]
    exact h.closingAll

/-- A tree that is built from events is tidy. -/
theorem isTidy_ofEvents (classPrefix : String) (es : List Event) :
    (Sink.ofEvents classPrefix es : Tree).IsTidy :=
  (related_isTidy classPrefix).feedAll (t := Tree.blank classPrefix)
    (related_isTidy classPrefix).blank es

end Tree

/-! ### Normal forms -/

/-- **Collapsing brings every tree into a normal form, and what is built from events is in it.** A
tree that is collapsed keeps its text, its markup under every prefix and its nodes, is merged at
every depth and left as it is by collapsing it again. A tree built from events has no empty leaf of
text and none beside another one, in its root and in its open nodes, so that finishing it closes the
open nodes and changes nothing else. -/
theorem collapse_normal_form (n : Node) (classPrefix : String) (es : List Event) :
    let tree : Tree := Sink.ofEvents classPrefix es
    (n.collapse.text = n.text ∧ n.collapse.render classPrefix = n.render classPrefix ∧
        n.collapse.token.isMerged ∧ n.collapse.token.bare = n.token.bare ∧
        n.collapse.collapse = n.collapse) ∧
      (∀ m ∈ tree.root :: tree.opened, m.token.isMerged ∧ m.token.isFilled) ∧
        tree.finish = tree.closingAll := by
  intro tree
  have htidy : tree.IsTidy := Tree.isTidy_ofEvents classPrefix es
  have hmerged : Token.allMerged n.collapse.children :=
    Token.allMerged_collapseOnto [] n.children rfl
  refine ⟨⟨n.text_collapse, ?_, ?_, ?_, ?_⟩, fun m hm => ?_, htidy.finish_eq⟩
  · exact Token.render_collapse classPrefix n.token
  · rwa [Node.token, Token.isMerged]
  · rw [Node.token, Node.token, Token.bare, Token.bare, Node.collapse,
      Token.bareAll_collapseOnto [] n.children]
    rfl
  · rw [Node.collapse, Token.collapseOnto_of_merged [] n.collapse.children hmerged, List.nil_append]
  · obtain ⟨hmerged, hfilled⟩ := htidy m hm
    rw [Node.token, Token.isMerged, Token.isFilled]
    exact ⟨hmerged, hfilled⟩

end CodeMarkup.Markup
