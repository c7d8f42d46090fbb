import CodeMarkup.Markup.Tree

/-! # Open nodes

Which nodes are open after a row of events can be told from the events that open and close
(`openers`): a tree that is built from them has just these open (`Tree.kinds_ofEvents`). Content
neither opens nor closes a node, and a close concerns the node opened last. -/

namespace CodeMarkup.Markup

/-- An event that has opened a node. -/
structure Opener where
  /-- The number of events before it. -/
  place : Nat
  kind : String

/-- What has opened the nodes that are still open after some events, given latest first; the
innermost node comes first. -/
def openers : List Event → List Opener
  | [] => []
  | .opening kind :: es => ⟨es.length, kind⟩ :: openers es
  | .closing :: es => (openers es).tail
  | .closingAll :: _ => []
  | .finish :: _ => []
  | .text _ :: es => openers es
  | .keyword .. :: es => openers es
  | .embedded .. :: es => openers es

/-- Whether an event neither opens nor closes a node. -/
def Event.isContent : Event → Bool
  | .text _ => true
  | .keyword .. => true
  | .embedded .. => true
  | _ => false

/-- Wherever a node closes one is open. The events are given latest first. -/
def ClosesOpen (es : List Event) : Prop :=
  ∀ before, Event.closing :: before <:+ es → openers before ≠ []

/-! ### Rows of events -/

theorem openers_cons_content {e : Event} (he : e.isContent) (es : List Event) :
    openers (e :: es) = openers es := by
  cases e <;> first | rfl | cases he

theorem openers_append_content (es : List Event) : ∀ {content : List Event},
    (∀ e ∈ content, e.isContent) → openers (content ++ es) = openers es
  | [], _ => rfl
  | e :: content, h => by
    obtain ⟨he, hcontent⟩ := List.forall_mem_cons.mp h
    rw [List.cons_append, openers_cons_content he, openers_append_content es hcontent]

theorem openers_append_closings (es : List Event) : ∀ n : Nat,
    openers (List.replicate n .closing ++ es) = (openers es).drop n
  | 0 => rfl
  | n + 1 => by
    rw [List.replicate_succ, List.cons_append, openers, openers_append_closings es n, List.tail_drop]

/-- Nodes that have been opened after some events, by later events. -/
theorem openers_append_openings (es : List Event) : ∀ kinds : List String,
    ∃ opened, openers (kinds.map .opening ++ es) = opened ++ openers es ∧
      opened.map Opener.kind = kinds ∧ ∀ o ∈ opened, es.length ≤ o.place
  | [] => ⟨[], rfl, rfl, nofun⟩
  | kind :: kinds => by
    obtain ⟨opened, heq, hkinds, hplace⟩ := openers_append_openings es kinds
    refine ⟨⟨(kinds.map Event.opening ++ es).length, kind⟩ :: opened, ?_, ?_, ?_⟩
    · rw [List.map_cons, List.cons_append, openers, heq, List.cons_append]
    · rw [List.map_cons, hkinds]
    · exact List.forall_mem_cons.mpr ⟨by simp, hplace⟩

theorem closesOpen_nil : ClosesOpen [] := fun before h => by
  cases List.suffix_nil.mp h

theorem closesOpen_cons {e : Event} {es : List Event} (hes : ClosesOpen es)
    (he : e = .closing → openers es ≠ []) : ClosesOpen (e :: es) := fun before h => by
  rcases List.suffix_cons_iff.mp h with heq | h
  · obtain ⟨rfl, rfl⟩ := List.cons.inj heq
    exact he rfl
  · exact hes before h

theorem closesOpen_append {es : List Event} (hes : ClosesOpen es) : ∀ {more : List Event},
    (∀ e ∈ more, e ≠ .closing) → ClosesOpen (more ++ es)
  | [], _ => hes
  | e :: more, h => by
    obtain ⟨he, hmore⟩ := List.forall_mem_cons.mp h
    exact closesOpen_cons (closesOpen_append hes hmore) fun hclosing => absurd hclosing he

theorem closesOpen_closings {es : List Event} (hes : ClosesOpen es) : ∀ n : Nat,
    n ≤ (openers es).length → ClosesOpen (List.replicate n .closing ++ es)
  | 0, _ => hes
  | n + 1, hn => by
    rw [List.replicate_succ, List.cons_append]
    refine closesOpen_cons (closesOpen_closings hes n (Nat.le_of_succ_le hn)) fun _ => ?_
    rw [openers_append_closings]
    exact List.ne_nil_of_length_pos (by rw [List.length_drop]; omega)

/-! ### Trees -/

namespace Tree

/-- The categories of the open nodes, innermost first. -/
def kinds (t : Tree) : List (Option String) := t.opened.map Node.category

theorem kinds_modifyTop (t : Tree) {f : Node → Node} (hf : ∀ n, (f n).category = n.category) :
    (t.modifyTop f).kinds = t.kinds := by
  unfold modifyTop kinds
  cases t.opened with
  | nil => rfl
  | cons n ns => rw [List.map_cons, List.map_cons, hf]

theorem kinds_text (t : Tree) (s : String) : (t.text s).kinds = t.kinds := by
  unfold text
  split
  · rfl
  · exact kinds_modifyTop t fun _ => rfl

theorem kinds_closing (t : Tree) : t.closing.kinds = t.kinds.tail := by
  unfold closing
  cases h : t.opened with
  | nil => rw [kinds, h, List.map_nil, List.tail_nil]
  | cons n ns =>
    rw [show t.kinds.tail = ns.map Node.category by rw [kinds, h, List.map_cons, List.tail_cons]]
    exact kinds_modifyTop { t with opened := ns } fun _ => rfl

theorem kinds_embed (t inner : Tree) (name : Option String) : (t.embed inner name).kinds = t.kinds :=
  kinds_modifyTop t fun _ => rfl

theorem kinds_keyword (t : Tree) (word kind : String) :
    (Sink.keyword t word kind).kinds = t.kinds := by
  unfold Sink.keyword
  split
  · rfl
  · exact (kinds_closing _).trans (congrArg List.tail (kinds_text (t.opening kind) word))

theorem kinds_finish (t : Tree) : t.finish.kinds = [] := kinds_modifyTop _ fun _ => rfl

/-- **The nodes that are open in a tree are those that events have opened and not closed.** -/
theorem kinds_ofEvents (classPrefix : String) (es : List Event) :
    (Sink.ofEvents classPrefix es.reverse : Tree).kinds = (openers es).map (some ·.kind) := by
  induction es with
  | nil => rfl
  | cons e es ih =>
    unfold Sink.ofEvents at ih ⊢
    rw [List.reverse_cons, Sink.feedAll_append]
    change (Sink.feed classPrefix (Sink.feedAll classPrefix (Sink.blank classPrefix)
      es.reverse) e : Tree).kinds = _
    generalize (Sink.feedAll classPrefix (Sink.blank classPrefix) es.reverse : Tree) = t at ih
    cases e with
    | text s => exact (kinds_text t s).trans ih
    | opening kind => exact congrArg (some kind :: ·) ih
    | closing =>
      rw [openers, List.map_tail, ← ih]
      exact kinds_closing t
    | closingAll => rfl
    | keyword word kind => exact (kinds_keyword t word kind).trans ih
    | embedded name events => exact (kinds_embed t _ name).trans ih
    | finish => exact kinds_finish t

end Tree

end CodeMarkup.Markup
