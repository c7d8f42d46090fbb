import CodeMarkup.Proofs.Highlight.InRange
import CodeMarkup.Proofs.Language.Registered
import CodeMarkup.Proofs.Markup.Opened

/-! # Nodes and modes

Nodes are open as modes are: the open nodes are those of the open modes above the root that have a
category (`Scan.Mirrors`). A step reports content, then closes the nodes of the modes that end, then
opens the node of the mode that begins (`Scan.turn_step`), so it keeps to this, the node of a mode is
closed when that mode ends and not before, and a node is open wherever one closes. At the end of the
code all that are still open are closed (`nodes_mirror_modes`). -/

namespace CodeMarkup

open Markup (Event Opener openers ClosesOpen)

variable {ρ : Type} [Engine ρ]

/-- The categories that nodes of modes have, of those modes that have one. -/
def Language.kindsOf (l : Language ρ) (ids : List Nat) : List String :=
  ids.filterMap fun id => (l.mode id).className.map l.displayClass

theorem Language.kindsOf_append (l : Language ρ) (ids others : List Nat) :
    l.kindsOf (ids ++ others) = l.kindsOf ids ++ l.kindsOf others := List.filterMap_append

theorem Language.kindsOf_cons (l : Language ρ) (id : Nat) (ids : List Nat) :
    l.kindsOf (id :: ids) = ((l.mode id).className.map l.displayClass).toList ++ l.kindsOf ids := by
  unfold Language.kindsOf
  rw [List.filterMap_cons]
  cases (l.mode id).className <;> rfl

namespace Scan

/-! ### Content -/

/-- Nothing but content has been reported. -/
def Tells (s s' : State ρ) : Prop :=
  ∃ content, (∀ e ∈ content, e.isContent) ∧ s'.events = content ++ s.events

omit [Engine ρ] in
theorem Tells.refl (s : State ρ) : Tells s s := ⟨[], nofun, rfl⟩

omit [Engine ρ] in
theorem Tells.trans {s t u : State ρ} (h : Tells s t) (h' : Tells t u) : Tells s u := by
  obtain ⟨content, hcontent, hevents⟩ := h
  obtain ⟨more, hmore, hevents'⟩ := h'
  refine ⟨more ++ content, fun e he => ?_, by rw [hevents', hevents, List.append_assoc]⟩
  exact (List.mem_append.mp he).elim (hmore e) (hcontent e)

omit [Engine ρ] in
theorem tells_emit (s : State ρ) {e : Event} (he : e.isContent) : Tells s (s.emit e) :=
  ⟨[e], by simpa using he, rfl⟩

omit [Engine ρ] in
theorem tells_emitText (s : State ρ) (t : String) : Tells s (s.emitText t) := by
  unfold State.emitText
  split
  · exact .refl s
  · exact tells_emit s rfl

theorem tells_readWords (l : Language ρ) (table : KeywordTable) (text : List Char) :
    ∀ (ws : List Regex.Span) (last : Nat) (pending : String) (s : State ρ),
      Tells s (readWords l table text ws last pending s)
  | [], _, _, s => tells_emitText s _
  | w :: ws, last, pending, s => by
    have ih := tells_readWords l table text ws w.stop
    rw [readWords]
    split
    · exact ih _ _
    · next entry _ =>
      have hpending : ∀ t : String, Tells s ((s.emitText t).weigh entry.relevance) :=
        fun t => tells_emitText s t
      dsimp only
      split
      · exact (hpending _).trans (ih _ _)
      · split
        · exact (hpending _).trans (ih _ _)
        · exact ((hpending _).trans (tells_emit _ rfl)).trans (ih _ _)

theorem tells_embed (m : CompiledMode ρ) (o : Outcome ρ) (s : State ρ) : Tells s (embed m o s) := by
  unfold embed
  split <;> exact tells_emit _ rfl

variable {env : Setting ρ}

/-- **Reporting content neither opens nor closes a node.** -/
theorem Reported.tells {s s' : State ρ} (h : Reported env s s') : Tells s s' := by
  have hcleared : Tells s s.cleared := .refl s
  cases h with
  | plain | unknown => exact hcleared.trans (tells_emitText s.cleared s.buffer)
  | words => exact hcleared.trans (tells_readWords ..)
  | empty => exact hcleared
  | named =>
    refine hcleared.trans (Tells.trans ?_ (tells_embed ..))
    unfold State.remember
    split <;> exact .refl s
  | detected => exact hcleared.trans (tells_embed ..)

theorem tells_finish {s s' : State ρ} (h : finish env s = .ok s') : Tells s s' := by
  unfold finish at h
  have htells := (reported_of_readContent h).tells
  exact htells

theorem tells_contentAtBegin {m : CompiledMode ρ} {lexeme : String} {s s' : State ρ}
    (h : contentAtBegin env m lexeme s = .ok s') : Tells s s' := by
  rcases contentAtBegin_cases h with ⟨-, rfl⟩ | ⟨-, t, ht, rfl⟩
  · exact .refl s
  · have htells := ht.tells
    split at htells <;> split <;> exact htells

theorem tells_contentAtEnd {m : CompiledMode ρ} {lexeme : String} {s s' : State ρ}
    (h : contentAtEnd env m lexeme s = .ok s') : Tells s s' := by
  rcases contentAtEnd_cases h with ⟨-, rfl⟩ | ⟨-, t, ht, rfl⟩
  · exact .refl s
  · have htells := ht.tells
    split at htells <;> split <;> exact htells

theorem events_keepChar (env : Setting ρ) (s : State ρ) (index : Nat) :
    (keepChar env s index).1.events = s.events := by
  obtain ⟨text, htext⟩ := exists_keep_keepChar env s index
  rw [htext]
  rfl

/-! ### Opening and closing -/

theorem events_start (l : Language ρ) (s : State ρ) (f : Frame ρ) :
    (start l s f).events = (l.kindsOf [f.mode]).map .opening ++ s.events := by
  unfold start Language.kindsOf
  dsimp only
  split <;> next h => simp [h, State.emit]

theorem events_stop (m : CompiledMode ρ) (s : State ρ) :
    (stop m s).events = (if m.className.isSome then [Event.closing] else []) ++ s.events := by
  unfold stop
  dsimp only
  split <;> split <;> rfl

/-- Taking frames off closes the nodes of their modes. -/
theorem events_close (l : Language ρ) : ∀ (n : Nat) (ended : Option (Frame ρ)) (s : State ρ),
    (close l n ended s).1.events =
      List.replicate (l.kindsOf (s.course.modes.take n)).length .closing ++ s.events
  | 0, _, _ => rfl
  | n + 1, ended, s => by
    unfold close
    split
    · next hf =>
      have hm : s.course.modes = [] := by simp [State.course, hf]
      rw [hm]
      rfl
    · next f fs hf =>
      have hm : s.course.modes = f.mode :: fs.map Frame.mode := by simp [State.course, hf]
      have hstop : (stop (l.mode f.mode) { s with frames := fs }).course.modes =
          fs.map Frame.mode := congrArg Course.modes (course_stop ..)
      rw [events_close l n, hstop, events_stop, hm, List.take_succ_cons, Language.kindsOf_cons]
      cases (l.mode f.mode).className with
      | none => rfl
      | some kind =>
        rw [Option.map_some, Option.toList_some, List.singleton_append, List.length_cons,
          List.replicate_succ', List.append_assoc]
        rfl

theorem events_startNext (l : Language ρ) (ended : Option (Frame ρ)) (s : State ρ) :
    (startNext l ended s).events =
      (l.kindsOf (following l (ended.map Frame.mode)).toList).map .opening ++ s.events := by
  unfold startNext following
  cases ended with
  | none => rfl
  | some f =>
    dsimp only [Option.map_some, Option.bind_some]
    split
    · next h => rw [h]; rfl
    · next h => rw [h, events_start]; rfl

/-! ### Steps -/

/-- Some modes end, but not the root, and a mode may begin: content is reported first, then the nodes
of the modes that end close, innermost first, then that of the mode that begins opens. -/
structure Turn (l : Language ρ) (s s' : State ρ) (ended : Nat) (begun : Option Nat) : Prop where
  lt : ended < s.course.modes.length
  modes : s'.course.modes = begun.toList ++ s.course.modes.drop ended
  events : ∃ content, (∀ e ∈ content, e.isContent) ∧
    s'.events = (l.kindsOf begun.toList).map .opening ++
      (List.replicate (l.kindsOf (s.course.modes.take ended)).length .closing ++
        (content ++ s.events))

theorem Turn.of_tells {l : Language ρ} {s s' : State ρ} (hs : 0 < s.course.modes.length)
    (hmodes : s'.course.modes = s.course.modes) (h : Tells s s') : Turn l s s' 0 none :=
  ⟨hs, hmodes, h⟩

theorem turn_keepChar (env : Setting ρ) {s : State ρ} (hs : 0 < s.course.modes.length)
    (index : Nat) : Turn env.language s (keepChar env s index).1 0 none :=
  .of_tells hs (congrArg Course.modes (course_keepChar env s index).1)
    ⟨[], nofun, events_keepChar env s index⟩

/-- Modes that end close after the content before them, and the mode that follows opens. -/
theorem turn_ends {s t : State ρ} {found : Found} {place : Nat} {frames : List (Frame ρ)}
    {m : CompiledMode ρ} {lexeme : String}
    (hending : endingFrame env found s.frames = .ok (some place, frames))
    (hcontent : contentAtEnd env m lexeme { s with frames } = .ok t) :
    ∃ ended begun, Turn env.language s
      (startNext env.language (close env.language (t.frames.length - max place 1) none t).2
        (close env.language (t.frames.length - max place 1) none t).1) ended begun := by
  obtain ⟨hcourse, hframes, hplace⟩ := course_ending hending hcontent
  have hmodes : t.course.modes = s.course.modes := congrArg Course.modes hcourse
  have hlength : t.frames.length = s.course.modes.length := by
    simpa [State.course] using congrArg List.length hmodes
  obtain ⟨content, hreported, hevents⟩ := tells_contentAtEnd hcontent
  refine ⟨t.frames.length - max place 1, following env.language
    (s.course.modes.take (t.frames.length - max place 1)).getLast?, ?_, ?_, content, hreported, ?_⟩
  · rw [← hframes] at hplace
    omega
  · rw [course_ended, hmodes]
  · rw [events_startNext, events_close, (course_close ..).2, Option.map_none, Option.or_none, hmodes,
      hevents]

theorem Followed.turn {s s' : State ρ} (hs : 0 < s.course.modes.length) {found : Found}
    {taken : Nat} (h : Followed env s found s' taken) :
    ∃ ended begun, Turn env.language s s' ended begun := by
  -- that the match is remembered concerns neither the modes nor what is reported
  suffices hmatched : ∃ ended begun, Turn env.language (s.matched found) s' ended begun by
    obtain ⟨ended, begun, hturn⟩ := hmatched
    exact ⟨ended, begun, hturn.lt, hturn.modes, hturn.events⟩
  cases h with
  | empty =>
    have hturn := turn_keepChar env hs found.index
    exact ⟨0, none, hturn.lt, hturn.modes, hturn.events⟩
  | refused | emptyIllegal => exact ⟨0, none, turn_keepChar env (s := s.matched found) hs found.index⟩
  | passed | illegal => exact ⟨0, none, .of_tells hs rfl ⟨[], nofun, rfl⟩⟩
  | endless _ _ hending =>
    exact ⟨0, none, .of_tells hs (modes_endingFrame hending).1 ⟨[], nofun, rfl⟩⟩
  | @begins id _ t _ _ _ hcontent =>
    obtain ⟨content, hreported, hevents⟩ := tells_contentAtBegin hcontent
    refine ⟨0, some id, hs, ?_, content, hreported, ?_⟩
    · rw [course_start, course_contentAtBegin hcontent]
      rfl
    · rw [events_start, hevents]
      rfl
  | ends _ _ hending hcontent => exact turn_ends (s := s.matched found) hending hcontent

/-- **Every step is a turn.** -/
theorem turn_step {s s' : State ρ} (hs : 0 < s.course.modes.length)
    (h : step env s = .ok (some s')) : ∃ ended begun, Turn env.language s s' ended begun := by
  obtain ⟨found, firstRule, t, taken, -, hfollowed, rfl⟩ := exists_followed_of_step h
  obtain ⟨ended, begun, hturn⟩ := hfollowed.turn (s := onMatch env s found firstRule) hs
  exact ⟨ended, begun, hturn.lt, hturn.modes, hturn.events⟩

/-! ### What is open -/

namespace Turn

variable {l : Language ρ} {s s' : State ρ} {ended : Nat} {begun : Option Nat}
  (h : Turn l s s' ended begun)

include h

/-- **The nodes of modes that go on stay as they are**, those of modes that end are closed, and the
mode that begins has a new one. -/
theorem openers_eq : ∃ opened, openers s'.events =
      opened ++ (openers s.events).drop (l.kindsOf (s.course.modes.take ended)).length ∧
    opened.map Opener.kind = l.kindsOf begun.toList ∧ ∀ o ∈ opened, s.events.length ≤ o.place := by
  obtain ⟨content, hcontent, hevents⟩ := h.events
  obtain ⟨opened, heq, hkinds, hplace⟩ := Markup.openers_append_openings (List.replicate
    (l.kindsOf (s.course.modes.take ended)).length .closing ++ (content ++ s.events))
      (l.kindsOf begun.toList)
  refine ⟨opened, ?_, hkinds, fun o ho => le_trans ?_ (hplace o ho)⟩
  · rw [hevents, heq, Markup.openers_append_closings, Markup.openers_append_content _ hcontent]
  · rw [List.length_append, List.length_append]
    omega

end Turn

/-- The open nodes are those of the open modes above the root, and wherever a node has closed one was
open. -/
structure Mirrors (l : Language ρ) (s : State ρ) : Prop where
  root : 0 < s.course.modes.length
  kinds : (openers s.events).map Opener.kind = l.kindsOf s.course.modes.dropLast
  closes : ClosesOpen s.events

/-- The modes above the root that end, and those above it that go on. -/
theorem kindsOf_dropLast (l : Language ρ) {modes : List Nat} {n : Nat} (hn : n < modes.length) :
    l.kindsOf modes.dropLast = l.kindsOf (modes.take n) ++ l.kindsOf (modes.drop n).dropLast := by
  have hne : modes.drop n ≠ [] := List.ne_nil_of_length_pos (by rw [List.length_drop]; omega)
  rw [← Language.kindsOf_append, ← List.dropLast_append_of_ne_nil hne, List.take_append_drop]

/-- **A turn keeps nodes and modes together.** -/
theorem Turn.mirrors {l : Language ρ} {s s' : State ρ} {ended : Nat} {begun : Option Nat}
    (h : Turn l s s' ended begun) (hs : Mirrors l s) : Mirrors l s' := by
  have hlt := h.lt
  have hne : s.course.modes.drop ended ≠ [] :=
    List.ne_nil_of_length_pos (by rw [List.length_drop]; omega)
  refine ⟨?_, ?_, ?_⟩
  · rw [h.modes, List.length_append, List.length_drop]
    omega
  · obtain ⟨opened, heq, hkinds, -⟩ := h.openers_eq
    rw [heq, List.map_append, hkinds, List.map_drop, hs.kinds, h.modes,
      List.dropLast_append_of_ne_nil hne, kindsOf_dropLast l hlt, List.drop_left,
      Language.kindsOf_append]
  · obtain ⟨content, hcontent, hevents⟩ := h.events
    have htold : ClosesOpen (content ++ s.events) :=
      Markup.closesOpen_append hs.closes fun e he hclosing => by
        have := hcontent e he
        rw [hclosing] at this
        cases this
    rw [hevents]
    refine Markup.closesOpen_append (Markup.closesOpen_closings htold _ ?_) fun e he hclosing => ?_
    · rw [Markup.openers_append_content _ hcontent, ← List.length_map Opener.kind, hs.kinds,
        kindsOf_dropLast l hlt, List.length_append]
      exact Nat.le_add_right _ _
    · obtain ⟨kind, -, hkind⟩ := List.mem_map.mp he
      cases hkind.trans hclosing

/-- Before the code there is a node for each of the modes above the root. -/
theorem mirrors_initial (l : Language ρ) {frames : List (Frame ρ)} (hframes : 0 < frames.length) :
    Mirrors l (initial l frames) := by
  have hevents : (initial l frames).events =
      (l.kindsOf (frames.map Frame.mode).dropLast).map .opening := by
    unfold initial
    rw [← List.map_dropLast]
    induction frames.dropLast with
    | nil => rfl
    | cons f fs ih =>
      rw [List.foldr_cons, List.map_cons, Language.kindsOf_cons, List.map_append, ← ih]
      cases (l.mode f.mode).className <;> rfl
  obtain ⟨opened, heq, hkinds, -⟩ :=
    Markup.openers_append_openings [] (l.kindsOf (frames.map Frame.mode).dropLast)
  rw [List.append_nil] at heq
  refine ⟨?_, ?_, ?_⟩
  · rw [course_initial]
    simpa using hframes
  · rw [hevents, heq, course_initial]
    simpa [openers] using hkinds
  · rw [hevents, ← List.append_nil (List.map _ _)]
    refine Markup.closesOpen_append Markup.closesOpen_nil fun e he hclosing => ?_
    obtain ⟨kind, -, hkind⟩ := List.mem_map.mp he
    cases hkind.trans hclosing

theorem mirrors_leads {s s' : State ρ} (hs : Mirrors env.language s) (h : Leads env s s') :
    Mirrors env.language s' := by
  induction h with
  | refl => exact hs
  | tail _ hstep ih =>
    obtain ⟨ended, begun, hturn⟩ := turn_step ih.root hstep
    exact hturn.mirrors ih

/-- What is reported last is content. -/
theorem mirrors_run {steps : Nat} {s s' : State ρ} (hs : Mirrors env.language s)
    (h : run env steps s = .ok s') : Mirrors env.language s' := by
  obtain ⟨t, hleads, -, hfinish⟩ := exists_leads_of_run h
  have ht := mirrors_leads hs hleads
  have hmodes := congrArg (·.course.modes) (control_finish hfinish)
  have hturn : Turn env.language t s' 0 none := .of_tells ht.root hmodes (tells_finish hfinish)
  exact hturn.mirrors ht

end Scan

/-- The nodes open in a tree built from what has been reported. -/
theorem Scan.Mirrors.kinds_tree {l : Language ρ} {s : Scan.State ρ} (h : Scan.Mirrors l s)
    (classPrefix : String) :
    (Markup.Sink.ofEvents classPrefix s.events.reverse : Markup.Tree).kinds =
      (l.kindsOf s.course.modes.dropLast).map some := by
  rw [Markup.Tree.kinds_ofEvents, ← h.kinds, List.map_map]
  rfl

theorem length_startingFrames_pos (key : String) (l : Language ρ)
    (continuation : Option (ModeStack ρ)) : 0 < (startingFrames key l continuation).length := by
  obtain ⟨top, rest, hmodes⟩ := (opens_startingFrames key l continuation).exists_cons
  rw [← List.length_map Frame.mode, hmodes]
  exact Nat.succ_pos _

/-- **Nodes are open as modes are.** Whenever the next match is looked for, the open nodes are those
of the open modes above the root that have a category, and wherever a node has closed one was open.
A step closes the nodes of the modes that end in it, opens one for the mode that begins, and leaves
the others alone. When the code has ended, just the nodes of the modes that are given back are left
to be closed. -/
theorem nodes_mirror_modes (classPrefix : String) :
    (∀ (env : Setting ρ) continuation s, Scan.Leads env
        (Scan.initial env.language (startingFrames env.name env.language continuation)) s →
      (Markup.Sink.ofEvents classPrefix s.events.reverse : Markup.Tree).kinds =
        (env.language.kindsOf s.course.modes.dropLast).map some ∧
      ClosesOpen s.events ∧
      ∀ s', Scan.step env s = .ok (some s') → ∃ ended begun,
        Scan.Turn env.language s s' ended begun ∧
        ∃ opened, openers s'.events = opened ++
            (openers s.events).drop (env.language.kindsOf (s.course.modes.take ended)).length ∧
          opened.map Opener.kind = env.language.kindsOf begun.toList ∧
          ∀ o ∈ opened, s.events.length ≤ o.place) ∧
    ∀ (r : Registry ρ) o depth name code ignoreIllegals continuation out top,
      highlightWithin r o depth name code ignoreIllegals continuation = .ok out →
      out.top = some top → ∃ key l es, r.resolve name = some (key, l) ∧ top.language = key ∧
        out.events = es ++ [.closingAll, .finish] ∧ ClosesOpen es.reverse ∧
        (Markup.Sink.ofEvents classPrefix es : Markup.Tree).kinds =
          (l.kindsOf (top.frames.map Frame.mode).dropLast).map some := by
  refine ⟨fun env continuation s hs => ?_, fun r o depth name code ignoreIllegals continuation out top
    h htop => ?_⟩
  · have hmirrors := Scan.mirrors_leads (Scan.mirrors_initial env.language
      (length_startingFrames_pos env.name env.language continuation)) hs
    refine ⟨hmirrors.kinds_tree classPrefix, hmirrors.closes, fun s' hstep => ?_⟩
    obtain ⟨ended, begun, hturn⟩ := Scan.turn_step hmirrors.root hstep
    exact ⟨ended, begun, hturn, hturn.openers_eq⟩
  · obtain ⟨depth, key, l, hl, hout⟩ := exists_outcome_of_top h htop
    obtain ⟨s, hrun, rfl⟩ := Scan.outcome_eq_ok hout
    cases htop
    have hmirrors : Scan.Mirrors l s := Scan.mirrors_run
      (Scan.mirrors_initial l (length_startingFrames_pos key l continuation)) hrun
    refine ⟨key, l, s.events.reverse, hl, rfl, rfl, ?_, hmirrors.kinds_tree classPrefix⟩
    rw [List.reverse_reverse]
    exact hmirrors.closes

/-- The node of a string that has not ended is open until the code has. -/
theorem nodes_mirror_modes_quoted : ∃ (r : Registry Regex.Tried) (out : Outcome Regex.Tried)
    (es : List Event), highlight r {} "Quoted" "\"a" true none = .ok out ∧
      out.events = es ++ [.closingAll, .finish] ∧
      (Markup.Sink.ofEvents "hljs-" es : Markup.Tree).kinds = [some "string"] := by
  obtain ⟨l, hl, h⟩ : ∃ l, Language.compile Registry.quoted "Quoted" = .ok l ∧
      (highlight (Registry.empty.put "Quoted" l) {} "Quoted" "\"a" true none :
        Except Problem (Outcome Regex.Tried)).toOption.any fun out =>
          out.top.any fun top => l.kindsOf (top.frames.map Frame.mode).dropLast == ["string"] :=
    exists_of_any (by decide +kernel)
  obtain ⟨out, hout, htop⟩ := exists_of_any h
  obtain ⟨top, htop, hkinds⟩ := (Option.any_eq_true _ _).mp htop
  have hname := (Registry.built_put hl).2
  have hwithin := hout
  rw [highlight_eq] at hwithin
  obtain ⟨key, l', es, hname', -, hevents, -, heq⟩ :=
    (nodes_mirror_modes "hljs-").2 _ _ _ _ _ _ _ out top hwithin htop
  cases hname.symm.trans hname'
  exact ⟨_, out, es, hout, hevents, by rw [heq, beq_iff_eq.mp hkinds]; rfl⟩

end CodeMarkup
