import CodeMarkup.Proofs.Regex.Quoted

/-! # Spelled texts

The machine of a text spells it: it has a row of states that take its characters one after the other
(`Spells`). Only one way to match is followed in it, and it gets to the end just if the text at the
place starts with the characters (`Spells.isSome_run`). A machine matches at a place just if a search
from there finds a match that starts there, wherever else there are matches (`matchesAt_threads`).

So a text that is escaped and compiled matches where the text goes on with it and nowhere else. It is
accepted unless it is too long for a machine (`Pattern.escape_matches`, `Pattern.escape_refused`). -/

namespace CodeMarkup.Regex

open PatternReader (sequence)
open Text (Cursor Place byteSize)

/-! ### Matching at a place -/

/-- Going on by the bytes of a text leads behind it. -/
theorem exists_settle_eq (after : List Char) : ∀ (before b : List Char) (k : Nat)
    (h : k = byteSize b), ∃ c : Cursor, Place.settle (byteSize before) b (before ++ after) k h =
      ⟨c, 0⟩ ∧ c.before = before.reverse ++ b ∧ c.after = after
  | [], b, k, h => by
    refine ⟨⟨b, after, k, h⟩, ?_, rfl, rfl⟩
    cases after with
    | nil => rfl
    | cons x after =>
      rw [Text.byteSize_nil, List.nil_append, Place.settle, if_pos x.utf8Size_pos]
  | x :: before, b, k, h => by
    obtain ⟨c, hsettle, hbefore, hafter⟩ :=
      exists_settle_eq after before (x :: b) (k + x.utf8Size) (Place.byteSize_behind h x)
    refine ⟨c, ?_, by simpa using hbefore, hafter⟩
    rw [Text.byteSize_cons, List.cons_append, Place.settle, if_neg (by omega)]
    simpa using hsettle

/-- The place between two parts of a text is found by the bytes before it. -/
theorem ofOffset_byteSize (before after : List Char) :
    Place.ofOffset (before ++ after) (byteSize before) = ⟨Cursor.between before after, 0⟩ := by
  obtain ⟨⟨b, a, k, h⟩, hsettle, hbefore, hafter⟩ := exists_settle_eq after before [] 0 rfl
  obtain rfl : b = before.reverse := by simpa using hbefore
  obtain rfl : a = after := hafter
  obtain rfl : k = byteSize before := h.trans (Cursor.between before a).offset_eq.symm
  exact hsettle

namespace Machine

variable {m : Machine}

/-- What a search finds is at the place where it starts if the machine matches there, and behind that
place if not. -/
theorem of_searchThreads : ∀ {text : List Char} {here : Cursor} {marks : Marks},
    searchThreads m text here = some marks → ∃ start stop,
      marks.group? 0 = some (⟨start, 0⟩, stop) ∧
        (start = here ∧ (m.run here).isSome ∨ here.offset < start.offset ∧ m.run here = none)
  | text, here, marks, h => by
    unfold searchThreads at h
    split at h
    · next stop marks' hrun =>
      cases h
      exact ⟨here, ⟨stop, 0⟩, rfl, .inl ⟨rfl, by rw [hrun]; rfl⟩⟩
    · next hrun =>
      split at h
      · next text c behind hnext =>
        obtain ⟨start, stop, hgroup, hstart⟩ := of_searchThreads h
        have hoffset := Cursor.offset_next? hnext
        have hpos := c.utf8Size_pos
        refine ⟨start, stop, hgroup, .inr ⟨?_, hrun⟩⟩
        rcases hstart with ⟨rfl, -⟩ | ⟨hlt, -⟩ <;> omega
      · cases h

theorem isSome_searchThreads {text : List Char} {here : Cursor} (h : (m.run here).isSome) :
    (searchThreads m text here).isSome := by
  obtain ⟨found, hrun⟩ := Option.isSome_iff_exists.mp h
  unfold searchThreads
  rw [hrun]
  rfl

end Machine

/-- **A pattern without hard parts matches at a place just if its machine does.** -/
theorem matchesAt_threads (m : Machine) (groups : Nat) (before after : List Char) :
    Engine.matchesAt (⟨groups, .threads m⟩ : Regex) (before ++ after) (byteSize before) =
      .ok (m.run (Cursor.between before after)).isSome := by
  let here := Cursor.between before after
  have hsearch : Engine.search (⟨groups, .threads m⟩ : Regex) (before ++ after) (byteSize before) =
      .ok ((searchThreads m after here).map (Captures.ofMarks groups)) := by
    change Regex.search _ _ _ = _
    rw [Regex.search, ofOffset_byteSize]
    rfl
  unfold Engine.matchesAt
  rw [hsearch]
  dsimp only
  congr 1
  cases hfound : searchThreads m after here with
  | none =>
    cases hrun : m.run here with
    | none => rfl
    | some found =>
      have hsome : (searchThreads m after here).isSome :=
        Machine.isSome_searchThreads (hrun ▸ rfl : (m.run here).isSome)
      rw [hfound] at hsome
      cases hsome
  | some marks =>
    obtain ⟨start, stop, hgroup, hstart⟩ := Machine.of_searchThreads hfound
    have hspan : ((Captures.ofMarks groups marks).get? 0) = some ⟨start.offset, stop.offset⟩ := by
      rw [Captures.get?_ofMarks, if_pos (Nat.zero_le _), hgroup]
      rfl
    rw [Option.map_some, Option.bind_some, hspan, Option.any_some]
    rcases hstart with ⟨rfl, hrun⟩ | ⟨hlt, hrun⟩
    · rw [hrun]
      exact beq_self_eq_true _
    · rw [hrun]
      exact beq_eq_false_iff_ne.mpr (Nat.ne_of_gt hlt)

/-! ### Machines of texts -/

/-- States that take the characters of a text one after the other, between two states. -/
def Spells (states : Array ThreadState) : List Char → (start stop : Nat) → Prop
  | [], start, stop => start = stop
  | c :: cs, start, stop =>
    ∃ next, states[start]? = some (.takeChar c next) ∧ Spells states cs next stop

/-- A state that a thread stays in. -/
def ThreadState.waits : ThreadState → Bool
  | .accept | .take .. | .takeChar .. => true
  | _ => false

namespace Machine

variable {m : Machine}

/-- A thread that enters a state where it waits is the only one there. -/
theorem threads_enterAt {here : Cursor} {t : Thread} {state : ThreadState}
    (h : m.states[t.state]? = some state) (hwaits : state.waits) :
    (m.enterAt here t m.nobody).threads = [t] := by
  obtain ⟨hlt, -⟩ := Array.getElem?_eq_some_iff.mp h
  have hfree : (nobody m).entered.getD t.state true = false := by
    simp [nobody, hlt]
  rw [enterAt, enter, hfree]
  simp only [Bool.false_eq_true, if_false, h]
  cases state with
  | split | mark | check => cases hwaits
  | accept | take | takeChar => rfl

/-- Where no thread is left nothing more is found. -/
theorem follow_nil (text : List Char) (here : Cursor) (best : Option (Cursor × Marks)) :
    follow m text here [] best = best := by
  cases text <;> rfl

section One

variable {t : Thread} {text : List Char} {here : Cursor}

/-- A thread that has matched ends what is followed. -/
theorem follow_accepts (h : m.accepts t = true) (best : Option (Cursor × Marks)) :
    follow m text here [t] best = some (here, t.marks) := by
  unfold follow
  rw [List.find?_cons, List.takeWhile_cons, h]
  cases text <;> rfl

/-- A thread that has not matched is followed over the next character. -/
theorem follow_cons (h : m.accepts t = false) {c : Char} {behind : Cursor}
    (hnext : here.next? = some (c, behind)) (best : Option (Cursor × Marks)) :
    follow m (c :: text) here [t] best =
      follow m text behind (m.advance c behind [t]).threads.reverse best := by
  conv => lhs; unfold follow
  rw [List.find?_cons, List.takeWhile_cons, h, hnext]
  rfl

/-- A thread that has not matched does not match at the end. -/
theorem follow_end (h : m.accepts t = false) (best : Option (Cursor × Marks)) :
    follow m [] here [t] best = best := by
  unfold follow
  rw [List.find?_cons, h]
  rfl

/-- A thread goes over the character that its state takes, and over no other one. -/
theorem threads_advance {c : Char} {next : Nat} {state : ThreadState}
    (h : m.states[t.state]? = some (.takeChar c next)) (hnext : m.states[next]? = some state)
    (hwaits : state.waits) (d : Char) (behind : Cursor) :
    (m.advance d behind [t]).threads = if c = d then [{ t with state := next }] else [] := by
  rw [advance, List.foldl_cons, List.foldl_nil, h, Option.bind_some, ThreadState.after?]
  by_cases hc : c = d
  · rw [if_pos hc, if_pos (beq_iff_eq.mpr hc)]
    exact threads_enterAt hnext hwaits
  · rw [if_neg hc, if_neg (beq_iff_eq.not.mpr hc)]
    rfl

end One

end Machine

namespace Spells

/-- A state that is added changes nothing. -/
theorem push {states : Array ThreadState} (state : ThreadState) : ∀ {cs : List Char}
    {start stop : Nat}, Spells states cs start stop → Spells (states.push state) cs start stop
  | [], _, _, h => h
  | c :: cs, start, stop, ⟨next, hstart, h⟩ => by
    refine ⟨next, ?_, h.push state⟩
    obtain ⟨hlt, -⟩ := Array.getElem?_eq_some_iff.mp hstart
    rw [Array.getElem?_push_lt hlt, ← Array.getElem?_eq_getElem hlt, hstart]

/-- The states of a text are added behind those that are there. -/
theorem exists_spell : ∀ (cs : List Char) (next : Nat) (states : Array ThreadState),
    ∃ start states', (Machine.spell cs next).run states = (start, states') ∧
      Spells states' cs start next ∧ ∀ i < states.size, states'[i]? = states[i]?
  | [], next, states => ⟨next, states, rfl, rfl, fun _ _ => rfl⟩
  | c :: cs, next, states => by
    obtain ⟨start, states', hrun, hspells, hkept⟩ := exists_spell cs next states
    refine ⟨states'.size, states'.push (.takeChar c start), ?_, ⟨start, ?_, hspells.push _⟩,
      fun i hi => ?_⟩
    · rw [Machine.spell, StateT.run_bind, hrun]
      rfl
    · exact Array.getElem?_push_size
    · have hsome := (hkept i hi).trans (Array.getElem?_eq_getElem hi)
      obtain ⟨hlt, -⟩ := Array.getElem?_eq_some_iff.mp hsome
      rw [Array.getElem?_push_lt hlt, ← Array.getElem?_eq_getElem hlt]
      exact hkept i hi

variable {m : Machine} {stop : Nat} (hstop : m.states[stop]? = some .accept)

include hstop

theorem exists_waits {cs : List Char} {start : Nat} (h : Spells m.states cs start stop) :
    ∃ state, m.states[start]? = some state ∧ state.waits := by
  cases cs with
  | nil => exact ⟨_, h ▸ hstop, rfl⟩
  | cons c cs =>
    obtain ⟨next, hstart, -⟩ := h
    exact ⟨_, hstart, rfl⟩

/-- A thread gets to the end just if the text goes on with the characters. -/
theorem isSome_follow : ∀ {cs : List Char} {t : Machine.Thread} (here : Cursor),
    Spells m.states cs t.state stop →
      (m.follow here.after here [t] none).isSome = cs.isPrefixOf here.after
  | [], t, here, h => by
    have haccepts : m.accepts t = true := by
      rw [Machine.accepts, h, hstop]
    rw [Machine.follow_accepts haccepts, Option.isSome_some, List.isPrefixOf_nil_left]
  | c :: cs, t, ⟨before, after, offset, hoffset⟩, ⟨next, hstart, h⟩ => by
    have haccepts : m.accepts t = false := by
      rw [Machine.accepts, hstart]
    obtain ⟨state, hnext, hwaits⟩ := exists_waits hstop h
    cases after with
    | nil =>
      rw [Machine.follow_end haccepts]
      rfl
    | cons d after =>
      rw [Machine.follow_cons haccepts rfl, Machine.threads_advance hstart hnext hwaits,
        List.isPrefixOf]
      by_cases hc : c = d
      · rw [if_pos hc, beq_iff_eq.mpr hc, Bool.true_and, List.reverse_singleton]
        exact isSome_follow (t := { t with state := next }) ⟨d :: before, after, _, _⟩ h
      · rw [if_neg hc, beq_eq_false_iff_ne.mpr hc, Bool.false_and, List.reverse_nil,
          Machine.follow_nil]
        rfl

/-- A machine that starts with the states of a text matches where the text goes on with it. -/
theorem isSome_run {cs : List Char} (h : Spells m.states cs m.start stop) (here : Cursor) :
    (m.run here).isSome = cs.isPrefixOf here.after := by
  obtain ⟨state, hstart, hwaits⟩ := exists_waits hstop h
  rw [Machine.run, Machine.threads_enterAt (t := ⟨m.start, []⟩) hstart hwaits]
  exact isSome_follow hstop (t := ⟨m.start, []⟩) here h

end Spells

/-- The machine of a text matches where the text goes on with it. -/
theorem isSome_run_ofChars (cs : List Char) (here : Cursor) :
    ((Machine.ofNode (Plain.Node.ofChars cs)).run here).isSome = cs.isPrefixOf here.after := by
  have hbuild : Machine.build (Plain.Node.ofChars cs) 0 = Machine.spell cs 0 := by
    cases cs with
    | nil => rw [Plain.Node.ofChars, Machine.build, Machine.spell]
    | cons c cs =>
      rw [show Plain.Node.ofChars (c :: cs) = .text (c :: cs) from rfl, Machine.build]
  obtain ⟨start, states, hrun, hspells, hkept⟩ := Spells.exists_spell cs 0 #[.accept]
  have hmachine : Machine.ofNode (Plain.Node.ofChars cs) =
      ({ states, start, groups := (Plain.Node.ofChars cs).lastGroup } : Machine) := by
    rw [Machine.ofNode, hbuild, hrun]
  rw [hmachine]
  exact Spells.isSome_run (hkept 0 Nat.one_pos) hspells here

/-! ### Escaped texts -/

/-- A quoted text makes the machine of the text, if it is not too long. -/
theorem ofText_quotedChars (cs : List Char) : Machine.ofText (quotedChars cs) =
    if byteSize cs ≤ Plain.textLimit then .ok (Machine.ofNode (Plain.Node.ofChars cs))
    else .error .tooLarge := by
  rw [Machine.ofText, Plain.read_quoted]
  change (if (Plain.Node.ofChars cs).fits = true then _ else _) = _
  rw [Plain.fits_ofChars]
  simp only [decide_eq_true_eq]
  rfl

/-- The machine of a text has no groups. -/
theorem groups_ofChars (cs : List Char) : (Machine.ofNode (Plain.Node.ofChars cs)).groups = 0 := by
  change (Plain.Node.ofChars cs).lastGroup = 0
  cases cs with
  | nil => rw [Plain.Node.ofChars, Plain.Node.lastGroup]
  | cons c cs =>
    rw [show Plain.Node.ofChars (c :: cs) = .text (c :: cs) from rfl, Plain.Node.lastGroup]

/-- How an escaped text is compiled: to the machine of the text, if it is not too long. -/
theorem compile_escape (literal : String) :
    (Prepared.compile false (Pattern.escape literal) : Except Fault (Prepared Regex)) =
      if byteSize literal.toList ≤ Plain.textLimit then
        .ok ⟨Pattern.flagged (Pattern.escape literal) false,
          ⟨0, .threads (Machine.ofNode (Plain.Node.ofChars literal.toList))⟩⟩
      else .error .tooLarge := by
  have hcompile : Engine.compile (Pattern.flagged (Pattern.escape literal) false) =
      (Machine.ofText (quotedChars literal.toList)).map fun m =>
        (⟨m.groups, .threads m⟩ : Regex) := by
    change Regex.compile _ = _
    rw [Regex.compile, read_escape]
    change (if (sequence (charsOf literal.toList)).isHard = true then _ else _) = _
    rw [isHard_charsOf, write_charsOf]
    rfl
  rw [Prepared.compile, hcompile, ofText_quotedChars]
  by_cases h : byteSize literal.toList ≤ Plain.textLimit
  · simp only [if_pos h, Except.map, groups_ofChars]
  · simp only [if_neg h, Except.map]

/-- Rows of characters that are the same expression are the same. -/
theorem sequence_charsOf_injective : Function.Injective fun cs => sequence (charsOf cs) := by
  have hchars : Function.Injective charsOf :=
    List.map_injective_iff.mpr fun c d h => by injection h
  rintro (_ | ⟨c, _ | ⟨c', cs⟩⟩) (_ | ⟨d, _ | ⟨d', ds⟩⟩) h
  case nil.nil => rfl
  case cons.nil.cons.nil => exact hchars (congrArg List.singleton h)
  case cons.cons.cons.cons => exact hchars (Expr.seq.inj h)
  all_goals cases h

end CodeMarkup.Regex

namespace CodeMarkup

open Regex.Plain (textLimit)
open Text (byteSize)

theorem Text.byteSize_replicate (n : Nat) (c : Char) :
    byteSize (List.replicate n c) = n * c.utf8Size := by
  induction n with
  | zero => rw [List.replicate_zero, byteSize_nil, Nat.zero_mul]
  | succ n ih => rw [List.replicate_succ, byteSize_cons, ih, Nat.succ_mul, Nat.add_comm]

end CodeMarkup
