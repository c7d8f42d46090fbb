import CodeMarkup.Proofs.Highlight.Followed
import CodeMarkup.Proofs.Highlight.Outcomes
import CodeMarkup.Proofs.Language.Landing
import CodeMarkup.Proofs.Markup.Content

/-! # No text is lost

While code is gone through, what has been reported, the content that is kept back and the code still
to come are the code (`Scan.State.Covers`). Every step keeps this, so at the end all of the code has
been reported, once and in order. Embedded code is gone through in the same way, so the argument
goes by how deep it is embedded. -/

namespace CodeMarkup

open Markup (Event)
open Regex (Span)

variable {ρ : Type} [Engine ρ]

/-- A mode that keeps the texts of its begin and its end once: a text that is gone through again is
not kept before. -/
structure CompiledMode.TakesOnce (m : CompiledMode ρ) : Prop where
  begin_ : m.returnBegin = true → m.skip = false ∧ m.excludeBegin = false
  end_ : m.returnEnd = true → m.skip = false ∧ m.excludeEnd = false

/-- A language whose patterns match where they are looked for and whose modes keep texts once. -/
structure Language.Lossless (l : Language ρ) : Prop where
  lands : ∀ m ∈ l.modes, m.Lands
  takesOnce : ∀ m ∈ l.modes, m.TakesOnce

/-- Embedded code is reported as it is. -/
structure Nested.Lossless (n : Nested ρ) : Prop where
  named : ∀ key code stack o, n.named key code stack = .ok o → Event.charsOf o.events = code
  detect : ∀ code subset o, n.detect code subset = .ok o → Event.charsOf o.events = code

theorem Language.root_mem (l : Language ρ) : l.root ∈ l.modes := Array.getElem_mem _

theorem Language.mode_mem (l : Language ρ) (id : Nat) : l.mode id ∈ l.modes := by
  unfold mode mode?
  cases h : l.modes[id]? with
  | none => exact l.root_mem
  | some m => exact Array.mem_of_getElem? h

namespace Scan

theorem topMode_mem (env : Setting ρ) (s : State ρ) : topMode env s ∈ env.language.modes := by
  unfold topMode
  split
  · exact env.language.root_mem
  · exact env.language.mode_mem _

/-- The text that has been reported. -/
def State.reported (s : State ρ) : String := Event.charsOf s.events.reverse

/-- The text that has been reported or is kept back. -/
def State.text (s : State ρ) : String := s.reported ++ s.buffer

/-- What is behind an offset. -/
def restFrom (cs : List Char) (n : Nat) : String := String.ofList (Text.rest cs n)

/-- What has been reported or is kept back is the code up to the index. -/
def State.Covers (code : List Char) (s : State ρ) : Prop :=
  s.text ++ restFrom code s.index = String.ofList code ∧
    (Text.IsPlace code s.index ∨ Text.byteSize code < s.index)

/-! ### Cuts -/

theorem between_eq {cs part : List Char} {a b : Nat} (h : Text.slice? cs a b = some part) :
    between cs a b = String.ofList part := by
  rw [between, h, Option.getD_some]

theorem between_append_restFrom {cs part : List Char} {a b : Nat}
    (h : Text.slice? cs a b = some part) : between cs a b ++ restFrom cs b = restFrom cs a := by
  rw [between_eq h, restFrom, restFrom, ← String.ofList_append, Text.append_rest h]

theorem between_end {cs : List Char} {a : Nat} (h : Text.IsPlace cs a) :
    between cs a (Text.byteSize cs) = restFrom cs a := by
  rw [between_eq (Text.slice?_end h), restFrom]

theorem restFrom_of_lt {cs : List Char} {n : Nat} (h : Text.byteSize cs < n) :
    restFrom cs n = "" := by
  rw [restFrom, Text.rest_of_not_isPlace fun hp => by have := hp.le; omega]

/-- What is left from a place on, or from behind the text on. -/
theorem between_size {cs : List Char} {a : Nat} (h : Text.IsPlace cs a ∨ Text.byteSize cs < a) :
    between cs a (Text.byteSize cs) = restFrom cs a := by
  rcases h with hp | hlt
  · exact between_end hp
  · rw [restFrom_of_lt hlt, between]
    cases hb : Text.slice? cs a (Text.byteSize cs) with
    | none => rfl
    | some part =>
      have := (Text.isPlace_left hb).le
      omega

theorem restFrom_end (cs : List Char) : restFrom cs (Text.byteSize cs) = "" := by
  rw [← between_end (Text.isPlace_end cs), between_eq (Text.slice?_end (Text.isPlace_end cs))]
  simp [Text.rest, Text.dropTo?_eq_some.mpr ⟨cs, (List.append_nil cs).symm, rfl⟩]

/-! ### Reporting -/

omit [Engine ρ] in
theorem reported_emit (s : State ρ) (e : Event) : (s.emit e).reported = s.reported ++ e.chars := by
  simp [State.emit, State.reported, Markup.Event.charsOf_append, Markup.Event.charsOf]

omit [Engine ρ] in
theorem reported_emitText (s : State ρ) (t : String) :
    (s.emitText t).reported = s.reported ++ t := by
  unfold State.emitText
  split
  · next h => simp [String.isEmpty_iff.mp h]
  · exact reported_emit s _

omit [Engine ρ] in
theorem buffer_emitText (s : State ρ) (t : String) : (s.emitText t).buffer = s.buffer := by
  unfold State.emitText
  split <;> rfl

omit [Engine ρ] in
theorem text_keep (s : State ρ) (t : String) : (s.keep t).text = s.text ++ t := by
  simp [State.keep, State.text, State.reported, String.append_assoc]

/-- Words and what is between them are reported. -/
theorem reported_readWords (l : Language ρ) (table : KeywordTable) (text : List Char) :
    ∀ (ws : List Span) (last : Nat) (pending : String) (s : State ρ),
      Text.IsPlace text last → Span.Follow text last ws →
      (readWords l table text ws last pending s).reported =
          s.reported ++ pending ++ restFrom text last ∧
        (readWords l table text ws last pending s).buffer = s.buffer
  | [], last, pending, s, hl, _ => by
    rw [readWords, between_end hl, reported_emitText, buffer_emitText]
    exact ⟨by rw [String.append_assoc], rfl⟩
  | w :: ws, last, pending, s, hl, ⟨hle, ⟨part, hw⟩, hws⟩ => by
    obtain ⟨gap, hgap⟩ := Text.exists_slice? hl (Text.isPlace_left hw) hle
    have hstop := Text.isPlace_right hw
    -- what is left of the text is a gap, a word and what is behind them
    have hrest : between text last w.start ++ (between text w.start w.stop ++ restFrom text w.stop)
        = restFrom text last := by
      rw [between_append_restFrom hw, between_append_restFrom hgap]
    rw [← hrest, readWords]
    split
    · have h := reported_readWords l table text ws w.stop
        (pending ++ between text last w.start ++ between text w.start w.stop) s hstop hws
      exact ⟨by rw [h.1]; simp only [String.append_assoc], h.2⟩
    · next entry _ =>
      have hs : ∀ t, ((s.emitText t).weigh entry.relevance).reported = s.reported ++ t :=
        fun t => reported_emitText s t
      have hb : ∀ t, ((s.emitText t).weigh entry.relevance).buffer = s.buffer :=
        fun t => buffer_emitText s t
      dsimp only
      split
      · have h := reported_readWords l table text ws w.stop (between text w.start w.stop)
          ((s.emitText (pending ++ between text last w.start)).weigh entry.relevance) hstop hws
        exact ⟨by rw [h.1, hs]; simp only [String.append_assoc], by rw [h.2, hb]⟩
      · split
        · next he =>
          have h := reported_readWords l table text ws w.stop ""
            ((s.emitText (pending ++ between text last w.start)).weigh entry.relevance) hstop hws
          rw [String.isEmpty_iff.mp he]
          exact ⟨by rw [h.1, hs]; simp only [String.append_assoc, String.empty_append], by
            rw [h.2, hb]⟩
        · have h := reported_readWords l table text ws w.stop ""
            (((s.emitText (pending ++ between text last w.start)).weigh entry.relevance).emit
              (.keyword (between text w.start w.stop) (l.displayClass entry.category))) hstop hws
          refine ⟨?_, h.2.trans (hb _)⟩
          rw [h.1, reported_emit, hs, Event.chars]
          simp only [String.append_assoc, String.empty_append]

theorem reported_embed (m : CompiledMode ρ) (o : Outcome ρ) (s : State ρ) :
    (embed m o s).reported = s.reported ++ Event.charsOf o.events ∧
      (embed m o s).buffer = s.buffer := by
  unfold embed
  split
  · exact ⟨by rw [reported_emit, Event.chars]; rfl, rfl⟩
  · exact ⟨by rw [reported_emit, Event.chars], rfl⟩

omit [Engine ρ] in
theorem text_remember (s : State ρ) (key : String) (o : Outcome ρ) :
    (s.remember key o).reported = s.reported ∧ (s.remember key o).buffer = s.buffer := by
  unfold State.remember
  split <;> exact ⟨rfl, rfl⟩

/-! ### What is kept of a match -/

/-- What is kept of a match at a place and how far to go on belong together. -/
structure Takes (code : List Char) (place : Nat) (s s' : State ρ) (taken : Nat) : Prop where
  text : s'.text ++ restFrom code (place + taken) = s.text ++ restFrom code place
  place : Text.IsPlace code (place + taken) ∨ Text.byteSize code < place + taken

/-- A setting in which no text is lost. -/
structure Sound (env : Setting ρ) : Prop where
  language : env.language.Lossless
  nested : env.nested.Lossless

omit [Engine ρ] in
theorem takes_none {code : List Char} {place : Nat} {s s' : State ρ}
    (hp : Text.IsPlace code place) (ht : s'.text = s.text) : Takes code place s s' 0 :=
  ⟨by rw [ht, Nat.add_zero], Or.inl hp⟩

omit [Engine ρ] in
theorem takes_part {code part : List Char} {place taken : Nat} {s s' : State ρ}
    (hp : Text.slice? code place (place + taken) = some part)
    (ht : s'.text = s.text ++ String.ofList part) : Takes code place s s' taken :=
  ⟨by rw [ht, String.append_assoc, ← between_eq hp, between_append_restFrom hp],
    Or.inl (Text.isPlace_right hp)⟩

/-- A found match as it stands in the code. -/
def Stands (code : List Char) (found : Found) : Prop :=
  Text.slice? code found.index (found.index + found.lexeme.utf8ByteSize) = some found.lexeme.toList

omit [Engine ρ] in
theorem takes_lexeme {code : List Char} {found : Found} {s s' : State ρ}
    (hf : Stands code found) (ht : s'.text = s.text ++ found.lexeme) :
    Takes code found.index s s' found.lexeme.utf8ByteSize :=
  takes_part hf (by rw [ht, String.ofList_toList])

omit [Engine ρ] in
/-- The text of a match is kept unless it is to be gone through again. -/
theorem takes_returning {code : List Char} {found : Found} {s s' : State ρ} {returns : Bool}
    (hf : Stands code found) (ht : s'.text = s.text ++ if returns then "" else found.lexeme) :
    Takes code found.index s s' (if returns then 0 else found.lexeme.utf8ByteSize) := by
  cases returns with
  | true => exact takes_none (Text.isPlace_left hf) (ht.trans (String.append_empty))
  | false => exact takes_lexeme hf ht

theorem takes_keepChar (env : Setting ρ) (s : State ρ) {place : Nat}
    (hp : Text.IsPlace env.code place) :
    Takes env.code place s (keepChar env s place).1 (keepChar env s place).2 := by
  unfold keepChar
  split
  · next behind hn =>
    obtain ⟨hlt, c, hc⟩ := Text.nextPlace?_eq_some hn
    have hb : place + (behind - place) = behind := by omega
    refine takes_part (hb.symm ▸ hc) ?_
    rw [text_keep, between_eq hc]
  · next hn =>
    obtain rfl := Text.nextPlace?_eq_none hn hp
    refine ⟨?_, Or.inr (Nat.lt_succ_self _)⟩
    show s.text ++ restFrom env.code (Text.byteSize env.code + 1) = _
    rw [restFrom_end, restFrom_of_lt (Nat.lt_succ_self _)]

/-! ### At a begin -/

variable {env : Setting ρ}

/-- **Reporting the content of the top mode leaves none.** -/
theorem Reported.text (he : Sound env) {s s' : State ρ} (h : Reported env s s') :
    s'.reported = s.text ∧ s'.buffer = "" := by
  cases h with
  | plain | unknown =>
    exact ⟨reported_emitText s.cleared s.buffer, buffer_emitText s.cleared s.buffer⟩
  | @words table ws _ _ hws =>
    have hlands := he.language.lands _ (topMode_mem env s)
    have hread := reported_readWords env.language table s.buffer.toList ws 0 "" s.cleared
      (Text.isPlace_zero _) (hlands.words _ _ hws)
    rwa [restFrom, Text.rest_zero, String.ofList_toList, String.append_empty] at hread
  | empty _ hempty =>
    refine ⟨?_, rfl⟩
    rw [State.text, hempty, String.append_empty]
    rfl
  | @named name key o _ _ _ ho =>
    obtain ⟨hreported, hbuffer⟩ := reported_embed (topMode env s) o (s.cleared.remember key o)
    obtain ⟨hremember, hremember'⟩ := text_remember s.cleared key o
    rw [he.nested.named _ _ _ _ ho, hremember] at hreported
    exact ⟨hreported, hbuffer.trans hremember'⟩
  | @detected names o _ _ ho =>
    obtain ⟨hreported, hbuffer⟩ := reported_embed (topMode env s) o s.cleared
    rw [he.nested.detect _ _ _ ho] at hreported
    exact ⟨hreported, hbuffer⟩

theorem text_start (l : Language ρ) (s : State ρ) (f : Frame ρ) : (start l s f).text = s.text := by
  unfold start
  dsimp only
  split
  · show ((s.emit _).reported ++ s.buffer : String) = s.text
    rw [reported_emit, Event.chars, String.append_empty]
    rfl
  · rfl

/-- At a begin the buffer is reported with the text of the begin, or that text is kept, or it is
gone through again. -/
theorem text_contentAtBegin (he : Sound env) {m : CompiledMode ρ} (hm : m.TakesOnce)
    {lexeme : String} {s s' : State ρ} (h : contentAtBegin env m lexeme s = .ok s') :
    s'.text = s.text ++ if m.returnBegin then "" else lexeme := by
  rcases contentAtBegin_cases h with ⟨hskip, rfl⟩ | ⟨-, t, ht, rfl⟩
  · have hr : m.returnBegin = false := by
      cases hr : m.returnBegin with
      | false => rfl
      | true => rw [(hm.begin_ hr).1] at hskip; cases hskip
    rw [text_keep, hr]
    rfl
  · obtain ⟨hrep, hbuf⟩ := ht.text he
    cases hr : m.returnBegin with
    | true =>
      rw [(hm.begin_ hr).2] at hrep ⊢
      simp only [Bool.true_or, if_true, String.append_empty]
      rw [State.text, hrep, hbuf, String.append_empty]
      rfl
    | false =>
      cases hx : m.excludeBegin with
      | true =>
        rw [hx] at hrep
        simp only [Bool.or_true, if_true, Bool.false_eq_true, if_false]
        rw [State.text, hrep, hbuf, String.append_empty, if_pos rfl, text_keep]
      | false =>
        rw [hx] at hrep
        simp only [Bool.or_false, Bool.false_eq_true, if_false] at hrep ⊢
        show t.reported ++ lexeme = _
        rw [hrep]

/-! ### At an end -/

theorem text_stop (m : CompiledMode ρ) (s : State ρ) : (stop m s).text = s.text := by
  have hc : (if m.className.isSome then s.emit .closing else s).text = s.text := by
    split
    · show ((s.emit _).reported ++ s.buffer : String) = s.text
      rw [reported_emit, Event.chars, String.append_empty]
      rfl
    · rfl
  unfold stop
  dsimp only
  split <;> exact hc

theorem text_close (l : Language ρ) : ∀ (n : Nat) (ended : Option (Frame ρ)) (s : State ρ),
    (close l n ended s).1.text = s.text
  | 0, ended, s => rfl
  | n + 1, ended, s => by
    unfold close
    split
    · rfl
    · rw [text_close l n, text_stop]
      rfl

theorem text_startNext (l : Language ρ) (ended : Option (Frame ρ)) (s : State ρ) :
    (startNext l ended s).text = s.text := by
  unfold startNext
  split
  · rfl
  · dsimp only
    split
    · rfl
    · exact text_start l s _

/-- At an end the buffer is reported with the text of the end, or that text is kept, or it is gone
through again. -/
theorem text_contentAtEnd (he : Sound env) {m : CompiledMode ρ} (hm : m.TakesOnce)
    {lexeme : String} {s s' : State ρ} (h : contentAtEnd env m lexeme s = .ok s') :
    s'.text = s.text ++ if m.returnEnd then "" else lexeme := by
  rcases contentAtEnd_cases h with ⟨hskip, rfl⟩ | ⟨-, t, ht, rfl⟩
  · have hr : m.returnEnd = false := by
      cases hr : m.returnEnd with
      | false => rfl
      | true => rw [(hm.end_ hr).1] at hskip; cases hskip
    rw [text_keep, hr]
    rfl
  · obtain ⟨hrep, hbuf⟩ := ht.text he
    cases hr : m.returnEnd with
    | true =>
      rw [hr, Bool.true_or, if_pos rfl] at hrep
      rw [(hm.end_ hr).2, if_neg Bool.false_ne_true, if_pos rfl, String.append_empty, State.text,
        hrep, hbuf, String.append_empty]
    | false =>
      rw [hr, Bool.false_or] at hrep
      rw [if_neg Bool.false_ne_true]
      split
      · next hx =>
        rw [if_pos hx] at hrep
        show t.reported ++ lexeme = _
        rw [hrep]
      · next hx =>
        rw [if_neg hx, text_keep] at hrep
        rw [State.text, hrep, hbuf, String.append_empty]

/-! ### Following a match -/

/-- **Following a match keeps its text or leaves it to be gone through again.** -/
theorem Followed.takes (he : Sound env) {s s' : State ρ} {found : Found} {taken : Nat}
    (hf : Stands env.code found) (h : Followed env s found s' taken) :
    Takes env.code found.index s s' taken := by
  have hp := Text.isPlace_left hf
  -- that the match is remembered does not concern the text
  suffices hmatched : Takes env.code found.index (s.matched found) s' taken from
    ⟨hmatched.text, hmatched.place⟩
  cases h with
  | empty =>
    have hkept := takes_keepChar env s hp
    exact ⟨hkept.text, hkept.place⟩
  | refused | emptyIllegal => exact takes_keepChar env (s.matched found) hp
  | passed => exact takes_none hp rfl
  | illegal | endless => exact takes_lexeme hf (text_keep _ _)
  | @begins id _ t _ _ _ hcontent =>
    refine takes_returning hf ?_
    rw [text_start]
    exact text_contentAtBegin he (he.language.takesOnce _ (env.language.mode_mem id)) hcontent
  | ends _ _ _ hcontent =>
    refine takes_returning hf ?_
    rw [text_startNext, text_close]
    have htext := text_contentAtEnd he (he.language.takesOnce _ (topMode_mem env _)) hcontent
    exact htext

/-! ### Going through code -/

omit [Engine ρ] in
/-- What is before a match is kept. -/
theorem text_keep_between {code : List Char} {s : State ρ} {place : Nat} (hs : s.Covers code)
    (hle : s.index ≤ place) (hplace : Text.IsPlace code place) :
    (s.keep (between code s.index place)).text ++ restFrom code place = String.ofList code := by
  have hi := hs.2.resolve_right (Nat.not_lt.mpr (Nat.le_trans hle hplace.le))
  obtain ⟨gap, hgap⟩ := Text.exists_slice? hi hplace hle
  rw [text_keep, String.append_assoc, between_append_restFrom hgap, hs.1]

/-- **A step keeps the code.** -/
theorem covers_step (he : Sound env) {s s' : State ρ} (hs : s.Covers env.code)
    (h : step env s = .ok (some s')) : s'.Covers env.code := by
  obtain ⟨found, firstRule, t, taken, hfind, hfollowed, rfl⟩ := exists_followed_of_step h
  have hm := (he.language.lands _ (topMode_mem env s)).matcher
  obtain ⟨hle, hf⟩ := Matcher.slice?_of_find hm hfind
  have htakes := hfollowed.takes he hf
  refine ⟨?_, htakes.place⟩
  rw [← text_keep_between hs hle (Text.isPlace_left hf)]
  exact htakes.text

/-- At the end all of the code has been reported. -/
theorem reported_finish (he : Sound env) {s s' : State ρ} (hs : s.Covers env.code)
    (h : finish env s = .ok s') : s'.reported = String.ofList env.code := by
  obtain ⟨htext, hplace⟩ := hs
  rw [((reported_of_readContent h).text he).1, text_keep, between_size hplace, htext]

/-- **Going through code to its end reports the code.** -/
theorem reported_run (he : Sound env) : ∀ (steps : Nat) (s s' : State ρ), s.Covers env.code →
    run env steps s = .ok s' → s'.reported = String.ofList env.code
  | 0, s, s', _, h => by cases h
  | steps + 1, s, s', hs, h => by
    unfold run at h
    split at h
    · cases h
    · exact reported_finish he hs h
    · next t ht => exact reported_run he steps t s' (covers_step he hs ht) h

/-- Opening modes again carries no text. -/
theorem covers_initial (l : Language ρ) (code : List Char) (frames : List (Frame ρ)) :
    (initial l frames).Covers code := by
  unfold initial
  induction frames.dropLast with
  | nil =>
    refine ⟨?_, Or.inl (Text.isPlace_zero code)⟩
    simp [State.text, State.reported, restFrom, Text.rest_zero, Event.charsOf]
  | cons f fs ih =>
    rw [List.foldr_cons]
    split
    · refine ⟨?_, ih.2⟩
      rw [← ih.1, State.text, reported_emit, Event.chars, String.append_empty]
      rfl
    · exact ih

/-- **What is reported of code is the code.** -/
theorem charsOf_outcome (he : Sound env) {frames : List (Frame ρ)} {o : Outcome ρ}
    (h : outcome env frames = .ok o) : Event.charsOf o.events = String.ofList env.code := by
  obtain ⟨s, hs, rfl⟩ := outcome_eq_ok h
  rw [finished, Event.charsOf_append,
    ← reported_run he _ _ _ (covers_initial env.language env.code frames) hs]
  simp [Event.charsOf, Event.chars, State.reported]

end Scan

end CodeMarkup
