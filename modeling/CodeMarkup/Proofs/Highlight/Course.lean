import CodeMarkup.Proofs.Highlight.Followed
import CodeMarkup.Proofs.Text.Parts

/-! # The course of going through code

Which way going through code takes depends on the open modes, on the last match and on the rule to
go on with (`Scan.Course`); reporting content changes none of them. Following a match does one of five
things to the course (`Scan.Move`), and every step looks for a match and follows it so
(`Scan.step_cases`). -/

namespace CodeMarkup.Scan

variable {ρ : Type} [Engine ρ]

/-- What decides how going through code goes on, the place apart. -/
structure Course where
  /-- The numbers of the open modes, innermost first. -/
  modes : List Nat
  iterations : Nat
  firstRule : Nat
  resume : Bool
  lastMatch : Option (RuleKind × Nat)

/-- What is not content: the open modes with what is remembered of them, and how to go on. -/
structure Control (ρ : Type) where
  frames : List (Frame ρ)
  iterations : Nat
  index : Nat
  firstRule : Nat
  resume : Bool
  lastMatch : Option (RuleKind × Nat)

/-- The course that is decided. -/
def Control.course {ρ : Type} (c : Control ρ) : Course :=
  ⟨c.frames.map Frame.mode, c.iterations, c.firstRule, c.resume, c.lastMatch⟩

/-- What is not content in a state. -/
def State.control {ρ : Type} (s : State ρ) : Control ρ :=
  ⟨s.frames, s.iterations, s.index, s.firstRule, s.resume, s.lastMatch⟩

/-- The course of a state. -/
def State.course {ρ : Type} (s : State ρ) : Course :=
  ⟨s.frames.map Frame.mode, s.iterations, s.firstRule, s.resume, s.lastMatch⟩

/-- Whether the last match was a begin at a place. -/
def Course.HasBegun (c : Course) (index : Nat) : Prop := ∃ id, c.lastMatch = some (.begins id, index)

/-! ### Content -/

omit [Engine ρ] in
@[simp] theorem control_emit (s : State ρ) (e : Markup.Event) : (s.emit e).control = s.control := rfl

omit [Engine ρ] in
@[simp] theorem control_emitText (s : State ρ) (t : String) : (s.emitText t).control = s.control := by
  unfold State.emitText
  split <;> rfl

omit [Engine ρ] in
@[simp] theorem control_weigh (s : State ρ) (n : Nat) : (s.weigh n).control = s.control := rfl

omit [Engine ρ] in
@[simp] theorem control_keep (s : State ρ) (t : String) : (s.keep t).control = s.control := rfl

theorem control_readWords (l : Language ρ) (table : KeywordTable) (text : List Char) :
    ∀ (ws : List Regex.Span) (last : Nat) (pending : String) (s : State ρ),
      (readWords l table text ws last pending s).control = s.control
  | [], _, _, s => control_emitText s _
  | w :: ws, last, pending, s => by
    have ih := control_readWords l table text ws w.stop
    rw [readWords]
    split
    · exact ih _ _
    · dsimp only
      split
      · rw [ih, control_weigh, control_emitText]
      · split
        · rw [ih, control_weigh, control_emitText]
        · rw [ih, control_emit, control_weigh, control_emitText]

theorem control_embed (m : CompiledMode ρ) (o : Outcome ρ) (s : State ρ) :
    (embed m o s).control = s.control := by
  unfold embed
  split <;> rfl

variable {env : Setting ρ}

omit [Engine ρ] in
theorem control_remember (s : State ρ) (key : String) (o : Outcome ρ) :
    (s.remember key o).control = s.control := by
  unfold State.remember
  split <;> rfl

/-- **Reporting content changes nothing of what decides how to go on.** -/
theorem Reported.control {s s' : State ρ} (h : Reported env s s') : s'.control = s.control := by
  cases h with
  | plain | unknown => exact control_emitText s.cleared s.buffer
  | words => exact control_readWords ..
  | empty => rfl
  | named => exact (control_embed ..).trans (control_remember s.cleared ..)
  | detected => exact control_embed _ _ s.cleared

theorem control_readContent {s s' : State ρ} (h : readContent env s = .ok s') :
    s'.control = s.control :=
  (reported_of_readContent h).control

theorem control_finish {s s' : State ρ} (h : finish env s = .ok s') : s'.control = s.control := by
  unfold finish at h
  rw [control_readContent h, control_keep]

theorem control_keepChar (env : Setting ρ) (s : State ρ) (index : Nat) :
    (keepChar env s index).1.control = s.control ∧ 0 < (keepChar env s index).2 := by
  unfold keepChar
  split
  · next behind hn =>
    have hlt := (Text.nextPlace?_eq_some hn).1
    exact ⟨rfl, by dsimp only; omega⟩
  · exact ⟨rfl, Nat.one_pos⟩

omit [Engine ρ] in
theorem frames_of_control {s s' : State ρ} (h : s'.control = s.control) : s'.frames = s.frames :=
  congrArg Control.frames h

theorem control_contentAtBegin {m : CompiledMode ρ} {lexeme : String} {s s' : State ρ}
    (h : contentAtBegin env m lexeme s = .ok s') : s'.control = s.control := by
  rcases contentAtBegin_cases h with ⟨-, rfl⟩ | ⟨-, t, ht, rfl⟩
  · rfl
  · have hcontrol := ht.control
    split at hcontrol <;> split <;> exact hcontrol

theorem control_contentAtEnd {m : CompiledMode ρ} {lexeme : String} {s s' : State ρ}
    (h : contentAtEnd env m lexeme s = .ok s') : s'.control = s.control := by
  rcases contentAtEnd_cases h with ⟨-, rfl⟩ | ⟨-, t, ht, rfl⟩
  · rfl
  · have hcontrol := ht.control
    split at hcontrol <;> split <;> exact hcontrol

theorem course_keepChar (env : Setting ρ) (s : State ρ) (index : Nat) :
    (keepChar env s index).1.course = s.course ∧ 0 < (keepChar env s index).2 :=
  (control_keepChar env s index).imp_left (congrArg Control.course)

theorem course_contentAtBegin {m : CompiledMode ρ} {lexeme : String} {s s' : State ρ}
    (h : contentAtBegin env m lexeme s = .ok s') : s'.course = s.course :=
  congrArg Control.course (control_contentAtBegin h)

theorem course_contentAtEnd {m : CompiledMode ρ} {lexeme : String} {s s' : State ρ}
    (h : contentAtEnd env m lexeme s = .ok s') : s'.course = s.course :=
  congrArg Control.course (control_contentAtEnd h)

/-! ### Opening and closing -/

theorem course_start (l : Language ρ) (s : State ρ) (f : Frame ρ) :
    (start l s f).course = { s.course with modes := f.mode :: s.course.modes } := by
  unfold start
  dsimp only
  split <;> rfl

theorem course_stop (m : CompiledMode ρ) (s : State ρ) : (stop m s).course = s.course := by
  unfold stop
  dsimp only
  split <;> split <;> rfl

/-- Frames are taken off, and the last of them is known. -/
theorem course_close (l : Language ρ) : ∀ (n : Nat) (ended : Option (Frame ρ)) (s : State ρ),
    (close l n ended s).1.course = { s.course with modes := s.course.modes.drop n } ∧
      (close l n ended s).2.map Frame.mode =
        (s.course.modes.take n).getLast?.or (ended.map Frame.mode)
  | 0, ended, s => ⟨rfl, by simp [close]⟩
  | n + 1, ended, s => by
    unfold close
    split
    · next hf =>
      have hm : s.course.modes = [] := by simp [State.course, hf]
      exact ⟨by rw [hm]; simp [State.course, hf], by simp [hm]⟩
    · next f fs hf =>
      have hm : s.course.modes = f.mode :: fs.map Frame.mode := by simp [State.course, hf]
      obtain ⟨hcourse, hended⟩ := course_close l n (some f) (stop (l.mode f.mode) { s with frames := fs })
      have hstop : (stop (l.mode f.mode) { s with frames := fs }).course =
          { s.course with modes := fs.map Frame.mode } := course_stop ..
      rw [hstop] at hcourse hended
      refine ⟨by rw [hcourse, hm]; rfl, ?_⟩
      rw [hended, hm, List.take_succ_cons, List.getLast?_cons]
      cases ((fs.map Frame.mode).take n).getLast? <;> rfl

theorem frames_start (l : Language ρ) (s : State ρ) (f : Frame ρ) :
    (start l s f).frames = f :: s.frames := by
  unfold start
  dsimp only
  split <;> rfl

theorem frames_stop (m : CompiledMode ρ) (s : State ρ) : (stop m s).frames = s.frames := by
  unfold stop
  dsimp only
  split <;> split <;> rfl

theorem frames_close (l : Language ρ) : ∀ (n : Nat) (ended : Option (Frame ρ)) (s : State ρ),
    (close l n ended s).1.frames = s.frames.drop n
  | 0, _, _ => rfl
  | n + 1, ended, s => by
    unfold close
    split
    · next hf => rw [hf, List.drop_nil]
    · next f fs hf => rw [frames_close l n, frames_stop, hf, List.drop_succ_cons]

/-- The mode that follows one that has ended, if there is one. -/
def following (l : Language ρ) (ended : Option Nat) : Option Nat :=
  ended.bind fun id => (l.mode id).starts

theorem course_startNext (l : Language ρ) (ended : Option (Frame ρ)) (s : State ρ) :
    (startNext l ended s).course = { s.course with
      modes := (following l (ended.map Frame.mode)).toList ++ s.course.modes } := by
  unfold startNext following
  cases ended with
  | none => rfl
  | some f =>
    dsimp only [Option.map_some, Option.bind_some]
    split
    · next h => rw [h]; rfl
    · next h => rw [h, course_start]; rfl

/-! ### Ends -/

theorem outermostEnding_lt (l : Language ρ) : ∀ (f : Frame ρ) (fs : List (Frame ρ)),
    outermostEnding l (f :: fs) < fs.length + 1
  | f, [] => by simp [outermostEnding]
  | f, f' :: fs => by
    have ih := outermostEnding_lt l f' fs
    unfold outermostEnding
    split
    · exact Nat.lt_succ_of_lt ih
    · exact Nat.lt_succ_self _

theorem mode_endsAt {found : Found} {f f' : Frame ρ} {ends : Bool}
    (h : endsAt env found f = .ok (ends, f')) : f'.mode = f.mode := by
  unfold endsAt at h
  dsimp only at h
  split at h
  · cases h
    rfl
  · split at h
    · cases h
    · cases h
      rfl
    · split at h <;> cases h <;> rfl

/-- Looking for the frame that ends leaves the modes open, and finds one of them. -/
theorem modes_endingFrame {found : Found} : ∀ {frames frames' : List (Frame ρ)} {place : Option Nat},
    endingFrame env found frames = .ok (place, frames') →
      frames'.map Frame.mode = frames.map Frame.mode ∧
        ∀ n, place = some n → n < frames.length
  | [], frames', place, h => by
    cases h
    exact ⟨rfl, by simp⟩
  | f :: fs, frames', place, h => by
    unfold endingFrame at h
    split at h
    · cases h
    · next g hends =>
      cases h
      refine ⟨by simp [mode_endsAt hends], fun n hn => ?_⟩
      cases hn
      exact outermostEnding_lt env.language g fs
    · next g hends =>
      split at h
      · split at h
        · cases h
        · next ending fs' hrest =>
          cases h
          obtain ⟨hmodes, hlt⟩ := modes_endingFrame hrest
          exact ⟨by simp [mode_endsAt hends, hmodes], fun n hn => Nat.lt_succ_of_lt (hlt n hn)⟩
      · cases h
        exact ⟨by simp [mode_endsAt hends], by simp⟩

/-- The content before an end is read in the modes that are open there, and what ends is one of them.
-/
theorem course_ending {s t : State ρ} {found : Found} {place : Nat} {frames : List (Frame ρ)}
    {m : CompiledMode ρ} {lexeme : String}
    (hending : endingFrame env found s.frames = .ok (some place, frames))
    (hcontent : contentAtEnd env m lexeme { s with frames } = .ok t) :
    t.course = s.course ∧ t.frames = frames ∧ place < frames.length := by
  obtain ⟨hmodes, hlt⟩ := modes_endingFrame hending
  refine ⟨?_, frames_of_control (control_contentAtEnd hcontent), ?_⟩
  · rw [course_contentAtEnd hcontent]
    simp only [State.course, hmodes]
  · rw [← List.length_map Frame.mode, hmodes, List.length_map]
    exact hlt place rfl

/-- The course once modes have ended and the one that follows the last of them has begun. -/
theorem course_ended (l : Language ρ) (n : Nat) (s : State ρ) :
    (startNext l (close l n none s).2 (close l n none s).1).course = { s.course with
      modes := (following l (s.course.modes.take n).getLast?).toList ++ s.course.modes.drop n } := by
  obtain ⟨hclose, hended⟩ := course_close l n none s
  rw [course_startNext, hclose, hended, Option.map_none, Option.or_none]

omit [Engine ρ] in
theorem not_hasBegun {s : State ρ} {found : Found} (hk : found.kind = .ends)
    (hempty : emptyMode? s found = none) : found.lexeme = "" → ¬ s.course.HasBegun found.index := by
  rintro hlexeme ⟨id, hid⟩
  have hlast : s.lastMatch = some (.begins id, found.index) := hid
  simp [emptyMode?, hlast, hk, hlexeme] at hempty

/-! ### Matches -/

/-- What following a match does to the course, and how far going through code goes on then. -/
inductive Move (env : Setting ρ) (found : Found) (c : Course) : Course → Nat → Prop where
  /-- A character is taken as text. -/
  | char {last : Option (RuleKind × Nat)} {taken : Nat} :
      last = c.lastMatch ∨ last = some (found.kind, found.index) → 0 < taken →
      Move env found c { c with lastMatch := last } taken
  /-- The match is taken as text. -/
  | text : ¬ (c.iterations > iterationLimit ∧ c.iterations > found.index * 3) →
      (found.lexeme = "" → ¬ c.HasBegun found.index) → (∀ id, found.kind ≠ .begins id) →
      Move env found c { c with lastMatch := some (found.kind, found.index) }
        found.lexeme.utf8ByteSize
  /-- A begin does not count, and the rules behind it are tried. -/
  | pass {id : Nat} : found.kind = .begins id → c.firstRule ≠ 0 →
      Move env found c { c with lastMatch := some (found.kind, found.index), resume := true } 0
  /-- A mode begins. -/
  | begins {id : Nat} : found.kind = .begins id →
      Move env found c
        { c with lastMatch := some (found.kind, found.index), modes := id :: c.modes }
        (if (env.language.mode id).returnBegin then 0 else found.lexeme.utf8ByteSize)
  /-- Modes end, and the one that follows the last of them begins. -/
  | ends {place top : Nat} : found.kind = .ends → (found.lexeme = "" → ¬ c.HasBegun found.index) →
      place < c.modes.length → c.modes.head? = some top →
      Move env found c { c with
        lastMatch := some (found.kind, found.index)
        modes := (following env.language (c.modes.take (c.modes.length - max place 1)).getLast?).toList ++
          c.modes.drop (c.modes.length - max place 1) }
        (if (env.language.mode top).returnEnd then 0 else found.lexeme.utf8ByteSize)

/-- **However a match is followed, it makes one of these moves.** -/
theorem Followed.move {s s' : State ρ} {found : Found} {taken : Nat}
    (h : Followed env s found s' taken) : Move env found s.course s'.course taken := by
  cases h with
  | empty =>
    obtain ⟨hcourse, htaken⟩ := course_keepChar env s found.index
    rw [hcourse]
    exact .char (Or.inl rfl) htaken
  | refused | emptyIllegal =>
    obtain ⟨hcourse, htaken⟩ := course_keepChar env (s.matched found) found.index
    rw [hcourse]
    exact .char (Or.inr rfl) htaken
  | passed hk _ hfirst => exact .pass hk hfirst
  | begins hk _ _ hcontent =>
    rw [course_start, course_contentAtBegin hcontent]
    exact .begins hk
  | illegal hk _ hlexeme hearly =>
    exact .text hearly (fun hempty => absurd hempty hlexeme) (by simp [hk])
  | @endless frames hk hempty hending hearly =>
    have hcourse : ((State.matched { s with frames } found).keep found.lexeme).course =
        { s.course with lastMatch := some (found.kind, found.index) } := by
      simp only [State.course, State.keep, (modes_endingFrame hending).1]
    rw [hcourse]
    exact .text hearly (not_hasBegun hk hempty) (by simp [hk])
  | @ends place frames t hk hempty hending hcontent =>
    obtain ⟨hcourse, hframes, hplace⟩ := course_ending (s := s.matched found) hending hcontent
    obtain ⟨top, rest, rfl⟩ := List.exists_cons_of_length_pos (Nat.zero_lt_of_lt hplace)
    have hmodes : s.course.modes = (top :: rest).map Frame.mode := (modes_endingFrame hending).1.symm
    have hlength : t.frames.length = s.course.modes.length := by
      rw [hframes, hmodes, List.length_map]
    rw [course_ended, hcourse, hlength]
    exact .ends hk (not_hasBegun hk hempty) (by rwa [hmodes, List.length_map]) (by rw [hmodes]; rfl)

/-! ### Steps -/

/-- The course in which the next match is looked for. -/
def Course.next (c : Course) : Course :=
  { c with iterations := c.iterations + 1, firstRule := if c.resume then c.firstRule else 0,
           resume := false }

/-- **What a step does**: it looks for the next match of the top mode's rules and follows it. -/
theorem step_cases {s s' : State ρ} (h : step env s = .ok (some s')) :
    ∃ found first taken,
      (topMode env s).matcher.find s.course.next.firstRule env.code s.index = .ok (some (found, first)) ∧
        s'.index = found.index + taken ∧
        Move env found { s.course.next with firstRule := first } s'.course taken := by
  obtain ⟨found, first, t, taken, hfind, hfollowed, rfl⟩ := exists_followed_of_step h
  exact ⟨found, first, taken, hfind, rfl, hfollowed.move⟩

/-! ### Frames -/

/-- What a step does to the frames: the outer ones may remember something else when an end is looked
for, some are taken off, but not all of them, and one may be put on. That one has an end of its own
only where a mode ends as it begins. -/
def Reframes (env : Setting ρ) (fs fs' : List (Frame ρ)) : Prop :=
  ∃ (seen : List (Frame ρ)) (n : Nat) (begun : Option (Frame ρ)),
    (seen = fs ∨ ∃ found place, endingFrame env found fs = .ok (place, seen)) ∧
    (n = 0 ∨ n < seen.length) ∧ fs' = begun.toList ++ seen.drop n ∧
    ∀ f, begun = some f → f.endOverride.isSome →
      ∃ id, (env.language.mode id).endSameAsBegin = true

theorem Reframes.of_eq {fs fs' : List (Frame ρ)} (h : fs' = fs) : Reframes env fs fs' :=
  ⟨fs, 0, none, Or.inl rfl, Or.inl rfl, h, nofun⟩

theorem frames_startNext (l : Language ρ) (ended : Option (Frame ρ)) (s : State ρ) :
    ∃ begun : Option (Frame ρ), (startNext l ended s).frames = begun.toList ++ s.frames ∧
      ∀ f, begun = some f → f.endOverride.isSome → ∃ id, (l.mode id).endSameAsBegin = true := by
  unfold startNext
  split
  · exact ⟨none, rfl, nofun⟩
  · next f =>
    dsimp only
    split
    · exact ⟨none, rfl, nofun⟩
    · next id _ =>
      refine ⟨some _, frames_start l s _, fun g hg hends => ⟨f.mode, ?_⟩⟩
      cases hg
      cases hb : (l.mode f.mode).endSameAsBegin with
      | true => rfl
      | false =>
        dsimp only at hends
        rw [hb] at hends
        cases hends

theorem endLike_of_isSome {m : CompiledMode ρ} {lexeme : String} {endOverride : Option (Prepared ρ)}
    (h : endLike env m lexeme = .ok endOverride) (hends : endOverride.isSome) :
    m.endSameAsBegin = true := by
  cases hlike : m.endSameAsBegin with
  | true => rfl
  | false =>
    rw [endLike, hlike] at h
    cases h
    cases hends

theorem Followed.reframes {s s' : State ρ} {found : Found} {taken : Nat}
    (h : Followed env s found s' taken) : Reframes env s.frames s'.frames := by
  cases h with
  | empty => exact .of_eq (frames_of_control (control_keepChar env s found.index).1)
  | refused | emptyIllegal =>
    have hcontrol := (control_keepChar env (s.matched found) found.index).1
    exact .of_eq (congrArg Control.frames hcontrol)
  | passed | illegal => exact .of_eq rfl
  | endless _ _ hending => exact ⟨_, 0, none, Or.inr ⟨found, none, hending⟩, Or.inl rfl, rfl, nofun⟩
  | @begins id endOverride t _ _ hlike hcontent =>
    refine ⟨s.frames, 0, some ⟨id, endOverride, (admits env (env.language.mode id) found).2⟩,
      Or.inl rfl, Or.inl rfl, ?_, ?_⟩
    · rw [frames_start, frames_of_control (control_contentAtBegin hcontent)]
      rfl
    · intro f hf hends
      cases hf
      exact ⟨id, endLike_of_isSome hlike hends⟩
  | @ends place frames t _ _ hending hcontent =>
    obtain ⟨-, hframes, hplace⟩ := course_ending (s := s.matched found) hending hcontent
    obtain ⟨begun, hbegun, hends⟩ := frames_startNext env.language
      (close env.language (t.frames.length - max place 1) none t).2
      (close env.language (t.frames.length - max place 1) none t).1
    refine ⟨frames, t.frames.length - max place 1, begun, Or.inr ⟨found, some place, hending⟩,
      Or.inr ?_, ?_, hends⟩
    · rw [hframes]
      omega
    · rw [hbegun, frames_close, hframes]

/-- **What every step does to the frames.** -/
theorem reframes_step {s s' : State ρ} (h : step env s = .ok (some s')) :
    Reframes env s.frames s'.frames := by
  obtain ⟨found, first, t, taken, -, hfollowed, rfl⟩ := exists_followed_of_step h
  exact hfollowed.reframes

/-- The outermost frame stays where it is. -/
theorem Reframes.getLast? {fs fs' : List (Frame ρ)} (h : Reframes env fs fs') (hne : fs ≠ []) :
    ∃ seen, (seen = fs ∨ ∃ found place, endingFrame env found fs = .ok (place, seen)) ∧
      fs'.getLast? = seen.getLast? := by
  obtain ⟨seen, n, begun, hseen, hn, rfl, -⟩ := h
  refine ⟨seen, hseen, ?_⟩
  have hlength : seen.length = fs.length := by
    rcases hseen with rfl | ⟨found, place, hending⟩
    · rfl
    · rw [← List.length_map Frame.mode, (modes_endingFrame hending).1, List.length_map]
  have hpos : 0 < fs.length := List.length_pos_iff.mpr hne
  have hdrop : (seen.drop n).getLast? = seen.getLast? := by
    rw [List.getLast?_drop, if_neg (by omega)]
  rw [List.getLast?_append, hdrop]
  cases hlast : seen.getLast? with
  | none =>
    rw [List.getLast?_eq_none_iff.mp hlast] at hlength
    exact absurd hlength.symm (Nat.ne_of_gt hpos)
  | some f => rfl

theorem getLast?_modes_step {s s' : State ρ} (h : step env s = .ok (some s'))
    (hne : s.frames ≠ []) : s'.course.modes.getLast? = s.course.modes.getLast? := by
  obtain ⟨seen, hseen, hlast⟩ := (reframes_step h).getLast? hne
  have hmodes : seen.map Frame.mode = s.frames.map Frame.mode := by
    rcases hseen with rfl | ⟨found, place, hending⟩
    · rfl
    · exact (modes_endingFrame hending).1
  change (s'.frames.map Frame.mode).getLast? = (s.frames.map Frame.mode).getLast?
  rw [← hmodes, List.getLast?_map, List.getLast?_map, hlast]

theorem run_of_step {s t : State ρ} (h : step env s = .ok (some t)) (steps : Nat) :
    run env (steps + 1) s = run env steps t := by
  rw [run, h]

/-! ### Before the code -/

/-- Before the code nothing has been looked for. -/
theorem course_initial (l : Language ρ) (frames : List (Frame ρ)) :
    (initial l frames).course = ⟨frames.map Frame.mode, 0, 0, false, none⟩ := by
  unfold initial
  induction frames.dropLast with
  | nil => rfl
  | cons f fs ih =>
    rw [List.foldr_cons]
    split <;> exact ih

theorem index_initial (l : Language ρ) (frames : List (Frame ρ)) :
    (initial l frames).index = 0 := by
  unfold initial
  induction frames.dropLast with
  | nil => rfl
  | cons f fs ih =>
    rw [List.foldr_cons]
    split <;> exact ih

end CodeMarkup.Scan
