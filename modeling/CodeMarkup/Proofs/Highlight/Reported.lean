import CodeMarkup.Proofs.Highlight.Ending
import CodeMarkup.Proofs.Highlight.Failures
import CodeMarkup.Proofs.Highlight.Stacks

/-! # What is reported next

Text is kept until a begin or an end has it reported, or the end of the code. Which state that will be
the content of can be told before the match is followed (`Scan.reading?`): a match either has nothing
reported, and then it adds to what is kept and only skipped modes begin, or end with others
(`Scan.Followed.quiet`), or the content of the state foreseen is reported (`Scan.Followed.reading`). In a
run that comes to its end there is always such a state after steps without any (`Scan.exists_reading`).
-/

namespace CodeMarkup

open Text (byteSize)

variable {ρ : Type} [Engine ρ]

namespace Scan

variable {env : Setting ρ}

/-! ### What is reported next -/

/-- The state whose content is reported before a mode begins, if it is. -/
def readingAtBegin? (m : CompiledMode ρ) (lexeme : String) (s : State ρ) : Option (State ρ) :=
  if m.skip then none else some (if m.excludeBegin then s.keep lexeme else s)

/-- The state whose content is reported before the top mode ends, if it is. -/
def readingAtEnd? (m : CompiledMode ρ) (lexeme : String) (s : State ρ) : Option (State ρ) :=
  if m.skip then none else some (if m.returnEnd || m.excludeEnd then s else s.keep lexeme)

theorem readingAtBegin?_eq_none {m : CompiledMode ρ} {lexeme : String} {s : State ρ} :
    readingAtBegin? m lexeme s = none ↔ m.skip = true := by
  unfold readingAtBegin?
  split <;> simp_all

theorem readingAtBegin?_eq_some {m : CompiledMode ρ} {lexeme : String} {s u : State ρ} :
    readingAtBegin? m lexeme s = some u ↔
      m.skip = false ∧ (if m.excludeBegin then s.keep lexeme else s) = u := by
  unfold readingAtBegin?
  split <;> simp_all

theorem readingAtEnd?_eq_none {m : CompiledMode ρ} {lexeme : String} {s : State ρ} :
    readingAtEnd? m lexeme s = none ↔ m.skip = true := by
  unfold readingAtEnd?
  split <;> simp_all

theorem readingAtEnd?_eq_some {m : CompiledMode ρ} {lexeme : String} {s u : State ρ} :
    readingAtEnd? m lexeme s = some u ↔
      m.skip = false ∧ (if m.returnEnd || m.excludeEnd then s else s.keep lexeme) = u := by
  unfold readingAtEnd?
  split <;> simp_all

/-- The state whose content is reported at a match, if the match has any reported. -/
def readingAt? (env : Setting ρ) (s : State ρ) (found : Found) : Option (State ρ) :=
  let t := { s with lastMatch := some (found.kind, found.index) }
  match found.kind with
  | .illegal => none
  | .begins id =>
    let m := env.language.mode id
    if (admits env m found).1 then readingAtBegin? m found.lexeme t else none
  | .ends =>
    if (emptyMode? s found).isSome then none
    else match endingFrame env found s.frames with
      | .ok (some _, frames) =>
        readingAtEnd? (topMode env { t with frames }) found.lexeme { t with frames }
      | _ => none

/-- The state whose content is reported next, if any is before the next match has been followed; where
nothing is found any more all that is left is. -/
def reading? (env : Setting ρ) (s : State ρ) : Option (State ρ) :=
  match (topMode env s).matcher.find (next s).firstRule env.code s.index with
  | .error _ => none
  | .ok none => some (s.keep (between env.code s.index (byteSize env.code)))
  | .ok (some (found, firstRule)) => readingAt? env (onMatch env s found firstRule) found

/-- The text that is gone over on the way to the next match, or to the end of the code. -/
def stretch (env : Setting ρ) (s : State ρ) : String :=
  match (topMode env s).matcher.find (next s).firstRule env.code s.index with
  | .error _ => ""
  | .ok none => between env.code s.index (byteSize env.code)
  | .ok (some (found, _)) => between env.code s.index found.index

/-! ### What is kept -/

/-- A state in which text has been added to what is kept. -/
def Grows (s s' : State ρ) : Prop := ∃ more, s'.buffer = s.buffer ++ more

omit [Engine ρ] in
theorem Grows.of_eq {s s' : State ρ} (h : s'.buffer = s.buffer) : Grows s s' :=
  ⟨"", h.trans String.append_empty.symm⟩

omit [Engine ρ] in
theorem Grows.trans {s t u : State ρ} (h : Grows s t) (h' : Grows t u) : Grows s u := by
  obtain ⟨more, hmore⟩ := h
  obtain ⟨more', hmore'⟩ := h'
  exact ⟨more ++ more', by rw [hmore', hmore, String.append_assoc]⟩

omit [Engine ρ] in
theorem grows_keep (s : State ρ) (t : String) : Grows s (s.keep t) := ⟨t, rfl⟩

theorem buffer_start (l : Language ρ) (s : State ρ) (f : Frame ρ) :
    (start l s f).buffer = s.buffer := by
  unfold start
  dsimp only
  split <;> rfl

theorem buffer_stop (m : CompiledMode ρ) (s : State ρ) : (stop m s).buffer = s.buffer := by
  unfold stop
  dsimp only
  split <;> split <;> rfl

theorem buffer_close (l : Language ρ) : ∀ (n : Nat) (ended : Option (Frame ρ)) (s : State ρ),
    (close l n ended s).1.buffer = s.buffer
  | 0, _, _ => rfl
  | n + 1, ended, s => by
    unfold close
    split
    · rfl
    · rw [buffer_close l n, buffer_stop]

theorem buffer_startNext (l : Language ρ) (ended : Option (Frame ρ)) (s : State ρ) :
    (startNext l ended s).buffer = s.buffer := by
  unfold startNext
  split
  · rfl
  · dsimp only
    split
    · rfl
    · exact buffer_start l s _

theorem grows_keepChar (env : Setting ρ) (s : State ρ) (index : Nat) :
    Grows s (keepChar env s index).1 := by
  obtain ⟨text, htext⟩ := exists_keep_keepChar env s index
  rw [htext]
  exact grows_keep s text

/-! ### Matches that report no content -/

/-- How the open modes change where a match has no content reported: not at all, or a skipped mode
begins, or modes end while a skipped one is on top. -/
inductive Shifts (env : Setting ρ) (s : State ρ) (found : Found) : List Nat → Prop
  | none : Shifts env s found s.course.modes
  | begins {id : Nat} : found.kind = .begins id → (env.language.mode id).skip = true →
      Shifts env s found (id :: s.course.modes)
  | ends {place : Nat} {frames : List (Frame ρ)} : (topMode env s).skip = true →
      endingFrame env found s.frames = .ok (some place, frames) →
      Shifts env s found ((following env.language
        (s.course.modes.take (s.course.modes.length - max place 1)).getLast?).toList ++
          s.course.modes.drop (s.course.modes.length - max place 1))

theorem shifts_of_modes {s s' : State ρ} {found : Found} (h : s'.course.modes = s.course.modes) :
    Shifts env s found s'.course.modes := by
  rw [h]
  exact .none

theorem topMode_congr {s s' : State ρ} (h : s'.course.modes = s.course.modes) :
    topMode env s' = topMode env s := by
  have htop (t : State ρ) : topMode env t =
      (t.course.modes.head?.map env.language.mode).getD env.language.root := by
    unfold topMode
    cases ht : t.frames <;> simp [State.course, ht]
  rw [htop, htop, h]

theorem readingAt?_of_begins {s : State ρ} {found : Found} {id : Nat}
    (hk : found.kind = .begins id) : readingAt? env s found =
      if (admits env (env.language.mode id) found).1 then
        readingAtBegin? (env.language.mode id) found.lexeme (s.matched found)
      else none := by
  simp only [readingAt?, State.matched, hk]

theorem readingAt?_of_ends {s : State ρ} {found : Found} {place : Nat} {frames : List (Frame ρ)}
    (hk : found.kind = .ends) (hempty : emptyMode? s found = none)
    (hending : endingFrame env found s.frames = .ok (some place, frames)) :
    readingAt? env s found = readingAtEnd? (topMode env { s with frames }) found.lexeme
      (State.matched { s with frames } found) := by
  simp only [readingAt?, State.matched, hk, hempty, hending]
  rfl

/-- Where modes end under a skipped one its text is kept. -/
theorem quiet_ends {s t : State ρ} {found : Found} {place : Nat} {frames : List (Frame ρ)}
    (hskip : (topMode env { s with frames }).skip = true)
    (hending : endingFrame env found s.frames = .ok (some place, frames))
    (hcontent : contentAtEnd env (topMode env { s with frames }) found.lexeme { s with frames } =
      .ok t) :
    let n := t.frames.length - max place 1
    let s' := startNext env.language (close env.language n none t).2 (close env.language n none t).1
    Grows s s' ∧ Shifts env s found s'.course.modes := by
  intro n s'
  obtain ⟨hcourse, hframes, -⟩ := course_ending hending hcontent
  have hmodes : t.course.modes = s.course.modes := congrArg Course.modes hcourse
  have hlength : t.frames.length = s.course.modes.length := by
    rw [← hmodes, State.course, List.length_map]
  refine ⟨?_, ?_⟩
  · rw [contentAtEnd, if_pos hskip] at hcontent
    cases hcontent
    exact (grows_keep { s with frames } found.lexeme).trans
      (.of_eq ((buffer_startNext ..).trans (buffer_close ..)))
  · rw [course_ended, hmodes, show n = s.course.modes.length - max place 1 by rw [← hlength]]
    have hseen : ({ s with frames } : State ρ).course.modes = s.course.modes :=
      (modes_endingFrame hending).1
    exact .ends (topMode_congr hseen ▸ hskip) hending

/-- **A match that has no content reported** adds to what is kept, and the open modes change as they
do there. -/
theorem Followed.quiet {s s' : State ρ} {found : Found} {taken : Nat}
    (h : Followed env s found s' taken) (hquiet : readingAt? env s found = none) :
    Grows s s' ∧ Shifts env s found s'.course.modes := by
  -- that the match is remembered concerns neither what is kept nor what is open
  suffices hmatched : Grows (s.matched found) s' ∧
      Shifts env (s.matched found) found s'.course.modes by
    refine ⟨hmatched.1, ?_⟩
    obtain ⟨-, hshifts⟩ := hmatched
    generalize s'.course.modes = modes at hshifts ⊢
    cases hshifts with
    | none => exact .none
    | begins hk hskip => exact .begins hk hskip
    | ends hskip hending => exact .ends hskip hending
  cases h with
  | empty =>
    have hmodes := congrArg Course.modes (course_keepChar env s found.index).1
    exact ⟨grows_keepChar env s found.index, shifts_of_modes hmodes⟩
  | refused | emptyIllegal =>
    have hmodes := congrArg Course.modes (course_keepChar env (s.matched found) found.index).1
    exact ⟨grows_keepChar env (s.matched found) found.index, shifts_of_modes hmodes⟩
  | passed => exact ⟨.of_eq rfl, .none⟩
  | illegal => exact ⟨grows_keep (s.matched found) found.lexeme, .none⟩
  | endless _ _ hending =>
    exact ⟨grows_keep (s.matched found) found.lexeme, shifts_of_modes (modes_endingFrame hending).1⟩
  | begins hk hadmits _ hcontent =>
    rw [readingAt?_of_begins hk, if_pos hadmits] at hquiet
    have hskip := readingAtBegin?_eq_none.mp hquiet
    rw [contentAtBegin, if_pos hskip] at hcontent
    cases hcontent
    refine ⟨(grows_keep (s.matched found) found.lexeme).trans (.of_eq (buffer_start ..)), ?_⟩
    rw [course_start]
    exact .begins hk hskip
  | ends hk hempty hending hcontent =>
    rw [readingAt?_of_ends hk hempty hending] at hquiet
    exact quiet_ends (s := s.matched found) (readingAtEnd?_eq_none.mp hquiet) hending hcontent

/-! ### Matches that report content -/

theorem suffix_start (l : Language ρ) (s : State ρ) (f : Frame ρ) :
    s.events <:+ (start l s f).events :=
  ⟨_, (events_start l s f).symm⟩

theorem suffix_close (l : Language ρ) (n : Nat) (s : State ρ) :
    s.events <:+ (startNext l (close l n none s).2 (close l n none s).1).events := by
  rw [events_startNext, events_close]
  exact (List.suffix_append _ _).trans (List.suffix_append _ _)

theorem reading_contentAtBegin {m : CompiledMode ρ} {lexeme : String} {s t u : State ρ}
    (hu : readingAtBegin? m lexeme s = some u) (h : contentAtBegin env m lexeme s = .ok t) :
    ∃ v, readContent env u = .ok v ∧ v.events = t.events := by
  obtain ⟨hskip, rfl⟩ := readingAtBegin?_eq_some.mp hu
  rw [contentAtBegin, hskip, if_neg Bool.false_ne_true] at h
  split at h
  · cases h
  · next v hv =>
    cases h
    refine ⟨v, hv, ?_⟩
    split <;> rfl

theorem reading_contentAtEnd {m : CompiledMode ρ} {lexeme : String} {s t u : State ρ}
    (hu : readingAtEnd? m lexeme s = some u) (h : contentAtEnd env m lexeme s = .ok t) :
    ∃ v, readContent env u = .ok v ∧ v.events = t.events := by
  obtain ⟨hskip, rfl⟩ := readingAtEnd?_eq_some.mp hu
  rw [contentAtEnd, hskip, if_neg Bool.false_ne_true] at h
  split at h
  · cases h
  · next v hv =>
    cases h
    refine ⟨v, hv, ?_⟩
    split <;> rfl

/-- Content is reported at the begin of a mode that is not skipped, where it counts, and where modes end
under one that is not. -/
theorem cases_readingAt? {s u : State ρ} {found : Found} (hu : readingAt? env s found = some u) :
    let t := { s with lastMatch := some (found.kind, found.index) }
    (∃ id, found.kind = .begins id ∧ (admits env (env.language.mode id) found).1 = true ∧
      readingAtBegin? (env.language.mode id) found.lexeme t = some u) ∨
    (found.kind = .ends ∧ emptyMode? s found = none ∧ ∃ place frames,
      endingFrame env found s.frames = .ok (some place, frames) ∧
      readingAtEnd? (topMode env { t with frames }) found.lexeme { t with frames } = some u) := by
  unfold readingAt? at hu
  split at hu
  · cases hu
  · next id hk =>
    dsimp only at hu
    split at hu
    · next hadmits => exact .inl ⟨id, hk, hadmits, hu⟩
    · cases hu
  · next hk =>
    split at hu
    · cases hu
    · next hnone =>
      split at hu
      · next place frames hending =>
        exact .inr ⟨hk, Option.not_isSome_iff_eq_none.mp hnone, place, frames, hending, hu⟩
      · cases hu

/-- **A match that has content reported** has that of the state reported that is foreseen. -/
theorem Followed.reading {s s' u : State ρ} {found : Found} {taken : Nat}
    (h : Followed env s found s' taken) (hu : readingAt? env s found = some u) :
    ∃ v, readContent env u = .ok v ∧ v.events <:+ s'.events := by
  cases h with
  | begins hk hadmits _ hcontent =>
    rw [readingAt?_of_begins hk, if_pos hadmits] at hu
    obtain ⟨v, hv, hevents⟩ := reading_contentAtBegin hu hcontent
    exact ⟨v, hv, hevents ▸ suffix_start ..⟩
  | ends hk hempty hending hcontent =>
    rw [readingAt?_of_ends hk hempty hending] at hu
    obtain ⟨v, hv, hevents⟩ := reading_contentAtEnd hu hcontent
    exact ⟨v, hv, hevents ▸ suffix_close ..⟩
  -- in all other ways no content is reported
  | empty hempty => simp [readingAt?, (emptyMode?_eq_some hempty).1, hempty] at hu
  | refused hk hrefused | passed hk hrefused =>
    rw [readingAt?_of_begins hk, hrefused] at hu
    cases hu
  | emptyIllegal hk | illegal hk => simp [readingAt?, hk] at hu
  | endless hk hempty hending => simp [readingAt?, hk, hempty, hending] at hu

/-- What is reported is what has been kept, perhaps with the text of the match, and in the same
modes. -/
theorem readsAt_of_readingAt? {s u : State ρ} {found : Found}
    (hu : readingAt? env s found = some u) : ReadsAt found.lexeme s u := by
  obtain ⟨id, -, -, hu⟩ | ⟨-, -, place, frames, hending, hu⟩ := cases_readingAt? hu
  · obtain ⟨-, rfl⟩ := readingAtBegin?_eq_some.mp hu
    split
    · exact ⟨rfl, rfl, Or.inr rfl⟩
    · exact ⟨rfl, rfl, Or.inl rfl⟩
  · obtain ⟨-, rfl⟩ := readingAtEnd?_eq_some.mp hu
    split
    · exact ⟨(modes_endingFrame hending).1, rfl, Or.inl rfl⟩
    · exact ⟨(modes_endingFrame hending).1, rfl, Or.inr rfl⟩

/-- Where a match has content reported, either it begins a mode that is not skipped or the top mode is
not. -/
theorem not_skip_of_readingAt? {s u : State ρ} {found : Found}
    (hu : readingAt? env s found = some u) :
    (∃ id, found.kind = .begins id ∧ (env.language.mode id).skip = false) ∨
      (topMode env s).skip = false := by
  obtain ⟨id, hk, -, hu⟩ | ⟨-, -, place, frames, hending, hu⟩ := cases_readingAt? hu
  · exact .inl ⟨id, hk, (readingAtBegin?_eq_some.mp hu).1⟩
  · have hmodes : ({ s with
        lastMatch := some (found.kind, found.index), frames } : State ρ).course.modes =
          s.course.modes := (modes_endingFrame hending).1
    rw [← topMode_congr hmodes]
    exact .inr (readingAtEnd?_eq_some.mp hu).1

/-! ### Steps -/

/-- A step before which no content is reported. -/
def Quiet (env : Setting ρ) (s s' : State ρ) : Prop :=
  reading? env s = none ∧ step env s = .ok (some s')

/-- What a step leaves that has no content reported: text is kept behind what was, and the open modes
have changed as they do there. -/
theorem quiet_step {s s' : State ρ} (h : Quiet env s s') : ∃ found firstRule,
    (topMode env s).matcher.find (next s).firstRule env.code s.index =
      .ok (some (found, firstRule)) ∧
    (∃ more, s'.buffer = s.buffer ++ stretch env s ++ more) ∧
    Shifts env (onMatch env s found firstRule) found s'.course.modes := by
  obtain ⟨hquiet, hstep⟩ := h
  obtain ⟨found, firstRule, t, taken, hfind, hfollowed, rfl⟩ := exists_followed_of_step hstep
  unfold reading? at hquiet
  rw [hfind] at hquiet
  obtain ⟨hgrows, hshifts⟩ := hfollowed.quiet hquiet
  refine ⟨found, firstRule, hfind, ?_, hshifts⟩
  unfold stretch
  rw [hfind]
  exact hgrows

/-- A step with which content is reported has that of the state reported that is foreseen. -/
theorem reading_step {s s' u : State ρ} (hu : reading? env s = some u)
    (h : step env s = .ok (some s')) : ∃ v, readContent env u = .ok v ∧ v.events <:+ s'.events := by
  obtain ⟨found, firstRule, t, taken, hfind, hfollowed, rfl⟩ := exists_followed_of_step h
  unfold reading? at hu
  rw [hfind] at hu
  obtain ⟨v, hv, hsuffix⟩ := hfollowed.reading hu
  exact ⟨v, hv, hsuffix⟩

theorem reading_finish {s : State ρ} (h : step env s = .ok none) :
    ∃ u, reading? env s = some u ∧ finish env s = readContent env u := by
  unfold reading?
  rw [step_eq_none_iff.mp h]
  exact ⟨_, rfl, rfl⟩

/-- What is reported next is what has been kept and the text up to the next match or the end, and the
top mode is the same. -/
theorem buffer_reading {s u : State ρ} (hu : reading? env s = some u) :
    u.course.modes = s.course.modes ∧ ∃ more, u.buffer = s.buffer ++ stretch env s ++ more := by
  unfold reading? at hu
  unfold stretch
  split at hu
  · cases hu
  · next hfind =>
    cases hu
    exact ⟨rfl, "", by rw [String.append_empty]; rfl⟩
  · next hfind =>
    have hreads := readsAt_of_readingAt? hu
    refine ⟨hreads.modes, ?_⟩
    rcases hreads.buffer with hbuffer | hbuffer
    · exact ⟨"", by rw [hbuffer, String.append_empty]; rfl⟩
    · exact ⟨_, hbuffer⟩

/-- What is kept grows as long as no content is reported. -/
theorem grows_of_quiet {s t : State ρ} (h : Relation.ReflTransGen (Quiet env) s t) : Grows s t := by
  induction h with
  | refl => exact .of_eq rfl
  | tail _ hquiet ih =>
    obtain ⟨-, -, -, ⟨more, hmore⟩, -⟩ := quiet_step hquiet
    exact ih.trans ⟨_, hmore.trans (String.append_assoc ..)⟩

/-! ### Runs -/

theorem pos_of_leads {s t : State ρ} (hs : 0 < s.course.modes.length) (h : Leads env s t) :
    0 < t.course.modes.length := by
  induction h with
  | refl => exact hs
  | tail _ hstep ih =>
    obtain ⟨ended, begun, hturn⟩ := turn_step ih hstep
    rw [hturn.modes, List.length_append, List.length_drop]
    have := hturn.lt
    omega

/-- What has been reported stays. -/
theorem suffix_leads {s t : State ρ} (hs : 0 < s.course.modes.length) (h : Leads env s t) :
    s.events <:+ t.events := by
  induction h with
  | refl => exact List.suffix_refl _
  | tail hleads hstep ih =>
    obtain ⟨ended, begun, hturn⟩ := turn_step (pos_of_leads hs hleads) hstep
    obtain ⟨content, -, hevents⟩ := hturn.events
    refine ih.trans ?_
    rw [hevents]
    exact (List.suffix_append _ _).trans ((List.suffix_append _ _).trans (List.suffix_append _ _))

theorem suffix_run {steps : Nat} {s last : State ρ} (hs : 0 < s.course.modes.length)
    (h : run env steps s = .ok last) : s.events <:+ last.events := by
  obtain ⟨t, hleads, -, hfinish⟩ := exists_leads_of_run h
  obtain ⟨content, -, hevents⟩ := tells_finish hfinish
  exact (suffix_leads hs hleads).trans (hevents ▸ List.suffix_append _ _)

/-- In a run that comes to its end some content is reported after a while. -/
theorem exists_reading : ∀ {steps : Nat} {s last : State ρ}, 0 < s.course.modes.length →
    run env steps s = .ok last → ∃ t u v, Relation.ReflTransGen (Quiet env) s t ∧
      reading? env t = some u ∧ readContent env u = .ok v ∧ v.events <:+ last.events
  | 0, _, _, _, h => by cases h
  | steps + 1, s, last, hs, h => by
    unfold run at h
    split at h
    · cases h
    · next hstep =>
      obtain ⟨u, hu, hfinish⟩ := reading_finish hstep
      exact ⟨s, u, last, .refl, hu, hfinish ▸ h, List.suffix_refl _⟩
    · next s' hstep =>
      have hs' := pos_of_leads hs (.single hstep)
      cases hu : reading? env s with
      | some u =>
        obtain ⟨v, hv, hsuffix⟩ := reading_step hu hstep
        exact ⟨s, u, v, .refl, hu, hv, hsuffix.trans (suffix_run hs' h)⟩
      | none =>
        obtain ⟨t, u, v, hquiet, hread⟩ := exists_reading hs' h
        exact ⟨t, u, v, .head ⟨hu, hstep⟩ hquiet, hread⟩

end Scan

end CodeMarkup
