import CodeMarkup.Proofs.Highlight.Nesting
import CodeMarkup.Proofs.Highlight.Partition
import CodeMarkup.Proofs.Highlight.Progress
import Mathlib

/-! # Going through embedded code ends

Embedded code is gone through in the same way as the code around it, so what is embedded has to get
shorter. It does where the mode that holds it only follows another mode (`Language.Forwards`): when
that one ends, the text before its end is reported, and there is some, as what begins inside the root
takes text. So whenever such a mode is open, some of the code has been reported before its content
(`Scan.Ahead`), and as many levels as the code has bytes are enough
(`highlight_ne_unfinished`). Only code that is gone on with from a stack may be embedded as a whole,
and that only at the outermost level. -/

namespace CodeMarkup

open Markup (Event)

variable {ρ : Type} [Engine ρ]

/-- A language whose embedded code gets shorter: a mode that holds such code is not the root and
begins inside no mode, so that it only follows other modes, and its language is guessed; what begins
inside the root takes some text, and no mode leaves its content to the mode around it. -/
structure Language.Forwards (l : Language ρ) : Prop where
  detects : ∀ id d, (l.mode id).subLanguage = some d → ∃ names, d = .detect names
  root : (l.mode 0).subLanguage = none
  children : ∀ p, ∀ id ∈ (l.mode p).children, (l.mode id).subLanguage = none
  takes : ∀ id, ¬ l.BeginsAtOnce 0 id
  skip : ∀ m ∈ l.modes, m.skip = false

namespace Scan

/-! ### What is reported -/

theorem reported_start (l : Language ρ) (s : State ρ) (f : Frame ρ) :
    (start l s f).reported = s.reported := by
  unfold start
  dsimp only
  split
  · exact (reported_emit s _).trans (String.append_empty)
  · rfl

theorem reported_stop (m : CompiledMode ρ) (s : State ρ) : (stop m s).reported = s.reported := by
  have hclosed : (if m.className.isSome then s.emit .closing else s).reported = s.reported := by
    split
    · exact (reported_emit s _).trans (String.append_empty)
    · rfl
  unfold stop
  dsimp only
  split <;> exact hclosed

theorem reported_close (l : Language ρ) : ∀ (n : Nat) (ended : Option (Frame ρ)) (s : State ρ),
    (close l n ended s).1.reported = s.reported
  | 0, _, _ => rfl
  | n + 1, ended, s => by
    unfold close
    split
    · rfl
    · rw [reported_close l n, reported_stop]
      rfl

theorem reported_startNext (l : Language ρ) (ended : Option (Frame ρ)) (s : State ρ) :
    (startNext l ended s).reported = s.reported := by
  unfold startNext
  split
  · rfl
  · dsimp only
    split
    · rfl
    · exact reported_start l s _

omit [Engine ρ] in
/-- What has been reported stays so. -/
theorem exists_reported_of_events {s s' : State ρ} {more : List Event}
    (h : s'.events = more ++ s.events) : ∃ text, s'.reported = s.reported ++ text :=
  ⟨Event.charsOf more.reverse, by
    rw [State.reported, h, List.reverse_append, Event.charsOf_append]
    rfl⟩

variable {env : Setting ρ}

/-- At an end all of the content is reported. -/
theorem exists_reported_contentAtEnd (he : Sound env) {m : CompiledMode ρ} (hskip : m.skip = false)
    {lexeme : String} {s s' : State ρ} (h : contentAtEnd env m lexeme s = .ok s') :
    ∃ text, s'.reported = s.text ++ text := by
  rcases contentAtEnd_cases h with ⟨hskip', -⟩ | ⟨-, t, ht, rfl⟩
  · cases hskip.symm.trans hskip'
  · have hkept : ∀ b : Bool,
        (if b then { t with buffer := lexeme } else t : State ρ).reported = t.reported := by
      rintro (_ | _) <;> rfl
    rw [hkept, (ht.text he).1]
    split
    · exact ⟨"", (String.append_empty).symm⟩
    · exact ⟨lexeme, text_keep s lexeme⟩

/-! ### What following a match does to the open modes -/

/-- Following a match leaves the open modes as they are, or a mode begins, or modes end and all that
is before the match has been reported. -/
inductive Enters (env : Setting ρ) (found : Found) (s s' : State ρ) (taken : Nat) : Prop where
  | stays : s'.course.modes = s.course.modes → Enters env found s s' taken
  | begins {id : Nat} : found.kind = .begins id → s'.course.modes = id :: s.course.modes →
      taken = (if (env.language.mode id).returnBegin then 0 else found.lexeme.utf8ByteSize) →
      Enters env found s s' taken
  | ends {text : String} : found.kind = .ends → s'.reported = s.text ++ text →
      Enters env found s s' taken

/-- **Where modes end, all that is before the match is reported.** -/
theorem Followed.enters (he : Sound env) (hskip : ∀ m ∈ env.language.modes, m.skip = false)
    {s s' : State ρ} {found : Found} {taken : Nat} (h : Followed env s found s' taken) :
    Enters env found s s' taken := by
  cases h with
  | empty => exact .stays (congrArg Course.modes (course_keepChar env s found.index).1)
  | refused | emptyIllegal =>
    have hmodes := congrArg Course.modes (course_keepChar env (s.matched found) found.index).1
    exact .stays hmodes
  | passed | illegal => exact .stays rfl
  | endless _ _ hending => exact .stays (modes_endingFrame hending).1
  | begins hk _ _ hcontent =>
    refine .begins hk ?_ rfl
    rw [course_start, course_contentAtBegin hcontent]
    rfl
  | ends hk _ _ hcontent =>
    obtain ⟨text, htext⟩ := exists_reported_contentAtEnd he (hskip _ (topMode_mem env _)) hcontent
    exact .ends hk ((reported_startNext ..).trans ((reported_close ..).trans htext))

/-- A step does what following the match that it finds does, with the text before it kept. -/
theorem enters_step (he : Sound env) (hskip : ∀ m ∈ env.language.modes, m.skip = false)
    {s s' : State ρ} (h : step env s = .ok (some s')) : ∃ found first taken,
      (topMode env s).matcher.find s.course.next.firstRule env.code s.index =
        .ok (some (found, first)) ∧ s'.index = found.index + taken ∧
      Enters env found (s.keep (between env.code s.index found.index)) s' taken := by
  obtain ⟨found, first, t, taken, hfind, hfollowed, rfl⟩ := exists_followed_of_step h
  refine ⟨found, first, taken, hfind, rfl, ?_⟩
  cases hfollowed.enters he hskip with
  | stays hmodes => exact .stays hmodes
  | begins hk hmodes htaken => exact .begins hk hmodes htaken
  | ends hk hreported => exact .ends hk hreported

/-! ### Some of the code is reported before embedded code -/

/-- So much of the code has been gone through when a mode is open inside the root, and has been
reported when a mode is open that holds embedded code. -/
structure Ahead (env : Setting ρ) (start : Nat) (s : State ρ) : Prop where
  inRange : s.course.InRange env.language
  apart : s.course.Apart env.language
  covers : s.Covers env.code
  entered : 1 < s.course.modes.length → start ≤ s.index
  delegated : (∃ id ∈ s.course.modes, (env.language.mode id).subLanguage ≠ none) →
    start ≤ s.reported.utf8ByteSize

/-- Nothing needs to have been reported at first, and if only the root is open, some of the code is
reported before embedded code. -/
theorem ahead_initial (hl : env.language.Forwards) {frames : List (Frame ρ)} {start : Nat}
    (hopens : env.language.Opens (frames.map Frame.mode))
    (hstart : start = 0 ∨ frames.map Frame.mode = [0]) :
    Ahead env start (initial env.language frames) := by
  have hmodes : (initial env.language frames).course.modes = frames.map Frame.mode := by
    rw [course_initial]
  refine ⟨inRange_initial hopens, apart_initial env.language frames,
    covers_initial env.language env.code frames, fun hlength => ?_, fun ⟨id, hid, hsub⟩ => ?_⟩
  · rcases hstart with rfl | hroot
    · exact Nat.zero_le _
    · rw [hmodes, hroot] at hlength
      exact absurd hlength (Nat.lt_irrefl 1)
  · rcases hstart with rfl | hroot
    · exact Nat.zero_le _
    · rw [hmodes, hroot, List.mem_singleton] at hid
      subst hid
      exact absurd hl.root hsub

omit [Engine ρ] in
/-- The text up to a match is as long as the code before it. -/
theorem utf8ByteSize_text_keep {code : List Char} {s : State ρ} {place : Nat} (hs : s.Covers code)
    (hle : s.index ≤ place) (hplace : Text.IsPlace code place) :
    (s.keep (between code s.index place)).text.utf8ByteSize = place := by
  have hsize := congrArg String.utf8ByteSize (text_keep_between hs hle hplace)
  obtain ⟨before, after, rfl, rfl⟩ := hplace
  rw [restFrom, Text.rest_byteSize, String.utf8ByteSize_append, Text.utf8ByteSize_ofList,
    Text.utf8ByteSize_ofList, Text.byteSize_append] at hsize
  omega

/-- **A step keeps ahead of embedded code.** -/
theorem Ahead.step (hρ : Engine.Lawful ρ) (hlinking : env.language.Linking)
    (hreturns : env.language.ReturnsApart) (hl : env.language.Forwards) (he : Sound env)
    {start : Nat} (hstart : start ≤ 1) {s s' : State ρ} (hs : Ahead env start s)
    (h : step env s = .ok (some s')) : Ahead env start s' := by
  obtain ⟨found, first, taken, hfind, hindex, henters⟩ := enters_step he hl.skip h
  obtain ⟨-, first', offset, hoffset, hsearch, -⟩ := Matcher.find_spec hρ hfind
  have hm := Matcher.matches_of_searchFrom hρ hsearch
  have hle : s.index ≤ found.index := hoffset.trans hm.le
  have hlater : s.index ≤ s'.index := by omega
  -- what has been reported stays, so there is no less of it
  obtain ⟨text, hgrows⟩ : ∃ text, s'.reported = s.reported ++ text := by
    obtain ⟨ended, begun, hturn⟩ := turn_step (List.length_pos_of_mem
      (List.mem_of_mem_getLast? hs.inRange.opens.root)) h
    obtain ⟨content, -, hevents⟩ := hturn.events
    rw [← List.append_assoc, ← List.append_assoc] at hevents
    exact exists_reported_of_events hevents
  have hreported : s.reported.utf8ByteSize ≤ s'.reported.utf8ByteSize := by
    rw [hgrows, String.utf8ByteSize_append]
    exact Nat.le_add_right _ _
  obtain ⟨top, rest, hopen⟩ := hs.inRange.opens.exists_cons
  have htop : s.course.modes.head? = some top := by rw [hopen]; rfl
  refine ⟨inRange_step hρ hlinking hs.inRange h, apart_step hlinking hreturns hs.inRange hs.apart h,
    covers_step he hs.covers h, fun hlength => ?_, fun ⟨id, hid, hsub⟩ => ?_⟩
  · by_cases hinner : 1 < s.course.modes.length
    · exact (hs.entered hinner).trans hlater
    · obtain rfl : rest = [] := by
        rw [hopen, List.length_cons] at hinner
        exact List.length_eq_zero_iff.mp (by omega)
      obtain rfl : top = 0 := by
        have hroot := hs.inRange.opens.root
        rw [hopen] at hroot
        exact Option.some.inj hroot
      -- only the root is open: a mode that begins now takes some of the code
      cases henters with
      | stays hmodes => exact absurd (hmodes ▸ hlength) hinner
      | ends hk => exact absurd (hs.inRange.one_lt_length hlinking hfind hk) hinner
      | @begins id hk _ htaken =>
        have hpos : taken ≠ 0 := by
          intro hzero
          refine hl.takes id ⟨mem_children_of_find hlinking htop hfind hk, ?_⟩
          rw [htaken] at hzero
          split at hzero
          · next hreturn => exact Or.inl hreturn
          · rw [topMode_of_head? htop] at hsearch
            exact Or.inr ⟨first', env.code, offset, found, hsearch, hk,
              String.utf8ByteSize_eq_zero_iff.mp hzero⟩
        omega
  · cases henters with
    | stays hmodes => exact (hs.delegated ⟨id, hmodes ▸ hid, hsub⟩).trans hreported
    | @begins begun hk hmodes _ =>
      rw [hmodes] at hid
      rcases List.mem_cons.mp hid with rfl | hid
      · exact absurd (hl.children top id (mem_children_of_find hlinking htop hfind hk)) hsub
      · exact (hs.delegated ⟨id, hid, hsub⟩).trans hreported
    | @ends text hk htext =>
      -- the end reports the code up to the match, and the mode was entered before that
      rw [htext, String.utf8ByteSize_append, utf8ByteSize_text_keep hs.covers hle hm.place]
      have hentered := hs.entered (hs.inRange.one_lt_length hlinking hfind hk)
      omega

/-! ### What embedded code may break off -/

/-- Guessing the language of embedded code does not break off, if that code is so much shorter than
the code around it. -/
def Nested.EndsBefore (n : Nested ρ) (code : List Char) (start : Nat) : Prop :=
  ∀ content names, content ≠ "" → start + content.utf8ByteSize ≤ Text.byteSize code →
    n.detect content names ≠ .error .unfinished

/-- Content is read without breaking off, as what has been reported is not part of it. -/
theorem Ahead.readContent_ne_unfinished (hl : env.language.Forwards) {start : Nat}
    (hn : Nested.EndsBefore env.nested env.code start) {s t : State ρ} (hs : Ahead env start s)
    (hmodes : t.course.modes = s.course.modes) (hevents : t.events = s.events)
    (htext : t.text.utf8ByteSize ≤ Text.byteSize env.code) :
    readContent env t ≠ .error .unfinished := by
  intro h
  unfold readContent at h
  dsimp only at h
  split at h
  · next d hd =>
    obtain ⟨top, rest, hopen⟩ := hs.inRange.opens.exists_cons
    rw [topMode_of_head? (by rw [hmodes, hopen]; rfl : t.course.modes.head? = some top)] at h hd
    obtain ⟨names, rfl⟩ := hl.detects top d hd
    have hreported : t.reported = s.reported := by rw [State.reported, hevents, State.reported]
    have hstart := hs.delegated ⟨top, by simp [hopen], by simp [hd]⟩
    rw [State.text, String.utf8ByteSize_append, hreported] at htext
    unfold readEmbedded at h
    split at h
    · cases h
    · next hne =>
      dsimp only at h
      split at h
      · next hdetect =>
        cases h
        exact hn _ _ (by simpa [String.isEmpty_iff] using hne) (by omega) hdetect
      · cases h
  · unfold readKeywords at h
    split at h
    · cases h
    · split at h <;> cases h

/-- **A step does not break off** while embedded code is so much shorter. -/
theorem Ahead.step_ne_unfinished (hl : env.language.Forwards) (he : Sound env) {start : Nat}
    (hn : Nested.EndsBefore env.nested env.code start) {s : State ρ} (hs : Ahead env start s) :
    Scan.step env s ≠ .error .unfinished := by
  intro h
  rcases error_step_cases (failsAlone_ne_unfinished env) h with
    (h | ⟨h, -⟩ | ⟨rule, h, -⟩) | ⟨found, first, t, hfind, hreads, hread⟩
  · exact h rfl
  · cases h
  · cases h
  · have hm := (he.language.lands _ (topMode_mem env s)).matcher
    obtain ⟨hle, hf⟩ := Matcher.slice?_of_find hm hfind
    have hkept := utf8ByteSize_text_keep hs.covers hle (Text.isPlace_left hf)
    have hstop := (Text.isPlace_right hf).le
    refine hs.readContent_ne_unfinished hl hn hreads.modes hreads.events ?_ hread
    have hreported : t.reported = s.reported := by
      rw [State.reported, hreads.events]
      rfl
    rw [State.text, String.utf8ByteSize_append] at hkept ⊢
    change s.reported.utf8ByteSize + _ = _ at hkept
    rcases hreads.buffer with hbuffer | hbuffer
    · rw [hbuffer, hreported]
      omega
    · rw [hbuffer, hreported, String.utf8ByteSize_append]
      omega

theorem Ahead.finish_ne_unfinished (hl : env.language.Forwards) {start : Nat}
    (hn : Nested.EndsBefore env.nested env.code start) {s : State ρ} (hs : Ahead env start s) :
    finish env s ≠ .error .unfinished := by
  refine hs.readContent_ne_unfinished hl hn rfl rfl ?_
  rw [text_keep, between_size hs.covers.2, hs.covers.1, Text.utf8ByteSize_ofList]

/-! ### Going through code -/

/-- **Going through code ends** while what it embeds is shorter, or is not longer where the code is
gone on with. -/
theorem outcome_ne_unfinished (hρ : Engine.Lawful ρ) (hlinking : env.language.Linking)
    (hranks : Nonempty env.language.Ranks) (hreturns : env.language.ReturnsApart)
    (hl : env.language.Forwards) (he : Sound env) {start : Nat} (hstart : start ≤ 1)
    (hn : Nested.EndsBefore env.nested env.code start) {frames : List (Frame ρ)}
    (hopens : env.language.Opens (frames.map Frame.mode))
    (hroot : start = 0 ∨ frames.map Frame.mode = [0]) :
    outcome env frames ≠ .error .unfinished := by
  obtain ⟨k⟩ := hranks
  have hrun := run_ne_unfinished k hρ hlinking (P := Ahead env start)
    (fun hs h => hs.step hρ hlinking hreturns hl he hstart h) (fun hs => ⟨hs.inRange, hs.apart⟩)
    (fun hs => hs.step_ne_unfinished hl he hn) (fun hs _ => hs.finish_ne_unfinished hl hn) _ _
    (ahead_initial hl hopens hroot) (left_initial_lt k frames)
  exact fun h => hrun (of_map_error h)

end Scan

/-! ### Highlighting -/

/-- A language in which going through code ends: modes do not begin one inside the other for ever
without any text being taken, no mode follows itself, and embedded code gets shorter. -/
structure Language.Finishes (l : Language ρ) : Prop where
  linking : l.Linking
  ranks : Nonempty l.Ranks
  returnsApart : l.ReturnsApart
  embeds : (∀ m ∈ l.modes, m.subLanguage = none) ∨ l.Forwards

/-- Going through code ends in every language of the registry. -/
def Registry.Finishes (r : Registry ρ) : Prop := ∀ e ∈ r.languages.entries, e.2.Finishes

theorem Registry.Finishes.resolve {r : Registry ρ} (hr : r.Finishes) {name key : String}
    {l : Language ρ} (h : r.resolve name = some (key, l)) : l.Finishes :=
  hr _ (Dictionary.mem_of_findIn (find?_of_resolve h))

section Within

variable (hρ : Engine.Lawful ρ) {r : Registry ρ} (hlossless : r.Lossless) (hr : r.Finishes)
  (o : Options)

include hρ hlossless hr

/-- One level ends if the levels below it do. -/
theorem highlightWithin_succ_ne_unfinished {depth start : Nat} {code : String} (hstart : start ≤ 1)
    (hinner : ∀ name inner, start + inner.utf8ByteSize ≤ code.utf8ByteSize →
      highlightWithin r o depth name inner false none ≠ .error .unfinished)
    (name : String) (ignoreIllegals : Bool) {continuation : Option (ModeStack ρ)}
    (hroot : start = 0 ∨ continuation = none) :
    highlightWithin r o (depth + 1) name code ignoreIllegals continuation ≠
      .error .unfinished := by
  rw [highlightWithin_succ]
  cases hl : r.resolve name with
  | none => simp
  | some entry =>
    obtain ⟨key, l⟩ := entry
    have hopens : (settingWithin r o depth key l code ignoreIllegals).language.Opens
        ((startingFrames key l continuation).map Frame.mode) :=
      opens_startingFrames key l continuation
    obtain ⟨hlinking, hranks, hreturns, hembeds⟩ := hr.resolve hl
    refine recover_ne_unfinished ?_
    rcases hembeds with hsub | hforwards
    · exact fun h =>
        (Scan.ends_of_opens hρ hlinking hsub hreturns hranks hopens).1 (of_map_error h)
    · have hsound : Scan.Sound (settingWithin r o depth key l code ignoreIllegals) :=
        ⟨hlossless.resolve hl, lossless_nestedWithin (reports_highlightWithin hlossless o depth)⟩
      refine Scan.outcome_ne_unfinished hρ hlinking hranks hreturns hforwards hsound hstart ?_
        hopens ?_
      · intro inner names _ hshorter h
        change (nestedWithin r o depth).detect inner names = _ at h
        rw [detect_nestedWithin] at h
        obtain ⟨candidate, -, hgo, -⟩ := error_detectWith (of_map_error h)
        refine hinner candidate inner ?_ hgo
        rwa [← Text.utf8ByteSize_ofList, settingWithin, String.ofList_toList] at hshorter
      · exact hroot.imp_right fun hnone => by rw [hnone]; rfl

/-- **Code ends that may be embedded deeper than it is long.** -/
theorem highlightWithin_ne_unfinished : ∀ (depth : Nat) (name code : String) (ignoreIllegals : Bool),
    code.utf8ByteSize < depth →
      highlightWithin r o depth name code ignoreIllegals none ≠ .error .unfinished
  | depth + 1, name, code, ignoreIllegals, hdepth => by
    refine highlightWithin_succ_ne_unfinished hρ hlossless hr o (Nat.le_refl 1)
      (fun name inner hinner => ?_) name ignoreIllegals (Or.inr rfl)
    exact highlightWithin_ne_unfinished depth name inner false (by omega)

/-- **Highlighting ends**, from whatever stack it goes on, and so does guessing the language. -/
theorem highlight_detect_ne_unfinished (code : String) :
    (∀ name ignoreIllegals continuation,
      highlight r o name code ignoreIllegals continuation ≠ .error .unfinished) ∧
    ∀ subset, detect r o code subset ≠ .error .unfinished := by
  have hhighlight : ∀ name ignoreIllegals continuation,
      highlight r o name code ignoreIllegals continuation ≠ .error .unfinished := by
    intro name ignoreIllegals continuation
    rw [highlight_eq]
    have hbound : code.utf8ByteSize < nestingBound r code - 1 := by
      have hmul : 4 * (code.utf8ByteSize + 2) ≤ nestingBound r code :=
        Nat.le_mul_of_pos_right _ (Nat.succ_pos _)
      omega
    refine highlightWithin_succ_ne_unfinished hρ hlossless hr o (Nat.zero_le 1)
      (fun name inner hinner => ?_) name ignoreIllegals (Or.inl rfl)
    exact highlightWithin_ne_unfinished hρ hlossless hr o _ name inner false (by omega)
  refine ⟨hhighlight, fun subset h => ?_⟩
  obtain ⟨name, -, hgo, -⟩ := error_detectWith h
  exact hhighlight name false none hgo

end Within

end CodeMarkup
