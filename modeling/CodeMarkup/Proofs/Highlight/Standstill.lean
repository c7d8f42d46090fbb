import CodeMarkup.Proofs.Highlight.Progress
import Mathlib

/-! # Standing still

Progress is asked for where a match is taken as text, and nowhere else (`Scan.step_of_takenAsText`).
In between, modes begin and end and begins are passed over, which a language without embedded ones
that always gets on keeps up only so long at one place: so many matches are looked for there, and no
more, before a run ends because no progress has been made (`standstill_le`).

Where modes give back both the text they have begun with and the text of their end, nothing is asked.
Each storey of a tower of modes goes through the one below it twice, so a tower of thirty-four modes
stays at the first character for almost two hundred thousand matches, and the code is gone through to
its end without a word (`tower_outlasts`). -/

namespace CodeMarkup

variable {ρ : Type} [Engine ρ]

namespace Scan

variable {env : Setting ρ}

/-! ### Matches at one offset -/

/-- So many matches are looked for at an offset, one after the other. -/
inductive Stays (env : Setting ρ) (index : Nat) : Nat → State ρ → State ρ → Prop
  | refl (s : State ρ) : Stays env index 0 s s
  | tail {n : Nat} {s t u : State ρ} : Stays env index n s t → t.index = index →
      step env t = .ok (some u) → Stays env index (n + 1) s u

namespace Stays

variable {index n m : Nat} {s t u : State ρ}

theorem single (hs : s.index = index) (h : step env s = .ok (some t)) : Stays env index 1 s t :=
  (Stays.refl s).tail hs h

theorem trans (h : Stays env index n s t) (h' : Stays env index m t u) :
    Stays env index (n + m) s u := by
  induction h' with
  | refl => exact h
  | tail _ hindex hstep ih => exact (ih h).tail hindex hstep

theorem leads (h : Stays env index n s t) : Leads env s t := by
  induction h with
  | refl => exact .refl
  | tail _ _ hstep ih => exact ih.tail hstep

/-- The steps of a run that are made at one offset. -/
theorem run_add (h : Stays env index n s t) (steps : Nat) :
    run env (n + steps) s = run env steps t := by
  induction h generalizing steps with
  | refl => rw [Nat.zero_add]
  | tail _ _ hstep ih => rw [Nat.add_right_comm, Nat.add_assoc, ih, run_of_step hstep]

end Stays

theorem exists_run_of_leads {s t : State ρ} (h : Leads env s t) :
    ∃ n, ∀ steps, run env (n + steps) s = run env steps t := by
  induction h with
  | refl => exact ⟨0, fun steps => by rw [Nat.zero_add]⟩
  | tail _ hstep ih =>
    obtain ⟨n, hn⟩ := ih
    exact ⟨n + 1, fun steps => by rw [Nat.add_right_comm, Nat.add_assoc, hn, run_of_step hstep]⟩

theorem apart_leads (hρ : Engine.Lawful ρ) (hl : env.language.Linking)
    (hreturns : env.language.ReturnsApart) {s t : State ρ} (hs : s.course.InRange env.language)
    (hapart : s.course.Apart env.language) (h : Leads env s t) : t.course.Apart env.language := by
  induction h with
  | refl => exact hapart
  | tail hleads hstep ih => exact apart_step hl hreturns (inRange_leads hρ hl hs hleads) ih hstep

/-! ### Where progress is asked for -/

/-- Whether a match is taken as text: some text that cannot occur, or an end at which no open mode
ends. -/
def TakenAsText (env : Setting ρ) (s : State ρ) (found : Found) : Prop :=
  emptyMode? s found = none ∧
    (found.kind = .illegal ∧ env.ignoreIllegals = true ∧ found.lexeme ≠ "" ∨
      found.kind = .ends ∧ ∃ t,
        followEnd env { s with lastMatch := some (found.kind, found.index) } found = .ok (t, none))

theorem exists_follow_of_takenAsText {s : State ρ} {found : Found} (h : TakenAsText env s found) :
    ∃ t, t.iterations = s.iterations ∧ follow env s found = keepMatch env t found := by
  obtain ⟨hempty, ⟨hk, hlenient, hlexeme⟩ | ⟨hk, t, hend⟩⟩ := h
  · have hne : found.lexeme.isEmpty = false := by simpa [String.isEmpty_iff] using hlexeme
    refine ⟨s.matched found, rfl, ?_⟩
    rw [follow_of_illegal hk, hlenient, hne]
    rfl
  · obtain ⟨frames, -, ht⟩ := exists_frames_of_followEnd hend
    exact ⟨t, by rw [ht], by rw [follow_of_ends hk hempty, hend]⟩

/-- **Where a match is taken as text, progress is asked for**: after that many matches the step fails,
and before it goes on behind the text. -/
theorem step_of_takenAsText {s : State ρ} {found : Found} {firstRule : Nat}
    (hfind : (topMode env s).matcher.find (next s).firstRule env.code s.index =
      .ok (some (found, firstRule)))
    (h : TakenAsText env (onMatch env s found firstRule) found) :
    if max iterationLimit (3 * found.index) < s.iterations + 1 then
      step env s = .error (.infiniteLoop env.name (s.iterations + 1))
    else ∃ t, step env s = .ok (some t) ∧ t.index = found.index + found.lexeme.utf8ByteSize := by
  obtain ⟨t, ht, hfollow⟩ := exists_follow_of_takenAsText h
  have ht : t.iterations = s.iterations + 1 := ht
  rw [step_of_find hfind, hfollow]
  unfold keepMatch
  rw [ht]
  split
  · next hlate => rw [if_pos (by simp only [Bool.and_eq_true, decide_eq_true_eq]; omega)]
  · next hearly =>
    rw [if_neg (by simp only [Bool.and_eq_true, decide_eq_true_eq]; omega)]
    exact ⟨_, rfl, rfl⟩

/-! ### How long a run stands still -/

/-- What is left to be done at an offset, at most, before progress is asked for. -/
noncomputable def stayLeft (k : env.language.Ranks) (c : Course) (index : Nat) : Nat :=
  (max iterationLimit (3 * index) + 1 - c.iterations) + standLeft k c index

/-- At one offset less is left to be done with each match that is looked for. -/
theorem Stays.le_stayLeft (k : env.language.Ranks) (hρ : Engine.Lawful ρ)
    (hl : env.language.Linking) (hreturns : env.language.ReturnsApart) {index n : Nat}
    {s t : State ρ} (hs : s.course.InRange env.language) (hapart : s.course.Apart env.language)
    (h : Stays env index n s t) :
    (t.index = index → n + stayLeft k t.course index ≤ stayLeft k s.course index) ∧
      n ≤ stayLeft k s.course index + 1 := by
  induction h with
  | refl => exact ⟨fun _ => by omega, Nat.zero_le _⟩
  | @tail n s t u hstays hindex hstep ih =>
    have hleft := (ih hs hapart).1 hindex
    have hrange := inRange_leads hρ hl hs hstays.leads
    have happ := apart_leads hρ hl hreturns hs hapart hstays.leads
    obtain ⟨hi, -, -, hmoved⟩ := advances_or_stays k hρ hl hrange happ hstep
    rw [hindex] at hmoved
    refine ⟨fun hu => ?_, by omega⟩
    unfold stayLeft at hleft ⊢
    rcases hmoved with hlt | ⟨-, ⟨hguard, hstand⟩ | hstand⟩ <;> omega

theorem stayLeft_le (k : env.language.Ranks) (s : State ρ) (index : Nat) :
    stayLeft k s.course index ≤ max iterationLimit (3 * index) + 1 + placeCost env.language +
      s.frames.length * (env.language.ruleCount + 1) := by
  have hplace := placeLeft_le k s.course index
  have hweight := weight_le k s.course.modes
  have hlength : s.course.modes.length = s.frames.length := List.length_map ..
  rw [hlength] at hweight
  unfold stayLeft standLeft
  omega

/-- A run that fails after some steps fails in all the steps that it may take. -/
theorem run_of_leads_error {frames : List (Frame ρ)} (hends : Ends env frames) {s : State ρ}
    (h : Leads env (initial env.language frames) s) {p : Problem} (hstep : step env s = .error p) :
    run env (stepBound env frames.length) (initial env.language frames) = .error p := by
  obtain ⟨n, hn⟩ := exists_run_of_leads h
  have hmore := hends.2 (n + 1)
  rw [Nat.add_left_comm, hn, run, hstep] at hmore
  exact hmore.symm

end Scan

/-! ### Highlighting -/

/-- **A run stands still no longer than until progress is asked for, what the language itself may do
at one place apart**: modes that begin inside each other or end without any text being taken, and
begins that are passed over. A match that is taken as text after that makes it end; this is a problem
that comes out, or the code is left as it is. -/
theorem standstill_le (hρ : Engine.Lawful ρ) {g : Grammar} (hg : g.shelf.Ordered)
    {registered : String} {l : Language ρ} (hl : Language.compile g registered = .ok l)
    (hsub : ∀ m ∈ l.modes, m.subLanguage = none) (hreturns : l.ReturnsApart)
    (hcycle : ∀ id, ¬ Relation.TransGen l.BeginsAtOnce id id) {r : Registry ρ} {name key : String}
    (hr : r.resolve name = some (key, l)) (o : Options) (code : String) (ignoreIllegals : Bool)
    (continuation : Option (ModeStack ρ)) :
    let env := settingWithin r o (nestingBound r code - 1) key l code ignoreIllegals
    ∀ s, Scan.Leads env (Scan.initial l (startingFrames key l continuation)) s →
      (∀ n t, Scan.Stays env s.index n s t → n ≤ max 100000 (3 * s.index) + 2 +
        Scan.placeCost l + s.frames.length * (l.ruleCount + 1)) ∧
      ∀ found firstRule, (Scan.topMode env s).matcher.find (Scan.next s).firstRule env.code s.index =
          .ok (some (found, firstRule)) →
        Scan.TakenAsText env (Scan.onMatch env s found firstRule) found →
        if max 100000 (3 * found.index) < s.iterations + 1 then
          highlight r o name code ignoreIllegals continuation =
            if o.safeMode then .ok { Outcome.plain code (some key) with
              problem := some (.infiniteLoop key (s.iterations + 1)) }
            else .error (.infiniteLoop key (s.iterations + 1))
        else ∃ t, Scan.step env s = .ok (some t) ∧
          t.index = found.index + found.lexeme.utf8ByteSize := by
  intro env s hs
  have hlinking := Language.linking_of_compile hl
  have hranks := Language.nonempty_ranks hlinking (Language.not_transGen_starts hl hg) hcycle
  have hopens := opens_startingFrames key l continuation
  have hstart := Scan.inRange_initial hopens
  have happ := Scan.apart_initial l (startingFrames key l continuation)
  refine ⟨fun n t hstays => ?_, fun found firstRule hfind htext => ?_⟩
  · -- every step that stays takes from what is left to do at the place
    obtain ⟨k⟩ : Nonempty env.language.Ranks := hranks
    have hn := (hstays.le_stayLeft k hρ hlinking hreturns
      (Scan.inRange_leads hρ hlinking hstart hs)
      (Scan.apart_leads hρ hlinking hreturns hstart happ hs)).2
    have hleft := Scan.stayLeft_le k s s.index
    change _ ≤ max 100000 (3 * s.index) + 1 + Scan.placeCost l + s.frames.length *
      (l.ruleCount + 1) at hleft
    omega
  · have hstep := Scan.step_of_takenAsText hfind htext
    change if max 100000 (3 * found.index) < s.iterations + 1 then _ else _ at hstep
    split at hstep
    · next hlate =>
      -- the step fails, and with it the run, which has steps enough to get there
      have hends : Scan.Ends env (startingFrames key l continuation) :=
        Scan.ends_of_opens hρ hlinking hsub hreturns hranks hopens
      have hrun := Scan.run_of_leads_error hends hs hstep
      rw [if_pos hlate, highlight_eq, highlightWithin_succ, hr]
      change recover o code key ((Scan.run env _ _).map _) = _
      rw [hrun]
      rfl
    · next hearly =>
      rw [if_neg hearly]
      exact hstep

/-- Keys and values, and a sign that cannot occur in between. -/
def barred : Grammar := { keyed with root := { keyed.root with illegal := some (.one "!") } }

theorem exists_compile_barred : ∃ l : Language (Checked Regex.Tried),
    Language.compile barred "Barred" = .ok l ∧
      (l.isTiered && ((l.mode 0).matcher.find 0 "!a=b;".toList 0).toOption.any fun match? =>
        match?.any fun (found, _) =>
          found.kind == .illegal && found.index == 0 && found.lexeme == "!") = true :=
  exists_of_any (by decide +kernel)

/-- The sign that cannot occur is taken as text at the start. -/
theorem standstill_le_barred : ∃ (l : Language (Checked Regex.Tried))
    (r : Registry (Checked Regex.Tried)) (found : Found) (firstRule : Nat),
    let key := Registry.fold "Barred"
    let env := settingWithin r {} (nestingBound r "!a=b;" - 1) key l "!a=b;" true
    let s := Scan.initial l [Frame.new 0]
    r.resolve "Barred" = some (key, l) ∧
      (Scan.topMode env s).matcher.find (Scan.next s).firstRule env.code s.index =
        .ok (some (found, firstRule)) ∧
      Scan.TakenAsText env (Scan.onMatch env s found firstRule) found ∧
      (∀ n t, Scan.Stays env 0 n s t → n ≤ 100002 + Scan.placeCost l + (l.ruleCount + 1)) ∧
      ∃ t, Scan.step env s = .ok (some t) ∧ t.index = 1 := by
  obtain ⟨l, hl, h⟩ := exists_compile_barred
  obtain ⟨htiered, hfirst⟩ := Bool.and_eq_true_iff.mp h
  obtain ⟨r, -, hresolve⟩ := Registry.exists_register hl
  have hmodes := (Bool.and_eq_true _ _ ▸ htiered).1
  simp only [Array.all_eq_true_iff_forall_mem, Bool.and_eq_true, Option.isNone_iff_eq_none,
    Bool.not_eq_true'] at hmodes
  obtain ⟨match?, hfind, hmatch⟩ := exists_of_any hfirst
  cases match? with
  | none => cases hmatch
  | some match? =>
  obtain ⟨found, firstRule⟩ := match?
  simp only [Option.any_some, Bool.and_eq_true, beq_iff_eq] at hmatch
  obtain ⟨⟨hk, hindex⟩, hlexeme⟩ := hmatch
  have htext : Scan.TakenAsText (settingWithin r {} (nestingBound r "!a=b;" - 1)
      (Registry.fold "Barred") l "!a=b;" true) (Scan.onMatch (settingWithin r {}
        (nestingBound r "!a=b;" - 1) (Registry.fold "Barred") l "!a=b;" true)
          (Scan.initial l [Frame.new 0]) found firstRule) found :=
    ⟨rfl, .inl ⟨hk, rfl, by rw [hlexeme]; decide⟩⟩
  obtain ⟨hstays, hguard⟩ := standstill_le (Checked.lawful Regex.Tried) (g := barred)
    ordered_keyed hl
    (fun m hm => (hmodes m hm).1) (Language.returnsApart_of_forall fun m hm => (hmodes m hm).2)
    (Language.not_transGen_of_isTiered (Language.linking_of_compile hl) htiered) hresolve {} "!a=b;"
    true none _ .refl
  have hstep := hguard found firstRule hfind htext
  rw [if_neg (by rw [hindex]; exact (by decide : ¬ max 100000 (3 * 0) < 0 + 1)), hindex,
    hlexeme] at hstep
  refine ⟨l, r, found, firstRule, hresolve, hfind, htext, fun n t hn => ?_, hstep⟩
  have := hstays n t hn
  change n ≤ 100000 + 2 + _ + 1 * _ at this
  omega

/-! ### A tower -/

/-- A mode with nothing but its rules. -/
structure CompiledMode.Bare (m : CompiledMode ρ) : Prop where
  skip : m.skip = false
  keywords : m.keywords = none
  subLanguage : m.subLanguage = none
  skipAfterDot : m.skipAfterDot = false
  onBegin : m.onBegin = none
  onEnd : m.onEnd = none
  endSameAsBegin : m.endSameAsBegin = false

def CompiledMode.isBare (m : CompiledMode ρ) : Bool :=
  !m.skip && m.keywords.isNone && m.subLanguage.isNone && !m.skipAfterDot && m.onBegin.isNone &&
    m.onEnd.isNone && !m.endSameAsBegin

theorem CompiledMode.bare_of_isBare {m : CompiledMode ρ} (h : m.isBare) : m.Bare := by
  simp only [isBare, Bool.and_eq_true, Bool.not_eq_true', Option.isNone_iff_eq_none] at h
  obtain ⟨⟨⟨⟨⟨⟨hskip, hkeywords⟩, hsub⟩, hdot⟩, hbegin⟩, hend⟩, hsame⟩ := h
  exact ⟨hskip, hkeywords, hsub, hdot, hbegin, hend, hsame⟩

namespace Scan

variable {env : Setting ρ}

omit [Engine ρ] in
theorem modes_new (ids : List Nat) : (ids.map (Frame.new (ρ := ρ))).map Frame.mode = ids := by
  rw [List.map_map]
  exact List.map_id ids

/-- A state at an offset with these modes open, which goes on with all rules. -/
structure Standing (index : Nat) (ids : List Nat) (s : State ρ) : Prop where
  frames : s.frames = ids.map Frame.new
  index : s.index = index
  resume : s.resume = false

theorem exists_readContent {s : State ρ} (h : (topMode env s).Bare) :
    ∃ t, readContent env s = .ok t := by
  unfold readContent readKeywords
  dsimp only
  rw [h.subLanguage, h.keywords]
  exact ⟨_, rfl⟩

theorem topMode_of_new {id : Nat} {ids : List Nat} {s : State ρ}
    (h : s.frames = (id :: ids).map Frame.new) : topMode env s = env.language.mode id := by
  rw [topMode, h]
  rfl

variable {index id top firstRule : Nat} {ids : List Nat} {s : State ρ} {found : Found}

/-- All rules of the top mode are looked for in a state that goes on with all. -/
theorem Standing.find (hs : Standing index (top :: ids) s)
    (hfind : (env.language.mode top).matcher.find 0 env.code index = .ok (some (found, firstRule))) :
    (topMode env s).matcher.find (next s).firstRule env.code s.index =
      .ok (some (found, firstRule)) := by
  rw [topMode_of_new hs.frames, hs.index]
  simpa [next, hs.resume] using hfind

theorem exists_contentAtBegin (hframes : s.frames = (top :: ids).map Frame.new)
    (htop : (env.language.mode top).Bare) (hid : (env.language.mode id).Bare) :
    ∃ t, contentAtBegin env (env.language.mode id) found.lexeme s = .ok t := by
  have hbare : (topMode env (if (env.language.mode id).excludeBegin then s.keep found.lexeme
      else s)).Bare := by
    rw [topMode_of_new (by split <;> exact hframes)]
    exact htop
  obtain ⟨t, ht⟩ := exists_readContent hbare
  rw [contentAtBegin, hid.skip, ht]
  exact ⟨_, rfl⟩

/-- A mode begins whose begin is gone through again. -/
theorem step_begins (hs : Standing index (top :: ids) s)
    (htop : (env.language.mode top).Bare) (hid : (env.language.mode id).Bare)
    (hreturn : (env.language.mode id).returnBegin = true)
    (hfind : (env.language.mode top).matcher.find 0 env.code index = .ok (some (found, firstRule)))
    (hk : found.kind = .begins id) (hindex : found.index = index) :
    ∃ t, step env s = .ok (some t) ∧ Standing index (id :: top :: ids) t := by
  let u := (onMatch env s found firstRule).matched found
  obtain ⟨t, ht⟩ : ∃ t, contentAtBegin env (env.language.mode id) found.lexeme u = .ok t :=
    exists_contentAtBegin hs.frames htop hid
  have hadmits : admits env (env.language.mode id) found = (true, .empty) := by
    rw [admits, hid.skipAfterDot, hid.onBegin]
    rfl
  have hlike : endLike env (env.language.mode id) found.lexeme = .ok none := by
    rw [endLike, hid.endSameAsBegin]
    rfl
  have hfollowed := Followed.begins hk (by rw [hadmits]) hlike ht
  rw [hadmits, hreturn, if_pos rfl] at hfollowed
  have hcontrol := control_contentAtBegin ht
  refine ⟨_, step_of_followed (hs.find hfind) hfollowed, ?_, ?_, ?_⟩
  · change (start env.language t (Frame.new id)).frames = _
    rw [frames_start, frames_of_control hcontrol]
    change _ :: s.frames = _
    rw [hs.frames]
    rfl
  · change found.index + 0 = index
    rw [hindex, Nat.add_zero]
  · have hkept := congrArg Course.resume (course_start env.language t (Frame.new id))
    exact hkept.trans (congrArg Control.resume hcontrol)

theorem frames_startNext_new {l : Language ρ} {ended : Option (Frame ρ)} {s : State ρ}
    (h : ∀ f, ended = some f → (l.mode f.mode).endSameAsBegin = false) :
    (startNext l ended s).frames =
      (following l (ended.map Frame.mode)).toList.map Frame.new ++ s.frames := by
  unfold startNext following
  cases ended with
  | none => rfl
  | some f =>
    dsimp only [Option.map_some, Option.bind_some]
    rw [h f rfl]
    split
    · next hnone => rw [hnone]; rfl
    · next hnext => rw [hnext, frames_start]; rfl

/-- A mode with nothing but its rules ends where its end matches. -/
theorem endingFrame_new {frames : List (Frame ρ)} (hframes : frames = (top :: ids).map Frame.new)
    (htop : (env.language.mode top).Bare) {re : Prepared ρ}
    (hre : (env.language.mode top).endRegex = some re)
    (hmatch : Engine.matchesAt re.regex env.code found.index = .ok true) :
    endingFrame env found frames =
      .ok (some (outermostEnding env.language ((top :: ids).map Frame.new)), frames) := by
  have hends : endsAt env found (Frame.new top) = .ok (true, Frame.new top) := by
    have hend : ((Frame.new top).endOverride <|>
        (env.language.mode (Frame.new (ρ := ρ) top).mode).endRegex) = some re := hre
    have hguard : (env.language.mode (Frame.new (ρ := ρ) top).mode).onEnd = none := htop.onEnd
    unfold endsAt
    dsimp only
    rw [hend]
    dsimp only
    rw [hmatch, hguard]
  rw [hframes, List.map_cons, endingFrame, hends]

theorem exists_contentAtEnd (hframes : s.frames = (top :: ids).map Frame.new)
    (htop : (env.language.mode top).Bare) :
    ∃ t, contentAtEnd env (env.language.mode top) found.lexeme s = .ok t := by
  have hbare : (topMode env (if (env.language.mode top).returnEnd ||
      (env.language.mode top).excludeEnd then s else s.keep found.lexeme)).Bare := by
    rw [topMode_of_new (by split <;> exact hframes)]
    exact htop
  obtain ⟨t, ht⟩ := exists_readContent hbare
  rw [contentAtEnd, htop.skip, ht]
  exact ⟨_, rfl⟩

/-- Modes end. -/
theorem step_ends (hs : Standing index (top :: ids) s)
    (hbare : ∀ m, (env.language.mode m).Bare) {re : Prepared ρ}
    (hre : (env.language.mode top).endRegex = some re)
    (hmatch : Engine.matchesAt re.regex env.code index = .ok true)
    (hfind : (env.language.mode top).matcher.find 0 env.code index = .ok (some (found, firstRule)))
    (hk : found.kind = .ends) (hlexeme : found.lexeme ≠ "") (hindex : found.index = index) :
    let ended := ids.length + 1 - max (outermostEnding env.language ((top :: ids).map Frame.new)) 1
    ∃ t, step env s = .ok (some t) ∧
      Standing (index + if (env.language.mode top).returnEnd then 0 else found.lexeme.utf8ByteSize)
        ((following env.language ((top :: ids).take ended).getLast?).toList ++
          (top :: ids).drop ended) t := by
  intro ended
  let u := (onMatch env s found firstRule).matched found
  have hu : u.frames = (top :: ids).map Frame.new := hs.frames
  have hending := endingFrame_new hu (hbare top) hre (hindex ▸ hmatch)
  obtain ⟨t, ht⟩ : ∃ t, contentAtEnd env (env.language.mode top) found.lexeme u = .ok t :=
    exists_contentAtEnd hu (hbare top)
  have hframes : t.frames = (top :: ids).map Frame.new :=
    (frames_of_control (control_contentAtEnd ht)).trans hu
  -- no frame goes or comes while the content is reported
  have hlength : t.frames.length = ids.length + 1 := by rw [hframes, List.length_map]; rfl
  have hfollowed : Followed env (onMatch env s found firstRule) found
      (startNext env.language (close env.language ended none t).2
        (close env.language ended none t).1)
      (if (env.language.mode top).returnEnd then 0 else found.lexeme.utf8ByteSize) := by
    have htop : topMode env u = env.language.mode top := topMode_of_new hs.frames
    rw [← htop] at ht ⊢
    have hends : Followed env (onMatch env s found firstRule) found _ _ :=
      .ends hk (emptyMode?_of_ne hlexeme) hending ht
    rw [hlength] at hends
    exact hends
  have hended : (close env.language ended none t).2.map Frame.mode =
      ((top :: ids).take ended).getLast? := by
    rw [(course_close ..).2, Option.map_none, Option.or_none, State.course, hframes, modes_new]
  refine ⟨_, step_of_followed (hs.find hfind) hfollowed, ?_, congrArg (· + _) hindex, ?_⟩
  · change (startNext env.language _ _).frames = _
    rw [frames_startNext_new fun f _ => (hbare f.mode).endSameAsBegin, hended, frames_close, hframes,
      List.map_append, List.map_drop]
  · have hkept := congrArg Course.resume (course_ended env.language ended t)
    exact hkept.trans (congrArg Control.resume (control_contentAtEnd ht))

end Scan

/-- Storey `i` of the tower, which is followed by its copy; at the bottom the text of the begin is that
of the end, and both are gone through again. -/
def storey : Nat → Mode
  | 0 => { beginPattern := some "x", endPattern := some "x", returnBegin := some true,
           returnEnd := some true, endsParent := some true }
  | i + 1 => { beginPattern := some "x", endPattern := some "y", returnBegin := some true,
               contains := some [.mode i], starts := some (17 + i) }

/-- The copy of storey `i + 1`, which ends with it; the topmost one is followed by a mode that takes the
text. -/
def copyOfStorey (i : Nat) : Mode where
  endPattern := some "y"
  endsParent := some (decide (i < 15))
  contains := some [.mode i]
  starts := if i < 15 then none else some 33

/-- A tower of sixteen storeys on a bottom. -/
def tower : Grammar where
  root := { contains := some [.mode 16] }
  shelf := { modes := ((List.range 17).map storey ++ (List.range 16).map copyOfStorey ++
    [({ endPattern := some "x" } : Mode)]).toArray }

namespace Language

/-- What is found at the first character in the modes of the tower: the storeys from the top down to
the bottom, number 17, and the copies from the bottom up have the one below begin, and the bottom and
the last mode end. -/
def towerKind (id : Nat) : RuleKind :=
  if id = 17 ∨ id = 34 then .ends else .begins (if id < 17 then id + 1 else 35 - id)

/-- A mode of the tower, by its number. -/
structure InTower (l : Language ρ) (id : Nat) : Prop where
  bare : (l.mode id).Bare
  returnBegin : 1 ≤ id → id ≤ 17 → (l.mode id).returnBegin = true
  returnEnd : (l.mode id).returnEnd = decide (id = 17)
  endsParent : (l.mode id).endsParent = decide (17 ≤ id ∧ id < 33)
  starts : (l.mode id).starts =
    if 1 ≤ id ∧ id ≤ 16 then some (34 - id) else if id = 33 then some 34 else none
  found : ∃ found firstRule, (l.mode id).matcher.find 0 ['x'] 0 = .ok (some (found, firstRule)) ∧
    found.kind = towerKind id ∧ found.index = 0 ∧ found.lexeme = "x"
  ends : towerKind id = .ends → ∃ re, (l.mode id).endRegex = some re ∧
    Engine.matchesAt re.regex ['x'] 0 = .ok true

def isInTower (l : Language ρ) (id : Nat) : Bool :=
  let m := l.mode id
  m.isBare && (decide (id = 0) || decide (17 < id) || m.returnBegin) &&
    m.returnEnd == decide (id = 17) && m.endsParent == decide (17 ≤ id ∧ id < 33) &&
    m.starts == (if 1 ≤ id ∧ id ≤ 16 then some (34 - id) else if id = 33 then some 34 else none) &&
    (match m.matcher.find 0 ['x'] 0 with
      | .ok (some (found, _)) =>
        found.kind == towerKind id && found.index == 0 && found.lexeme == "x"
      | _ => false) &&
    (towerKind id != .ends || m.endRegex.any fun re =>
      (Engine.matchesAt re.regex ['x'] 0).toOption == some true)

theorem inTower_of_isInTower {l : Language ρ} {id : Nat} (h : l.isInTower id) : l.InTower id := by
  simp only [isInTower, Bool.and_eq_true, Bool.or_eq_true, decide_eq_true_eq, beq_iff_eq,
    bne_iff_ne, ne_eq] at h
  obtain ⟨⟨⟨⟨⟨⟨hbare, hbegin⟩, hend⟩, hparent⟩, hstarts⟩, hfound⟩, hends⟩ := h
  refine ⟨CompiledMode.bare_of_isBare hbare, fun hlow hhigh => ?_, hend, hparent, hstarts, ?_,
    fun hk => ?_⟩
  · exact hbegin.resolve_left (by omega)
  · split at hfound
    · next found firstRule hfind =>
      simp only [Bool.and_eq_true, beq_iff_eq] at hfound
      exact ⟨found, firstRule, hfind, hfound.1.1, hfound.1.2, hfound.2⟩
    · cases hfound
  · have hany := hends.resolve_left (not_not_intro hk)
    cases hre : (l.mode id).endRegex with
    | none => rw [hre] at hany; cases hany
    | some re =>
      rw [hre, Option.any_some, beq_iff_eq] at hany
      refine ⟨re, rfl, ?_⟩
      cases hmatch : Engine.matchesAt re.regex ['x'] 0 with
      | error e => rw [hmatch] at hany; cases hany
      | ok b => rw [hmatch] at hany; exact congrArg Except.ok (Option.some.inj hany)

end Language

namespace Scan

section Tower

variable {env : Setting ρ} {s : State ρ}

theorem outermostEnding_append {l : Language ρ} {ending rest : List Nat} {id : Nat}
    (hending : ∀ m ∈ ending, (l.mode m).endsParent = true) (hid : (l.mode id).endsParent = false)
    (hrest : rest ≠ []) :
    outermostEnding l ((ending ++ id :: rest).map Frame.new) = rest.length := by
  induction ending with
  | nil =>
    change outermostEnding l (Frame.new id :: rest.map Frame.new) = _
    rw [outermostEnding]
    change (if 1 < _ && (l.mode id).endsParent then _ else _) = _
    rw [hid, Bool.and_false, if_neg (by simp), List.length_map]
  | cons m ending ih =>
    have hmore : 1 < ((ending ++ id :: rest).map (Frame.new (ρ := ρ))).length := by
      have := List.length_pos_of_ne_nil hrest
      simp only [List.length_map, List.length_append, List.length_cons]
      omega
    rw [List.cons_append, List.map_cons, outermostEnding, if_pos]
    · exact ih fun m hm => hending m (List.mem_cons_of_mem _ hm)
    · exact Bool.and_eq_true .. ▸ ⟨decide_eq_true hmore, hending m (List.mem_cons_self ..)⟩

/-- At the first character the next storey is begun. -/
theorem tower_begins (hl : ∀ id < 35, env.language.InTower id) (hcode : env.code = ['x'])
    {id next : Nat} {ids : List Nat} (hid : id < 35) (hs : Standing 0 (id :: ids) s)
    (hnext : Language.towerKind id = .begins next) (hlow : 1 ≤ next) (hhigh : next ≤ 17) :
    ∃ t, Stays env 0 1 s t ∧ Standing 0 (next :: id :: ids) t := by
  obtain ⟨found, firstRule, hfind, hk, hindex, -⟩ := (hl id hid).found
  have hnextIn := hl next (by omega)
  obtain ⟨t, hstep, ht⟩ := step_begins hs (hl id hid).bare hnextIn.bare
    (hnextIn.returnBegin hlow hhigh) (hcode ▸ hfind) (hk.trans hnext) hindex
  exact ⟨t, .single hs.index hstep, ht⟩

/-- At the bottom a storey or a copy ends with all that has begun in it. -/
theorem tower_ends (hl : ∀ id < 35, env.language.InTower id)
    (hbare : ∀ id, (env.language.mode id).Bare) (hcode : env.code = ['x']) {ending rest : List Nat}
    {id : Nat} (hs : Standing 0 (17 :: (ending ++ id :: rest)) s)
    (hending : ∀ m ∈ ending, 17 ≤ m ∧ m < 33) (hid : id < 35) (hlast : ¬ (17 ≤ id ∧ id < 33))
    (hrest : rest ≠ []) :
    ∃ t, Stays env 0 1 s t ∧ Standing 0 ((env.language.mode id).starts.toList ++ rest) t := by
  obtain ⟨found, firstRule, hfind, hk, hindex, hlexeme⟩ := (hl 17 (by decide)).found
  obtain ⟨re, hre, hmatch⟩ := (hl 17 (by decide)).ends rfl
  -- all in the row end with their parents, so the outermost that ends is the one below them
  have houter : outermostEnding env.language ((17 :: (ending ++ id :: rest)).map Frame.new) =
      rest.length := by
    rw [← List.cons_append]
    refine outermostEnding_append (fun m hm => ?_) ?_ hrest
    · obtain ⟨hlow, hhigh⟩ : 17 ≤ m ∧ m < 33 := by
        rcases List.mem_cons.mp hm with rfl | hm
        · decide
        · exact hending m hm
      rw [(hl m (by omega)).endsParent, decide_eq_true ⟨hlow, hhigh⟩]
    · rw [(hl id hid).endsParent, decide_eq_false hlast]
  obtain ⟨t, hstep, ht⟩ := step_ends hs hbare hre (hcode ▸ hmatch) (hcode ▸ hfind) hk
    (by rw [hlexeme]; decide) hindex
  have hended : (ending ++ id :: rest).length + 1 - max rest.length 1 =
      (17 :: ending ++ [id]).length := by
    have := List.length_pos_of_ne_nil hrest
    simp only [List.length_append, List.length_cons, List.length_nil]
    omega
  have hsplit : 17 :: (ending ++ id :: rest) = (17 :: ending ++ [id]) ++ rest := by simp
  rw [houter, hended, hsplit, List.take_left, List.drop_left, List.getLast?_concat,
    (hl 17 (by decide)).returnEnd] at ht
  exact ⟨t, .single hs.index hstep, ht⟩

/-- From a storey down to the bottom, through what is below it twice at each storey. -/
theorem tower_descends (hl : ∀ id < 35, env.language.InTower id)
    (hbare : ∀ id, (env.language.mode id).Bare) (hcode : env.code = ['x']) (i : Nat) (hi : i ≤ 16)
    {rest : List Nat} (hrest : rest ≠ []) (hs : Standing 0 ((17 - i) :: rest) s) :
    ∃ t, Stays env 0 (3 * (2 ^ i - 1)) s t ∧ Standing 0 (17 :: (List.range' 18 i ++ rest)) t := by
  induction i generalizing rest s with
  | zero => exact ⟨s, .refl s, hs⟩
  | succ i ih =>
    have hstorey : Language.towerKind (17 - (i + 1)) = .begins (17 - i) := by
      rw [Language.towerKind, if_neg (by omega), if_pos (by omega)]
      exact congrArg RuleKind.begins (by omega)
    have hcopy : Language.towerKind (18 + i) = .begins (17 - i) := by
      rw [Language.towerKind, if_neg (by omega), if_neg (by omega)]
      exact congrArg RuleKind.begins (by omega)
    have hstarts : (env.language.mode (17 - (i + 1))).starts = some (18 + i) := by
      rw [(hl _ (by omega)).starts, if_pos (by omega)]
      exact congrArg some (by omega)
    -- down to the bottom, back to the storey, which its copy follows, and down once more
    obtain ⟨s₁, h₁, hs₁⟩ := tower_begins hl hcode (by omega) hs hstorey (by omega) (by omega)
    obtain ⟨s₂, h₂, hs₂⟩ := ih (by omega) (List.cons_ne_nil _ _) hs₁
    obtain ⟨s₃, h₃, hs₃⟩ := tower_ends hl hbare hcode hs₂
      (fun m hm => by rw [List.mem_range'_1] at hm; omega) (by omega) (by omega) hrest
    rw [hstarts] at hs₃
    obtain ⟨s₄, h₄, hs₄⟩ := tower_begins hl hcode (by omega) hs₃ hcopy (by omega) (by omega)
    obtain ⟨s₅, h₅, hs₅⟩ := ih (by omega) (List.cons_ne_nil _ _) hs₄
    have hcount : 1 + 3 * (2 ^ i - 1) + 1 + 1 + 3 * (2 ^ i - 1) = 3 * (2 ^ (i + 1) - 1) := by
      have := Nat.one_le_two_pow (n := i)
      rw [pow_succ]
      omega
    refine ⟨s₅, hcount ▸ ((((h₁.trans h₂).trans h₃).trans h₄).trans h₅), ?_⟩
    rw [List.range'_1_concat, List.append_assoc]
    exact hs₅

/-- A run that finds nothing in a mode with nothing but its rules is over. -/
theorem exists_run_of_stays {index n : Nat} {t : State ρ} (h : Stays env index n s t)
    (hfind : (topMode env t).matcher.find (next t).firstRule env.code t.index = .ok none)
    (hbare : (topMode env t).Bare) {steps : Nat} (hsteps : n < steps) :
    ∃ u, run env steps s = .ok u := by
  obtain ⟨more, rfl⟩ := Nat.exists_eq_add_of_lt hsteps
  obtain ⟨u, hu⟩ : ∃ u, finish env t = .ok u := exists_readContent hbare
  refine ⟨u, ?_⟩
  rw [Nat.add_assoc, h.run_add, run, step_of_find_none hfind]
  exact hu

/-- Almost two hundred thousand matches are looked for at the first character. -/
theorem tower_stays (hl : ∀ id < 35, env.language.InTower id)
    (hbare : ∀ id, (env.language.mode id).Bare) (hcode : env.code = ['x'])
    (hs : Standing 0 [0] s) : ∃ t, Stays env 0 196608 s t ∧ Standing 1 [0] t := by
  obtain ⟨s₁, h₁, hs₁⟩ := tower_begins hl hcode (by decide) hs rfl (by decide) (by decide)
  obtain ⟨s₂, h₂, hs₂⟩ := tower_descends hl hbare hcode 16 le_rfl (List.cons_ne_nil _ _) hs₁
  rw [show List.range' 18 16 = List.range' 18 15 ++ [33] from rfl, List.append_assoc] at hs₂
  obtain ⟨s₃, h₃, hs₃⟩ := tower_ends hl hbare hcode hs₂
    (fun m hm => by rw [List.mem_range'_1] at hm; omega) (by decide) (by decide)
    (List.cons_ne_nil _ _)
  rw [(hl 33 (by decide)).starts] at hs₃
  obtain ⟨found, firstRule, hfind, hk, hindex, hlexeme⟩ := (hl 34 (by decide)).found
  obtain ⟨re, hre, hmatch⟩ := (hl 34 (by decide)).ends rfl
  obtain ⟨t, hstep, ht⟩ := step_ends hs₃ hbare hre (hcode ▸ hmatch) (hcode ▸ hfind) hk
    (by rw [hlexeme]; decide) hindex
  refine ⟨t, ((h₁.trans h₂).trans h₃).tail hs₃.index hstep, ?_⟩
  have hlast : (env.language.mode 34).starts = none := (hl 34 (by decide)).starts
  have hended : ((following env.language ([34, 0].take
      ([0].length + 1 - max (outermostEnding env.language ([34, 0].map Frame.new)) 1)).getLast?).toList
        ++ [34, 0].drop ([0].length + 1 -
          max (outermostEnding env.language ([34, 0].map Frame.new)) 1)) = [0] := by
    have houter : outermostEnding env.language ([34, 0].map Frame.new) = 1 :=
      outermostEnding_append (List.forall_mem_nil _) (hl 34 (by decide)).endsParent
        (List.cons_ne_nil _ _)
    rw [houter]
    change (env.language.mode 34).starts.toList ++ [0] = _
    rw [hlast]
    rfl
  have hone : (0 : Nat) + (if (env.language.mode 34).returnEnd then 0 else
      found.lexeme.utf8ByteSize) = 1 := by
    rw [(hl 34 (by decide)).returnEnd, hlexeme]
    decide
  rw [hone] at ht
  exact ⟨ht.frames.trans (congrArg _ hended), ht.index, ht.resume⟩

end Tower

end Scan

/-- The steps from the outside of the tower to the inside of it and from its bottom to the copies. -/
def towerRank (id : Nat) : Nat := if id ≤ 17 then 17 - id else id - 17

theorem exists_compile_tower : ∃ l : Language (Checked Regex.Tried),
    Language.compile tower "t" = .ok l ∧
      (decide (l.size = 35) && (l.modes.all fun m => m.subLanguage.isNone) &&
        ((l.mode 0).matcher.find 0 ['x'] 1).toOption.any Option.isNone &&
        (List.range 35).all fun id => l.isInTower id &&
          (l.mode id).children.all fun child => decide (towerRank child < towerRank id)) = true :=
  exists_of_any (by decide +kernel)

/-- **Almost two hundred thousand matches are looked for at the first character, and nothing is said**:
the modes are few, none of them can be inside itself, and no progress is made meanwhile. -/
theorem tower_outlasts : ∃ (l : Language (Checked Regex.Tried))
    (r : Registry (Checked Regex.Tried)) (key : String),
    Language.compile tower "t" = .ok l ∧ r.resolve "t" = some (key, l) ∧ l.size < 100000 ∧
      (∀ m ∈ l.modes, m.subLanguage = none) ∧
      (∀ id, ¬ Relation.TransGen (fun outer inner => inner ∈ (l.mode outer).children) id id) ∧
      ∀ o : Options,
        (∃ t, Scan.Stays (settingWithin r o (nestingBound r "x" - 1) key l "x" true) 0 196608
          (Scan.initial l (startingFrames key l none)) t) ∧
        ¬ 196608 ≤ max 100000 (3 * 0) + 1 ∧
        ∃ out, highlight r o "t" "x" true none = .ok out ∧ out.problem = none := by
  obtain ⟨l, hl, h⟩ := exists_compile_tower
  simp only [Bool.and_eq_true, decide_eq_true_eq, List.all_eq_true, List.mem_range,
    Array.all_eq_true_iff_forall_mem, Option.isNone_iff_eq_none] at h
  obtain ⟨⟨⟨hsize, hsub⟩, hnothing⟩, hmodes⟩ := h
  obtain ⟨found, hfind, hnone⟩ := exists_of_any hnothing
  obtain ⟨r, -, hresolve⟩ := Registry.exists_register hl
  have hin : ∀ id < 35, l.InTower id := fun id hid => Language.inTower_of_isInTower (hmodes id hid).1
  have hroot : ∀ {id}, 35 ≤ id → l.mode id = l.mode 0 := fun hid => Language.mode_eq_root (hsize ▸ hid)
  have hbare : ∀ id, (l.mode id).Bare := fun id =>
    (Nat.lt_or_ge id 35).elim (fun hid => (hin id hid).bare)
      fun hid => hroot hid ▸ (hin 0 (by decide)).bare
  refine ⟨l, r, _, hl, hresolve, by omega, hsub, fun id => ?_, fun o => ?_⟩
  · -- the rank falls from a mode to what it contains; what is no mode counts as the root
    refine not_transGen_of_lt towerRank (fun {a b} hb => ?_) id
    rcases Nat.lt_or_ge a 35 with ha | ha
    · exact (hmodes a ha).2 b hb
    · have hlow := (hmodes 0 (by decide)).2 b (hroot ha ▸ hb)
      have hfar : towerRank a = a - 17 := if_neg (by omega)
      have hzero : towerRank 0 = 17 := rfl
      omega
  · let env := settingWithin r o (nestingBound r "x" - 1) (Registry.fold "t") l "x" true
    obtain ⟨t, hstays, ht⟩ : ∃ t, Scan.Stays env 0 196608 (Scan.initial l [Frame.new 0]) t ∧
        Scan.Standing 1 [0] t := Scan.tower_stays hin hbare rfl ⟨rfl, rfl, rfl⟩
    have htop : Scan.topMode env t = l.mode 0 := Scan.topMode_of_new ht.frames
    have hover : (Scan.topMode env t).matcher.find (Scan.next t).firstRule ['x'] t.index =
        .ok none := by
      rw [htop, ht.index, Scan.next, ht.resume]
      exact hfind.trans (congrArg Except.ok (Option.isNone_iff_eq_none.mp hnone))
    -- the run has more steps than there are matches at the first character
    have hbound : 196608 < Scan.stepBound env 1 :=
      lt_of_lt_of_le (by decide : 196608 < Nat.pow Scan.iterationLimit 6)
        (Nat.pow_le_pow_left (Nat.le_add_left ..) 6)
    obtain ⟨u, hu⟩ := Scan.exists_run_of_stays hstays hover (htop ▸ hbare 0) hbound
    refine ⟨⟨t, hstays⟩, by decide, Scan.finished env u, ?_, rfl⟩
    rw [highlight_eq, highlightWithin_succ, hresolve]
    exact congrArg (fun ran => recover o "x" _ (Except.map (Scan.finished _) ran)) hu

end CodeMarkup
