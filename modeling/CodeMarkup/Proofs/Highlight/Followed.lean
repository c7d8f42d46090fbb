import CodeMarkup.Highlight.Scan

/-! # How a match is followed

Content is reported in one of six ways (`Scan.Reported`), and a match is followed in one of eight
(`Scan.Followed`), each with what decides for it and with what it leaves. If nothing fails it is done so
(`Scan.reported_of_readContent`, `Scan.follow_eq_ok_iff`), and a step follows the match that it finds
(`Scan.exists_followed_of_step`). What every step does is shown by cases on these ways. -/

namespace CodeMarkup.Scan

variable {ρ : Type} [Engine ρ]

/-- The state in which content is reported: none is kept any more. -/
abbrev State.cleared {ρ : Type} (s : State ρ) : State ρ := { s with buffer := "" }

/-- The state in which a match is followed: the match is remembered. -/
abbrev State.matched {ρ : Type} (s : State ρ) (found : Found) : State ρ :=
  { s with lastMatch := some (found.kind, found.index) }

/-- What is remembered of the stack with which an embedded language has ended. -/
abbrev State.remember {ρ : Type} (s : State ρ) (key : String) (o : Outcome ρ) : State ρ :=
  match o.top with
  | some top => { s with embeddedStacks := s.embeddedStacks.insert key top }
  | none => s

/-- How the content of the top mode is reported: what is left then. -/
inductive Reported (env : Setting ρ) (s : State ρ) : State ρ → Prop where
  /-- Content without keywords is text. -/
  | plain : (topMode env s).subLanguage = none → (topMode env s).keywords = none →
      Reported env s (s.cleared.emitText s.buffer)
  /-- Content is searched for keywords. -/
  | words {table : KeywordTable} {ws : List Regex.Span} : (topMode env s).subLanguage = none →
      (topMode env s).keywords = some table →
      Engine.occurrences (topMode env s).keywordPattern.regex s.buffer.toList = .ok ws →
      Reported env s (readWords env.language table s.buffer.toList ws 0 "" s.cleared)
  /-- There is nothing to be gone through in another language. -/
  | empty {d : Delegate} : (topMode env s).subLanguage = some d → s.buffer = "" →
      Reported env s s.cleared
  /-- Content in a language that is not registered is text. -/
  | unknown {name : String} : (topMode env s).subLanguage = some (.named name) → s.buffer ≠ "" →
      env.nested.resolve name = none → Reported env s (s.cleared.emitText s.buffer)
  /-- Content is gone through in a registered language. -/
  | named {name key : String} {o : Outcome ρ} :
      (topMode env s).subLanguage = some (.named name) → s.buffer ≠ "" →
      env.nested.resolve name = some key →
      env.nested.named key s.buffer (s.embeddedStacks.find? key) = .ok o →
      Reported env s (embed (topMode env s) o (s.cleared.remember key o))
  /-- Content is gone through in the language that fits best. -/
  | detected {names : List String} {o : Outcome ρ} :
      (topMode env s).subLanguage = some (.detect names) → s.buffer ≠ "" →
      env.nested.detect s.buffer (if names.isEmpty then none else some names) = .ok o →
      Reported env s (embed (topMode env s) o s.cleared)

/-- How a match is followed: what is left then, and how far to go on. -/
inductive Followed (env : Setting ρ) (s : State ρ) (found : Found) : State ρ → Nat → Prop where
  /-- Where an empty end follows the begin of its mode, a character is taken as text. -/
  | empty {id : Nat} : emptyMode? s found = some id → env.safeMode = true →
      Followed env s found (keepChar env s found.index).1 (keepChar env s found.index).2
  /-- A mode begins. -/
  | begins {id : Nat} {endOverride : Option (Prepared ρ)} {t : State ρ} :
      found.kind = .begins id → (admits env (env.language.mode id) found).1 = true →
      endLike env (env.language.mode id) found.lexeme = .ok endOverride →
      contentAtBegin env (env.language.mode id) found.lexeme (s.matched found) = .ok t →
      Followed env s found
        (start env.language t ⟨id, endOverride, (admits env (env.language.mode id) found).2⟩)
        (if (env.language.mode id).returnBegin then 0 else found.lexeme.utf8ByteSize)
  /-- A begin does not count, and with no rule behind it a character is taken as text. -/
  | refused {id : Nat} : found.kind = .begins id →
      (admits env (env.language.mode id) found).1 = false → s.firstRule = 0 →
      Followed env s found (keepChar env (s.matched found) found.index).1
        (keepChar env (s.matched found) found.index).2
  /-- A begin does not count, and the rules behind it are tried. -/
  | passed {id : Nat} : found.kind = .begins id →
      (admits env (env.language.mode id) found).1 = false → s.firstRule ≠ 0 →
      Followed env s found { s.matched found with resume := true } 0
  /-- Where an empty text cannot occur, a character is taken as text. -/
  | emptyIllegal : found.kind = .illegal → env.ignoreIllegals = true → found.lexeme = "" →
      Followed env s found (keepChar env (s.matched found) found.index).1
        (keepChar env (s.matched found) found.index).2
  /-- What cannot occur is taken as text. -/
  | illegal : found.kind = .illegal → env.ignoreIllegals = true → found.lexeme ≠ "" →
      ¬ (s.iterations > iterationLimit ∧ s.iterations > found.index * 3) →
      Followed env s found ((s.matched found).keep found.lexeme) found.lexeme.utf8ByteSize
  /-- Modes end, and the one that follows the last of them begins. -/
  | ends {place : Nat} {frames : List (Frame ρ)} {t : State ρ} :
      found.kind = .ends → emptyMode? s found = none →
      endingFrame env found s.frames = .ok (some place, frames) →
      contentAtEnd env (topMode env { s with frames }) found.lexeme
        (State.matched { s with frames } found) = .ok t →
      Followed env s found
        (startNext env.language (close env.language (t.frames.length - max place 1) none t).2
          (close env.language (t.frames.length - max place 1) none t).1)
        (if (topMode env { s with frames }).returnEnd then 0 else found.lexeme.utf8ByteSize)
  /-- An end that no open mode has is taken as text. -/
  | endless {frames : List (Frame ρ)} : found.kind = .ends → emptyMode? s found = none →
      endingFrame env found s.frames = .ok (none, frames) →
      ¬ (s.iterations > iterationLimit ∧ s.iterations > found.index * 3) →
      Followed env s found ((State.matched { s with frames } found).keep found.lexeme)
        found.lexeme.utf8ByteSize

variable {env : Setting ρ} {s s' : State ρ} {found : Found}

/-! ### Content -/

theorem reported_of_readContent (h : readContent env s = .ok s') : Reported env s s' := by
  unfold readContent at h
  dsimp only at h
  split at h
  · next d hd =>
    unfold readEmbedded at h
    split at h
    · next hempty =>
      cases h
      exact .empty hd (String.isEmpty_iff.mp hempty)
    · next hne =>
      have hne : s.buffer ≠ "" := fun hempty => hne (String.isEmpty_iff.mpr hempty)
      cases d with
      | named name =>
        dsimp only at h
        split at h
        · next hkey =>
          cases h
          exact .unknown hd hne hkey
        · next key hkey =>
          split at h
          · cases h
          · next o ho =>
            cases h
            exact .named hd hne hkey ho
      | detect names =>
        dsimp only at h
        split at h
        · cases h
        · next o ho =>
          cases h
          exact .detected hd hne ho
  · next hnone =>
    unfold readKeywords at h
    split at h
    · next hkeywords =>
      cases h
      exact .plain hnone hkeywords
    · next table hkeywords =>
      split at h
      · next ws hws =>
        cases h
        exact .words hnone hkeywords hws
      · cases h

/-- The content before a begin is kept with the text of the begin, or it is reported. -/
theorem contentAtBegin_cases {m : CompiledMode ρ} {lexeme : String}
    (h : contentAtBegin env m lexeme s = .ok s') :
    (m.skip = true ∧ s' = s.keep lexeme) ∨
      m.skip = false ∧ ∃ t, Reported env (if m.excludeBegin then s.keep lexeme else s) t ∧
        s' = if m.returnBegin || m.excludeBegin then t else { t with buffer := lexeme } := by
  unfold contentAtBegin at h
  split at h
  · next hskip =>
    cases h
    exact Or.inl ⟨hskip, rfl⟩
  · next hskip =>
    split at h
    · cases h
    · next t ht =>
      cases h
      exact Or.inr ⟨by simpa using hskip, t, reported_of_readContent ht, rfl⟩

/-- The content before an end is kept with the text of the end, or it is reported. -/
theorem contentAtEnd_cases {m : CompiledMode ρ} {lexeme : String}
    (h : contentAtEnd env m lexeme s = .ok s') :
    (m.skip = true ∧ s' = s.keep lexeme) ∨
      m.skip = false ∧
        ∃ t, Reported env (if m.returnEnd || m.excludeEnd then s else s.keep lexeme) t ∧
          s' = if m.excludeEnd then { t with buffer := lexeme } else t := by
  unfold contentAtEnd at h
  split at h
  · next hskip =>
    cases h
    exact Or.inl ⟨hskip, rfl⟩
  · next hskip =>
    split at h
    · cases h
    · next t ht =>
      cases h
      exact Or.inr ⟨by simpa using hskip, t, reported_of_readContent ht, rfl⟩

/-! ### Characters -/

/-- A character that is taken as text is kept, if there is one. -/
theorem exists_keep_keepChar (env : Setting ρ) (s : State ρ) (index : Nat) :
    ∃ text, (keepChar env s index).1 = s.keep text := by
  unfold keepChar
  split
  · exact ⟨_, rfl⟩
  · exact ⟨"", by rw [State.keep, String.append_empty]⟩

/-! ### Empty modes -/

omit [Engine ρ] in
/-- Only an end is that of an empty mode. -/
theorem emptyMode?_of_kind (hk : found.kind ≠ .ends) : emptyMode? s found = none := by
  unfold emptyMode?
  split
  · exact if_neg fun h => hk h.1
  · rfl

omit [Engine ρ] in
theorem emptyMode?_of_begins {id : Nat} (hk : found.kind = .begins id) :
    emptyMode? s found = none :=
  emptyMode?_of_kind (by simp [hk])

omit [Engine ρ] in
theorem emptyMode?_of_illegal (hk : found.kind = .illegal) : emptyMode? s found = none :=
  emptyMode?_of_kind (by simp [hk])

omit [Engine ρ] in
/-- Only an empty end is that of an empty mode. -/
theorem emptyMode?_of_ne (hlexeme : found.lexeme ≠ "") : emptyMode? s found = none := by
  unfold emptyMode?
  split
  · exact if_neg fun h => hlexeme (String.isEmpty_iff.mp h.2.2)
  · rfl

omit [Engine ρ] in
theorem emptyMode?_eq_some {id : Nat} (h : emptyMode? s found = some id) :
    found.kind = .ends ∧ found.lexeme = "" ∧ s.lastMatch = some (.begins id, found.index) := by
  unfold emptyMode? at h
  split at h
  · next begun index hlast =>
    split at h
    · next hempty =>
      obtain ⟨hk, rfl, hlexeme⟩ := hempty
      cases h
      exact ⟨hk, String.isEmpty_iff.mp hlexeme, hlast⟩
    · cases h
  · cases h

/-! ### Matches -/

theorem keepMatch_eq_ok_iff {taken : Nat} : keepMatch env s found = .ok (s', taken) ↔
    ¬ (s.iterations > iterationLimit ∧ s.iterations > found.index * 3) ∧
      s' = s.keep found.lexeme ∧ taken = found.lexeme.utf8ByteSize := by
  unfold keepMatch
  simp only [Bool.and_eq_true, decide_eq_true_eq]
  split
  · next hlate => exact ⟨nofun, fun h => absurd hlate h.1⟩
  · next hearly =>
    constructor
    · intro h
      cases h
      exact ⟨hearly, rfl, rfl⟩
    · rintro ⟨-, rfl, rfl⟩
      rfl

theorem follow_of_empty {id : Nat} (hempty : emptyMode? s found = some id) : follow env s found =
    if env.safeMode then .ok (keepChar env s found.index)
    else .error (.zeroWidthMatch env.name (env.language.mode id).beginPattern) := by
  unfold follow
  rw [hempty]

theorem follow_of_begins {id : Nat} (hk : found.kind = .begins id) :
    follow env s found = followBegin env (s.matched found) found id := by
  unfold follow
  rw [emptyMode?_of_begins hk]
  simp only [State.matched, hk]

/-- A begin that is refused is passed. -/
theorem follow_of_refused {id : Nat} (hk : found.kind = .begins id)
    (hrefused : (admits env (env.language.mode id) found).1 = false) :
    follow env s found = .ok (passBegin env (s.matched found) found) := by
  rw [follow_of_begins hk, followBegin]
  dsimp only
  rw [if_neg (by rw [hrefused]; exact Bool.false_ne_true)]

theorem follow_of_illegal (hk : found.kind = .illegal) : follow env s found =
    if !env.ignoreIllegals then .error (illegalAt env (s.matched found) found)
    else if found.lexeme.isEmpty then .ok (keepChar env (s.matched found) found.index)
    else keepMatch env (s.matched found) found := by
  unfold follow
  rw [emptyMode?_of_illegal hk]
  simp only [State.matched, hk]

theorem follow_of_ends (hk : found.kind = .ends) (hempty : emptyMode? s found = none) :
    follow env s found = match followEnd env (s.matched found) found with
      | .error p => .error p
      | .ok (t, some taken) => .ok (t, taken)
      | .ok (t, none) => keepMatch env t found := by
  unfold follow
  rw [hempty]
  obtain ⟨index, groups, kind, position⟩ := found
  subst hk
  rfl

/-- An end that no open mode has leaves all but what frames remember as it is. -/
theorem exists_frames_of_followEnd {t : State ρ} (h : followEnd env s found = .ok (t, none)) :
    ∃ frames, endingFrame env found s.frames = .ok (none, frames) ∧ t = { s with frames } := by
  unfold followEnd at h
  split at h
  · cases h
  · next frames hending =>
    cases h
    exact ⟨frames, hending, rfl⟩
  · dsimp only at h
    split at h
    · cases h
    · simp at h

theorem followed_of_begins {id taken : Nat} (hk : found.kind = .begins id)
    (h : follow env s found = .ok (s', taken)) : Followed env s found s' taken := by
  cases hadmits : (admits env (env.language.mode id) found).1 with
  | false =>
    rw [follow_of_refused hk hadmits, passBegin] at h
    split at h
    · next hfirst =>
      obtain ⟨rfl, rfl⟩ := Prod.ext_iff.mp (Except.ok.inj h)
      exact .refused hk hadmits hfirst
    · next hfirst =>
      cases h
      exact .passed hk hadmits hfirst
  | true =>
    rw [follow_of_begins hk, followBegin] at h
    dsimp only at h
    rw [if_pos hadmits] at h
    split at h
    · cases h
    · next hlike =>
      split at h
      · cases h
      · next hcontent =>
        cases h
        exact .begins hk hadmits hlike hcontent

theorem followed_of_illegal {taken : Nat} (hk : found.kind = .illegal)
    (h : follow env s found = .ok (s', taken)) : Followed env s found s' taken := by
  rw [follow_of_illegal hk] at h
  split at h
  · cases h
  · next hlenient =>
    have hlenient : env.ignoreIllegals = true := by simpa using hlenient
    split at h
    · next hlexeme =>
      obtain ⟨rfl, rfl⟩ := Prod.ext_iff.mp (Except.ok.inj h)
      exact .emptyIllegal hk hlenient (String.isEmpty_iff.mp hlexeme)
    · next hlexeme =>
      obtain ⟨hearly, rfl, rfl⟩ := keepMatch_eq_ok_iff.mp h
      exact .illegal hk hlenient (fun he => hlexeme (String.isEmpty_iff.mpr he)) hearly

theorem followed_of_ends {taken : Nat} (hk : found.kind = .ends)
    (hempty : emptyMode? s found = none) (h : follow env s found = .ok (s', taken)) :
    Followed env s found s' taken := by
  rw [follow_of_ends hk hempty] at h
  unfold followEnd at h
  cases hending : endingFrame env found s.frames with
  | error p =>
    rw [hending] at h
    cases h
  | ok ending =>
    obtain ⟨place, frames⟩ := ending
    rw [hending] at h
    cases place with
    | none =>
      obtain ⟨hearly, rfl, rfl⟩ := keepMatch_eq_ok_iff.mp h
      exact .endless hk hempty hending hearly
    | some place =>
      dsimp only at h
      cases hcontent : contentAtEnd env (topMode env (State.matched { s with frames } found))
          found.lexeme (State.matched { s with frames } found) with
      | error p =>
        rw [hcontent] at h
        cases h
      | ok t =>
        rw [hcontent] at h
        cases h
        exact .ends hk hempty hending hcontent

/-- **A match is followed in one of these ways, or following it fails.** -/
theorem follow_eq_ok_iff {taken : Nat} :
    follow env s found = .ok (s', taken) ↔ Followed env s found s' taken := by
  constructor
  · intro h
    cases hempty : emptyMode? s found with
    | some id =>
      rw [follow_of_empty hempty] at h
      split at h
      · next hsafe =>
        obtain ⟨rfl, rfl⟩ := Prod.ext_iff.mp (Except.ok.inj h)
        exact .empty hempty hsafe
      · cases h
    | none =>
      cases hk : found.kind with
      | begins id => exact followed_of_begins hk h
      | illegal => exact followed_of_illegal hk h
      | ends => exact followed_of_ends hk hempty h
  · intro h
    cases h with
    | empty hempty hsafe =>
      rw [follow_of_empty hempty]
      exact if_pos hsafe
    | begins hk hadmits hlike hcontent =>
      rw [follow_of_begins hk, followBegin]
      dsimp only
      rw [if_pos hadmits, hlike]
      dsimp only
      rw [hcontent]
    | refused hk hadmits hfirst =>
      rw [follow_of_refused hk hadmits]
      exact congrArg Except.ok (if_pos hfirst)
    | passed hk hadmits hfirst =>
      rw [follow_of_refused hk hadmits]
      exact congrArg Except.ok (if_neg hfirst)
    | emptyIllegal hk hlenient hlexeme =>
      rw [follow_of_illegal hk, hlenient, hlexeme]
      rfl
    | illegal hk hlenient hlexeme hearly =>
      have hne : ¬ found.lexeme.isEmpty = true := fun he => hlexeme (String.isEmpty_iff.mp he)
      rw [follow_of_illegal hk, hlenient, if_neg (by decide), if_neg hne]
      exact keepMatch_eq_ok_iff.mpr ⟨hearly, rfl, rfl⟩
    | @ends _ frames _ hk hempty hending hcontent =>
      change contentAtEnd env (topMode env (State.matched { s with frames } found)) _ _ = _
        at hcontent
      rw [follow_of_ends hk hempty, followEnd, hending]
      dsimp only
      rw [hcontent]
      rfl
    | endless hk hempty hending hearly =>
      rw [follow_of_ends hk hempty, followEnd, hending]
      exact keepMatch_eq_ok_iff.mpr ⟨hearly, rfl, rfl⟩

/-! ### Steps -/

/-- The state in which a match is followed. -/
def onMatch (env : Setting ρ) (s : State ρ) (found : Found) (firstRule : Nat) : State ρ :=
  { (next s).keep (between env.code s.index found.index) with firstRule }

theorem step_of_find {firstRule : Nat}
    (hfind : (topMode env s).matcher.find (next s).firstRule env.code s.index =
      .ok (some (found, firstRule))) :
    step env s = match follow env (onMatch env s found firstRule) found with
      | .error p => .error p
      | .ok (s, taken) => .ok (some { s with index := found.index + taken }) := by
  have hnext : (topMode env (next s)).matcher.find (next s).firstRule env.code (next s).index =
      .ok (some (found, firstRule)) := hfind
  unfold step
  dsimp only
  rw [hnext]
  rfl

theorem step_of_followed {t : State ρ} {firstRule taken : Nat}
    (hfind : (topMode env s).matcher.find (next s).firstRule env.code s.index =
      .ok (some (found, firstRule)))
    (h : Followed env (onMatch env s found firstRule) found t taken) :
    step env s = .ok (some { t with index := found.index + taken }) := by
  rw [step_of_find hfind, follow_eq_ok_iff.mpr h]

theorem step_of_find_none
    (hfind : (topMode env s).matcher.find (next s).firstRule env.code s.index = .ok none) :
    step env s = .ok none := by
  have hnext : (topMode env (next s)).matcher.find (next s).firstRule env.code (next s).index =
      .ok none := hfind
  unfold step
  dsimp only
  rw [hnext]

theorem step_of_find_error {p : Problem}
    (hfind : (topMode env s).matcher.find (next s).firstRule env.code s.index = .error p) :
    step env s = .error p := by
  have hnext : (topMode env (next s)).matcher.find (next s).firstRule env.code (next s).index =
      .error p := hfind
  unfold step
  dsimp only
  rw [hnext]

/-- **A step follows the match that it finds.** -/
theorem exists_followed_of_step (h : step env s = .ok (some s')) :
    ∃ found firstRule t taken, (topMode env s).matcher.find (next s).firstRule env.code s.index =
        .ok (some (found, firstRule)) ∧
      Followed env (onMatch env s found firstRule) found t taken ∧
        s' = { t with index := found.index + taken } := by
  cases hfind : (topMode env s).matcher.find (next s).firstRule env.code s.index with
  | error p =>
    rw [step_of_find_error hfind] at h
    cases h
  | ok result =>
    cases result with
    | none =>
      rw [step_of_find_none hfind] at h
      cases h
    | some result =>
      rw [step_of_find hfind] at h
      split at h
      · cases h
      · next t taken hfollow =>
        cases h
        exact ⟨_, _, t, taken, rfl, follow_eq_ok_iff.mp hfollow, rfl⟩

/-- The scan comes to its end where nothing is found any more. -/
theorem step_eq_none_iff : step env s = .ok none ↔
    (topMode env s).matcher.find (next s).firstRule env.code s.index = .ok none := by
  refine ⟨fun h => ?_, step_of_find_none⟩
  cases hfind : (topMode env s).matcher.find (next s).firstRule env.code s.index with
  | error p =>
    rw [step_of_find_error hfind] at h
    cases h
  | ok result =>
    cases result with
    | none => rfl
    | some result =>
      rw [step_of_find hfind] at h
      split at h <;> cases h

end CodeMarkup.Scan
