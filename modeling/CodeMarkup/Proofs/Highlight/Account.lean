import CodeMarkup.Proofs.Highlight.Course
import CodeMarkup.Proofs.Highlight.Outcomes
import CodeMarkup.Proofs.Language.Registered
import Mathlib

/-! # What code counts for

An account of going through code lists the keywords in its content, the modes that begin and end in
it and what embedded code has led to, and its sums are exact (`Account.total`). It is kept step by
step beside the run (`Scan.accountRun`), which itself only adds up as far as the limit. One relation
says that a stretch of the run is accounted for (`Scan.Accounts`): it holds of each place where
something is added, and of two stretches if it holds of each. So what code counts for in the end is
the total, as far as the limit (`relevance_highlight`). -/

namespace CodeMarkup

variable {ρ : Type}

/-- What counts in a stretch of code. -/
structure Account (ρ : Type) where
  /-- The words in content that are keywords, and what they mean. -/
  keywords : List (String × KeywordEntry) := []
  /-- The modes that have begun. -/
  begun : List Nat := []
  /-- The modes that an end has been accepted for. -/
  ended : List Nat := []
  /-- What embedded code has led to, each time with the mode whose content it was. -/
  embedded : List (Nat × Outcome ρ) := []

namespace Account

/-- The account of two stretches of code. -/
protected def append (a b : Account ρ) : Account ρ where
  keywords := a.keywords ++ b.keywords
  begun := a.begun ++ b.begun
  ended := a.ended ++ b.ended
  embedded := a.embedded ++ b.embedded

instance : Append (Account ρ) := ⟨Account.append⟩

/-- What the keywords count for. -/
def keywordSum (a : Account ρ) : Nat := (a.keywords.map fun (_, entry) => entry.relevance).sum

variable [Engine ρ] (l : Language ρ)

/-- What the modes that have ended count for: nothing is added for those whose text is content of the
mode around them or is written in other languages. -/
def modeSum (a : Account ρ) : Nat :=
  (((a.ended.map l.mode).filter fun m => !m.skip && m.subLanguage.isNone).map
    CompiledMode.relevance).sum

/-- What embedded code counts for: nothing is added if the mode around it counts for nothing. -/
def embeddedSum (a : Account ρ) : Nat :=
  ((a.embedded.filter fun (host, _) => 0 < (l.mode host).relevance).map
    fun (_, out) => out.relevance).sum

/-- What all of it counts for. -/
def total (a : Account ρ) : Nat := a.keywordSum + a.modeSum l + a.embeddedSum l

theorem total_append (a b : Account ρ) : (a ++ b).total l = a.total l + b.total l := by
  change (a.append b).total l = _
  simp only [total, keywordSum, modeSum, embeddedSum, Account.append, List.map_append,
    List.filter_append, List.sum_append]
  omega

end Account

namespace Scan

variable [Engine ρ]

/-! ### Keeping an account -/

/-- A word of a text with what it means, if it is a keyword. -/
def keyword? (l : Language ρ) (table : KeywordTable) (text : List Char) (w : Regex.Span) :
    Option (String × KeywordEntry) :=
  let word := between text w.start w.stop
  (table.find? l.caseInsensitive word).map (word, ·)

/-- The keywords in content, with what they mean. -/
def keywordsIn (l : Language ρ) (m : CompiledMode ρ) (content : String) :
    List (String × KeywordEntry) :=
  match m.keywords, Engine.occurrences m.keywordPattern.regex content.toList with
  | some table, .ok words => words.filterMap (keyword? l table content.toList)
  | _, _ => []

/-- What embedded code leads to, if it is gone through, given the stacks to go on from. -/
def delegated? (n : Nested ρ) (d : Delegate) (content : String)
    (opened : Dictionary (ModeStack ρ)) : Option (Outcome ρ) :=
  if content.isEmpty then none
  else match d with
    | .named name => (n.resolve name).bind fun key =>
      (n.named key content (opened.find? key)).toOption
    | .detect names => (n.detect content (if names.isEmpty then none else some names)).toOption

/-- The account of the content of the top mode. -/
def accountContent (env : Setting ρ) (s : State ρ) : Account ρ :=
  match (topMode env s).subLanguage with
  | none => { keywords := keywordsIn env.language (topMode env s) s.buffer }
  | some d =>
    let host := (s.course.modes.head?).getD 0
    { embedded := ((delegated? env.nested d s.buffer s.embeddedStacks).map (host, ·)).toList }

/-- The account of following the begin of a mode. -/
def accountBegin (env : Setting ρ) (s : State ρ) (found : Found) (id : Nat) : Account ρ :=
  let m := env.language.mode id
  if (admits env m found).1 then
    (if m.skip then {}
      else accountContent env (if m.excludeBegin then s.keep found.lexeme else s)) ++
      { begun := [id] }
  else {}

/-- The account of following an end: the modes down to the place where it is accepted have ended. -/
def accountEnd (env : Setting ρ) (s : State ρ) (found : Found) : Account ρ :=
  match endingFrame env found s.frames with
  | .ok (some place, frames) =>
    let s := { s with frames }
    let m := topMode env s
    let ended := s.course.modes.take (frames.length - max place 1)
    (if m.skip then {}
      else accountContent env (if m.returnEnd || m.excludeEnd then s else s.keep found.lexeme)) ++
      ({ ended } ++ { begun := (following env.language ended.getLast?).toList })
  | _ => {}

/-- The account of following a match. -/
def accountFollow (env : Setting ρ) (s : State ρ) (found : Found) : Account ρ :=
  let matched : State ρ := { s with lastMatch := some (found.kind, found.index) }
  match emptyMode? s found, found.kind with
  | none, .begins id => accountBegin env matched found id
  | none, .ends => accountEnd env matched found
  | _, _ => {}

/-- The account of one step. -/
def accountStep (env : Setting ρ) (s : State ρ) : Account ρ :=
  let s := next s
  match (topMode env s).matcher.find s.firstRule env.code s.index with
  | .ok (some (found, firstRule)) =>
    accountFollow env { s.keep (between env.code s.index found.index) with firstRule } found
  | _ => {}

/-- The account of going through code to its end, in so many steps at most. -/
def accountRun (env : Setting ρ) : Nat → State ρ → Account ρ
  | 0, _ => {}
  | steps + 1, s =>
    match step env s with
    | .error _ => {}
    | .ok none => accountContent env (s.keep (between env.code s.index (Text.byteSize env.code)))
    | .ok (some s') => accountStep env s ++ accountRun env steps s'

/-! ### What is accounted for -/

/-- An account says all that counts from one state to another: what has been added, as far as the
limit, and which modes have begun and ended. -/
structure Accounts (l : Language ρ) (a : Account ρ) (s s' : State ρ) : Prop where
  relevance : ∀ n, s.relevance = min n relevanceLimit →
    s'.relevance = min (n + a.total l) relevanceLimit
  modes : (a.ended ++ s'.course.modes).Perm (a.begun ++ s.course.modes)

variable {l : Language ρ}

theorem Accounts.of_eq {s s' : State ρ} (hr : s'.relevance = s.relevance)
    (hm : s'.course.modes = s.course.modes) : Accounts l {} s s' :=
  ⟨fun n hn => hr.trans hn, by rw [hm]⟩

/-- Only what has been added and the open modes count. -/
theorem Accounts.congr {a : Account ρ} {s s' t t' : State ρ} (h : Accounts l a s s')
    (hr : t.relevance = s.relevance) (hm : t.course.modes = s.course.modes)
    (hr' : t'.relevance = s'.relevance) (hm' : t'.course.modes = s'.course.modes) :
    Accounts l a t t' :=
  ⟨fun n hn => hr'.trans (h.relevance n (hr.symm.trans hn)), by rw [hm, hm']; exact h.modes⟩

theorem Accounts.append {a b : Account ρ} {s t u : State ρ} (h : Accounts l a s t)
    (h' : Accounts l b t u) : Accounts l (a ++ b) s u where
  relevance n hn := by
    rw [Account.total_append, ← Nat.add_assoc]
    exact h'.relevance _ (h.relevance n hn)
  modes := by
    change ((a.ended ++ b.ended) ++ u.course.modes).Perm ((a.begun ++ b.begun) ++ s.course.modes)
    calc (a.ended ++ b.ended) ++ u.course.modes
        = a.ended ++ (b.ended ++ u.course.modes) := List.append_assoc ..
      _ |>.Perm (a.ended ++ (b.begun ++ t.course.modes)) := h'.modes.append_left _
      _ |>.Perm (b.begun ++ (a.ended ++ t.course.modes)) := List.perm_append_comm_assoc ..
      _ |>.Perm (b.begun ++ (a.begun ++ s.course.modes)) := h.modes.append_left _
      _ |>.Perm (a.begun ++ (b.begun ++ s.course.modes)) := List.perm_append_comm_assoc ..
      _ = (a.begun ++ b.begun) ++ s.course.modes := (List.append_assoc ..).symm

omit [Engine ρ] in
/-- What is added is added as far as the limit. -/
theorem relevance_weigh {s : State ρ} {n : Nat} (hs : s.relevance = min n relevanceLimit)
    (more : Nat) : (s.weigh more).relevance = min (n + more) relevanceLimit := by
  change min (s.relevance + more) relevanceLimit = _
  omega

/-! ### Content -/

omit [Engine ρ] in
theorem relevance_emitText (s : State ρ) (t : String) : (s.emitText t).relevance = s.relevance := by
  unfold State.emitText
  split <;> rfl

/-- **Every keyword in content is counted once**, be it shown as one or not. -/
theorem relevance_readWords (l : Language ρ) (table : KeywordTable) (text : List Char) :
    ∀ (ws : List Regex.Span) (last : Nat) (pending : String) (s : State ρ) (n : Nat),
      s.relevance = min n relevanceLimit →
      (readWords l table text ws last pending s).relevance =
        min (n + ((ws.filterMap (keyword? l table text)).map
          fun (_, entry) => entry.relevance).sum) relevanceLimit
  | [], _, _, s, n, hs => (relevance_emitText s _).trans hs
  | w :: ws, last, pending, s, n, hs => by
    have ih := relevance_readWords l table text ws w.stop
    rw [readWords, List.filterMap_cons, keyword?]
    split
    · next hnone =>
      rw [hnone]
      exact ih _ s n hs
    · next entry hentry =>
      have hweigh : ∀ t, ((s.emitText t).weigh entry.relevance).relevance =
          min (n + entry.relevance) relevanceLimit := fun t =>
        relevance_weigh ((relevance_emitText s t).trans hs) entry.relevance
      rw [hentry, Option.map_some]
      dsimp only
      rw [List.map_cons, List.sum_cons, ← Nat.add_assoc]
      split
      · exact ih _ _ _ (hweigh _)
      · refine ih _ _ _ ?_
        split <;> exact hweigh _

theorem relevance_embed (m : CompiledMode ρ) (o : Outcome ρ) {s : State ρ} {n : Nat}
    (hs : s.relevance = min n relevanceLimit) : (embed m o s).relevance =
      min (n + if 0 < m.relevance then o.relevance else 0) relevanceLimit := by
  unfold embed
  dsimp only
  split
  · exact relevance_weigh hs o.relevance
  · exact hs

theorem mode_head? (env : Setting ρ) (s : State ρ) :
    env.language.mode (s.course.modes.head?.getD 0) = topMode env s := by
  rw [topMode, State.course]
  cases s.frames with
  | nil => exact env.language.mode_zero.symm ▸ rfl
  | cons f fs => rfl

variable {env : Setting ρ}

omit [Engine ρ] in
theorem relevance_remember (s : State ρ) (key : String) (o : Outcome ρ) :
    (s.remember key o).relevance = s.relevance := by
  unfold State.remember
  split <;> rfl

/-- The account of content that is searched for keywords. -/
theorem accountContent_of_none {s : State ρ} (hsub : (topMode env s).subLanguage = none) :
    accountContent env s = { keywords := keywordsIn env.language (topMode env s) s.buffer } := by
  rw [accountContent, hsub]

/-- The account of content in another language that is text, or that there is none of. -/
theorem accountContent_of_delegated?_none {s : State ρ} {d : Delegate}
    (hsub : (topMode env s).subLanguage = some d)
    (hnone : delegated? env.nested d s.buffer s.embeddedStacks = none) :
    accountContent env s = {} := by
  rw [accountContent, hsub]
  dsimp only
  rw [hnone]
  rfl

/-- **What embedded code leads to is counted once**, where the mode around it counts. -/
theorem accounts_embed {s t : State ρ} {d : Delegate} {o : Outcome ρ}
    (hsub : (topMode env s).subLanguage = some d)
    (hsome : delegated? env.nested d s.buffer s.embeddedStacks = some o)
    (hr : t.relevance = s.relevance) (hm : t.course.modes = s.course.modes) :
    Accounts env.language (accountContent env s) s (embed (topMode env s) o t) := by
  have haccount : accountContent env s =
      { embedded := [((s.course.modes.head?).getD 0, o)] } := by
    rw [accountContent, hsub]
    dsimp only
    rw [hsome]
    rfl
  have htotal : (accountContent env s).total env.language =
      if 0 < (topMode env s).relevance then o.relevance else 0 := by
    rw [haccount, ← mode_head?]
    simp only [Account.total, Account.keywordSum, Account.modeSum, Account.embeddedSum,
      List.map_nil, List.sum_nil, List.filter_cons, List.filter_nil]
    split <;> simp_all
  have hmodes : (embed (topMode env s) o t).course.modes = s.course.modes :=
    (congrArg (fun c : Control ρ => c.course.modes) (control_embed ..)).trans hm
  refine ⟨fun n hn => ?_, ?_⟩
  · rw [htotal]
    exact relevance_embed (topMode env s) o (hr.trans hn)
  · rw [haccount, hmodes]

/-- **The content of the top mode is accounted for.** -/
theorem Reported.accounts {s s' : State ρ} (h : Reported env s s') :
    Accounts env.language (accountContent env s) s s' := by
  have hmodes : s'.course.modes = s.course.modes :=
    congrArg (fun c : Control ρ => c.course.modes) h.control
  cases h with
  | plain hsub hkeywords =>
    rw [accountContent_of_none hsub, keywordsIn, hkeywords]
    exact .of_eq (relevance_emitText s.cleared s.buffer) hmodes
  | @words table ws hsub hkeywords hws =>
    rw [accountContent_of_none hsub, keywordsIn, hkeywords, hws]
    exact ⟨fun n hn => relevance_readWords env.language table s.buffer.toList ws 0 "" s.cleared n hn,
      by rw [hmodes]⟩
  | @empty d hsub hempty =>
    rw [accountContent_of_delegated?_none hsub (by cases d <;> simp [delegated?, hempty])]
    exact .of_eq rfl hmodes
  | unknown hsub hne hkey =>
    rw [accountContent_of_delegated?_none hsub (by simp [delegated?, hkey])]
    exact .of_eq (relevance_emitText s.cleared s.buffer) hmodes
  | @named name key o hsub hne hkey ho =>
    have hsome : delegated? env.nested (.named name) s.buffer s.embeddedStacks = some o := by
      simp [delegated?, hne, hkey, ho, Except.toOption]
    exact accounts_embed hsub hsome (relevance_remember s.cleared key o)
      (congrArg (fun c : Control ρ => c.course.modes) (control_remember s.cleared key o))
  | @detected names o hsub hne ho =>
    have hsome : delegated? env.nested (.detect names) s.buffer s.embeddedStacks = some o := by
      simp only [delegated?, String.isEmpty_iff, hne, if_false, ho, Except.toOption]
    exact accounts_embed hsub hsome rfl rfl

theorem accounts_contentAtBegin {m : CompiledMode ρ} {lexeme : String} {s s' : State ρ}
    (h : contentAtBegin env m lexeme s = .ok s') :
    Accounts env.language (if m.skip then {}
      else accountContent env (if m.excludeBegin then s.keep lexeme else s)) s s' := by
  rcases contentAtBegin_cases h with ⟨hskip, rfl⟩ | ⟨hskip, t, ht, rfl⟩
  · rw [if_pos hskip]
    exact .of_eq rfl rfl
  · rw [hskip, if_neg Bool.false_ne_true]
    refine ht.accounts.congr ?_ ?_ ?_ ?_ <;> split <;> rfl

theorem accounts_contentAtEnd {m : CompiledMode ρ} {lexeme : String} {s s' : State ρ}
    (h : contentAtEnd env m lexeme s = .ok s') :
    Accounts env.language (if m.skip then {}
      else accountContent env (if m.returnEnd || m.excludeEnd then s else s.keep lexeme)) s s' := by
  rcases contentAtEnd_cases h with ⟨hskip, rfl⟩ | ⟨hskip, t, ht, rfl⟩
  · rw [if_pos hskip]
    exact .of_eq rfl rfl
  · rw [hskip, if_neg Bool.false_ne_true]
    refine ht.accounts.congr ?_ ?_ ?_ ?_ <;> split <;> rfl

/-! ### Opening and closing -/

theorem accounts_start (l : Language ρ) (s : State ρ) (f : Frame ρ) :
    Accounts l { begun := [f.mode] } s (start l s f) where
  relevance n hn := by
    have hkept : (start l s f).relevance = s.relevance := by
      unfold start
      dsimp only
      split <;> rfl
    exact hkept.trans hn
  modes := by rw [course_start]; exact .refl _

/-- The mode of a frame that is taken off counts unless its text is content of the mode around it or
is written in other languages. -/
theorem accounts_stop (l : Language ρ) {s : State ρ} {f : Frame ρ} {fs : List (Frame ρ)}
    (hf : s.frames = f :: fs) :
    Accounts l { ended := [f.mode] } s (stop (l.mode f.mode) { s with frames := fs }) where
  relevance n hn := by
    have htotal : Account.total l ({ ended := [f.mode] } : Account ρ) =
        if (l.mode f.mode).skip || (l.mode f.mode).subLanguage.isSome then 0
          else (l.mode f.mode).relevance := by
      cases hskip : (l.mode f.mode).skip <;> cases hsub : (l.mode f.mode).subLanguage <;>
        simp [Account.total, Account.keywordSum, Account.modeSum, Account.embeddedSum, hskip, hsub]
    rw [htotal]
    unfold stop
    dsimp only
    split
    · split <;> exact hn
    · refine relevance_weigh ?_ _
      split <;> exact hn
  modes := by
    rw [course_stop]
    simp [State.course, hf]

theorem accounts_close (l : Language ρ) : ∀ (n : Nat) (ended : Option (Frame ρ)) (s : State ρ),
    Accounts l { ended := s.course.modes.take n } s (close l n ended s).1
  | 0, _, _ => .of_eq rfl rfl
  | n + 1, ended, s => by
    unfold close
    split
    · next hf =>
      have hm : s.course.modes = [] := by simp [State.course, hf]
      rw [hm]
      exact .of_eq rfl rfl
    · next f fs hf =>
      have hm : s.course.modes = f.mode :: fs.map Frame.mode := by simp [State.course, hf]
      have hstop : (stop (l.mode f.mode) { s with frames := fs }).course.modes =
          fs.map Frame.mode := congrArg Course.modes (course_stop ..)
      have hrest := accounts_close l n (some f) (stop (l.mode f.mode) { s with frames := fs })
      rw [hstop] at hrest
      rw [hm, List.take_succ_cons]
      exact (accounts_stop l hf).append hrest

theorem accounts_startNext (l : Language ρ) (ended : Option (Frame ρ)) (s : State ρ) :
    Accounts l { begun := (following l (ended.map Frame.mode)).toList } s (startNext l ended s) := by
  unfold startNext following
  cases ended with
  | none => exact .of_eq rfl rfl
  | some f =>
    dsimp only [Option.map_some, Option.bind_some]
    split
    · next hnone =>
      rw [hnone]
      exact .of_eq rfl rfl
    · next id hid =>
      rw [hid]
      exact accounts_start l s ⟨id, _, _⟩

/-! ### Steps -/

theorem accounts_keepChar (env : Setting ρ) (s : State ρ) (index : Nat) :
    Accounts env.language {} s (keepChar env s index).1 := by
  obtain ⟨text, htext⟩ := exists_keep_keepChar env s index
  rw [htext]
  exact .of_eq rfl rfl

section Match

variable {s s' : State ρ} {found : Found}

theorem accountFollow_of_begins {id : Nat} (hk : found.kind = .begins id) :
    accountFollow env s found = accountBegin env (s.matched found) found id := by
  simp only [accountFollow, State.matched, emptyMode?_of_begins hk, hk]

theorem accountFollow_of_illegal (hk : found.kind = .illegal) : accountFollow env s found = {} := by
  simp only [accountFollow, emptyMode?_of_illegal hk, hk]

theorem accountFollow_of_ends (hk : found.kind = .ends) (hempty : emptyMode? s found = none) :
    accountFollow env s found = accountEnd env (s.matched found) found := by
  simp only [accountFollow, State.matched, hempty, hk]

theorem accountBegin_of_refused {id : Nat}
    (hrefused : (admits env (env.language.mode id) found).1 = false) :
    accountBegin env s found id = {} :=
  if_neg (by rw [hrefused]; exact Bool.false_ne_true)

/-- Where modes end, the content before that, the modes that end and the one that begins then are
accounted for. -/
theorem accounts_ends {place : Nat} {frames : List (Frame ρ)} {t : State ρ}
    (hending : endingFrame env found s.frames = .ok (some place, frames))
    (hcontent : contentAtEnd env (topMode env { s with frames }) found.lexeme { s with frames } =
      .ok t) :
    Accounts env.language (accountEnd env s found) s
      (startNext env.language (close env.language (t.frames.length - max place 1) none t).2
        (close env.language (t.frames.length - max place 1) none t).1) := by
  obtain ⟨hcourse, hframes, -⟩ := course_ending hending hcontent
  have hmodes : t.course.modes = frames.map Frame.mode := congrArg (List.map Frame.mode) hframes
  have hclosed := accounts_close env.language (t.frames.length - max place 1) none t
  have hnext := accounts_startNext env.language
    (close env.language (t.frames.length - max place 1) none t).2
    (close env.language (t.frames.length - max place 1) none t).1
  rw [(course_close ..).2, Option.map_none, Option.or_none, hmodes] at hnext
  rw [hmodes] at hclosed
  have hall := (accounts_contentAtEnd hcontent).append (hclosed.append hnext)
  rw [hframes] at hall ⊢
  unfold accountEnd
  rw [hending]
  exact hall.congr rfl (modes_endingFrame hending).1.symm rfl rfl

theorem Followed.accounts {taken : Nat} (h : Followed env s found s' taken) :
    Accounts env.language (accountFollow env s found) s s' := by
  cases h with
  | empty hempty =>
    rw [accountFollow, hempty]
    exact accounts_keepChar env s found.index
  | @begins id endOverride t hk hadmits _ hcontent =>
    rw [accountFollow_of_begins hk, accountBegin, if_pos hadmits]
    have hbegun := accounts_start env.language t
      ⟨id, endOverride, (admits env (env.language.mode id) found).2⟩
    exact ((accounts_contentAtBegin hcontent).append hbegun).congr rfl rfl rfl rfl
  | refused hk hrefused =>
    rw [accountFollow_of_begins hk, accountBegin_of_refused hrefused]
    exact (accounts_keepChar env (s.matched found) found.index).congr rfl rfl rfl rfl
  | passed hk hrefused =>
    rw [accountFollow_of_begins hk, accountBegin_of_refused hrefused]
    exact .of_eq rfl rfl
  | emptyIllegal hk =>
    rw [accountFollow_of_illegal hk]
    exact (accounts_keepChar env (s.matched found) found.index).congr rfl rfl rfl rfl
  | illegal hk =>
    rw [accountFollow_of_illegal hk]
    exact .of_eq rfl rfl
  | ends hk hempty hending hcontent =>
    rw [accountFollow_of_ends hk hempty]
    exact (accounts_ends (s := s.matched found) hending hcontent).congr rfl rfl rfl rfl
  | endless hk hempty hending =>
    rw [accountFollow_of_ends hk hempty, accountEnd]
    simp only [hending]
    exact .of_eq rfl (modes_endingFrame hending).1

/-- **Every step is accounted for.** -/
theorem accounts_step (h : step env s = .ok (some s')) :
    Accounts env.language (accountStep env s) s s' := by
  obtain ⟨found, firstRule, t, taken, hfind, hfollowed, rfl⟩ := exists_followed_of_step h
  have haccount : accountStep env s = accountFollow env (onMatch env s found firstRule) found := by
    change (match (topMode env s).matcher.find (next s).firstRule env.code s.index with
      | .ok (some (found, firstRule)) => accountFollow env (onMatch env s found firstRule) found
      | _ => {}) = _
    rw [hfind]
  rw [haccount]
  exact hfollowed.accounts.congr rfl rfl rfl rfl

end Match

/-- **The way through code is accounted for.** -/
theorem accounts_run : ∀ {steps : Nat} {s s' : State ρ}, run env steps s = .ok s' →
    Accounts env.language (accountRun env steps s) s s'
  | 0, _, _, h => by cases h
  | steps + 1, s, s', h => by
    rw [run] at h
    rw [accountRun]
    cases hstep : step env s with
    | error p => rw [hstep] at h; cases h
    | ok next =>
      rw [hstep] at h
      cases next with
      | none => exact (reported_of_readContent h).accounts.congr rfl rfl rfl rfl
      | some t => exact (accounts_step hstep).append (accounts_run h)

theorem relevance_initial (l : Language ρ) (frames : List (Frame ρ)) :
    (initial l frames).relevance = 0 := by
  unfold initial
  induction frames.dropLast with
  | nil => rfl
  | cons f fs ih =>
    rw [List.foldr_cons]
    split <;> exact ih

/-- The account of going through code with these modes open. -/
def account (env : Setting ρ) (frames : List (Frame ρ)) : Account ρ :=
  accountRun env (stepBound env frames.length) (initial env.language frames)

/-- What going through code counts for is the total of its account, as far as the limit. Each mode
that was open or has begun has either ended or is open at the end. -/
theorem relevance_outcome {frames : List (Frame ρ)} {out : Outcome ρ}
    (h : outcome env frames = .ok out) :
    out.relevance = min ((account env frames).total env.language) relevanceLimit ∧
      ∃ top, out.top = some top ∧
        ((account env frames).ended ++ top.frames.map Frame.mode).Perm
          ((account env frames).begun ++ frames.map Frame.mode) := by
  obtain ⟨s, hrun, rfl⟩ := outcome_eq_ok h
  have hcounted := accounts_run hrun
  have hmodes := hcounted.modes
  rw [course_initial] at hmodes
  refine ⟨?_, ⟨env.name, s.frames⟩, rfl, hmodes⟩
  have hsum := hcounted.relevance 0 (relevance_initial env.language frames)
  rwa [Nat.zero_add] at hsum

end Scan

/-! ### Highlighting -/

section Highlighting

variable [Engine ρ] (r : Registry ρ) (o : Options)

/-- The account of highlighting code with embedded code at most so deep; of embedded code it has no
more than what that has led to. -/
def accountWithin (depth : Nat) (name code : String) (ignoreIllegals : Bool)
    (continuation : Option (ModeStack ρ)) : Account ρ :=
  match r.resolve name with
  | none => {}
  | some (key, language) =>
    Scan.account (settingWithin r o depth key language code ignoreIllegals)
      (startingFrames key language continuation)

/-- The account of highlighting code. -/
def accountOf (name code : String) (ignoreIllegals : Bool) (continuation : Option (ModeStack ρ)) :
    Account ρ :=
  accountWithin r o (nestingBound r code - 1) name code ignoreIllegals continuation

variable {r o}

/-- However deep code is embedded, it counts for the total of its account, as far as the limit, and
for nothing if it has been left as it is. -/
theorem relevance_highlightWithin {depth : Nat} {name code : String} {ignoreIllegals : Bool}
    {continuation : Option (ModeStack ρ)} {out : Outcome ρ}
    (h : highlightWithin r o (depth + 1) name code ignoreIllegals continuation = .ok out) :
    ∃ key l, r.resolve name = some (key, l) ∧
      (out.problem = none →
        let account := accountWithin r o depth name code ignoreIllegals continuation
        out.relevance = min (account.total l) relevanceLimit ∧
          ∃ top, out.top = some top ∧ (account.ended ++ top.frames.map Frame.mode).Perm
            (account.begun ++ (startingFrames key l continuation).map Frame.mode)) ∧
      (out.problem ≠ none → out.relevance = 0) := by
  rw [highlightWithin_succ] at h
  cases hl : r.resolve name with
  | none =>
    rw [hl] at h
    cases h
  | some entry =>
    obtain ⟨key, l⟩ := entry
    rw [hl] at h
    refine ⟨key, l, rfl, ?_⟩
    rcases of_recover_ok h with hok | ⟨p, rfl⟩
    · refine ⟨fun _ => ?_, fun hproblem => ?_⟩
      · rw [accountWithin, hl]
        exact Scan.relevance_outcome hok
      · obtain ⟨s, -, rfl⟩ := Scan.outcome_eq_ok hok
        exact absurd rfl hproblem
    · exact ⟨nofun, fun _ => rfl⟩

end Highlighting

/-- Words behind a colon count, text in angle brackets is gone through on its own, and brackets of
the other kinds count when they end, but for the round ones. -/
def weighed : Grammar where
  root := { contains := some [.mode 0, .mode 1, .mode 2, .mode 3] }
  shelf := { modes := #[
    { beginPattern := some "<", endPattern := some ">", excludeBegin := some true,
      excludeEnd := some true, subLanguage := some (.named "Weighed") },
    { beginPattern := some "\\[", endPattern := some "\\]", relevance := some 7 },
    { beginPattern := some "\\(", endPattern := some "\\)", relevance := some 9,
      skip := some true },
    { beginPattern := some ":", endPattern := some ";", excludeBegin := some true,
      lexemes := some "[a-z]+",
      keywords := some { categories := [("keyword", ["let|2"]), ("_word", ["be|5"])] } }] }

end CodeMarkup
