import CodeMarkup.Proofs.Highlight.Careful
import CodeMarkup.Proofs.Highlight.InRange
import CodeMarkup.Proofs.Highlight.Lossless
import CodeMarkup.Proofs.Language.Registered

/-! # Nothing is looked up in vain

In a state in range, whatever comes of going through code carefully is what comes of it anyway: the
texts cut out are cut at places of the text in order, and the modes, rules and frames are there. All
states that going through code passes are in range, so this holds of any code in any language of a
registry, wherever it has been embedded and from whatever stack it is gone on with
(`Registry.Built.unfailing`). -/

namespace CodeMarkup

open Regex (Span Captures)
open Scan (State Course)

variable {ρ : Type} [Engine ρ]

namespace Careful

/-! ### Matches -/

theorem part_eq {cs cut : List Char} {a b : Nat} (h : Text.slice? cs a b = some cut) :
    part cs a b = pure (Scan.between cs a b) := by
  rw [part, h, Scan.between_eq h]
  rfl

theorem groupText_eq {text : List Char} {c : Captures}
    (h : ∀ group s, c.get? group = some s → s.In text) (group : Nat) :
    groupText text c group = pure (Choice.groupText? text c group) := by
  unfold groupText Choice.groupText?
  cases hg : c.get? group with
  | none => rfl
  | some s =>
    obtain ⟨cut, hcut⟩ := h group s hg
    dsimp only
    rw [part_eq hcut]
    rfl

omit [Engine ρ] in
theorem foundIn_eq {ch : Choice ρ} {all : List Rule} {text : List Char} {c : Captures}
    (h : ∀ group s, c.get? group = some s → s.In text) (hall : ch.rules = all.drop ch.first) :
    foundIn ch all text c = pure (ch.foundIn? text c) := by
  unfold foundIn Choice.foundIn?
  cases c.get? 0 with
  | none => rfl
  | some whole =>
    cases hp : Choice.participant? c 1 ch.first ch.rules with
    | none => rfl
    | some found =>
      obtain ⟨r, group, position⟩ := found
      obtain ⟨hle, hr⟩ := Choice.participant?_mem hp
      rw [hall, List.getElem?_drop, Nat.add_sub_cancel' hle] at hr
      have hgroups : ((List.range (r.groups + 1)).mapM fun g => groupText text c (group + g)) =
          pure ((List.range (r.groups + 1)).map fun g => Choice.groupText? text c (group + g)) := by
        simp only [groupText_eq h]
        exact List.mapM_pure
      dsimp only
      rw [hr, look_some, pure_bind, hgroups, pure_bind]

theorem searchFrom_eq (hρ : Engine.Lawful ρ) {m : Matcher ρ} {first : Nat}
    (hfirst : first = 0 ∨ first < m.rules.length) (text : List Char) (offset : Nat) :
    searchFrom m first text offset = give (m.searchFrom first text offset) := by
  unfold searchFrom Matcher.searchFrom Matcher.choice
  rw [m.getElem?_choices, if_pos (by omega), look_some, pure_bind]
  dsimp only [Thunk.get]
  cases hch : (Choice.ofRules m.rules m.foldCase first : Except _ (Choice ρ)) with
  | error refused => rfl
  | ok ch =>
    simp only [give_ok, pure_bind]
    change _ = give (ch.search text offset)
    unfold Choice.search
    cases hregex : ch.regex? with
    | none => rfl
    | some regex =>
      dsimp only
      cases hs : Engine.search regex text offset with
      | error e => rfl
      | ok captures =>
        cases captures with
        | none => rfl
        | some c =>
          rcases Choice.of_ofRules hch with ⟨-, hnone⟩ | ⟨-, hf, hrules, -⟩
          · rw [hnone] at hregex
            cases hregex
          · exact foundIn_eq (fun group s => hρ.search_in hs) (hf ▸ hrules)

theorem find_eq (hρ : Engine.Lawful ρ) {m : Matcher ρ} {first : Nat}
    (hfirst : first = 0 ∨ first < m.rules.length) (text : List Char) (offset : Nat) :
    find m first text offset = give (m.find first text offset) := by
  unfold find Matcher.find
  rw [searchFrom_eq hρ hfirst]
  cases m.searchFrom first text offset with
  | error p => rfl
  | ok here =>
    simp only [give_ok, pure_bind]
    change _ = give (Except.bind (Except.ok here) _)
    dsimp only [Except.bind]
    split
    · rfl
    · cases Text.nextPlace? text offset with
      | none => rfl
      | some next =>
        dsimp only
        rw [searchFrom_eq hρ (Or.inl rfl)]
        cases m.searchFrom 0 text next <;> rfl

/-! ### Content -/

variable {env : Setting ρ}

theorem topMode_eq {s : State ρ} (hs : env.language.Opens s.course.modes) :
    topMode env s = pure (Scan.topMode env s) := by
  obtain ⟨f, fs, hf⟩ := Scan.exists_frames hs
  have hmode : f.mode < env.language.size := hs.lt f.mode (by simp [State.course, hf])
  simp only [topMode, Scan.topMode, hf, List.head?_cons, look_some, pure_bind,
    Language.mode?_eq_some hmode]

theorem readWords_eq (l : Language ρ) (table : KeywordTable) (text : List Char) :
    ∀ (ws : List Span) (last : Nat) (pending : String) (s : State ρ),
      Text.IsPlace text last → Span.Follow text last ws →
      readWords l table text ws last pending s =
        pure (Scan.readWords l table text ws last pending s)
  | [], last, pending, s, hl, _ => by
    rw [readWords, part_eq (Text.slice?_end hl), pure_bind, Scan.readWords]
  | w :: ws, last, pending, s, hl, ⟨hle, ⟨word, hw⟩, hws⟩ => by
    obtain ⟨gap, hgap⟩ := Text.exists_slice? hl (Text.isPlace_left hw) hle
    have ih := fun pending s => readWords_eq l table text ws w.stop pending s
      (Text.isPlace_right hw) hws
    rw [readWords, Scan.readWords, part_eq hgap, part_eq hw]
    simp only [pure_bind, ih]
    cases table.find? l.caseInsensitive (Scan.between text w.start w.stop) with
    | none => rfl
    | some entry => dsimp only; split <;> rfl

theorem readKeywords_eq (hρ : Engine.Lawful ρ) (l : Language ρ) (m : CompiledMode ρ)
    (content : String) (s : State ρ) :
    readKeywords l m content s = give (Scan.readKeywords l m content s) := by
  unfold readKeywords Scan.readKeywords
  cases m.keywords with
  | none => rfl
  | some table =>
    dsimp only
    cases hws : Engine.occurrences m.keywordPattern.regex content.toList with
    | error e => rfl
    | ok ws => exact readWords_eq l table _ ws 0 "" s (Text.isPlace_zero _) (hρ.follow hws)

theorem readContent_eq (hρ : Engine.Lawful ρ) {s : State ρ}
    (hs : env.language.Opens s.course.modes) :
    readContent env s = give (Scan.readContent env s) := by
  unfold readContent Scan.readContent
  rw [topMode_eq hs, pure_bind]
  dsimp only
  cases (Scan.topMode env s).subLanguage with
  | none => exact readKeywords_eq hρ ..
  | some d => rfl

/-! ### Begins -/

theorem keepChar_eq (env : Setting ρ) (s : State ρ) (index : Nat) :
    keepChar env s index = pure (Scan.keepChar env s index) := by
  unfold keepChar Scan.keepChar
  cases hn : Text.nextPlace? env.code index with
  | none => rfl
  | some next =>
    obtain ⟨-, c, hc⟩ := Text.nextPlace?_eq_some hn
    dsimp only
    rw [part_eq hc, pure_bind]

theorem start_eq {l : Language ρ} {f : Frame ρ} (hf : f.mode < l.size) (s : State ρ) :
    start l s f = pure (Scan.start l s f) := by
  unfold start Scan.start
  rw [Language.mode?_eq_some hf]
  rfl

theorem passBegin_eq (env : Setting ρ) (s : State ρ) (found : Found) :
    passBegin env s found = pure (Scan.passBegin env s found) := by
  unfold passBegin Scan.passBegin
  split
  · exact keepChar_eq env s found.index
  · rfl

theorem admits_eq {m : CompiledMode ρ} {found : Found} (hp : Text.IsPlace env.code found.index) :
    admits env m found = pure (Scan.admits env m found) := by
  unfold admits Scan.admits
  obtain ⟨before, after, hcode, hbefore⟩ := hp
  rw [hcode, ← hbefore, Text.splitAt?_byteSize]
  cases m.skipAfterDot with
  | false => rfl
  | true =>
    simp only [if_true, look_some, pure_bind, Option.map_some, Bool.true_and]
    rfl

theorem contentAtBegin_eq (hρ : Engine.Lawful ρ) (m : CompiledMode ρ) (lexeme : String)
    {s : State ρ} (hs : env.language.Opens s.course.modes) :
    contentAtBegin env m lexeme s = give (Scan.contentAtBegin env m lexeme s) := by
  unfold contentAtBegin Scan.contentAtBegin
  split
  · rfl
  · rw [readContent_eq hρ (by split <;> exact hs)]
    cases Scan.readContent env (if m.excludeBegin then s.keep lexeme else s) <;> rfl

theorem followBegin_eq (hρ : Engine.Lawful ρ) {s : State ρ}
    (hs : env.language.Opens s.course.modes) {found : Found}
    (hp : Text.IsPlace env.code found.index) {id : Nat} (hid : id < env.language.size) :
    followBegin env s found id = give (Scan.followBegin env s found id) := by
  unfold followBegin Scan.followBegin
  rw [Language.mode?_eq_some hid, look_some, pure_bind, admits_eq hp, pure_bind]
  dsimp only
  split
  · cases Scan.endLike env (env.language.mode id) found.lexeme with
    | error p => rfl
    | ok endOverride =>
      rw [contentAtBegin_eq hρ _ _ hs, give_ok, pure_bind]
      dsimp only
      cases Scan.contentAtBegin env (env.language.mode id) found.lexeme s with
      | error p => rfl
      | ok s' =>
        rw [give_ok, pure_bind, start_eq hid, pure_bind]
        rfl
  · rw [passBegin_eq]
    rfl

/-! ### Ends -/

theorem endsAt_eq {found : Found} {f : Frame ρ} (hf : f.mode < env.language.size) :
    endsAt env found f = give (Scan.endsAt env found f) := by
  unfold endsAt Scan.endsAt
  rw [Language.mode?_eq_some hf, look_some, pure_bind]
  dsimp only
  cases f.endOverride <|> (env.language.mode f.mode).endRegex with
  | none => rfl
  | some re =>
    dsimp only
    cases Engine.matchesAt re.regex env.code found.index with
    | error e => rfl
    | ok ends =>
      cases ends with
      | false => rfl
      | true => cases (env.language.mode f.mode).onEnd <;> rfl

theorem outermostEnding_eq {l : Language ρ} : ∀ {f : Frame ρ} {fs : List (Frame ρ)},
    (∀ g ∈ f :: fs, g.mode < l.size) →
      outermostEnding l (f :: fs) = pure (Scan.outermostEnding l (f :: fs))
  | f, [], _ => by simp [outermostEnding, Scan.outermostEnding]
  | f, f' :: fs, h => by
    have hf : f.mode < l.size := h f List.mem_cons_self
    have ih := outermostEnding_eq (fun g hg => h g (List.mem_cons_of_mem f hg))
    rw [outermostEnding, Scan.outermostEnding, Language.mode?_eq_some hf, look_some, pure_bind, ih]
    by_cases hlength : 1 < (f' :: fs).length
    · rw [if_pos hlength, decide_eq_true hlength, Bool.true_and]
      split <;> rfl
    · rw [if_neg hlength, decide_eq_false hlength, Bool.false_and]
      rfl

theorem endingFrame_eq {found : Found} : ∀ {f : Frame ρ} {fs : List (Frame ρ)},
    (∀ g ∈ f :: fs, g.mode < env.language.size) →
      endingFrame env found (f :: fs) = give (Scan.endingFrame env found (f :: fs))
  | f, fs, h => by
    have hf : f.mode < env.language.size := h f List.mem_cons_self
    rw [endingFrame, Scan.endingFrame, endsAt_eq hf]
    cases hends : Scan.endsAt env found f with
    | error p => rfl
    | ok ending =>
      obtain ⟨ends, f'⟩ := ending
      have hf' : f'.mode < env.language.size := (Scan.mode_endsAt hends).symm ▸ hf
      have h' : ∀ g ∈ f' :: fs, g.mode < env.language.size :=
        List.forall_mem_cons.mpr ⟨hf', fun g hg => h g (List.mem_cons_of_mem f hg)⟩
      rw [give_ok, pure_bind]
      cases ends with
      | true =>
        dsimp only
        rw [if_pos rfl, outermostEnding_eq h']
        rfl
      | false =>
        dsimp only
        rw [if_neg Bool.false_ne_true, Language.mode?_eq_some hf', look_some, pure_bind]
        cases fs with
        | nil => simp
        | cons g gs =>
          rw [endingFrame_eq (fun g' hg => h g' (List.mem_cons_of_mem f hg))]
          split
          · cases Scan.endingFrame env found (g :: gs) <;> rfl
          · rfl

theorem close_eq {l : Language ρ} : ∀ (n : Nat) (ended : Option (Frame ρ)) {s : State ρ},
    n ≤ s.frames.length → (∀ f ∈ s.frames, f.mode < l.size) →
      close l n ended s = pure (Scan.close l n ended s)
  | 0, _, _, _, _ => rfl
  | n + 1, ended, s, hn, h => by
    unfold close Scan.close
    cases hf : s.frames with
    | nil => rw [hf] at hn; cases hn
    | cons f fs =>
      rw [hf] at hn h
      have hmode : f.mode < l.size := h f List.mem_cons_self
      have hstop : (Scan.stop (l.mode f.mode) { s with frames := fs }).frames = fs := by
        unfold Scan.stop
        dsimp only
        split <;> split <;> rfl
      rw [List.head?_cons, look_some, pure_bind, Language.mode?_eq_some hmode, look_some, pure_bind]
      refine close_eq n (some f) ?_ ?_
      · rw [List.tail_cons, hstop]
        exact Nat.le_of_succ_le_succ hn
      · rw [List.tail_cons, hstop]
        exact fun g hg => h g (List.mem_cons_of_mem f hg)

theorem contentAtEnd_eq (hρ : Engine.Lawful ρ) (m : CompiledMode ρ) (lexeme : String)
    {s : State ρ} (hs : env.language.Opens s.course.modes) :
    contentAtEnd env m lexeme s = give (Scan.contentAtEnd env m lexeme s) := by
  unfold contentAtEnd Scan.contentAtEnd
  split
  · rfl
  · rw [readContent_eq hρ (by split <;> exact hs)]
    cases Scan.readContent env (if m.returnEnd || m.excludeEnd then s else s.keep lexeme) <;> rfl

theorem startNext_eq {l : Language ρ} (hl : l.Linking) {ended : Option (Frame ρ)}
    (h : ∀ f, ended = some f → f.mode < l.size) (s : State ρ) :
    startNext l ended s = pure (Scan.startNext l ended s) := by
  unfold startNext Scan.startNext
  cases ended with
  | none => rfl
  | some f =>
    dsimp only
    rw [Language.mode?_eq_some (h f rfl), look_some, pure_bind]
    cases hstarts : (l.mode f.mode).starts with
    | none => rfl
    | some next => exact start_eq (hl.starts hstarts) s

theorem followEnd_eq (hρ : Engine.Lawful ρ) (hl : env.language.Linking) {s : State ρ}
    (hs : env.language.Opens s.course.modes) (found : Found) :
    followEnd env s found = give (Scan.followEnd env s found) := by
  unfold followEnd Scan.followEnd
  obtain ⟨f, fs, hframes⟩ := Scan.exists_frames hs
  have hopen : ∀ g ∈ f :: fs, g.mode < env.language.size := fun g hg =>
    hs.lt g.mode (by rw [State.course, hframes]; exact List.mem_map_of_mem hg)
  rw [hframes, endingFrame_eq hopen]
  cases hending : Scan.endingFrame env found (f :: fs) with
  | error p => rfl
  | ok ending =>
    obtain ⟨place, frames⟩ := ending
    rw [give_ok, pure_bind]
    cases place with
    | none => rfl
    | some place =>
      -- looking for the frame that ends changes what frames remember, but not their modes
      have hmodes : ({ s with frames } : State ρ).course.modes = s.course.modes := by
        simp only [State.course, (Scan.modes_endingFrame hending).1, hframes]
      have hs' : env.language.Opens ({ s with frames } : State ρ).course.modes := hmodes ▸ hs
      dsimp only
      rw [topMode_eq hs', pure_bind, contentAtEnd_eq hρ _ _ hs']
      cases hcontent : Scan.contentAtEnd env (Scan.topMode env { s with frames }) found.lexeme
          { s with frames } with
      | error p => rfl
      | ok t =>
        have ht : env.language.Opens t.course.modes := by
          rw [(Scan.course_ending (hframes ▸ hending) hcontent).1]
          exact hs
        have hframes : ∀ g ∈ t.frames, g.mode < env.language.size := fun g hg =>
          ht.lt g.mode (List.mem_map_of_mem hg)
        rw [give_ok, pure_bind, close_eq _ none (Nat.sub_le _ _) hframes, pure_bind]
        dsimp only
        rw [startNext_eq hl, pure_bind]
        · rfl
        · intro g hg
          have hended := (Scan.course_close env.language (t.frames.length - max place 1) none t).2
          rw [hg, Option.map_some, Option.map_none, Option.or_none] at hended
          exact ht.lt g.mode (List.mem_of_mem_take (List.mem_of_getLast? hended.symm))

/-! ### Steps -/

theorem illegalAt_eq {s : State ρ} (hs : env.language.Opens s.course.modes) {found : Found}
    (hp : Text.IsPlace env.code found.index) :
    illegalAt env s found = pure (Scan.illegalAt env s found) := by
  unfold illegalAt Scan.illegalAt
  have hle : Text.floorPlace env.code (found.index - Scan.contextSize) ≤
      Text.ceilPlace env.code (found.index + Scan.contextSize) := by
    have hfloor := Text.floorPlace_le env.code (found.index - Scan.contextSize)
    have hceil := Text.le_ceilPlace env.code (found.index + Scan.contextSize)
    have hindex := hp.le
    omega
  obtain ⟨context, hcontext⟩ :=
    Text.exists_slice? (Text.isPlace_floorPlace env.code _) (Text.isPlace_ceilPlace env.code _) hle
  dsimp only
  rw [topMode_eq hs, pure_bind, part_eq hcontext, pure_bind]

theorem follow_eq (hρ : Engine.Lawful ρ) (hl : env.language.Linking) {s : State ρ}
    (hs : env.language.Opens s.course.modes) {found : Found}
    (hp : Text.IsPlace env.code found.index)
    (hbegins : ∀ id, found.kind = .begins id → id < env.language.size)
    (hlast : ∀ id index, s.lastMatch = some (.begins id, index) → id < env.language.size) :
    follow env s found = give (Scan.follow env s found) := by
  unfold follow Scan.follow
  cases hempty : Scan.emptyMode? s found with
  | some id =>
    have hid : id < env.language.size := hlast id _ (Scan.emptyMode?_eq_some hempty).2.2
    dsimp only
    split
    · exact keepChar_eq env s found.index
    · rw [Language.mode?_eq_some hid, look_some, pure_bind]
  | none =>
    have ht : env.language.Opens
        ({ s with lastMatch := some (found.kind, found.index) } : State ρ).course.modes := hs
    dsimp only
    generalize ({ s with lastMatch := some (found.kind, found.index) } : State ρ) = t at ht ⊢
    cases hk : found.kind with
    | begins id => exact followBegin_eq hρ ht hp (hbegins id hk)
    | illegal =>
      dsimp only
      split
      · rw [illegalAt_eq ht hp, pure_bind]
      · split
        · exact keepChar_eq env t found.index
        · rfl
    | ends =>
      dsimp only
      rw [followEnd_eq hρ hl ht]
      cases Scan.followEnd env t found with
      | error p => rfl
      | ok ended =>
        obtain ⟨t, taken⟩ := ended
        cases taken <;> rfl

theorem step_eq (hρ : Engine.Lawful ρ) (hl : env.language.Linking) {s : State ρ}
    (hs : s.course.InRange env.language) : step env s = give (Scan.step env s) := by
  unfold step Scan.step
  dsimp only
  rw [topMode_eq (s := Scan.next s) hs.opens, pure_bind, find_eq hρ hs.firstRule_next]
  cases hfind : (Scan.topMode env (Scan.next s)).matcher.find (Scan.next s).firstRule env.code
      (Scan.next s).index with
  | error p => rfl
  | ok found =>
    cases found with
    | none => rfl
    | some found =>
      obtain ⟨found, first⟩ := found
      rw [give_ok, pure_bind]
      dsimp only
      rw [follow_eq hρ hl (s := { (Scan.next s).keep
        (Scan.between env.code (Scan.next s).index found.index) with firstRule := first }) hs.opens
        (Matcher.rule_of_find hρ hfind).1 (fun id => hs.begins_lt hρ hl hfind) hs.begun]
      cases Scan.follow env { (Scan.next s).keep
        (Scan.between env.code (Scan.next s).index found.index) with firstRule := first } found <;>
        rfl

theorem finish_eq (hρ : Engine.Lawful ρ) {s : State ρ} (hs : env.language.Opens s.course.modes) :
    finish env s = give (Scan.finish env s) := readContent_eq hρ hs

theorem initial_eq {l : Language ρ} {frames : List (Frame ρ)}
    (h : ∀ f ∈ frames, f.mode < l.size) : initial l frames = pure (Scan.initial l frames) := by
  have hopen : ∀ f ∈ frames.dropLast, f.mode < l.size := fun f hf =>
    h f (List.mem_of_mem_dropLast hf)
  unfold initial Scan.initial
  generalize frames.dropLast = fs at hopen
  induction fs with
  | nil => rfl
  | cons f fs ih =>
    rw [reopen, ih (fun g hg => hopen g (List.mem_cons_of_mem f hg)),
      Language.mode?_eq_some (hopen f List.mem_cons_self), List.foldr_cons]
    rfl

end Careful

/-! ### Code in a registered language -/

/-- Whether everything is there that is looked up while code is gone through with these modes open:
the modes themselves, what each step and what reporting the end look up, and the rule to go on with.
-/
structure Scan.Unfailing (env : Setting ρ) (frames : List (Frame ρ)) : Prop where
  initial : Careful.initial env.language frames = pure (Scan.initial env.language frames)
  step : ∀ {s : State ρ}, Leads env (Scan.initial env.language frames) s →
    Careful.step env s = Careful.give (Scan.step env s)
  finish : ∀ {s : State ρ}, Leads env (Scan.initial env.language frames) s →
    Careful.finish env s = Careful.give (Scan.finish env s)
  rule : ∀ {s : State ρ}, Leads env (Scan.initial env.language frames) s →
    ∀ (pattern : String) (index : Nat),
      (Scan.topMode env (Scan.next s)).matcher.find (Scan.next s).firstRule env.code s.index ≠
        .error (.search pattern (.noRule index))

theorem Scan.unfailing_of_opens (hρ : Engine.Lawful ρ) {env : Setting ρ}
    (hl : env.language.Linking) {frames : List (Frame ρ)}
    (h : env.language.Opens (frames.map Frame.mode)) : Scan.Unfailing env frames := by
  have hall : ∀ {s : State ρ}, Leads env (Scan.initial env.language frames) s →
      s.course.InRange env.language := fun hs => inRange_leads hρ hl (inRange_initial h) hs
  exact {
    initial := Careful.initial_eq fun f hf => h.lt f.mode (List.mem_map_of_mem hf)
    step := fun hs => Careful.step_eq hρ hl (hall hs)
    finish := fun hs => Careful.finish_eq hρ (hall hs).opens
    rule := fun hs => Matcher.find_ne_noRule (hall hs).firstRule_next _ _ }

/-- **Nothing is looked up in vain**: in any language of a registry, however deep the code has been
embedded and whatever stack is to be gone on with. -/
theorem unfailing_settingWithin (hρ : Engine.Lawful ρ) {r : Registry ρ} (hr : r.Built)
    {name key : String} {l : Language ρ} (hl : r.resolve name = some (key, l)) (o : Options)
    (depth : Nat) (code : String) (ignoreIllegals : Bool) (continuation : Option (ModeStack ρ)) :
    Scan.Unfailing (settingWithin r o depth key l code ignoreIllegals)
      (startingFrames key l continuation) := by
  obtain ⟨g, name', hcompile⟩ := hr.compiled (Registry.find?_of_resolve hl)
  exact Scan.unfailing_of_opens hρ (Language.linking_of_compile hcompile)
    (opens_startingFrames key l continuation)

/-- Strings in quotes can be gone on with inside a string. -/
theorem unfailing_settingWithin_quoted :
    ∃ (r : Registry (Checked Regex.Tried)) (l : Language (Checked Regex.Tried)),
      Engine.Lawful (Checked Regex.Tried) ∧ r.Built ∧
        r.resolve "Quoted" = some (Registry.fold "Quoted", l) ∧
        Scan.Unfailing
          (settingWithin r {} 0 (Registry.fold "Quoted") l "a\\\"b\" c" false)
          (startingFrames (Registry.fold "Quoted") l
            (some ⟨Registry.fold "Quoted", [Frame.new 1, Frame.new 0]⟩)) := by
  obtain ⟨l, hl⟩ : ∃ l : Language (Checked Regex.Tried),
      Language.compile Registry.quoted "Quoted" = .ok l :=
    exists_of_isOk (by decide +kernel)
  obtain ⟨r, hr, hresolve⟩ := Registry.exists_register hl
  have hρ := Checked.lawful Regex.Tried
  exact ⟨r, l, hρ, hr, hresolve, unfailing_settingWithin hρ hr hresolve ..⟩

end CodeMarkup
