import CodeMarkup.Proofs.Highlight.Course
import CodeMarkup.Proofs.Language.Thinned

/-! # Going through code alike

Code is gone through in two languages whose modes are called by other numbers (`Language.Paired`).
From states that are alike (`Scan.Alike`) matches that are the same are followed alike, whatever
stands for embedded code as long as that agrees, too (`Scan.agree_follow`). Only where a begin is
refused going on is another matter: which rules are left may differ. -/

namespace CodeMarkup

variable {ρ : Type}

/-! ### Results that agree -/

/-- Results that are related, or the same problem. Nothing is said where one of the sides has ended
in a problem that excuses it. -/
inductive Agree {α β : Type} (excused excused' : Problem → Prop) (R : α → β → Prop) :
    Except Problem α → Except Problem β → Prop
  | ok {a : α} {b : β} : R a b → Agree excused excused' R (.ok a) (.ok b)
  | error {p : Problem} : Agree excused excused' R (.error p) (.error p)
  | left {p : Problem} {y : Except Problem β} : excused p → Agree excused excused' R (.error p) y
  | right {p : Problem} {x : Except Problem α} : excused' p → Agree excused excused' R x (.error p)

theorem optionRel_eq {α : Type} : ∀ a : Option α, Option.Rel Eq a a
  | none => .none
  | some _ => .some rfl

namespace Agree

variable {α β γ δ : Type} {excused excused' : Problem → Prop} {R : α → β → Prop} {S : γ → δ → Prop}
  {x : Except Problem α} {y : Except Problem β}

theorem imp (h : Agree excused excused' R x y) {R' : α → β → Prop} (himp : ∀ a b, R a b → R' a b) :
    Agree excused excused' R' x y := by
  cases h with
  | ok h => exact .ok (himp _ _ h)
  | error => exact .error
  | left h => exact .left h
  | right h => exact .right h

theorem map (h : Agree excused excused' R x y) {f : α → γ} {g : β → δ}
    (hfg : ∀ a b, R a b → S (f a) (g b)) : Agree excused excused' S (x.map f) (y.map g) := by
  cases h with
  | ok h => exact .ok (hfg _ _ h)
  | error => exact .error
  | left h => exact .left h
  | right h => exact .right h

theorem refl : ∀ x : Except Problem α, Agree excused excused' Eq x x
  | .ok _ => .ok rfl
  | .error _ => .error

/-- What excuses the first of three results excuses it all the way. -/
theorem trans_eq (h : Agree excused (fun _ => False) R x y) {z : Except Problem β}
    (hz : Agree excused (fun _ => False) Eq y z) : Agree excused (fun _ => False) R x z := by
  cases h with
  | ok h =>
    cases hz with
    | ok he => exact .ok (he ▸ h)
    | right hp => exact hp.elim
  | error =>
    cases hz with
    | error => exact .error
    | left hp => exact .left hp
    | right hp => exact hp.elim
  | left hp => exact .left hp
  | right hp => exact hp.elim

/-- Where nothing is excused related results are made the same. -/
theorem map_eq (h : Agree excused excused' R x y) (hx : ∀ p, x = .error p → ¬ excused p)
    (hy : ∀ p, y = .error p → ¬ excused' p) {f : α → γ} {g : β → γ}
    (hfg : ∀ a b, R a b → g b = f a) : y.map g = x.map f := by
  cases h with
  | ok h => exact congrArg Except.ok (hfg _ _ h)
  | error => rfl
  | left hp => exact absurd hp (hx _ rfl)
  | right hp => exact absurd hp (hy _ rfl)

end Agree

/-! ### What modes are called by -/

/-- The same mode with the same memory, called by another number. -/
structure Frame.Twin (twin : Nat → Nat → Prop) (f f' : Frame ρ) : Prop where
  mode : twin f.mode f'.mode
  endOverride : f'.endOverride = f.endOverride
  memory : f'.memory = f.memory

/-- Open modes that are the same, the roots being the outermost. -/
inductive Stacked (twin : Nat → Nat → Prop) : List (Frame ρ) → List (Frame ρ) → Prop
  | root {f f' : Frame ρ} : f.Twin (fun a b => a = 0 ∧ b = 0) f' → Stacked twin [f] [f']
  | on {f f' : Frame ρ} {fs fs' : List (Frame ρ)} : f.Twin twin f' → Stacked twin fs fs' →
      Stacked twin (f :: fs) (f' :: fs')

/-- Stacks of the same open modes of a language. -/
structure ModeStack.Twin (twin : String → Nat → Nat → Prop) (s s' : ModeStack ρ) : Prop where
  language : s'.language = s.language
  frames : Stacked (twin s.language) s.frames s'.frames

/-- Outcomes that differ at most in what modes are called by. -/
structure Outcome.Twin (twin : String → Nat → Nat → Prop) (o o' : Outcome ρ) : Prop where
  language : o'.language = o.language
  relevance : o'.relevance = o.relevance
  events : o'.events = o.events
  illegal : o'.illegal = o.illegal
  problem : o'.problem = o.problem
  top : Option.Rel (ModeStack.Twin twin) o.top o'.top

/-- Ways to go through embedded code that agree. -/
structure Nested.Agrees (excused excused' : Problem → Prop) (twin : String → Nat → Nat → Prop)
    (n n' : Nested ρ) : Prop where
  resolve : n'.resolve = n.resolve
  named : ∀ key code {stack stack' : Option (ModeStack ρ)},
    Option.Rel (ModeStack.Twin twin) stack stack' →
      Agree excused excused' (Outcome.Twin twin) (n.named key code stack) (n'.named key code stack')
  detect : ∀ code names,
    Agree excused excused' (Outcome.Twin twin) (n.detect code names) (n'.detect code names)

namespace Stacked

variable {twin : Nat → Nat → Prop} {fs fs' : List (Frame ρ)}

theorem length_eq (h : Stacked twin fs fs') : fs'.length = fs.length := by
  induction h with
  | root => rfl
  | on _ _ ih => rw [List.length_cons, List.length_cons, ih]

theorem length_pos (h : Stacked twin fs fs') : 0 < fs.length := by
  cases h <;> exact Nat.succ_pos _

/-- The innermost modes, and those around them. -/
theorem exists_cons (h : Stacked twin fs fs') : ∃ f f' rest rest', fs = f :: rest ∧
    fs' = f' :: rest' ∧ f.Twin (Language.OnTop twin) f' := by
  cases h with
  | root hf => exact ⟨_, _, _, _, rfl, rfl, ⟨Or.inr hf.mode, hf.endOverride, hf.memory⟩⟩
  | on hf _ => exact ⟨_, _, _, _, rfl, rfl, ⟨Or.inl hf.mode, hf.endOverride, hf.memory⟩⟩

end Stacked

namespace Scan

/-! ### States -/

/-- How going through code goes on, apart from the place and the open modes. -/
structure Gait where
  iterations : Nat
  firstRule : Nat
  resume : Bool
  lastMatch : Option (RuleKind × Nat)

/-- How it goes on when the next match is looked for. -/
def Gait.next (g : Gait) : Gait :=
  ⟨g.iterations + 1, if g.resume then g.firstRule else 0, false, g.lastMatch⟩

/-- How going through code goes on in a state. -/
def State.gait {ρ : Type} (s : State ρ) : Gait := ⟨s.iterations, s.firstRule, s.resume, s.lastMatch⟩

/-- States in code of a language in which the same modes are open and the same has been reported and
kept. -/
structure Alike (twin : String → Nat → Nat → Prop) (name : String) (gaits : Gait → Gait → Prop)
    (s s' : State ρ) : Prop where
  frames : Stacked (twin name) s.frames s'.frames
  embeddedStacks : ∀ key, Option.Rel (ModeStack.Twin twin) (s.embeddedStacks.find? key)
    (s'.embeddedStacks.find? key)
  buffer : s'.buffer = s.buffer
  events : s'.events = s.events
  relevance : s'.relevance = s.relevance
  gait : gaits s.gait s'.gait

variable {twin : String → Nat → Nat → Prop} {gaits : Gait → Gait → Prop} {name : String}

namespace Alike

variable {s s' : State ρ} (h : Alike twin name gaits s s')

include h

theorem emit (e : Markup.Event) : Alike twin name gaits (s.emit e) (s'.emit e) :=
  { h with events := congrArg (e :: ·) h.events }

theorem emitText (t : String) : Alike twin name gaits (s.emitText t) (s'.emitText t) := by
  unfold State.emitText
  split
  · exact h
  · exact h.emit _

theorem weigh (n : Nat) : Alike twin name gaits (s.weigh n) (s'.weigh n) :=
  { h with relevance := congrArg (addRelevance · n) h.relevance }

theorem keep (t : String) : Alike twin name gaits (s.keep t) (s'.keep t) :=
  { h with buffer := congrArg (· ++ t) h.buffer }

theorem setBuffer (t : String) :
    Alike twin name gaits { s with buffer := t } { s' with buffer := t } :=
  { h with buffer := rfl }

end Alike

end Scan

variable [Engine ρ]

/-- Settings that differ at most in what modes are called by. -/
structure Setting.Agrees (excused excused' : Problem → Prop) (twin : String → Nat → Nat → Prop)
    (env env' : Setting ρ) : Prop where
  name : env'.name = env.name
  code : env'.code = env.code
  ignoreIllegals : env'.ignoreIllegals = env.ignoreIllegals
  safeMode : env'.safeMode = env.safeMode
  language : env.language.Paired env'.language (twin env.name)
  nested : env.nested.Agrees excused excused' twin env'.nested

theorem Language.Paired.displayClass {l l' : Language ρ} {twin : Nat → Nat → Prop}
    (h : l.Paired l' twin) (category : String) :
    l'.displayClass category = l.displayClass category := by
  unfold Language.displayClass
  rw [h.classNameAliases]

theorem Language.Paired.refl (l : Language ρ) : l.Paired l Eq where
  caseInsensitive := rfl
  classNameAliases := rfl
  bare := fun h => by rw [h]
  root := rfl
  starts := by
    rintro a _ rfl
    exact optionRel_eq _
  isSome := fun h => by rw [h]

namespace Scan

/-! ### Content -/

section Content

variable {excused excused' : Problem → Prop} {twin : String → Nat → Nat → Prop}
  {gaits : Gait → Gait → Prop} {name : String}

variable {env env' : Setting ρ} (he : env.Agrees excused excused' twin env')

variable {l l' : Language ρ} (hl : l.Paired l' (twin name))

include hl in
theorem alike_readWords (table : KeywordTable) (text : List Char) :
    ∀ (ws : List Regex.Span) (last : Nat) (pending : String) {s s' : State ρ},
      Alike twin name gaits s s' → Alike twin name gaits (readWords l table text ws last pending s)
        (readWords l' table text ws last pending s')
  | [], _, _, _, _, h => h.emitText _
  | w :: ws, last, pending, s, s', h => by
    have ih := alike_readWords table text ws
    rw [readWords, readWords, hl.caseInsensitive]
    dsimp only
    cases table.find? l.caseInsensitive (between text w.start w.stop) with
    | none => exact ih _ _ h
    | some entry =>
      have hread := (h.emitText (pending ++ between text last w.start)).weigh entry.relevance
      dsimp only
      split
      · exact ih _ _ hread
      · split
        · exact ih _ _ hread
        · rw [hl.displayClass]
          exact ih _ _ (hread.emit _)

include hl in
theorem agree_readKeywords (m : CompiledMode ρ) (content : String)
    {s s' : State ρ} (h : Alike twin name gaits s s') :
    Agree excused excused' (Alike twin name gaits) (readKeywords l m content s)
      (readKeywords l' m content s') := by
  unfold readKeywords
  cases m.keywords with
  | none => exact .ok (h.emitText content)
  | some table =>
    dsimp only
    cases Engine.occurrences m.keywordPattern.regex content.toList with
    | ok ws => exact .ok (alike_readWords hl table _ ws 0 "" h)
    | error e => exact .error

theorem alike_embed (m : CompiledMode ρ) {o o' : Outcome ρ} (ho : o.Twin twin o') {s s' : State ρ}
    (h : Alike twin name gaits s s') : Alike twin name gaits (embed m o s) (embed m o' s') := by
  unfold embed
  rw [ho.relevance, ho.language, ho.events]
  split
  · exact (h.weigh _).emit _
  · exact h.emit _

theorem agree_readEmbedded {n n' : Nested ρ} (hn : n.Agrees excused excused' twin n')
    (m : CompiledMode ρ) (d : Delegate) (content : String) {s s' : State ρ}
    (h : Alike twin name gaits s s') :
    Agree excused excused' (Alike twin name gaits) (readEmbedded n m d content s)
      (readEmbedded n' m d content s') := by
  unfold readEmbedded
  split
  · exact .ok h
  · cases d with
    | named language =>
      dsimp only
      rw [hn.resolve]
      cases n.resolve language with
      | none => exact .ok (h.emitText content)
      | some key =>
        have hnamed := hn.named key content (h.embeddedStacks key)
        dsimp only
        generalize n.named key content (s.embeddedStacks.find? key) = result at hnamed
        generalize n'.named key content (s'.embeddedStacks.find? key) = result' at hnamed
        cases hnamed with
        | error => exact .error
        | left hp => exact .left hp
        | right hp => exact .right hp
        | @ok o o' ho =>
          have htop := ho.top
          refine .ok (alike_embed m ho ?_)
          generalize o.top = top at htop
          generalize o'.top = top' at htop
          cases htop with
          | none => exact h
          | some htop =>
            -- the stack that is kept for a language is the one it has been left with
            refine { h with embeddedStacks := fun k => ?_ }
            rw [Dictionary.find?_insert, Dictionary.find?_insert]
            split
            · exact .some htop
            · exact h.embeddedStacks k
    | detect names =>
      have hdetect := hn.detect content (if names.isEmpty then none else some names)
      dsimp only
      generalize n.detect content (if names.isEmpty then none else some names) = result at hdetect
      generalize n'.detect content (if names.isEmpty then none else some names) = result' at hdetect
      cases hdetect with
      | ok ho => exact .ok (alike_embed m ho h)
      | error => exact .error
      | left hp => exact .left hp
      | right hp => exact .right hp

omit he in
/-- The top modes are the same but for what they are called by. -/
theorem exists_top (env env' : Setting ρ) {s s' : State ρ}
    (h : Stacked (twin env.name) s.frames s'.frames) :
    ∃ a b, Language.OnTop (twin env.name) a b ∧ topMode env s = env.language.mode a ∧
      topMode env' s' = env'.language.mode b := by
  obtain ⟨f, f', rest, rest', hf, hf', htwin⟩ := h.exists_cons
  exact ⟨f.mode, f'.mode, htwin.mode, by rw [topMode, hf], by rw [topMode, hf']⟩

include he

theorem bare_topMode {s s' : State ρ} (h : Stacked (twin env.name) s.frames s'.frames) :
    (topMode env' s').bare = (topMode env s).bare := by
  obtain ⟨a, b, hab, htop, htop'⟩ := exists_top env env' h
  rw [htop, htop']
  exact he.language.bare_onTop hab

/-- Content is reported alike. -/
theorem agree_readContent {s s' : State ρ} (h : Alike twin env.name gaits s s') :
    Agree excused excused' (Alike twin env.name gaits) (readContent env s)
      (readContent env' s') := by
  have hbare := bare_topMode he h.frames
  have hsub := CompiledMode.congr_of_bare hbare CompiledMode.subLanguage fun _ => rfl
  have hempty := h.setBuffer ""
  unfold readContent
  dsimp only
  rw [hsub, h.buffer]
  cases (topMode env s).subLanguage with
  | some d =>
    have hagree := agree_readEmbedded he.nested (topMode env s) d s.buffer hempty
    have hm := CompiledMode.congr_of_bare hbare
      (readEmbedded env'.nested · d s.buffer { s' with buffer := "" }) fun _ => rfl
    dsimp only at hm ⊢
    rwa [hm]
  | none =>
    have hm := CompiledMode.congr_of_bare hbare
      (readKeywords env'.language · s.buffer { s' with buffer := "" }) fun _ => rfl
    dsimp only at hm ⊢
    rw [hm]
    exact agree_readKeywords he.language (topMode env s) s.buffer hempty

end Content

/-! ### Begins -/

section Matches

/-- States that are alike, and from where one goes on equally far. -/
def Abreast {α : Type} (twin : String → Nat → Nat → Prop) (name : String)
    (gaits : Gait → Gait → Prop) (x y : State ρ × α) : Prop :=
  Alike twin name gaits x.1 y.1 ∧ y.2 = x.2

variable {excused excused' : Problem → Prop} {twin : String → Nat → Nat → Prop}
  {gaits : Gait → Gait → Prop} {name : String} {s s' : State ρ}

section Languages

variable {l l' : Language ρ} (hl : l.Paired l' (twin name))

include hl

theorem alike_start {f f' : Frame ρ} (hf : f.Twin (twin name) f') (h : Alike twin name gaits s s') :
    Alike twin name gaits (start l s f) (start l' s' f') := by
  have hclass := CompiledMode.congr_of_bare (hl.bare hf.mode) CompiledMode.className fun _ => rfl
  unfold start
  rw [hclass]
  cases (l.mode f.mode).className with
  | none => exact { h with frames := .on hf h.frames }
  | some category =>
    dsimp only
    rw [hl.displayClass]
    exact { h.emit _ with frames := .on hf h.frames }

omit hl in
theorem alike_stop (m : CompiledMode ρ) (h : Alike twin name gaits s s') :
    Alike twin name gaits (stop m s) (stop m s') := by
  unfold stop
  dsimp only
  split <;> split
  · exact h.emit _
  · exact h
  · exact (h.emit _).weigh _
  · exact h.weigh _

/-- Taking modes off, but not the root, leaves states alike. -/
theorem alike_close : ∀ (n : Nat) {ended ended' : Option (Frame ρ)} {s s' : State ρ},
    Option.Rel (Frame.Twin (twin name)) ended ended' → Alike twin name gaits s s' →
      n < s.frames.length → Alike twin name gaits (close l n ended s).1 (close l' n ended' s').1 ∧
        Option.Rel (Frame.Twin (twin name)) (close l n ended s).2 (close l' n ended' s').2
  | 0, _, _, _, _, hended, h, _ => ⟨h, hended⟩
  | n + 1, ended, ended', s, s', hended, h, hn => by
    have hframes := h.frames
    unfold close
    generalize s.frames = frames at hframes hn
    generalize s'.frames = frames' at hframes
    cases hframes with
    | root => exact absurd hn (Nat.not_lt_of_le (Nat.le_add_left 1 n))
    | @on f f' fs fs' hf hfs =>
      have hrest : Alike twin name gaits { s with frames := fs } { s' with frames := fs' } :=
        { h with frames := hfs }
      have hstop := CompiledMode.congr_of_bare (hl.bare hf.mode)
        (stop · { s' with frames := fs' }) fun _ => rfl
      dsimp only at hstop ⊢
      rw [hstop]
      refine alike_close n (.some hf) (alike_stop (l.mode f.mode) hrest) ?_
      rw [frames_stop]
      exact Nat.lt_of_succ_lt_succ hn

theorem alike_startNext {ended ended' : Option (Frame ρ)}
    (hended : Option.Rel (Frame.Twin (twin name)) ended ended') (h : Alike twin name gaits s s') :
    Alike twin name gaits (startNext l ended s) (startNext l' ended' s') := by
  cases hended with
  | none => exact h
  | @some f f' hf =>
    have hlike := CompiledMode.congr_of_bare (hl.bare hf.mode) CompiledMode.endSameAsBegin
      fun _ => rfl
    have hstarts := hl.starts hf.mode
    unfold startNext
    dsimp only
    rw [hlike, hf.endOverride]
    generalize (l.mode f.mode).starts = next at hstarts
    generalize (l'.mode f'.mode).starts = next' at hstarts
    cases hstarts with
    | none => exact h
    | some hnext => exact alike_start hl ⟨hnext, rfl, rfl⟩ h

end Languages

variable {env env' : Setting ρ} (he : env.Agrees excused excused' twin env')

include he

theorem abreast_keepChar (h : Alike twin env.name gaits s s') (index : Nat) :
    Abreast twin env.name gaits (keepChar env s index) (keepChar env' s' index) := by
  unfold keepChar
  rw [he.code]
  cases Text.nextPlace? env.code index with
  | none => exact ⟨h, rfl⟩
  | some next => exact ⟨h.keep _, rfl⟩

theorem agree_contentAtBegin (m : CompiledMode ρ) (lexeme : String)
    (h : Alike twin env.name gaits s s') :
    Agree excused excused' (Alike twin env.name gaits) (contentAtBegin env m lexeme s)
      (contentAtBegin env' m lexeme s') := by
  have hkept : Alike twin env.name gaits (if m.excludeBegin then s.keep lexeme else s)
      (if m.excludeBegin then s'.keep lexeme else s') := by
    split
    · exact h.keep lexeme
    · exact h
  have hread := agree_readContent he hkept
  unfold contentAtBegin
  split
  · exact .ok (h.keep lexeme)
  · generalize readContent env _ = result at hread
    generalize readContent env' _ = result' at hread
    cases hread with
    | error => exact .error
    | left hp => exact .left hp
    | right hp => exact .right hp
    | ok ht =>
      refine .ok ?_
      split
      · exact ht
      · exact ht.setBuffer lexeme

theorem agree_contentAtEnd (m : CompiledMode ρ) (lexeme : String)
    (h : Alike twin env.name gaits s s') :
    Agree excused excused' (Alike twin env.name gaits) (contentAtEnd env m lexeme s)
      (contentAtEnd env' m lexeme s') := by
  have hkept : Alike twin env.name gaits
      (if m.returnEnd || m.excludeEnd then s else s.keep lexeme)
      (if m.returnEnd || m.excludeEnd then s' else s'.keep lexeme) := by
    split
    · exact h
    · exact h.keep lexeme
  have hread := agree_readContent he hkept
  unfold contentAtEnd
  split
  · exact .ok (h.keep lexeme)
  · generalize readContent env _ = result at hread
    generalize readContent env' _ = result' at hread
    cases hread with
    | error => exact .error
    | left hp => exact .left hp
    | right hp => exact .right hp
    | ok ht =>
      refine .ok ?_
      split
      · exact ht.setBuffer lexeme
      · exact ht

variable {found found' : Found} (hfound : found.Twin (twin env.name) found')
  (hguards : ∀ {a b}, Language.OnTop (twin env.name) a b → ∀ guard,
    (env.language.mode a).HasGuard guard → ∀ memory, guard found' memory = guard found memory)

include hfound hguards

theorem admits_eq {id id' : Nat} (hid : twin env.name id id') :
    admits env' (env'.language.mode id') found' = admits env (env.language.mode id) found := by
  have hm := CompiledMode.congr_of_bare (he.language.bare hid) (admits env' · found') fun _ => rfl
  rw [hm]
  unfold admits
  rw [he.code, hfound.index]
  split
  · rfl
  · cases hguard : (env.language.mode id).onBegin with
    | none => rfl
    | some guard => exact hguards (Or.inl hid) guard (Or.inl hguard) _

/-- A begin that counts is followed alike. -/
theorem agree_followBegin {id id' : Nat} (hid : twin env.name id id')
    (hadmits : (admits env (env.language.mode id) found).1 = true)
    (h : Alike twin env.name gaits s s') :
    Agree excused excused' (Abreast twin env.name gaits) (followBegin env s found id)
      (followBegin env' s' found' id') := by
  have hbare := he.language.bare hid
  have hreturn := CompiledMode.congr_of_bare hbare CompiledMode.returnBegin fun _ => rfl
  have hlike : endLike env' (env'.language.mode id') found.lexeme =
      endLike env (env.language.mode id) found.lexeme := by
    have hm := CompiledMode.congr_of_bare hbare (endLike env' · found.lexeme) fun _ => rfl
    rw [hm]
    unfold endLike
    rw [he.language.caseInsensitive]
  have hcontent := agree_contentAtBegin he (env.language.mode id) found.lexeme h
  have hm := CompiledMode.congr_of_bare hbare (contentAtBegin env' · found.lexeme s') fun _ => rfl
  rw [← hm] at hcontent
  unfold followBegin
  dsimp only
  rw [admits_eq he hfound hguards hid, hfound.lexeme, hlike, hreturn, if_pos hadmits,
    if_pos hadmits]
  cases endLike env (env.language.mode id) found.lexeme with
  | error p => exact .error
  | ok endOverride =>
    dsimp only
    generalize contentAtBegin env (env.language.mode id) found.lexeme s = result at hcontent
    generalize contentAtBegin env' (env'.language.mode id') found.lexeme s' = result' at hcontent
    cases hcontent with
    | error => exact .error
    | left hp => exact .left hp
    | right hp => exact .right hp
    | ok ht => exact .ok ⟨alike_start he.language ⟨hid, rfl, rfl⟩ ht, rfl⟩

/-! ### Ends -/

/-- Whether a mode ends at a match does not depend on what modes are called by. -/
theorem agree_endsAt {R : Nat → Nat → Prop}
    (hR : ∀ {a b}, R a b → Language.OnTop (twin env.name) a b)
    {f f' : Frame ρ} (hf : f.Twin R f') :
    Agree excused excused' (fun x y => y.1 = x.1 ∧ x.2.Twin R y.2) (endsAt env found f)
      (endsAt env' found' f') := by
  have hbare := he.language.bare_onTop (hR hf.mode)
  have hregex := CompiledMode.congr_of_bare hbare CompiledMode.endRegex fun _ => rfl
  have honEnd := CompiledMode.congr_of_bare hbare CompiledMode.onEnd fun _ => rfl
  unfold endsAt
  dsimp only
  rw [hf.endOverride, hf.memory, he.code, hfound.index, hregex, honEnd]
  cases f.endOverride <|> (env.language.mode f.mode).endRegex with
  | none => exact .ok ⟨rfl, hf⟩
  | some re =>
    dsimp only
    cases Engine.matchesAt re.regex env.code found.index with
    | error e => exact .error
    | ok matched =>
      cases matched with
      | false => exact .ok ⟨rfl, hf⟩
      | true =>
        cases hguard : (env.language.mode f.mode).onEnd with
        | none => exact .ok ⟨rfl, hf⟩
        | some guard =>
          have hsame := hguards (hR hf.mode) guard (Or.inr hguard) f.memory
          dsimp only
          rw [hsame]
          exact .ok ⟨rfl, hf.mode, rfl, rfl⟩

omit hfound hguards in
theorem outermostEnding_eq {frames frames' : List (Frame ρ)}
    (h : Stacked (twin env.name) frames frames') :
    outermostEnding env'.language frames' = outermostEnding env.language frames := by
  induction h with
  | root => simp [outermostEnding]
  | @on f f' fs fs' hf hfs ih =>
    have hends := CompiledMode.congr_of_bare (he.language.bare hf.mode) CompiledMode.endsParent
      fun _ => rfl
    rw [outermostEnding, outermostEnding, hfs.length_eq, hends, ih]

/-- The same frame ends, if any does. -/
theorem agree_endingFrame {frames frames' : List (Frame ρ)}
    (h : Stacked (twin env.name) frames frames') :
    Agree excused excused' (fun x y => y.1 = x.1 ∧ Stacked (twin env.name) x.2 y.2)
      (endingFrame env found frames) (endingFrame env' found' frames') := by
  induction h with
  | @root f f' hf =>
    have hends := agree_endsAt he hfound hguards Or.inr hf
    unfold endingFrame
    generalize endsAt env found f = result at hends
    generalize endsAt env' found' f' = result' at hends
    cases hends with
    | error => exact .error
    | left hp => exact .left hp
    | right hp => exact .right hp
    | @ok x y hxy =>
      obtain ⟨ends, g⟩ := x
      obtain ⟨ends', g'⟩ := y
      obtain ⟨rfl, hg⟩ := hxy
      cases ends' with
      | true => exact .ok ⟨by rw [outermostEnding_eq he (.root hg)], .root hg⟩
      | false => simpa using .ok ⟨rfl, .root hg⟩
  | @on f f' fs fs' hf hfs ih =>
    have hends := agree_endsAt he hfound hguards Or.inl hf
    unfold endingFrame
    generalize endsAt env found f = result at hends
    generalize endsAt env' found' f' = result' at hends
    cases hends with
    | error => exact .error
    | left hp => exact .left hp
    | right hp => exact .right hp
    | @ok x y hxy =>
      obtain ⟨ends, g⟩ := x
      obtain ⟨ends', g'⟩ := y
      obtain ⟨rfl, hg⟩ := hxy
      cases ends' with
      | true => exact .ok ⟨by rw [outermostEnding_eq he (.on hg hfs)], .on hg hfs⟩
      | false =>
        -- the frame does not end, so the one below is asked if the mode ends with its parent
        have hwith := CompiledMode.congr_of_bare (he.language.bare hg.mode)
          CompiledMode.endsWithParent fun _ => rfl
        have hempty : fs'.isEmpty = fs.isEmpty := by cases hfs <;> rfl
        dsimp only
        rw [hwith, hempty]
        split
        · generalize endingFrame env found fs = inner at ih
          generalize endingFrame env' found' fs' = inner' at ih
          cases ih with
          | error => exact .error
          | left hp => exact .left hp
          | right hp => exact .right hp
          | ok hxy => exact .ok ⟨hxy.1, .on hg hxy.2⟩
        · exact .ok ⟨rfl, .on hg hfs⟩

/-- An end is followed alike. -/
theorem agree_followEnd (h : Alike twin env.name gaits s s') :
    Agree excused excused' (Abreast twin env.name gaits) (followEnd env s found)
      (followEnd env' s' found') := by
  have hending := agree_endingFrame he hfound hguards h.frames
  unfold followEnd
  generalize endingFrame env found s.frames = result at hending
  generalize endingFrame env' found' s'.frames = result' at hending
  cases hending with
  | error => exact .error
  | left hp => exact .left hp
  | right hp => exact .right hp
  | @ok x y hxy =>
    obtain ⟨place, frames⟩ := x
    obtain ⟨place', frames'⟩ := y
    obtain ⟨rfl, hframes⟩ := hxy
    have hrest : Alike twin env.name gaits { s with frames } { s' with frames := frames' } :=
      { h with frames := hframes }
    cases place' with
    | none => exact .ok ⟨hrest, rfl⟩
    | some place =>
      have hbare := bare_topMode he hrest.frames
      have hreturn := CompiledMode.congr_of_bare hbare CompiledMode.returnEnd fun _ => rfl
      have hcontent := agree_contentAtEnd he (topMode env { s with frames }) found.lexeme hrest
      have hm := CompiledMode.congr_of_bare hbare
        (contentAtEnd env' · found.lexeme { s' with frames := frames' }) fun _ => rfl
      rw [← hm] at hcontent
      dsimp only
      rw [hfound.lexeme, hreturn]
      generalize contentAtEnd env _ found.lexeme _ = content at hcontent
      generalize contentAtEnd env' _ found.lexeme _ = content' at hcontent
      cases hcontent with
      | error => exact .error
      | left hp => exact .left hp
      | right hp => exact .right hp
      | @ok t t' ht =>
        -- the root is never taken off, so what is taken off is on both stacks
        have hpos := ht.frames.length_pos
        obtain ⟨hclose, hended⟩ := alike_close he.language (t.frames.length - max place 1) .none ht
          (by omega)
        dsimp only
        rw [ht.frames.length_eq]
        exact .ok ⟨alike_startNext he.language hended hclose, rfl⟩

/-! ### Matches -/

omit hguards in
/-- A match is taken as text alike, if the second run has no more patience left than the first. -/
theorem agree_keepMatch (hpatience : s'.iterations = s.iterations ∨
      s'.iterations ≤ s.iterations ∧ ∀ name n, excused (.infiniteLoop name n))
    (h : Alike twin env.name gaits s s') :
    Agree excused excused' (Abreast twin env.name gaits) (keepMatch env s found)
      (keepMatch env' s' found') := by
  have hkeep := h.keep found.lexeme
  unfold keepMatch
  rw [hfound.lexeme, hfound.index, he.name]
  rcases hpatience with heq | ⟨hle, hexcused⟩
  · rw [heq]
    split
    · exact .error
    · exact .ok ⟨hkeep, rfl⟩
  · split
    · exact .left (hexcused _ _)
    · next hpatient =>
      rw [if_neg (by simp only [Bool.and_eq_true, decide_eq_true_eq] at hpatient ⊢; omega)]
      exact .ok ⟨hkeep, rfl⟩

omit hguards in
theorem illegalAt_eq (h : Stacked (twin env.name) s.frames s'.frames) :
    illegalAt env' s' found' = illegalAt env s found := by
  have hclass := CompiledMode.congr_of_bare (bare_topMode he h) CompiledMode.className fun _ => rfl
  unfold illegalAt
  dsimp only
  rw [he.name, he.code, hfound.index, hfound.lexeme, hclass]

/-- How to go on has only changed by the last match, which was the same at a place. -/
def Matched (twin : Nat → Nat → Prop) (index : Nat) (g₀ g₀' g g' : Gait) : Prop :=
  ∃ kind kind', RuleKind.Twin twin kind kind' ∧ g = { g₀ with lastMatch := some (kind, index) } ∧
    g' = { g₀' with lastMatch := some (kind', index) }

/-- **The same match is followed alike**, unless it is a begin that is refused. -/
theorem agree_follow (hpatience : s'.iterations = s.iterations ∨
      s'.iterations ≤ s.iterations ∧ ∀ name n, excused (.infiniteLoop name n))
    (hempty : Option.Rel (twin env.name) (emptyMode? s found) (emptyMode? s' found'))
    (hadmits : ∀ id, found.kind = .begins id → (admits env (env.language.mode id) found).1 = true)
    (h : Alike twin env.name gaits s s') :
    Agree excused excused'
      (Abreast twin env.name (Matched (twin env.name) found.index s.gait s'.gait))
      (follow env s found) (follow env' s' found') := by
  unfold follow
  generalize hmode : emptyMode? s found = mode at hempty
  generalize hmode' : emptyMode? s' found' = mode' at hempty
  cases hempty with
  | @some id id' hid =>
    -- an empty end right behind a begin: the last match stays that begin
    obtain ⟨-, -, hlast⟩ := emptyMode?_eq_some hmode
    obtain ⟨-, -, hlast'⟩ := emptyMode?_eq_some hmode'
    rw [hfound.index] at hlast'
    have hmatched : Alike twin env.name (Matched (twin env.name) found.index s.gait s'.gait) s s' :=
      { h with gait := ⟨_, _, .begins hid, by rw [← hlast]; rfl, by rw [← hlast']; rfl⟩ }
    have hpattern := CompiledMode.congr_of_bare (he.language.bare hid) CompiledMode.beginPattern
      fun _ => rfl
    dsimp only
    rw [he.safeMode, he.name, hpattern, hfound.index]
    split
    · exact .ok (abreast_keepChar he hmatched found.index)
    · exact .error
  | none =>
    have hmatched : Alike twin env.name (Matched (twin env.name) found.index s.gait s'.gait)
        { s with lastMatch := some (found.kind, found.index) }
        { s' with lastMatch := some (found'.kind, found.index) } :=
      { h with gait := ⟨_, _, hfound.kind, rfl, rfl⟩ }
    have hkind := hfound.kind
    dsimp only
    rw [hfound.index]
    generalize hk : found.kind = kind at hkind hmatched
    generalize hk' : found'.kind = kind' at hkind hmatched
    cases hkind with
    | begins hid => exact agree_followBegin he hfound hguards hid (hadmits _ hk) hmatched
    | illegal =>
      dsimp only
      rw [he.ignoreIllegals, hfound.lexeme, illegalAt_eq he hfound hmatched.frames]
      split
      · exact .error
      · split
        · exact .ok (abreast_keepChar he hmatched found.index)
        · exact agree_keepMatch he hfound hpatience hmatched
    | ends =>
      have hend := agree_followEnd he hfound hguards hmatched
      dsimp only
      generalize hresult : followEnd env _ found = result at hend
      generalize followEnd env' _ found' = result' at hend
      cases hend with
      | error => exact .error
      | left hp => exact .left hp
      | right hp => exact .right hp
      | @ok x y hxy =>
        obtain ⟨t, taken⟩ := x
        obtain ⟨t', taken'⟩ := y
        obtain ⟨ht, rfl⟩ := hxy
        cases taken' with
        | some taken => exact .ok ⟨ht, rfl⟩
        | none =>
          -- no mode ends there, and looking for one has not changed the patience
          refine agree_keepMatch he hfound ?_ ht
          obtain ⟨_, _, -, hgait, hgait'⟩ := ht.gait
          have hiterations := congrArg Gait.iterations hgait
          have hiterations' := congrArg Gait.iterations hgait'
          change t.iterations = s.iterations at hiterations
          change t'.iterations = s'.iterations at hiterations'
          rwa [hiterations, hiterations']

end Matches

/-! ### From the first place to the last -/

section Whole

variable {excused excused' : Problem → Prop} {twin : String → Nat → Nat → Prop}
  {gaits : Gait → Gait → Prop} {env env' : Setting ρ} (he : env.Agrees excused excused' twin env')

include he

theorem alike_initial {frames frames' : List (Frame ρ)}
    (h : Stacked (twin env.name) frames frames') :
    Alike twin env.name Eq (initial env.language frames) (initial env'.language frames') := by
  have hopened : List.Forall₂ (Frame.Twin (twin env.name)) frames.dropLast frames'.dropLast := by
    induction h with
    | root => exact .nil
    | on hf hfs ih =>
      rw [List.dropLast_cons_of_ne_nil (List.ne_nil_of_length_pos hfs.length_pos),
        List.dropLast_cons_of_ne_nil (List.ne_nil_of_length_pos (hfs.length_eq ▸ hfs.length_pos))]
      exact .cons hf ih
  unfold initial
  generalize frames.dropLast = opened at hopened
  generalize frames'.dropLast = opened' at hopened
  induction hopened with
  | nil => exact ⟨h, fun _ => .none, rfl, rfl, rfl, rfl⟩
  | cons hf _ ih =>
    have hclass := CompiledMode.congr_of_bare (he.language.bare hf.mode) CompiledMode.className
      fun _ => rfl
    rw [List.foldr_cons, List.foldr_cons, hclass]
    split
    · rw [he.language.displayClass]
      exact ih.emit _
    · exact ih

/-- What is left is reported alike. -/
theorem agree_finish {s s' : State ρ} (h : Alike twin env.name gaits s s')
    (hindex : s'.index = s.index) :
    Agree excused excused' (Alike twin env.name gaits) (finish env s) (finish env' s') := by
  unfold finish
  rw [hindex, he.code]
  exact agree_readContent he (h.keep _)

theorem twin_finished {s s' : State ρ} (h : Alike twin env.name gaits s s') :
    (finished env s).Twin twin (finished env' s') where
  language := congrArg some he.name
  relevance := h.relevance
  events := by
    unfold finished
    dsimp only
    rw [h.events]
  illegal := rfl
  problem := rfl
  top := .some ⟨he.name, h.frames⟩

end Whole

/-! ### The same language -/

section Same

variable {excused excused' : Problem → Prop} {twin : String → Nat → Nat → Prop}
  {env env' : Setting ρ} (he : env.Agrees excused excused' twin env')
  (hlanguage : env'.language = env.language) (htwin : twin env.name = Eq)

include he hlanguage htwin

omit hlanguage htwin in
theorem abreast_passBegin (found : Found) {s s' : State ρ} (h : Alike twin env.name Eq s s') :
    Abreast twin env.name Eq (passBegin env s found) (passBegin env' s' found) := by
  have hfirst : s'.firstRule = s.firstRule := (congrArg Gait.firstRule h.gait).symm
  unfold passBegin
  by_cases hzero : s.firstRule = 0
  · rw [if_pos hzero, if_pos (hfirst.trans hzero)]
    exact abreast_keepChar he h found.index
  · rw [if_neg hzero, if_neg (hfirst ▸ hzero)]
    exact ⟨{ h with gait := congrArg (fun g => { g with resume := true }) h.gait }, rfl⟩

omit hlanguage in
/-- The same match is followed alike, also where it is a begin that is refused. -/
theorem agree_follow_same (found : Found) {s s' : State ρ} (h : Alike twin env.name Eq s s') :
    Agree excused excused' (Abreast twin env.name Eq) (follow env s found)
      (follow env' s' found) := by
  have hkind : ∀ kind, RuleKind.Twin (twin env.name) kind kind := by
    rintro (id | _ | _)
    · exact .begins (by rw [htwin])
    · exact .ends
    · exact .illegal
  have hfound : found.Twin (twin env.name) found := ⟨rfl, rfl, hkind _⟩
  have hlast : s'.lastMatch = s.lastMatch := (congrArg Gait.lastMatch h.gait).symm
  have hiterations : s'.iterations = s.iterations := (congrArg Gait.iterations h.gait).symm
  -- a begin that is refused leads to the next rule, which is the same in the same language
  by_cases hrefused : ∃ id, found.kind = .begins id ∧
      (admits env (env.language.mode id) found).1 = false
  · obtain ⟨id, hid, hrefused⟩ := hrefused
    have hadmits := admits_eq he hfound (fun _ _ _ _ => rfl)
      (show twin env.name id id by rw [htwin])
    have hrefused' := hadmits ▸ hrefused
    rw [follow_of_refused hid hrefused, follow_of_refused hid hrefused']
    have hmatched : Alike twin env.name Eq { s with lastMatch := some (found.kind, found.index) }
        { s' with lastMatch := some (found.kind, found.index) } :=
      { h with
        gait := congrArg (fun g => { g with lastMatch := some (found.kind, found.index) }) h.gait }
    exact .ok (abreast_passBegin he found hmatched)
  · have hempty : Option.Rel (twin env.name) (emptyMode? s found) (emptyMode? s' found) := by
      rw [htwin, emptyMode?, emptyMode?, hlast]
      exact optionRel_eq _
    refine (agree_follow he hfound (fun _ _ _ _ => rfl) (Or.inl hiterations) hempty ?_ h).imp ?_
    · intro id hid
      by_contra hnot
      exact hrefused ⟨id, hid, by simpa using hnot⟩
    · rintro x y ⟨hxy, htaken⟩
      refine ⟨{ hxy with gait := ?_ }, htaken⟩
      obtain ⟨kind, kind', hkinds, hx, hy⟩ := hxy.gait
      rw [htwin] at hkinds
      have hsame : kind' = kind := by cases hkinds <;> simp_all
      rw [hx, hy, hsame, h.gait]

/-- **In the same language a step leads to states that are alike at the same place.** -/
theorem agree_step {s s' : State ρ} (h : Alike twin env.name Eq s s')
    (hindex : s'.index = s.index) :
    Agree excused excused'
      (Option.Rel fun t t' => Alike twin env.name Eq t t' ∧ t'.index = t.index)
      (step env s) (step env' s') := by
  have hnext : Alike twin env.name Eq (next s) (next s') :=
    { h with gait := congrArg Gait.next h.gait }
  obtain ⟨a, b, hab, htop, htop'⟩ := exists_top env env' hnext.frames
  -- in the same language the top modes are called alike
  obtain rfl : a = b := by
    rcases hab with hab | ⟨rfl, rfl⟩
    · rwa [htwin] at hab
    · rfl
  have hindex' : (next s').index = (next s).index := hindex
  have hfirst : (next s').firstRule = (next s).firstRule :=
    (congrArg Gait.firstRule hnext.gait).symm
  unfold step
  dsimp only
  rw [htop, htop', hlanguage, he.code, hindex', hfirst]
  cases (env.language.mode a).matcher.find (next s).firstRule env.code (next s).index with
  | error p => exact .error
  | ok result =>
    cases result with
    | none => exact .ok .none
    | some result =>
      obtain ⟨found, first⟩ := result
      have hkept := hnext.keep (between env.code (next s).index found.index)
      have hreached : Alike twin env.name Eq
          { (next s).keep (between env.code (next s).index found.index) with firstRule := first }
          { (next s').keep (between env.code (next s).index found.index) with
            firstRule := first } :=
        { hkept with gait := congrArg (fun g => { g with firstRule := first }) hkept.gait }
      have hfollow := agree_follow_same he htwin found hreached
      dsimp only
      generalize follow env _ found = result at hfollow
      generalize follow env' _ found = result' at hfollow
      cases hfollow with
      | error => exact .error
      | left hp => exact .left hp
      | right hp => exact .right hp
      | @ok x y hxy =>
        obtain ⟨t, taken⟩ := x
        obtain ⟨t', taken'⟩ := y
        obtain ⟨ht, rfl⟩ := hxy
        exact .ok (.some ⟨{ ht with }, rfl⟩)

theorem agree_run : ∀ (steps : Nat) {s s' : State ρ}, Alike twin env.name Eq s s' →
    s'.index = s.index → Agree excused excused' (Alike twin env.name Eq) (run env steps s)
      (run env' steps s')
  | 0, _, _, _, _ => .error
  | steps + 1, s, s', h, hindex => by
    have hstep := agree_step he hlanguage htwin h hindex
    unfold run
    generalize step env s = result at hstep
    generalize step env' s' = result' at hstep
    cases hstep with
    | error => exact .error
    | left hp => exact .left hp
    | right hp => exact .right hp
    | ok hnext =>
      cases hnext with
      | none => exact agree_finish he h hindex
      | some ht => exact agree_run steps ht.1 ht.2

/-- **In the same language going through code leads to the same but for what embedded modes are
called by.** -/
theorem agree_outcome {frames frames' : List (Frame ρ)}
    (h : Stacked (twin env.name) frames frames') :
    Agree excused excused' (Outcome.Twin twin) (outcome env frames) (outcome env' frames') := by
  have hbound : stepBound env' frames'.length = stepBound env frames.length := by
    unfold stepBound
    rw [hlanguage, he.code, h.length_eq]
  have hrun := agree_run he hlanguage htwin (stepBound env frames.length) (alike_initial he h)
    (by rw [index_initial, index_initial])
  unfold outcome
  rw [hbound]
  exact hrun.map fun _ _ ht => twin_finished he ht

end Same

end Scan

end CodeMarkup
