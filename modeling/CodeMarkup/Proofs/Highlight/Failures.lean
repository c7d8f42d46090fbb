import CodeMarkup.Proofs.Highlight.Course
import CodeMarkup.Proofs.Highlight.Outcomes

/-! # What a step fails with

A step fails where a pattern cannot be looked for, where no progress is made or where the content of
the top mode cannot be read, up to the match or with its text (`Scan.error_step_cases`); apart from
that, only at a text that cannot occur and at a mode that ends where it begins, and only if these are
not to be lived with. Content cannot be read where words cannot be looked for or embedded code fails,
so all that a step fails with is known (`Scan.error_step`). -/

namespace CodeMarkup

variable {ρ : Type} [Engine ρ]

namespace Scan

/-- Embedded code fails where going through it in its language or in one that is guessed does. -/
theorem error_readEmbedded {n : Nested ρ} {m : CompiledMode ρ} {d : Delegate} {content : String}
    {s : State ρ} {p : Problem} (h : readEmbedded n m d content s = .error p) :
    (∃ name key stack, n.resolve name = some key ∧ n.named key content stack = .error p) ∨
      ∃ names, n.detect content names = .error p := by
  unfold readEmbedded at h
  split at h
  · cases h
  · split at h
    · next name =>
      split at h
      · cases h
      · next key hkey =>
        split at h
        · next hnamed =>
          cases h
          exact Or.inl ⟨name, key, _, hkey, hnamed⟩
        · cases h
    · split at h
      · next hdetect =>
        cases h
        exact Or.inr ⟨_, hdetect⟩
      · cases h

/-- Problems among which are those of patterns and of progress. -/
structure FailsAlone (env : Setting ρ) (Q : Problem → Prop) : Prop where
  search : ∀ pattern cause, Q (.search pattern cause)
  loop : ∀ iterations, Q (.infiniteLoop env.name iterations)

/-- Problems among which are those of patterns, of progress and of embedded code. -/
structure FailsIn (env : Setting ρ) (Q : Problem → Prop) : Prop extends FailsAlone env Q where
  embedded : ∀ {s t : State ρ} {d : Delegate} {content : String} {p : Problem},
    (topMode env s).subLanguage = some d →
      readEmbedded env.nested (topMode env s) d content t = .error p → Q p

variable {env : Setting ρ} {Q : Problem → Prop} {s : State ρ} {p : Problem}

section Alone

variable (hQ : FailsAlone env Q)

include hQ

/-! ### Looking for rules and ends -/

theorem error_searchFrom {m : Matcher ρ} {first offset : Nat} {text : List Char}
    (h : m.searchFrom first text offset = .error p) : Q p := by
  unfold Matcher.searchFrom at h
  cases hc : m.choice first with
  | error q =>
    rw [hc] at h
    cases h
    unfold Matcher.choice at hc
    split at hc
    · cases hc
      exact hQ.search ..
    · split at hc
      · cases hc
      · cases hc
        exact hQ.search ..
  | ok ch =>
    rw [hc] at h
    change ch.search text offset = .error p at h
    unfold Choice.search at h
    split at h
    · cases h
    · split at h
      · cases h
      · cases h
        exact hQ.search ..

theorem error_find {m : Matcher ρ} {first offset : Nat} {text : List Char}
    (h : m.find first text offset = .error p) : Q p := by
  unfold Matcher.find at h
  cases hs : m.searchFrom first text offset with
  | error q =>
    rw [hs] at h
    cases h
    exact error_searchFrom hQ hs
  | ok here =>
    rw [hs] at h
    simp only [bind, Except.bind, pure, Except.pure] at h
    split at h
    · cases h
    · split at h
      · next place _ =>
        cases hs' : m.searchFrom 0 text place with
        | error q =>
          rw [hs'] at h
          cases h
          exact error_searchFrom hQ hs'
        | ok there =>
          rw [hs'] at h
          cases h
      · cases h

theorem error_endLike {m : CompiledMode ρ} {lexeme : String}
    (h : endLike env m lexeme = .error p) : Q p := by
  unfold endLike at h
  split at h
  · dsimp only at h
    split at h
    · cases h
    · cases h
      exact hQ.search ..
  · cases h

theorem error_endsAt {found : Found} {f : Frame ρ} (h : endsAt env found f = .error p) :
    Q p := by
  unfold endsAt at h
  dsimp only at h
  split at h
  · cases h
  · split at h
    · cases h
      exact hQ.search ..
    · cases h
    · split at h <;> cases h

theorem error_endingFrame {found : Found} : ∀ {frames : List (Frame ρ)},
    endingFrame env found frames = .error p → Q p
  | [], h => by cases h
  | f :: fs, h => by
    unfold endingFrame at h
    split at h
    · next hends =>
      cases h
      exact error_endsAt hQ hends
    · cases h
    · split at h
      · split at h
        · next hrest =>
          cases h
          exact error_endingFrame hrest
        · cases h
      · cases h

theorem error_keepMatch {found : Found} (h : keepMatch env s found = .error p) : Q p := by
  unfold keepMatch at h
  split at h
  · cases h
    exact hQ.loop ..
  · cases h

/-! ### Following a match -/

omit hQ in
theorem error_contentAtBegin {m : CompiledMode ρ} {lexeme : String}
    (h : contentAtBegin env m lexeme s = .error p) :
    readContent env (if m.excludeBegin then s.keep lexeme else s) = .error p := by
  unfold contentAtBegin at h
  split at h
  · cases h
  · split at h
    · next hread =>
      cases h
      exact hread
    · cases h

omit hQ in
theorem error_contentAtEnd {m : CompiledMode ρ} {lexeme : String}
    (h : contentAtEnd env m lexeme s = .error p) :
    readContent env (if m.returnEnd || m.excludeEnd then s else s.keep lexeme) = .error p := by
  unfold contentAtEnd at h
  split at h
  · cases h
  · split at h
    · next hread =>
      cases h
      exact hread
    · cases h

/-- A state in which content is read at a match: the same modes are open, nothing more has been
reported, and at most the text of the match has been kept. -/
structure ReadsAt (lexeme : String) (s t : State ρ) : Prop where
  modes : t.course.modes = s.course.modes
  events : t.events = s.events
  buffer : t.buffer = s.buffer ∨ t.buffer = s.buffer ++ lexeme

theorem error_followBegin {found : Found} {id : Nat}
    (h : followBegin env s found id = .error p) :
    Q p ∨ ∃ t, ReadsAt found.lexeme s t ∧ readContent env t = .error p := by
  unfold followBegin at h
  dsimp only at h
  split at h
  · split at h
    · next hend =>
      cases h
      exact Or.inl (error_endLike hQ hend)
    · split at h
      · next hcontent =>
        cases h
        refine Or.inr ⟨_, ?_, error_contentAtBegin hcontent⟩
        split
        · exact ⟨rfl, rfl, Or.inr rfl⟩
        · exact ⟨rfl, rfl, Or.inl rfl⟩
      · cases h
  · cases h

theorem error_followEnd {found : Found} (h : followEnd env s found = .error p) :
    Q p ∨ ∃ t, ReadsAt found.lexeme s t ∧ readContent env t = .error p := by
  unfold followEnd at h
  split at h
  · next hending =>
    cases h
    exact Or.inl (error_endingFrame hQ hending)
  · cases h
  · next hending =>
    dsimp only at h
    split at h
    · next hcontent =>
      cases h
      refine Or.inr ⟨_, ?_, error_contentAtEnd hcontent⟩
      split
      · exact ⟨(modes_endingFrame hending).1, rfl, Or.inl rfl⟩
      · exact ⟨(modes_endingFrame hending).1, rfl, Or.inr rfl⟩
    · cases h

/-- What following a match may fail with. -/
theorem error_follow {found : Found} (h : follow env s found = .error p) :
    (Q p ∨ (p.isIllegal ∧ env.ignoreIllegals = false) ∨
      ∃ rule, p = .zeroWidthMatch env.name rule ∧ env.safeMode = false) ∨
    ∃ t, ReadsAt found.lexeme s t ∧ readContent env t = .error p := by
  unfold follow at h
  split at h
  · split at h
    · cases h
    · next hsafe =>
      cases h
      exact Or.inl (Or.inr (Or.inr ⟨_, rfl, by simpa using hsafe⟩))
  · dsimp only at h
    split at h
    · rcases error_followBegin hQ h with h | ⟨t, ht, hread⟩
      · exact Or.inl (Or.inl h)
      · exact Or.inr ⟨t, ⟨ht.modes, ht.events, ht.buffer⟩, hread⟩
    · split at h
      · next hstrict =>
        cases h
        exact Or.inl (Or.inr (Or.inl ⟨rfl, by simpa using hstrict⟩))
      · split at h
        · cases h
        · exact Or.inl (Or.inl (error_keepMatch hQ h))
    · split at h
      · next hend =>
        cases h
        rcases error_followEnd hQ hend with h | ⟨t, ht, hread⟩
        · exact Or.inl (Or.inl h)
        · exact Or.inr ⟨t, ⟨ht.modes, ht.events, ht.buffer⟩, hread⟩
      · cases h
      · exact Or.inl (Or.inl (error_keepMatch hQ h))

/-- **A step fails by itself or where content is read at the match that it follows.** -/
theorem error_step_cases (h : step env s = .error p) :
    (Q p ∨ (p.isIllegal ∧ env.ignoreIllegals = false) ∨
      ∃ rule, p = .zeroWidthMatch env.name rule ∧ env.safeMode = false) ∨
    ∃ found first t, (topMode env (next s)).matcher.find (next s).firstRule env.code s.index =
        .ok (some (found, first)) ∧
      ReadsAt found.lexeme (s.keep (between env.code s.index found.index)) t ∧
        readContent env t = .error p := by
  unfold step at h
  dsimp only at h
  split at h
  · next hfind =>
    cases h
    exact Or.inl (Or.inl (error_find hQ hfind))
  · cases h
  · next hfind =>
    split at h
    · next hfollow =>
      cases h
      rcases error_follow hQ hfollow with h | ⟨t, ht, hread⟩
      · exact Or.inl h
      · exact Or.inr ⟨_, _, t, hfind, ⟨ht.modes, ht.events, ht.buffer⟩, hread⟩
    · cases h

end Alone

section Embedded

variable (hQ : FailsIn env Q)

include hQ

theorem error_readContent (h : readContent env s = .error p) : Q p := by
  unfold readContent at h
  dsimp only at h
  split at h
  · next d hd => exact hQ.embedded hd h
  · unfold readKeywords at h
    split at h
    · cases h
    · split at h
      · cases h
      · cases h
        exact hQ.search ..

/-- **What a step may fail with.** -/
theorem error_step (h : step env s = .error p) :
    Q p ∨ (p.isIllegal ∧ env.ignoreIllegals = false) ∨
      ∃ rule, p = .zeroWidthMatch env.name rule ∧ env.safeMode = false := by
  rcases error_step_cases hQ.toFailsAlone h with h | ⟨found, first, t, -, -, hread⟩
  · exact h
  · exact Or.inl (error_readContent hQ hread)

end Embedded

/-- Going through code fails where a step fails, where what is left fails or where it does not come
to an end. -/
theorem error_run {P : Problem → Prop} (hstep : ∀ s p, step env s = .error p → P p)
    (hfinish : ∀ s p, finish env s = .error p → P p) (hunfinished : P .unfinished) :
    ∀ {steps : Nat} {s : State ρ} {p : Problem}, run env steps s = .error p → P p
  | 0, _, _, h => by
    cases h
    exact hunfinished
  | steps + 1, s, p, h => by
    unfold run at h
    split at h
    · next hs =>
      cases h
      exact hstep s p hs
    · exact hfinish s p h
    · exact error_run hstep hfinish hunfinished h

end Scan

end CodeMarkup
