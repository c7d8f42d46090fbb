import CodeMarkup.Highlight.Detection
import CodeMarkup.Proofs.Highlight.Ranked

/-! # How outcomes come about

Code in a named language is gone through in a setting in which embedded code may be less deep
(`highlightWithin_succ`). When the language is guessed, the best and the next best outcome are
outcomes of candidates, or the code has been left as it is: they have what these have
(`forall_detectWith`), and a problem is one of a candidate (`error_detectWith`). -/

namespace CodeMarkup

variable {ρ : Type} [Engine ρ]

theorem of_map_ok {ε α β : Type} {x : Except ε α} {f : α → β} {b : β} (h : x.map f = .ok b) :
    ∃ a, x = .ok a ∧ b = f a := by
  cases x with
  | error e => cases h
  | ok a => exact ⟨a, rfl, (Except.ok.inj h).symm⟩

theorem of_map_error {ε α β : Type} {x : Except ε α} {f : α → β} {e : ε}
    (h : x.map f = .error e) : x = .error e := by
  cases x with
  | error e => exact congrArg Except.error (Except.error.inj h)
  | ok a => cases h

/-! ### Named languages -/

section Named

variable (r : Registry ρ) (o : Options)

/-- Goes through embedded code that is embedded at most so deep. -/
def nestedWithin (depth : Nat) : Nested ρ where
  resolve := r.canonicalName
  named key code stack := highlightWithin r o depth key code true stack
  detect code subset :=
    match detectWith r o code subset fun name =>
      highlightWithin r o depth name code false none with
    | .ok d => .ok d.best
    | .error p => .error p

theorem detect_nestedWithin (depth : Nat) (code : String) (subset : Option (List String)) :
    (nestedWithin r o depth).detect code subset =
      (detectWith r o code subset fun name =>
        highlightWithin r o depth name code false none).map Detection.best := by
  rw [nestedWithin]
  dsimp only
  cases detectWith r o code subset fun name => highlightWithin r o depth name code false none <;> rfl

/-- The setting in which code in a registered language is gone through. -/
def settingWithin (depth : Nat) (key : String) (language : Language ρ) (code : String)
    (ignoreIllegals : Bool) : Setting ρ where
  name := key
  language
  code := code.toList
  ignoreIllegals
  safeMode := o.safeMode
  nested := nestedWithin r o depth

/-- The modes that are open at the start: those of the stack to go on from, if it is one of the
language, or the root. -/
def startingFrames (key : String) (language : Language ρ) (continuation : Option (ModeStack ρ)) :
    List (Frame ρ) :=
  (continuation.bind (·.framesFor? key language)).getD [Frame.new 0]

theorem highlightWithin_succ (depth : Nat) (name code : String) (ignoreIllegals : Bool)
    (continuation : Option (ModeStack ρ)) :
    highlightWithin r o (depth + 1) name code ignoreIllegals continuation =
      match r.resolve name with
      | none => .error (.unknownLanguage name)
      | some (key, language) => recover o code key
          (Scan.outcome (settingWithin r o depth key language code ignoreIllegals)
            (startingFrames key language continuation)) := by
  rw [highlightWithin]
  cases r.resolve name <;> rfl

/-- Code may always be embedded to some depth. -/
theorem highlight_eq (name code : String) (ignoreIllegals : Bool)
    (continuation : Option (ModeStack ρ)) :
    highlight r o name code ignoreIllegals continuation =
      highlightWithin r o (nestingBound r code - 1 + 1) name code ignoreIllegals continuation := by
  rw [highlight, Nat.sub_add_cancel (Nat.one_le_iff_ne_zero.mpr (by simp [nestingBound]))]

theorem exists_highlight_eq (code : String) : ∃ depth, ∀ name ignoreIllegals continuation,
    highlight r o name code ignoreIllegals continuation =
      highlightWithin r o (depth + 1) name code ignoreIllegals continuation :=
  ⟨nestingBound r code - 1, fun name => highlight_eq r o name code⟩

/-- What comes out has come out of going through the code in a language, or the code was left as it
is. -/
theorem of_highlightWithin_ok {depth : Nat} {name code : String} {ignoreIllegals : Bool}
    {continuation : Option (ModeStack ρ)} {out : Outcome ρ}
    (h : highlightWithin r o depth name code ignoreIllegals continuation = .ok out) :
    ∃ depth key l, r.resolve name = some (key, l) ∧ recover o code key
      (Scan.outcome (settingWithin r o depth key l code ignoreIllegals)
        (startingFrames key l continuation)) = .ok out := by
  cases depth with
  | zero => cases h
  | succ depth =>
    rw [highlightWithin_succ] at h
    cases hl : r.resolve name with
    | none =>
      rw [hl] at h
      cases h
    | some entry =>
      rw [hl] at h
      exact ⟨depth, entry.1, entry.2, rfl, h⟩

end Named

theorem Scan.outcome_eq_ok {env : Setting ρ} {frames : List (Frame ρ)} {o : Outcome ρ}
    (h : outcome env frames = .ok o) :
    ∃ s, run env (stepBound env frames.length) (initial env.language frames) = .ok s ∧
      o = finished env s := of_map_ok h

/-! ### Code that is left as it is -/

omit [Engine ρ] in
/-- What is not lived with is what has gone wrong. -/
theorem of_recover_error {o : Options} {code name : String} {result : Except Problem (Outcome ρ)}
    {p : Problem} (h : recover o code name result = .error p) : result = .error p := by
  unfold recover at h
  split at h
  · cases h
  · split at h
    · cases h
    · exact congrArg Except.error (Except.error.inj h)

omit [Engine ρ] in
/-- What comes out has come out before, or the code was left as it is. -/
theorem of_recover_ok {o : Options} {code name : String} {result : Except Problem (Outcome ρ)}
    {out : Outcome ρ} (h : recover o code name result = .ok out) :
    result = .ok out ∨ ∃ p, out = { Outcome.plain code (some name) with problem := some p } := by
  unfold recover at h
  split at h
  · exact Or.inl h
  · next p =>
    split at h
    · exact Or.inr ⟨p, (Except.ok.inj h).symm⟩
    · cases h

/-- What has come out with open modes has come out of going through the code. -/
theorem exists_outcome_of_top {r : Registry ρ} {o : Options} {depth : Nat} {name code : String}
    {ignoreIllegals : Bool} {continuation : Option (ModeStack ρ)} {out : Outcome ρ}
    (h : highlightWithin r o depth name code ignoreIllegals continuation = .ok out)
    {top : ModeStack ρ} (htop : out.top = some top) :
    ∃ depth key l, r.resolve name = some (key, l) ∧
      Scan.outcome (settingWithin r o depth key l code ignoreIllegals)
        (startingFrames key l continuation) = .ok out := by
  obtain ⟨depth, key, l, hl, hout⟩ := of_highlightWithin_ok r o h
  rcases of_recover_ok hout with hok | ⟨p, rfl⟩
  · exact ⟨depth, key, l, hl, hok⟩
  · cases htop

/-- Something that holds of code that is left as it is, for whatever reason. -/
def HoldsPlain (code : String) (P : Outcome ρ → Prop) : Prop :=
  ∀ language illegal problem, P { Outcome.plain code language with illegal, problem }

omit [Engine ρ] in
theorem HoldsPlain.plain {code : String} {P : Outcome ρ → Prop} (h : HoldsPlain code P)
    (language : Option String) : P (Outcome.plain code language) := h language false none

omit [Engine ρ] in
theorem HoldsPlain.recover {code : String} {P : Outcome ρ → Prop} (h : HoldsPlain code P)
    {o : Options} {name : String} {r : Except Problem (Outcome ρ)} (hr : ∀ out, r = .ok out → P out)
    {out : Outcome ρ} (hout : recover o code name r = .ok out) : P out := by
  rcases of_recover_ok hout with hok | ⟨p, rfl⟩
  · exact hr out hok
  · exact h (some name) false (some p)

/-! ### Guessed languages -/

section Guessed

variable {code : String} {go : String → Except Problem (Outcome ρ)}

omit [Engine ρ] in
theorem forall_candidateOutcomes {P : Outcome ρ → Prop} (hplain : HoldsPlain code P)
    (hgo : ∀ name o, go name = .ok o → P o) : ∀ (names : List String) (os : List (Outcome ρ)),
      candidateOutcomes code go names = .ok os → ∀ o ∈ os, P o
  | [], os, h => by
    cases h
    simp
  | name :: names, os, h => by
    unfold candidateOutcomes at h
    split at h
    · cases h
    · next o ho =>
      split at h
      · cases h
      · next os' hos =>
        cases h
        refine List.forall_mem_cons.mpr ⟨?_, forall_candidateOutcomes hplain hgo names os' hos⟩
        unfold candidateOutcome at ho
        split at ho
        · next hok => exact hgo name o (hok.trans ho)
        · split at ho
          · cases ho
            exact hplain (some name) true none
          · cases ho

/-- What holds of the outcomes of all candidates and of code that is left as it is holds of the best
and the next best outcome. -/
theorem forall_detectWith {r : Registry ρ} {o : Options} {subset : Option (List String)}
    {P : Outcome ρ → Prop} (hplain : HoldsPlain code P) (hgo : ∀ name o, go name = .ok o → P o)
    {d : Detection ρ} (h : detectWith r o code subset go = .ok d) :
    P d.best ∧ ∀ p, d.runnerUp = some p → P p := by
  unfold detectWith at h
  split at h
  · cases h
  · next outcomes hos =>
    have hall : ∀ p ∈ rank r (Outcome.plain code none :: outcomes), P p := by
      intro p hp
      rcases List.mem_cons.mp ((rank_perm r _).mem_iff.mp hp) with rfl | hp
      · exact hplain.plain none
      · exact forall_candidateOutcomes hplain hgo _ outcomes hos p hp
    split at h
    · cases h
      exact ⟨hplain.plain none, fun p hp => by cases hp⟩
    · next best rest hrank =>
      cases h
      rw [hrank] at hall
      exact ⟨hall best List.mem_cons_self, fun p hp =>
        hall p (List.mem_cons_of_mem _ (List.mem_of_mem_head? hp))⟩

/-- Guessing comes out if all candidates do. -/
theorem exists_detectWith {r : Registry ρ} {o : Options} {subset : Option (List String)}
    {os : List (Outcome ρ)} (h : candidateOutcomes code go (candidates r o subset) = .ok os) :
    ∃ d, detectWith r o code subset go = .ok d := by
  unfold detectWith
  rw [h]
  dsimp only
  split <;> exact ⟨_, rfl⟩

omit [Engine ρ] in
theorem error_candidateOutcomes {p : Problem} : ∀ (names : List String),
    candidateOutcomes code go names = .error p →
      ∃ name ∈ names, go name = .error p ∧ p.isIllegal = false
  | [], h => by cases h
  | name :: names, h => by
    unfold candidateOutcomes at h
    split at h
    · next q hq =>
      cases h
      unfold candidateOutcome at hq
      split at hq
      · cases hq
      · next q hgo =>
        split at hq
        · cases hq
        · next hillegal =>
          cases hq
          exact ⟨name, List.mem_cons_self, hgo, Bool.eq_false_iff.mpr hillegal⟩
    · split at h
      · next hq =>
        cases h
        obtain ⟨other, hmem, hgo⟩ := error_candidateOutcomes names hq
        exact ⟨other, List.mem_cons_of_mem _ hmem, hgo⟩
      · cases h

/-- A problem in guessing is one of a candidate, and not that the code is not in its language. -/
theorem error_detectWith {r : Registry ρ} {o : Options} {subset : Option (List String)}
    {p : Problem} (h : detectWith r o code subset go = .error p) :
    ∃ name ∈ candidates r o subset, go name = .error p ∧ p.isIllegal = false := by
  unfold detectWith at h
  split at h
  · next hq =>
    cases h
    exact error_candidateOutcomes _ hq
  · split at h <;> cases h

end Guessed

end CodeMarkup
