import CodeMarkup.Proofs.Highlight.Contained
import CodeMarkup.Proofs.Highlight.InRange
import CodeMarkup.Proofs.Highlight.Kindred
import CodeMarkup.Proofs.Highlight.Lenient

/-! # Safe mode without problems

Safe mode only matters where something goes wrong. A step in it does the same, unless a mode ends
where it begins, which fails without it (`Scan.agree_step_safe`); and what has come out of going
through code is not touched by it. Illegal code fails either way. So what comes out without safe
mode, embedded code included, comes out in safe mode as well (`highlight_detect_debug`). -/

namespace CodeMarkup

variable {ρ : Type} [Engine ρ]

/-- Whether a problem is another one than that the code is not in the language: in safe mode it may
be lived with. -/
abbrev Problem.MayPass (p : Problem) : Prop := p.isIllegal = false

/-- The second result is the first one, where that has come out or is that the code is not in the
language. -/
abbrev Upholds {α β : Type} (R : α → β → Prop) : Except Problem α → Except Problem β → Prop :=
  Agree Problem.MayPass (fun _ => False) R

section Upholds

variable {α β : Type} {R : α → β → Prop} {x : Except Problem α} {y : Except Problem β}
  (h : Upholds R x y)

include h

theorem Upholds.of_ok {a : α} (hx : x = .ok a) : ∃ b, y = .ok b ∧ R a b := by
  subst hx
  cases h with
  | ok h => exact ⟨_, rfl, h⟩
  | right hp => exact hp.elim

theorem Upholds.of_isIllegal {p : Problem} (hx : x = .error p) (hp : p.isIllegal) :
    y = .error p := by
  subst hx
  cases h with
  | error => rfl
  | left hpass => cases hp.symm.trans hpass
  | right hq => exact hq.elim

end Upholds

/-! ### Going through code -/

namespace Scan

variable {env : Setting ρ} (hdebug : env.safeMode = false)

include hdebug

/-- Without safe mode a mode that ends where it begins makes a step fail. -/
theorem step_of_emptyMode? {s : State ρ} {found : Found} {id : Nat}
    (h : nextFound? env s = some found) (hempty : emptyMode? s found = some id) :
    step env s = .error (.zeroWidthMatch env.name (env.language.mode id).beginPattern) := by
  unfold nextFound? at h
  split at h
  · next found' first hfind =>
    obtain rfl := Option.some.inj h
    have hmatched : emptyMode? (onMatch env s found' first) found' = some id := hempty
    rw [step_of_find hfind, follow_of_empty hmatched, hdebug]
    rfl
  · cases h

/-- **A step in safe mode does the same**, unless it fails without it. -/
theorem agree_step_safe (s : State ρ) :
    Upholds Eq (step env s) (step (env.withFlags env.ignoreIllegals true) s) := by
  by_cases h : ∃ found id, nextFound? env s = some found ∧ emptyMode? s found = some id
  · obtain ⟨found, id, hfound, hempty⟩ := h
    rw [step_of_emptyMode? hdebug hfound hempty]
    exact .left rfl
  · rw [step_withFlags (fun _ _ _ => rfl) fun found hfound hempty =>
      absurd ⟨found, _, hfound, Option.eq_some_of_isSome hempty⟩ h]
    exact .refl _

theorem agree_run_safe : ∀ (steps : Nat) (s : State ρ),
    Upholds Eq (run env steps s) (run (env.withFlags env.ignoreIllegals true) steps s)
  | 0, _ => .error
  | steps + 1, s => by
    have hstep := agree_step_safe hdebug s
    unfold run
    generalize step env s = result at hstep
    generalize step (env.withFlags env.ignoreIllegals true) s = result' at hstep
    cases hstep with
    | error => exact .error
    | left hp => exact .left hp
    | right hp => exact hp.elim
    | @ok t t' ht =>
      obtain rfl := ht
      cases t with
      | none => exact .refl _
      | some t => exact agree_run_safe steps t

/-- Going through code in safe mode leads to the same. -/
theorem agree_outcome_safe (frames : List (Frame ρ)) : Upholds Eq (outcome env frames)
    (outcome (env.withFlags env.ignoreIllegals true) frames) :=
  (agree_run_safe hdebug _ _).map fun _ _ h => congrArg (finished env) h

end Scan

/-! ### The same open modes -/

omit [Engine ρ] in
theorem Frame.Twin.eq {f f' : Frame ρ} {twin : Nat → Nat → Prop} (h : f.Twin twin f')
    (htwin : ∀ a b, twin a b → b = a) : f' = f := by
  obtain ⟨hmode, hend, hmemory⟩ := h
  cases f
  cases f'
  cases htwin _ _ hmode
  cases hend
  cases hmemory
  rfl

omit [Engine ρ] in
theorem Stacked.eq {fs fs' : List (Frame ρ)} (h : Stacked Eq fs fs') : fs' = fs := by
  induction h with
  | root hf => rw [hf.eq fun a b h => h.2.trans h.1.symm]
  | on hf _ ih => rw [hf.eq fun a b h => h.symm, ih]

omit [Engine ρ] in
theorem Stacked.refl {fs : List (Frame ρ)} (h : fs.getLast?.map Frame.mode = some 0) :
    Stacked Eq fs fs := by
  induction fs with
  | nil => cases h
  | cons f fs ih =>
    cases fs with
    | nil =>
      have hroot : f.mode = 0 := Option.some.inj h
      exact .root ⟨⟨hroot, hroot⟩, rfl, rfl⟩
    | cons g fs => exact .on ⟨rfl, rfl, rfl⟩ (ih (by rwa [List.getLast?_cons_cons] at h))

omit [Engine ρ] in
theorem ModeStack.Twin.eq {st st' : ModeStack ρ} (h : st.Twin (fun _ => Eq) st') : st' = st := by
  obtain ⟨hlanguage, hframes⟩ := h
  cases st
  cases st'
  cases hlanguage
  cases hframes.eq
  rfl

omit [Engine ρ] in
theorem ModeStack.eq_of_rel {st st' : Option (ModeStack ρ)}
    (h : Option.Rel (ModeStack.Twin fun _ => Eq) st st') : st' = st := by
  cases h with
  | none => rfl
  | some h => rw [h.eq]

omit [Engine ρ] in
theorem Outcome.Twin.eq {out out' : Outcome ρ} (h : out.Twin (fun _ => Eq) out') : out' = out := by
  obtain ⟨hlanguage, hrelevance, hevents, hillegal, hproblem, htop⟩ := h
  have htop := ModeStack.eq_of_rel htop
  cases out
  cases out'
  cases hlanguage
  cases hrelevance
  cases hevents
  cases hillegal
  cases hproblem
  cases htop
  rfl

theorem stacked_startingFrames_self (key : String) (l : Language ρ)
    (continuation : Option (ModeStack ρ)) :
    Stacked Eq (startingFrames key l continuation) (startingFrames key l continuation) :=
  .refl (List.getLast?_map.symm.trans (opens_startingFrames key l continuation).root)

/-! ### Highlighting -/

section Safe

variable (r : Registry ρ) (o : Options)

/-- The same options without safe mode, and with it. -/
abbrev Options.debug : Options := { o with safeMode := false }

abbrev Options.safe : Options := { o with safeMode := true }

/-- Without safe mode nothing is lived with. -/
theorem isRecoverable_debug (p : Problem) : isRecoverable o.debug p = false := by
  cases p <;> rfl

omit [Engine ρ] in
theorem recover_debug (code name : String) (x : Except Problem (Outcome ρ)) :
    recover o.debug code name x = x := by
  cases x with
  | ok out => rfl
  | error p => rw [recover, isRecoverable_debug, if_neg Bool.false_ne_true]

omit [Engine ρ] in
theorem upholds_recover (code name : String) {R : Outcome ρ → Outcome ρ → Prop}
    {x y : Except Problem (Outcome ρ)} (h : Upholds R x y) :
    Upholds R (recover o.debug code name x) (recover o.safe code name y) := by
  rw [recover_debug]
  cases h with
  | ok h => exact .ok h
  | left hp => exact .left hp
  | right hp => exact hp.elim
  | @error p =>
    cases hp : p.isIllegal with
    | false => exact .left hp
    | true =>
      rw [recover, if_neg (by rw [isRecoverable_of_isIllegal o.safe hp]; exact Bool.false_ne_true)]
      exact .error

/-- **Safe mode leads to the same however deep code is embedded.** The induction is on how deep. -/
theorem upholds_highlightWithin : ∀ (depth : Nat) (name code : String) (ignoreIllegals : Bool)
    (continuation : Option (ModeStack ρ)), Upholds (Outcome.Twin fun _ => Eq)
      (highlightWithin r o.debug depth name code ignoreIllegals continuation)
      (highlightWithin r o.safe depth name code ignoreIllegals continuation)
  | 0, _, _, _, _ => .error
  | depth + 1, name, code, ignoreIllegals, continuation => by
    have ih := upholds_highlightWithin depth
    have hnested : (nestedWithin r o.debug depth).Agrees Problem.MayPass (fun _ => False)
        (fun _ => Eq) (nestedWithin r o.safe depth) := by
      refine ⟨rfl, fun key inner stack stack' hstack => ?_, fun inner subset => ?_⟩
      · rw [ModeStack.eq_of_rel hstack]
        exact ih key inner true stack
      · rw [detect_nestedWithin, detect_nestedWithin]
        exact agree_detectWith (.refl r) (fun _ => id) (fun _ => False.elim)
          (fun name => ih name inner false none) o.debug subset
    rw [highlightWithin_succ, highlightWithin_succ]
    cases r.resolve name with
    | none => exact .error
    | some entry =>
      obtain ⟨key, language⟩ := entry
      refine upholds_recover o code key ?_
      -- first what is embedded changes to safe mode, then the language itself
      let env := settingWithin r o.debug depth key language code ignoreIllegals
      let middle : Setting ρ := { env with nested := nestedWithin r o.safe depth }
      have he : env.Agrees Problem.MayPass (fun _ => False) (fun _ => Eq) middle :=
        ⟨rfl, rfl, rfl, rfl, .refl language, hnested⟩
      exact (Scan.agree_outcome he rfl rfl
        (stacked_startingFrames_self key language continuation)).trans_eq
          (Scan.agree_outcome_safe (show middle.safeMode = false from rfl) _)

/-- What comes out without safe mode has not been lived with. -/
theorem problem_highlightWithin_debug {depth : Nat} {name code : String} {ignoreIllegals : Bool}
    {continuation : Option (ModeStack ρ)} {out : Outcome ρ}
    (h : highlightWithin r o.debug depth name code ignoreIllegals continuation = .ok out) :
    out.problem = none := by
  obtain ⟨depth, key, l, -, hout⟩ := of_highlightWithin_ok r o.debug h
  exact Scan.problem_outcome ((recover_debug o code key _).symm.trans hout)

variable {r} {code : String} {go go' : String → Except Problem (Outcome ρ)}

/-- All that is known when languages have been guessed is the same. -/
theorem upholds_detectWith (hgo : ∀ name, Upholds (Outcome.Twin fun _ => Eq) (go name) (go' name))
    (subset : Option (List String)) :
    Upholds Eq (detectWith r o code subset go) (detectWith r o code subset go') := by
  have houtcomes : Upholds (List.Forall₂ (Outcome.Twin fun _ => Eq))
      (candidateOutcomes code go (candidates r o subset))
      (candidateOutcomes code go' (candidates r o subset)) :=
    agree_candidateOutcomes (fun _ => id) (fun _ => False.elim) hgo _
  unfold detectWith
  generalize candidateOutcomes code go _ = outcomes at houtcomes
  generalize candidateOutcomes code go' _ = outcomes' at houtcomes
  cases houtcomes with
  | error => exact .error
  | left hp => exact .left hp
  | right hp => exact hp.elim
  | @ok os os' hos =>
    have heq : os = os' := List.forall₂_eq_eq_eq ▸ hos.imp fun _ _ h => h.eq.symm
    rw [heq]
    exact .refl _

end Safe

end CodeMarkup
