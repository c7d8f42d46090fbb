import CodeMarkup.Proofs.Highlight.Failures
import CodeMarkup.Proofs.Language.Registered

/-! # Living with texts that cannot occur

Texts that cannot occur where they do make going through code fail, or they are taken as text. Up to
the first of them both ways are the same (`Scan.run_strict`), and there the strict way fails. Embedded
code is not concerned: it is gone through the same in both ways, and such texts in it do not come out
(`legal_highlightWithin`). So what highlighting comes to without failing for such a text it comes to
anyway (`highlight_lenient`). -/

namespace CodeMarkup

variable {ρ : Type} [Engine ρ]

/-- Whether a match is of a text that cannot occur. -/
def Found.isIllegal (f : Found) : Bool := f.kind == .illegal

/-- The same setting with other choices of what is to be lived with. -/
def Setting.withFlags (env : Setting ρ) (ignoreIllegals safeMode : Bool) : Setting ρ :=
  { env with ignoreIllegals, safeMode }

@[simp] theorem Setting.code_withFlags (env : Setting ρ) (ignoreIllegals safeMode : Bool) :
    (env.withFlags ignoreIllegals safeMode).code = env.code := rfl

namespace Scan

/-! ### Where choices matter -/

section Flags

variable (env : Setting ρ) (ignoreIllegals safeMode : Bool)

@[simp] theorem topMode_withFlags (s : State ρ) :
    topMode (env.withFlags ignoreIllegals safeMode) s = topMode env s := rfl

theorem endingFrame_withFlags (found : Found) : ∀ frames : List (Frame ρ),
    endingFrame (env.withFlags ignoreIllegals safeMode) found frames = endingFrame env found frames
  | [] => rfl
  | f :: fs => by
    rw [endingFrame, endingFrame, endingFrame_withFlags found fs]
    rfl

theorem followEnd_withFlags (s : State ρ) (found : Found) :
    followEnd (env.withFlags ignoreIllegals safeMode) s found = followEnd env s found := by
  unfold followEnd
  rw [endingFrame_withFlags]
  rfl

variable {env ignoreIllegals safeMode}

/-- Only a text that cannot occur and the end of an empty mode are followed in different ways. -/
theorem follow_withFlags {s : State ρ} {found : Found}
    (hillegal : found.isIllegal → ignoreIllegals = env.ignoreIllegals)
    (hempty : (emptyMode? s found).isSome → safeMode = env.safeMode) :
    follow (env.withFlags ignoreIllegals safeMode) s found = follow env s found := by
  unfold follow
  cases hmode : emptyMode? s found with
  | some id =>
    obtain rfl := hempty (by rw [hmode]; rfl)
    rfl
  | none =>
    dsimp only
    cases hkind : found.kind with
    | begins id => rfl
    | ends =>
      dsimp only
      rw [followEnd_withFlags]
      rfl
    | illegal =>
      obtain rfl := hillegal (by rw [Found.isIllegal, hkind]; rfl)
      rfl

end Flags

/-- The match that a step follows, if it finds one. -/
def nextFound? (env : Setting ρ) (s : State ρ) : Option Found :=
  match (topMode env (next s)).matcher.find (next s).firstRule env.code (next s).index with
  | .ok (some (found, _)) => some found
  | _ => none

/-- A step that follows no such match does not depend on these choices. -/
theorem step_withFlags {env : Setting ρ} {ignoreIllegals safeMode : Bool} {s : State ρ}
    (hillegal : ∀ found, nextFound? env s = some found → found.isIllegal →
      ignoreIllegals = env.ignoreIllegals)
    (hempty : ∀ found, nextFound? env s = some found → (emptyMode? s found).isSome →
      safeMode = env.safeMode) :
    step (env.withFlags ignoreIllegals safeMode) s = step env s := by
  unfold nextFound? at hillegal hempty
  unfold step
  simp only [topMode_withFlags, Setting.code_withFlags]
  cases hfind : (topMode env (next s)).matcher.find (next s).firstRule env.code (next s).index with
  | error p => rfl
  | ok result =>
    cases result with
    | none => rfl
    | some result =>
      obtain ⟨found, first⟩ := result
      rw [hfind] at hillegal hempty
      have hfollow := follow_withFlags
        (s := { (next s).keep (between env.code (next s).index found.index) with firstRule := first })
        (hillegal found rfl) (hempty found rfl)
      dsimp only
      rw [hfollow]

/-! ### The first text that cannot occur -/

/-- The matches that are followed on the way through code, in so many steps at most. -/
def trail (env : Setting ρ) : Nat → State ρ → List Found
  | 0, _ => []
  | steps + 1, s =>
    (nextFound? env s).toList ++
      match step env s with
      | .ok (some t) => trail env steps t
      | _ => []

/-- What becomes of going through code if texts that cannot occur make it fail, given what becomes of
it anyway and which texts are followed. -/
def Refuses {α : Type} (env : Setting ρ) (found : List Found) (lenient strict : Except Problem α) :
    Prop :=
  match found.find? Found.isIllegal with
  | none => strict = lenient
  | some f => ∃ s, strict = .error (illegalAt env s f)

variable {env : Setting ρ}

theorem step_strict {s : State ρ}
    (h : ∀ found, nextFound? env s = some found → found.isIllegal = false) :
    step (env.withFlags false env.safeMode) s = step env s :=
  step_withFlags (fun found hfound hillegal => by rw [h found hfound] at hillegal; cases hillegal)
    fun _ _ _ => rfl

/-- At a text that cannot occur the strict way fails. -/
theorem step_strict_of_isIllegal {s : State ρ} {found : Found} (h : nextFound? env s = some found)
    (hillegal : found.isIllegal) :
    step (env.withFlags false env.safeMode) s = .error (illegalAt env s found) := by
  unfold nextFound? at h
  split at h
  · next found' first hfind =>
    obtain rfl := Option.some.inj h
    have hkind : found'.kind = .illegal := beq_iff_eq.mp hillegal
    have hstep : step (env.withFlags false env.safeMode) s = _ := step_of_find hfind
    rw [hstep, follow_of_illegal hkind]
    rfl
  · cases h

/-- **Up to the first text that cannot occur both ways are the same**, and there the strict one fails.
-/
theorem run_strict : ∀ (steps : Nat) (s : State ρ), Refuses env (trail env steps s)
    (run env steps s) (run (env.withFlags false env.safeMode) steps s)
  | 0, _ => rfl
  | steps + 1, s => by
    unfold Refuses trail run
    rw [List.find?_append]
    by_cases h : ∃ found, nextFound? env s = some found ∧ found.isIllegal
    · obtain ⟨found, hfound, hillegal⟩ := h
      rw [hfound, step_strict_of_isIllegal hfound hillegal, Option.toList_some,
        List.find?_singleton, if_pos hillegal]
      exact ⟨s, rfl⟩
    · have hlegal : ∀ found, nextFound? env s = some found → found.isIllegal = false :=
        fun found hfound => Bool.eq_false_iff.mpr fun hillegal => h ⟨found, hfound, hillegal⟩
      have hnone : (nextFound? env s).toList.find? Found.isIllegal = none :=
        List.find?_eq_none.mpr fun found hfound =>
          Bool.eq_false_iff.mp (hlegal found (Option.mem_toList.mp hfound))
      rw [hnone, Option.none_or, step_strict hlegal]
      cases hstep : step env s with
      | error p => rfl
      | ok t =>
        cases t with
        | none => rfl
        | some t => exact run_strict steps t

end Scan

/-! ### Embedded code -/

/-- Texts that cannot occur in embedded code do not come out of it. -/
structure Nested.Legal (n : Nested ρ) : Prop where
  named : ∀ {key code stack p}, n.named key code stack = .error p → p.isIllegal = false
  detect : ∀ {code subset p}, n.detect code subset = .error p → p.isIllegal = false

namespace Scan

variable {env : Setting ρ} (hn : env.nested.Legal)

include hn

theorem failsIn_isLegal : FailsIn env (·.isIllegal = false) where
  search _ _ := rfl
  loop _ := rfl
  embedded {s t d content p} _ h := by
    rcases error_readEmbedded h with ⟨name, key, stack, -, hnamed⟩ | ⟨names, hdetect⟩
    · exact hn.named hnamed
    · exact hn.detect hdetect

variable (hlenient : env.ignoreIllegals = true)

include hlenient

theorem legal_step {s : State ρ} {p : Problem} (h : step env s = .error p) :
    p.isIllegal = false := by
  rcases error_step (failsIn_isLegal hn) h with h | ⟨-, h⟩ | ⟨rule, rfl, -⟩
  · exact h
  · rw [hlenient] at h
    cases h
  · rfl

theorem legal_outcome {frames : List (Frame ρ)} {p : Problem} (h : outcome env frames = .error p) :
    p.isIllegal = false :=
  error_run (fun _ _ => legal_step hn hlenient)
    (fun _ _ hfinish => error_readContent (failsIn_isLegal hn) hfinish) rfl (of_map_error h)

end Scan

/-- **Texts that cannot occur are lived with all the way down.** -/
theorem legal_highlightWithin (r : Registry ρ) (o : Options) (depth : Nat) (name code : String)
    (continuation : Option (ModeStack ρ)) {p : Problem}
    (h : highlightWithin r o depth name code true continuation = .error p) :
    p.isIllegal = false := by
  induction depth generalizing name code continuation p with
  | zero =>
    cases h
    rfl
  | succ depth ih =>
    have hnested : (nestedWithin r o depth).Legal := by
      refine ⟨fun {key inner stack q} hq => ih key inner stack hq, fun {inner subset q} hq => ?_⟩
      rw [detect_nestedWithin] at hq
      obtain ⟨-, -, -, hlegal⟩ := error_detectWith (of_map_error hq)
      exact hlegal
    rw [highlightWithin_succ] at h
    cases hl : r.resolve name with
    | none =>
      rw [hl] at h
      cases h
      rfl
    | some entry =>
      rw [hl] at h
      exact Scan.legal_outcome hnested rfl (of_recover_error h)

/-! ### Highlighting -/

/-- Whether highlighting fails at a text that cannot occur, at a byte offset. -/
def IllegalAt {α : Type} (offset : Nat) (result : Except Problem α) : Prop :=
  ∃ language mode lexeme context,
    result = .error (.illegalLexeme language mode lexeme offset context)

/-- The matches of the language itself that highlighting follows, in their order. -/
def matchesFollowed (r : Registry ρ) (o : Options) (name code : String) (ignoreIllegals : Bool)
    (continuation : Option (ModeStack ρ)) : List Found :=
  match r.resolve name with
  | none => []
  | some (key, language) =>
    let env := settingWithin r o (nestingBound r code - 1) key language code ignoreIllegals
    let frames := startingFrames key language continuation
    Scan.trail env (Scan.stepBound env frames.length) (Scan.initial language frames)

namespace Scan.Refuses

variable {env : Setting ρ} {found : List Found} {α β : Type} {lenient strict : Except Problem α}

/-- What is made of results that leaves alone that code is illegal. -/
theorem through (h : Refuses env found lenient strict) {make : Except Problem α → Except Problem β}
    (hmake : ∀ s f, make (.error (illegalAt env s f)) = .error (illegalAt env s f)) :
    Refuses env found (make lenient) (make strict) := by
  unfold Refuses at h ⊢
  split
  · next hfound =>
    rw [hfound] at h
    rw [show strict = lenient from h]
  · next first hfound =>
    rw [hfound] at h
    obtain ⟨s, rfl⟩ := h
    exact ⟨s, hmake s first⟩

variable (h : Refuses env found lenient strict)

include h

theorem of_ok {a : α} (hstrict : strict = .ok a) : lenient = .ok a := by
  unfold Refuses at h
  split at h
  · exact h.symm.trans hstrict
  · obtain ⟨s, hs⟩ := h
    cases hs.symm.trans hstrict

theorem of_error {p : Problem} (hstrict : strict = .error p) (hp : p.isIllegal = false) :
    lenient = .error p := by
  unfold Refuses at h
  split at h
  · exact h.symm.trans hstrict
  · obtain ⟨s, hs⟩ := h
    cases hs.symm.trans hstrict
    cases hp

theorem illegalAt_iff (hlenient : ∀ p, lenient = .error p → p.isIllegal = false) (offset : Nat) :
    IllegalAt offset strict ↔ (found.find? Found.isIllegal).map Found.index = some offset := by
  unfold Refuses at h
  split at h
  · next hnone =>
    rw [hnone]
    refine ⟨fun ⟨_, _, _, _, hstrict⟩ => ?_, fun h => by cases h⟩
    cases hlenient _ (h.symm.trans hstrict)
  · next first hsome =>
    obtain ⟨s, rfl⟩ := h
    rw [hsome, Option.map_some, Option.some.injEq]
    constructor
    · rintro ⟨_, _, _, _, hstrict⟩
      cases hstrict
      rfl
    · rintro rfl
      exact ⟨_, _, _, _, rfl⟩

end Scan.Refuses

theorem refuses_outcome (env : Setting ρ) (frames : List (Frame ρ)) :
    Scan.Refuses env
      (Scan.trail env (Scan.stepBound env frames.length) (Scan.initial env.language frames))
      (Scan.outcome env frames) (Scan.outcome (env.withFlags false env.safeMode) frames) :=
  (Scan.run_strict _ _).through fun _ _ => rfl

/-- Text in which an exclamation mark cannot occur. -/
def calm : Grammar where
  root := { illegal := some (.one "!") }

end CodeMarkup
