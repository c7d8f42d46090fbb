import CodeMarkup.Markup.Tree
import CodeMarkup.Markup.Writer
import CodeMarkup.Proofs.Highlight.Failures
import CodeMarkup.Proofs.Language.Registered

/-! # Problems in safe mode

In safe mode going through code only fails where a pattern cannot be looked for, where no progress
is made, or where a text cannot occur and that matters (`Scan.contained_outcome`). The first two
leave the code as it is, so that neither they nor anything that goes wrong in embedded code comes
out of highlighting, and guessing a language never fails (`highlight_detect_safe`). -/

namespace CodeMarkup

variable {ρ : Type} [Engine ρ]

namespace Problem

/-- Whether a problem is one of patterns or of progress. -/
def isRecovered : Problem → Bool
  | search .. | infiniteLoop .. => true
  | _ => false

/-- A problem that has to do with neither the code nor the language. -/
def IsInner (p : Problem) : Prop := p.isRecovered ∨ p = unfinished

/-- What going through code in safe mode may fail with. -/
def IsContained (ignoreIllegals : Bool) (p : Problem) : Prop :=
  p.IsInner ∨ p.isIllegal ∧ ignoreIllegals = false

theorem isInner_search (pattern : String) (cause : SearchFailure) :
    (search pattern cause).IsInner := Or.inl rfl

theorem isInner_unfinished : unfinished.IsInner := Or.inr rfl

end Problem

/-- Embedded code in a language that is there, or in one that is guessed, does not fail. -/
structure Nested.Contained (n : Nested ρ) : Prop where
  named : ∀ {name key code stack p}, n.resolve name = some key →
    n.named key code stack = .error p → p = .unfinished
  detect : ∀ {code subset p}, n.detect code subset = .error p → p = .unfinished

namespace Scan

variable {env : Setting ρ} {s : State ρ} {p : Problem}

/-! ### Going through code -/

theorem failsIn_isInner (hn : env.nested.Contained) : FailsIn env Problem.IsInner where
  search := Problem.isInner_search
  loop _ := Or.inl rfl
  embedded {s t d content p} _ h := by
    rcases error_readEmbedded h with ⟨name, key, stack, hkey, hnamed⟩ | ⟨names, hdetect⟩
    · rw [hn.named hkey hnamed]
      exact Problem.isInner_unfinished
    · rw [hn.detect hdetect]
      exact Problem.isInner_unfinished

/-- What a step in safe mode may fail with. -/
theorem contained_step (hn : env.nested.Contained) (hsafe : env.safeMode = true)
    (h : step env s = .error p) : p.IsContained env.ignoreIllegals := by
  rcases error_step (failsIn_isInner hn) h with h | h | ⟨-, -, h⟩
  · exact Or.inl h
  · exact Or.inr h
  · rw [hsafe] at h
    cases h

/-- **What going through code in safe mode may fail with.** -/
theorem contained_outcome (hn : env.nested.Contained) (hsafe : env.safeMode = true)
    {frames : List (Frame ρ)} (h : outcome env frames = .error p) :
    p.IsContained env.ignoreIllegals :=
  error_run (fun _ _ => contained_step hn hsafe)
    (fun _ _ hfinish => Or.inl (error_readContent (failsIn_isInner hn) hfinish))
    (Or.inl Problem.isInner_unfinished) (of_map_error h)

theorem problem_outcome {frames : List (Frame ρ)} {out : Outcome ρ}
    (h : outcome env frames = .ok out) : out.problem = none := by
  obtain ⟨t, -, rfl⟩ := outcome_eq_ok h
  rfl

end Scan

/-! ### Code that is left as it is -/

/-- An outcome that shows nothing but the code. -/
structure Outcome.LeavesCode (out : Outcome ρ) (classPrefix code : String) : Prop where
  relevance : out.relevance = 0
  top : out.top = none
  root : (out.build Markup.Tree classPrefix).root =
    ⟨none, false, if code.isEmpty then [] else [.text code]⟩
  tree_value : out.value Markup.Tree classPrefix = Markup.escape code
  writer_value : out.value Markup.Writer classPrefix = Markup.escape code

omit [Engine ρ] in
theorem Outcome.leavesCode_plain (classPrefix code : String) (language : Option String)
    (problem : Option Problem) :
    ({ Outcome.plain code language with problem } : Outcome ρ).LeavesCode classPrefix code := by
  have hroot : ((Markup.Tree.blank classPrefix).text code).finish.root =
      ⟨none, false, if code.isEmpty then [] else [.text code]⟩ := by
    rw [Markup.Tree.text]
    split
    · simp [Markup.Tree.finish, Markup.Tree.closingAll, Markup.Tree.blank, Markup.Tree.closeInto,
        Markup.Tree.modifyTop, Markup.Node.collapse, Markup.Node.empty, Markup.Token.collapseOnto]
    · simp [Markup.Tree.finish, Markup.Tree.closingAll, Markup.Tree.blank, Markup.Tree.closeInto,
        Markup.Tree.modifyTop, Markup.Node.collapse, Markup.Node.empty, Markup.Token.collapseOnto,
        Markup.Node.pushText, Markup.Token.pushText]
  refine ⟨rfl, rfl, hroot, ?_, ?_⟩
  · change (((Markup.Tree.blank classPrefix).text code).finish).root.render _ = _
    rw [hroot, Markup.Node.render, Markup.Node.token, Markup.Token.render]
    split
    · next he =>
      rw [String.isEmpty_iff.mp he]
      rfl
    · simp [Markup.cssClass, Markup.inSpan, Markup.Token.renderAll, Markup.Token.render]
  · simp [value, build, plain, plainEvents, Markup.Sink.ofEvents, Markup.Sink.feedAll,
      Markup.Sink.feed, Markup.Sink.html, Markup.Sink.text, Markup.Sink.finish, Markup.Sink.blank,
      Markup.Writer.text, Markup.Writer.closingAll, Markup.Writer.spanEnds, Markup.Writer.blank]

/-! ### Highlighting -/

/-- What may come out of highlighting code in safe mode. -/
def IsSafe (classPrefix code : String) (ignoreIllegals : Bool) :
    Except Problem (Outcome ρ) → Prop
  | .ok out => ∀ p, out.problem = some p → p.isRecovered ∧ out.LeavesCode classPrefix code
  | .error p => p = .unfinished ∨ p.isIllegal ∧ ignoreIllegals = false

theorem isRecoverable_of_isRecovered {o : Options} (hsafe : o.safeMode = true) {p : Problem}
    (h : p.isRecovered) : isRecoverable o p = true := by
  cases p with
  | search => exact hsafe
  | infiniteLoop => exact hsafe
  | _ => cases h

theorem isRecoverable_of_isIllegal (o : Options) {p : Problem} (h : p.isIllegal) :
    isRecoverable o p = false := by
  cases p with
  | illegalLexeme => rfl
  | _ => cases h

theorem isSome_resolve_of_canonicalName {r : Registry ρ} (hr : r.Built) {name key : String}
    (h : r.canonicalName name = some key) : (r.resolve key).isSome := by
  obtain ⟨⟨k, l⟩, hl, rfl⟩ := Option.map_eq_some_iff.mp h
  rw [hr.resolve_key hl]
  rfl

theorem mem_of_mem_firstOnly {name : String} : ∀ {seen names : List String},
    name ∈ firstOnly seen names → name ∈ names
  | _, [], h => by cases h
  | seen, s :: ss, h => by
    unfold firstOnly at h
    split at h
    · exact List.mem_cons_of_mem _ (mem_of_mem_firstOnly h)
    · rcases List.mem_cons.mp h with rfl | h
      · exact List.mem_cons_self
      · exact List.mem_cons_of_mem _ (mem_of_mem_firstOnly h)

/-- Only languages that are there are tried. -/
theorem isSome_resolve_of_mem_candidates {r : Registry ρ} (hr : r.Built) {o : Options}
    {subset : Option (List String)} {name : String} (h : name ∈ candidates r o subset) :
    (r.resolve name).isSome := by
  have hmem := (List.mem_filter.mp (mem_of_mem_firstOnly h)).1
  obtain ⟨_, -, hname⟩ := List.mem_filterMap.mp hmem
  exact isSome_resolve_of_canonicalName hr hname

section Safe

variable {o : Options} (hsafe : o.safeMode = true)

include hsafe

omit [Engine ρ] in
/-- What has gone wrong in a contained way leaves the code as it is, unless it is illegal. -/
theorem isSafe_recover {code name : String} {ignoreIllegals : Bool}
    {result : Except Problem (Outcome ρ)} (hok : ∀ out, result = .ok out → out.problem = none)
    (herror : ∀ p, result = .error p → p.IsContained ignoreIllegals) (classPrefix : String) :
    IsSafe classPrefix code ignoreIllegals (recover o code name result) := by
  cases result with
  | ok out =>
    intro p hp
    rw [hok out rfl] at hp
    cases hp
  | error p =>
    rw [recover]
    rcases herror p rfl with hinner | ⟨hillegal, hstrict⟩
    · rcases hinner with hrec | rfl
      · rw [if_pos (isRecoverable_of_isRecovered hsafe hrec)]
        intro q hq
        cases hq
        exact ⟨hrec, Outcome.leavesCode_plain classPrefix code (some name) (some p)⟩
      · exact Or.inl rfl
    · rw [isRecoverable_of_isIllegal o hillegal]
      exact Or.inr ⟨hillegal, hstrict⟩

variable {r : Registry ρ} (hr : r.Built)

include hr

/-- Code in a language that is there comes out safe, whatever is embedded in it. -/
theorem isSafe_highlightWithin (classPrefix : String) : ∀ (depth : Nat) (name code : String)
    (ignoreIllegals : Bool) (continuation : Option (ModeStack ρ)), (r.resolve name).isSome →
      IsSafe classPrefix code ignoreIllegals
        (highlightWithin r o depth name code ignoreIllegals continuation)
  | 0, _, _, _, _, _ => Or.inl rfl
  | depth + 1, name, code, ignoreIllegals, continuation, hname => by
    obtain ⟨⟨key, language⟩, hl⟩ := Option.isSome_iff_exists.mp hname
    have ih := isSafe_highlightWithin classPrefix depth
    have hnested : (nestedWithin r o depth).Contained := by
      refine ⟨fun {name key inner stack p} hkey hp => ?_, fun {inner subset p} hp => ?_⟩
      · have hs := ih key inner true stack (isSome_resolve_of_canonicalName hr hkey)
        rw [show highlightWithin r o depth key inner true stack = .error p from hp] at hs
        exact hs.resolve_right fun h => by cases h.2
      · rw [detect_nestedWithin] at hp
        obtain ⟨candidate, hmem, hgo, hlegal⟩ := error_detectWith (of_map_error hp)
        have hs := ih candidate inner false none (isSome_resolve_of_mem_candidates hr hmem)
        rw [hgo] at hs
        exact hs.resolve_right fun h => by rw [hlegal] at h; cases h.1
    rw [highlightWithin_succ, hl]
    refine isSafe_recover hsafe (fun out => Scan.problem_outcome) (fun p hp => ?_) classPrefix
    exact Scan.contained_outcome hnested hsafe hp

end Safe

end CodeMarkup
