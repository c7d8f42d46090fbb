import CodeMarkup.Proofs.Highlight.Outcomes
import CodeMarkup.Proofs.Markup.Agreement

/-! # What is shown of highlighted code

What is seen of an outcome is its markup, what it counts for and how it came about (`Shown`).
Whether the markup is that of a tree or has been written at once makes no difference, for code in a
named language or when the language is guessed (`highlight_detect_shown`). -/

namespace CodeMarkup

open Markup (Event Sink Tree Writer)

variable {ρ : Type} [Engine ρ]

/-- What is seen of an outcome when its events have been built into something. -/
structure Shown (ρ : Type) where
  value : String
  relevance : Nat
  language : Option String
  illegal : Bool
  top : Option (ModeStack ρ)
  problem : Option Problem

/-- What is seen of an outcome that is built into a sink. -/
def Outcome.shown {ρ : Type} (σ : Type) [Sink σ] (classPrefix : String) (o : Outcome ρ) : Shown ρ where
  value := o.value σ classPrefix
  relevance := o.relevance
  language := o.language
  illegal := o.illegal
  top := o.top
  problem := o.problem

/-- What is seen of the best and the next best outcome. -/
def Detection.shown (σ : Type) [Sink σ] (classPrefix : String) (d : Detection ρ) :
    Shown ρ × Option (Shown ρ) :=
  (d.best.shown σ classPrefix, d.runnerUp.map (Outcome.shown σ classPrefix))

namespace Outcome

/-- The events of an outcome end as they should. -/
def Finished {ρ : Type} (o : Outcome ρ) : Prop := ∃ es, o.events = es ++ [.finish]

omit [Engine ρ] in
theorem holdsPlain_finished (code : String) : HoldsPlain (ρ := ρ) code Finished :=
  fun _ _ _ => ⟨[.text code], rfl⟩

omit [Engine ρ] in
theorem Finished.shown_eq {o : Outcome ρ} (h : o.Finished) (classPrefix : String) :
    o.shown Tree classPrefix = o.shown Writer classPrefix := by
  obtain ⟨es, he⟩ := h
  have hvalue : o.value Tree classPrefix = o.value Writer classPrefix := by
    rw [value, value, build, build, he]
    exact Markup.html_ofEvents classPrefix es
  rw [shown, shown, hvalue]

end Outcome

theorem Scan.finished_outcome {env : Setting ρ} {frames : List (Frame ρ)} {o : Outcome ρ}
    (h : outcome env frames = .ok o) : o.Finished := by
  obtain ⟨s, -, rfl⟩ := outcome_eq_ok h
  exact ⟨s.events.reverse ++ [.closingAll], by simp [finished]⟩

/-- The events of every outcome of highlighting end as they should. -/
theorem finished_highlight {r : Registry ρ} {o : Options} {name code : String}
    {ignoreIllegals : Bool} {continuation : Option (ModeStack ρ)} {out : Outcome ρ}
    (h : highlight r o name code ignoreIllegals continuation = .ok out) : out.Finished := by
  obtain ⟨depth, key, l, -, hout⟩ := of_highlightWithin_ok r o h
  exact (Outcome.holdsPlain_finished code).recover (fun _ => Scan.finished_outcome) hout

theorem finished_detect {r : Registry ρ} {o : Options} {code : String}
    {subset : Option (List String)} {d : Detection ρ} (h : detect r o code subset = .ok d) :
    d.best.Finished ∧ ∀ p, d.runnerUp = some p → p.Finished :=
  forall_detectWith (Outcome.holdsPlain_finished code) (fun _ _ ho => finished_highlight ho) h

end CodeMarkup
