import CodeMarkup.Highlight.Ranking
import CodeMarkup.Highlight.Scan
import CodeMarkup.Options

/-! # Highlighting

`highlight` goes through code in a language that is named, `detect` in each of several languages to
find the one that fits best. Languages embedded in others are gone through in the same way, so both
bound how deep code is embedded. -/

namespace CodeMarkup

variable {ρ : Type} [Engine ρ]

/-- The best outcome for some code, and the next best. -/
structure Detection (ρ : Type) where
  best : Outcome ρ
  runnerUp : Option (Outcome ρ)

/-- Keeps each text where it comes first. -/
def firstOnly : List String → List String → List String
  | _, [] => []
  | seen, s :: ss => if seen.contains s then firstOnly seen ss else s :: firstOnly (s :: seen) ss

/-- The registered names of the languages to try: those wanted, else those of the options, else all.
Names that mean no language and languages that are not guessed are left out. -/
def candidates (r : Registry ρ) (o : Options) (subset : Option (List String)) : List String :=
  let wanted := (subset <|> o.languages).getD r.names
  firstOnly [] ((wanted.filterMap r.canonicalName).filter r.autoDetection)

/-- The outcome of a candidate: code that is not in its language is left as it is. -/
def candidateOutcome (code name : String) :
    Except Problem (Outcome ρ) → Except Problem (Outcome ρ)
  | .ok o => .ok o
  | .error p =>
    if p.isIllegal then .ok { Outcome.plain code (some name) with illegal := true } else .error p

/-- The outcomes of candidates, given how to go through the code in a language. -/
def candidateOutcomes (code : String) (go : String → Except Problem (Outcome ρ)) :
    List String → Except Problem (List (Outcome ρ))
  | [] => .ok []
  | name :: names =>
    match candidateOutcome code name (go name) with
    | .error p => .error p
    | .ok o =>
      match candidateOutcomes code go names with
      | .error p => .error p
      | .ok os => .ok (o :: os)

/-- The best of the outcomes of several languages, given how to go through the code in one. Leaving
the code as it is always takes part, and comes before all that are worth no more. -/
def detectWith (r : Registry ρ) (o : Options) (code : String) (subset : Option (List String))
    (go : String → Except Problem (Outcome ρ)) : Except Problem (Detection ρ) :=
  match candidateOutcomes code go (candidates r o subset) with
  | .error p => .error p
  | .ok outcomes =>
    match rank r (Outcome.plain code none :: outcomes) with
    | [] => .ok ⟨Outcome.plain code none, none⟩
    | best :: rest => .ok ⟨best, rest.head?⟩

/-- Whether a problem makes the code be left as it is. -/
def isRecoverable (o : Options) : Problem → Bool
  | .illegalLexeme .. => false
  | .unfinished => false
  | _ => o.safeMode

/-- Leaves code as it is if going through it fails in a way that is to be lived with. -/
def recover (o : Options) (code name : String) :
    Except Problem (Outcome ρ) → Except Problem (Outcome ρ)
  | .ok outcome => .ok outcome
  | .error p =>
    if isRecoverable o p then .ok { Outcome.plain code (some name) with problem := some p }
    else .error p

/-- Goes through code in a language, with embedded code at most so deep. A stack is only gone on
from if it is one of that language. -/
def highlightWithin (r : Registry ρ) (o : Options) :
    Nat → (name code : String) → (ignoreIllegals : Bool) → Option (ModeStack ρ) →
      Except Problem (Outcome ρ)
  | 0, _, _, _, _ => .error .unfinished
  | depth + 1, name, code, ignoreIllegals, continuation =>
    match r.resolve name with
    | none => .error (.unknownLanguage name)
    | some (key, language) =>
      let nested : Nested ρ := {
        resolve := r.canonicalName
        named := fun key code stack => highlightWithin r o depth key code true stack
        detect := fun code subset =>
          let go := fun name => highlightWithin r o depth name code false none
          match detectWith r o code subset go with
          | .ok d => .ok d.best
          | .error p => .error p }
      let env : Setting ρ := {
        name := key
        language
        code := code.toList
        ignoreIllegals
        safeMode := o.safeMode
        nested }
      let frames := (continuation.bind (·.framesFor? key language)).getD [Frame.new 0]
      recover o code key (Scan.outcome env frames)

/-- How deep code can be embedded: each time it gets shorter, or else its language is another one.
-/
def nestingBound (r : Registry ρ) (code : String) : Nat :=
  4 * (code.utf8ByteSize + 2) * (r.size + 2)

/-- Goes through code in a language. -/
def highlight (r : Registry ρ) (o : Options) (name code : String) (ignoreIllegals : Bool)
    (continuation : Option (ModeStack ρ)) : Except Problem (Outcome ρ) :=
  highlightWithin r o (nestingBound r code) name code ignoreIllegals continuation

/-- Goes through code in several languages to find the one that fits best. -/
def detect (r : Registry ρ) (o : Options) (code : String) (subset : Option (List String)) :
    Except Problem (Detection ρ) :=
  detectWith r o code subset fun name => highlight r o name code false none

end CodeMarkup
