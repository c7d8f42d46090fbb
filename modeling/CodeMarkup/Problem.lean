import CodeMarkup.Grammar.Reader
import CodeMarkup.Regex.Backtrack
import CodeMarkup.Regex.Fault

/-! # What can go wrong

A grammar can be wrong, which shows when it is registered, and code can be wrong or too much for its
grammar, which shows when it is gone through. `Problem.message` is what is said about it. -/

namespace CodeMarkup

/-- What can be wrong with a grammar. -/
inductive GrammarProblem where
  /-- The root contains itself. -/
  | selfAtRoot
  /-- A mode has both a pattern for the whole of it and patterns for its begin or end. -/
  | matchWithBeginOrEnd
  /-- What a word looks like is said twice. -/
  | patternAndLexemes
  /-- The weight of a keyword is no number. -/
  | badWeight (weight word : String)
  /-- A slot has not been filled. -/
  | unsetSlot
  /-- A variant has variants. -/
  | nestedVariants
  /-- A pattern is refused. -/
  | badPattern (source : String) (fault : Regex.Fault)
  /-- Patterns that were joined into this one are refused together. -/
  | badCombination (source : String) (fault : Regex.Fault)
  /-- Modes need each other without end. -/
  | endless
  deriving DecidableEq, Repr, Inhabited

namespace GrammarProblem

/-- What is said about a problem. -/
def message : GrammarProblem → String
  | selfAtRoot => "contains `self` is not supported at the top-level of a language"
  | matchWithBeginOrEnd => "begin & end are not supported with match"
  | patternAndLexemes => "prefer `keywords.$pattern` to `lexemes`, both are not allowed"
  | badWeight weight word => "invalid weight `" ++ weight ++ "` for keyword `" ++ word ++ "`"
  | unsetSlot => "a late mode reference was never set"
  | nestedVariants => "variants must not contain nested variants"
  | badPattern source _ => "invalid pattern `" ++ source ++ "`"
  | badCombination source _ => "invalid combined pattern `" ++ source ++ "`"
  | endless => "modes depend on each other without end"

end GrammarProblem

/-- What can be wrong with a document that sets options or writes a grammar. -/
inductive DocumentProblem where
  | notAnObject
  | malformed
  | grammar (fault : Grammar.ReadFault)
  deriving DecidableEq, Repr, Inhabited

namespace DocumentProblem

/-- What is said about a problem. -/
def message : DocumentProblem → String
  | notAnObject => "configuration must be a JSON object"
  | malformed => "malformed"
  | grammar .malformed => "invalid grammar"
  | grammar (.unknownReference word) =>
    "invalid grammar: unknown mode reference `" ++ word ++ "` (only \"self\" is supported)"

end DocumentProblem

/-- Why a rule could not be looked for. -/
inductive SearchFailure where
  /-- The search took too long or needed too much. -/
  | overrun (cause : Regex.Overrun)
  /-- The rules that are left do not make up a pattern. -/
  | refused (fault : Regex.Fault)
  /-- There is no such rule. -/
  | noRule (index : Nat)
  deriving DecidableEq, Repr, Inhabited

namespace SearchFailure

/-- What is said about a failure. -/
def message : SearchFailure → String
  | overrun .backtracking => "Error executing regex: Max limit for backtracking count exceeded"
  | overrun .stack => "Error executing regex: Max stack size exceeded for backtracking"
  | refused _ => "pattern refused"
  | noRule index => "no rule at index " ++ toString index

end SearchFailure

/-- What can go wrong. -/
inductive Problem where
  /-- A grammar is wrong. -/
  | grammar (language : String) (cause : GrammarProblem)
  /-- No grammar has this name. -/
  | unknownLanguage (name : String)
  /-- The code has a text that cannot occur where it does. -/
  | illegalLexeme (language mode lexeme : String) (offset : Nat) (context : String)
  /-- A mode that begins with an empty match ends with one at the same place. -/
  | zeroWidthMatch (language rule : String)
  /-- Going through the code makes no progress. -/
  | infiniteLoop (language : String) (iterations : Nat)
  /-- A pattern could not be looked for. -/
  | search (pattern : String) (cause : SearchFailure)
  /-- A document is wrong. -/
  | document (cause : DocumentProblem)
  /-- Going through the code does not end. -/
  | unfinished
  deriving DecidableEq, Repr, Inhabited

namespace Problem

/-- Whether code was found not to be in the language. -/
def isIllegal : Problem → Bool
  | illegalLexeme .. => true
  | _ => false

/-- What is said about a problem. -/
def message : Problem → String
  | grammar language cause =>
    "invalid grammar for language `" ++ language ++ "`: " ++ cause.message
  | unknownLanguage name => "unknown language: `" ++ name ++ "` is not registered"
  | illegalLexeme _ mode lexeme offset _ =>
    "illegal lexeme \"" ++ lexeme ++ "\" for mode \"" ++ mode ++ "\" at offset " ++ toString offset
  | zeroWidthMatch language rule =>
    "0 width match regex in language `" ++ language ++ "` (rule: " ++ rule ++ ")"
  | infiniteLoop language iterations =>
    "potential infinite loop in language `" ++ language ++ "`: " ++ toString iterations ++
      " iterations, way more than matches"
  | search pattern cause => "regex `" ++ pattern ++ "` failed: " ++ cause.message
  | document cause => "invalid configuration: " ++ cause.message
  | unfinished => "the code could not be gone through to its end"

end Problem

end CodeMarkup
