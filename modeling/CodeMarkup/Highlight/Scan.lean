import CodeMarkup.Highlight.Outcome

/-! # Going through code

The mode on top of the stack says what is looked for. Text up to the next match is content of that
mode. A begin puts its mode on the stack, an end takes modes off it, and both report what opens and
closes. The content of a mode is searched for keywords, or gone through in another language.

`Scan.step` goes on to the next match and `Scan.run` to the end of the code. -/

namespace CodeMarkup

open Markup (Event)

/-- How to go through embedded code. -/
structure Nested (ρ : Type) where
  /-- The registered name of a language, if it is registered. -/
  resolve : String → Option String
  /-- Goes through code in a registered language, perhaps from a stack on. -/
  named : (key code : String) → Option (ModeStack ρ) → Except Problem (Outcome ρ)
  /-- Goes through code in the language that fits best, perhaps only of these. -/
  detect : (code : String) → Option (List String) → Except Problem (Outcome ρ)

/-- What stays the same while code is gone through. -/
structure Setting (ρ : Type) [Engine ρ] where
  /-- The registered name of the language. -/
  name : String
  language : Language ρ
  code : List Char
  /-- Whether what cannot occur is taken as text. -/
  ignoreIllegals : Bool
  /-- Whether problems of the grammar are to be lived with. -/
  safeMode : Bool
  nested : Nested ρ

namespace Scan

/-- What is known in the middle of code. -/
structure State (ρ : Type) where
  /-- The open modes, innermost first. -/
  frames : List (Frame ρ)
  /-- The stacks with which embedded languages have ended. -/
  embeddedStacks : Dictionary (ModeStack ρ) := .empty
  /-- The content of the top mode that has not been reported. -/
  buffer : String := ""
  /-- What has been reported, latest first. -/
  events : List Event := []
  relevance : Nat := 0
  /-- The number of matches looked for. -/
  iterations : Nat := 0
  /-- The byte offset to go on from. -/
  index : Nat := 0
  /-- The rule to go on with. -/
  firstRule : Nat := 0
  /-- Whether to go on with that rule and not with all. -/
  resume : Bool := false
  /-- The last match: what it did and where. -/
  lastMatch : Option (RuleKind × Nat) := none

namespace State

variable {ρ : Type}

/-- Reports something. -/
def emit (s : State ρ) (e : Event) : State ρ := { s with events := e :: s.events }

/-- Reports text, if there is any. -/
def emitText (s : State ρ) (t : String) : State ρ := if t.isEmpty then s else s.emit (.text t)

/-- Adds to the relevance. -/
def weigh (s : State ρ) (n : Nat) : State ρ := { s with relevance := addRelevance s.relevance n }

/-- Adds to the content of the top mode. -/
def keep (s : State ρ) (t : String) : State ρ := { s with buffer := s.buffer ++ t }

end State

/-- The number of matches after which progress is asked for. -/
def iterationLimit : Nat := 100000

/-- How many bytes around a text that cannot occur are shown. -/
def contextSize : Nat := 100

/-- The name of modes without a category. -/
def unnamedMode : String := "<unnamed>"

/-- The text between two byte offsets; empty if they are no places of the text in order. -/
def between (cs : List Char) (start stop : Nat) : String :=
  String.ofList ((Text.slice? cs start stop).getD [])

variable {ρ : Type} [Engine ρ]

/-- The mode on top of the stack. -/
def topMode (env : Setting ρ) (s : State ρ) : CompiledMode ρ :=
  match s.frames with
  | [] => env.language.root
  | f :: _ => env.language.mode f.mode

/-! ### Content -/

/-- Reports text in which these are the words, given the end of the last word and the text not
reported yet. -/
def readWords (l : Language ρ) (table : KeywordTable) (text : List Char) :
    List Regex.Span → Nat → String → State ρ → State ρ
  | [], last, pending, s => s.emitText (pending ++ between text last (Text.byteSize text))
  | w :: ws, last, pending, s =>
    let pending := pending ++ between text last w.start
    let word := between text w.start w.stop
    match table.find? l.caseInsensitive word with
    | none => readWords l table text ws w.stop (pending ++ word) s
    | some entry =>
      let s := (s.emitText pending).weigh entry.relevance
      -- such a word counts, but is shown as plain text
      if entry.category.startsWith "_" then readWords l table text ws w.stop word s
      else
        let s := if word.isEmpty then s
          else s.emit (.keyword word (l.displayClass entry.category))
        readWords l table text ws w.stop "" s

/-- Reports content with its keywords. -/
def readKeywords (l : Language ρ) (m : CompiledMode ρ) (content : String) (s : State ρ) :
    Except Problem (State ρ) :=
  match m.keywords with
  | none => .ok (s.emitText content)
  | some table =>
    match Engine.occurrences m.keywordPattern.regex content.toList with
    | .ok ws => .ok (readWords l table content.toList ws 0 "" s)
    | .error e => .error (.search m.keywordPattern.source (.overrun e))

/-- Puts what embedded code has led to in place. -/
def embed (m : CompiledMode ρ) (o : Outcome ρ) (s : State ρ) : State ρ :=
  let s := if m.relevance > 0 then s.weigh o.relevance else s
  s.emit (.embedded o.language o.events)

/-- Reports content that is written in other languages. -/
def readEmbedded (n : Nested ρ) (m : CompiledMode ρ) (d : Delegate) (content : String)
    (s : State ρ) : Except Problem (State ρ) :=
  if content.isEmpty then .ok s
  else match d with
    | .named name =>
      match n.resolve name with
      | none => .ok (s.emitText content)
      | some key =>
        -- goes on where the code before in the same language has ended
        match n.named key content (s.embeddedStacks.find? key) with
        | .error p => .error p
        | .ok o =>
          let s := match o.top with
            | some top => { s with embeddedStacks := s.embeddedStacks.insert key top }
            | none => s
          .ok (embed m o s)
    | .detect names =>
      match n.detect content (if names.isEmpty then none else some names) with
      | .error p => .error p
      | .ok o => .ok (embed m o s)

/-- Reports the content of the top mode. -/
def readContent (env : Setting ρ) (s : State ρ) : Except Problem (State ρ) :=
  let m := topMode env s
  let content := s.buffer
  let s := { s with buffer := "" }
  match m.subLanguage with
  | some d => readEmbedded env.nested m d content s
  | none => readKeywords env.language m content s

/-! ### Begins -/

/-- Takes the character at an offset as content; gives how far to go on. -/
def keepChar (env : Setting ρ) (s : State ρ) (index : Nat) : State ρ × Nat :=
  match Text.nextPlace? env.code index with
  | some next => (s.keep (between env.code index next), next - index)
  | none => (s, 1)

/-- Opens a mode. -/
def start (l : Language ρ) (s : State ρ) (f : Frame ρ) : State ρ :=
  let s := match (l.mode f.mode).className with
    | some name => s.emit (.opening (l.displayClass name))
    | none => s
  { s with frames := f :: s.frames }

/-- Goes on after a begin that does not count: with the rules behind it at the same place, or behind
the next character if there are none. -/
def passBegin (env : Setting ρ) (s : State ρ) (found : Found) : State ρ × Nat :=
  if s.firstRule = 0 then keepChar env s found.index else ({ s with resume := true }, 0)

/-- Whether a begin counts, and what its guard remembers. -/
def admits (env : Setting ρ) (m : CompiledMode ρ) (found : Found) : Bool × Memory :=
  if m.skipAfterDot &&
      ((Text.splitAt? env.code found.index).map (·.1.getLast?) == some (some '.')) then
    (false, .empty)
  else match m.onBegin with
    | some guard => guard found .empty
    | none => (true, .empty)

/-- The end of a mode that ends as it has begun. -/
def endLike (env : Setting ρ) (m : CompiledMode ρ) (lexeme : String) :
    Except Problem (Option (Prepared ρ)) :=
  if m.endSameAsBegin then
    let literal := Pattern.escape lexeme
    match Prepared.compile env.language.caseInsensitive literal with
    | .ok re => .ok (some re)
    | .error fault => .error (.search literal (.refused fault))
  else .ok none

/-- Reports the content before a begin and keeps the text of the begin where it belongs. -/
def contentAtBegin (env : Setting ρ) (m : CompiledMode ρ) (lexeme : String) (s : State ρ) :
    Except Problem (State ρ) :=
  if m.skip then .ok (s.keep lexeme)
  else
    match readContent env (if m.excludeBegin then s.keep lexeme else s) with
    | .error p => .error p
    | .ok s => .ok (if m.returnBegin || m.excludeBegin then s else { s with buffer := lexeme })

/-- Follows the begin of a mode; gives how far to go on. -/
def followBegin (env : Setting ρ) (s : State ρ) (found : Found) (id : Nat) :
    Except Problem (State ρ × Nat) :=
  let m := env.language.mode id
  let (admitted, memory) := admits env m found
  if admitted then
    match endLike env m found.lexeme with
    | .error p => .error p
    | .ok endOverride =>
      match contentAtBegin env m found.lexeme s with
      | .error p => .error p
      | .ok s =>
        .ok (start env.language s ⟨id, endOverride, memory⟩,
          if m.returnBegin then 0 else found.lexeme.utf8ByteSize)
  else .ok (passBegin env s found)

/-! ### Ends -/

/-- Whether the end of a frame's mode is at a match, and what the frame remembers then. -/
def endsAt (env : Setting ρ) (found : Found) (f : Frame ρ) : Except Problem (Bool × Frame ρ) :=
  let m := env.language.mode f.mode
  match f.endOverride <|> m.endRegex with
  | none => .ok (false, f)
  | some re =>
    match Engine.matchesAt re.regex env.code found.index with
    | .error e => .error (.search re.source (.overrun e))
    | .ok false => .ok (false, f)
    | .ok true =>
      match m.onEnd with
      | none => .ok (true, f)
      | some guard =>
        let (accepted, memory) := guard found f.memory
        .ok (accepted, { f with memory })

/-- The place on the stack, from the root, of the outermost frame that ends with the innermost one.
-/
def outermostEnding (l : Language ρ) : List (Frame ρ) → Nat
  | [] => 0
  | f :: fs =>
    -- what lies right on the root does not end the root
    if 1 < fs.length && (l.mode f.mode).endsParent then outermostEnding l fs else fs.length

/-- The place on the stack, from the root, of the outermost frame that ends at a match, if any does,
and the frames with what they remember then. -/
def endingFrame (env : Setting ρ) (found : Found) :
    List (Frame ρ) → Except Problem (Option Nat × List (Frame ρ))
  | [] => .ok (none, [])
  | f :: fs =>
    match endsAt env found f with
    | .error p => .error p
    | .ok (true, f) => .ok (some (outermostEnding env.language (f :: fs)), f :: fs)
    | .ok (false, f) =>
      -- the end is not its own, but can still be that of the mode around it
      if (env.language.mode f.mode).endsWithParent && !fs.isEmpty then
        match endingFrame env found fs with
        | .error p => .error p
        | .ok (ending, fs) => .ok (ending, f :: fs)
      else .ok (none, f :: fs)

/-- Closes the mode of a frame that has been taken off the stack. -/
def stop (m : CompiledMode ρ) (s : State ρ) : State ρ :=
  let s := if m.className.isSome then s.emit .closing else s
  if m.skip || m.subLanguage.isSome then s else s.weigh m.relevance

/-- Takes so many frames off the stack; gives the last of them. -/
def close (l : Language ρ) : Nat → Option (Frame ρ) → State ρ → State ρ × Option (Frame ρ)
  | 0, ended, s => (s, ended)
  | n + 1, ended, s =>
    match s.frames with
    | [] => (s, ended)
    | f :: fs => close l n (some f) (stop (l.mode f.mode) { s with frames := fs })

/-- Reports the content before an end and keeps the text of the end where it belongs. -/
def contentAtEnd (env : Setting ρ) (m : CompiledMode ρ) (lexeme : String) (s : State ρ) :
    Except Problem (State ρ) :=
  if m.skip then .ok (s.keep lexeme)
  else
    match readContent env (if m.returnEnd || m.excludeEnd then s else s.keep lexeme) with
    | .error p => .error p
    | .ok s => .ok (if m.excludeEnd then { s with buffer := lexeme } else s)

/-- Opens the mode that follows one that has ended. -/
def startNext (l : Language ρ) (ended : Option (Frame ρ)) (s : State ρ) : State ρ :=
  match ended with
  | none => s
  | some f =>
    let m := l.mode f.mode
    match m.starts with
    | none => s
    | some next => start l s ⟨next, if m.endSameAsBegin then f.endOverride else none, .empty⟩

/-- Follows an end; gives how far to go on, or nothing if no open mode ends there. -/
def followEnd (env : Setting ρ) (s : State ρ) (found : Found) :
    Except Problem (State ρ × Option Nat) :=
  match endingFrame env found s.frames with
  | .error p => .error p
  | .ok (none, frames) => .ok ({ s with frames }, none)
  | .ok (some place, frames) =>
    let s := { s with frames }
    let origin := topMode env s
    match contentAtEnd env origin found.lexeme s with
    | .error p => .error p
    | .ok s =>
      -- the root stays, even where it is the outermost to end
      let (s, ended) := close env.language (s.frames.length - max place 1) none s
      .ok (startNext env.language ended s,
        some (if origin.returnEnd then 0 else found.lexeme.utf8ByteSize))

/-! ### Matches -/

/-- What is said about a text that cannot occur where it does. -/
def illegalAt (env : Setting ρ) (s : State ρ) (found : Found) : Problem :=
  let first := Text.floorPlace env.code (found.index - contextSize)
  let last := Text.ceilPlace env.code (found.index + contextSize)
  .illegalLexeme env.name ((topMode env s).className.getD unnamedMode) found.lexeme found.index
    (between env.code first last)

/-- Takes a match as content; gives how far to go on. -/
def keepMatch (env : Setting ρ) (s : State ρ) (found : Found) : Except Problem (State ρ × Nat) :=
  if s.iterations > iterationLimit && s.iterations > found.index * 3 then
    .error (.infiniteLoop env.name s.iterations)
  else .ok (s.keep found.lexeme, found.lexeme.utf8ByteSize)

/-- The mode that began with the last match, if an empty end right there follows. -/
def emptyMode? (s : State ρ) (found : Found) : Option Nat :=
  match s.lastMatch with
  | some (.begins id, index) =>
    if found.kind = .ends ∧ index = found.index ∧ found.lexeme.isEmpty then some id else none
  | _ => none

/-- Follows a match; gives how far to go on. -/
def follow (env : Setting ρ) (s : State ρ) (found : Found) : Except Problem (State ρ × Nat) :=
  match emptyMode? s found with
  | some id =>
    -- followed, the mode would begin here again and again
    if env.safeMode then .ok (keepChar env s found.index)
    else .error (.zeroWidthMatch env.name (env.language.mode id).beginPattern)
  | none =>
    let s := { s with lastMatch := some (found.kind, found.index) }
    match found.kind with
    | .begins id => followBegin env s found id
    | .illegal =>
      if !env.ignoreIllegals then .error (illegalAt env s found)
      else if found.lexeme.isEmpty then .ok (keepChar env s found.index)
      else keepMatch env s found
    | .ends =>
      match followEnd env s found with
      | .error p => .error p
      | .ok (s, some taken) => .ok (s, taken)
      | .ok (s, none) => keepMatch env s found

/-! ### Steps -/

/-- The state in which the next match is looked for. -/
def next (s : State ρ) : State ρ :=
  { s with iterations := s.iterations + 1, firstRule := if s.resume then s.firstRule else 0,
           resume := false }

/-- Goes on to the next match and follows it; nothing if there is none. -/
def step (env : Setting ρ) (s : State ρ) : Except Problem (Option (State ρ)) :=
  let s := next s
  match (topMode env s).matcher.find s.firstRule env.code s.index with
  | .error p => .error p
  | .ok none => .ok none
  | .ok (some (found, firstRule)) =>
    let s := { s.keep (between env.code s.index found.index) with firstRule }
    match follow env s found with
    | .error p => .error p
    | .ok (s, taken) => .ok (some { s with index := found.index + taken })

/-- Reports what is left when nothing is found any more. -/
def finish (env : Setting ρ) (s : State ρ) : Except Problem (State ρ) :=
  readContent env (s.keep (between env.code s.index (Text.byteSize env.code)))

/-- Goes through the code to its end, in so many steps at most. -/
def run (env : Setting ρ) : Nat → State ρ → Except Problem (State ρ)
  | 0, _ => .error .unfinished
  | steps + 1, s =>
    match step env s with
    | .error p => .error p
    | .ok none => finish env s
    | .ok (some s) => run env steps s

/-- The number of steps that going through code can take: at each of its places each of the modes
may begin and end by each of its rules, and progress is asked for after a while. -/
def stepBound (env : Setting ρ) (frames : Nat) : Nat :=
  let rules := env.language.modes.foldl (fun n m => n + m.matcher.rules.length + 1) 0
  Nat.pow (Text.byteSize env.code + frames + rules + iterationLimit) 6

/-- The state before the code, with these modes open. -/
def initial (l : Language ρ) (frames : List (Frame ρ)) : State ρ :=
  frames.dropLast.foldr (fun f s =>
    match (l.mode f.mode).className with
    | some name => s.emit (.opening (l.displayClass name))
    | none => s) { frames }

/-- What is known when the code has been gone through. -/
def finished (env : Setting ρ) (s : State ρ) : Outcome ρ :=
  ⟨some env.name, s.relevance, s.events.reverse ++ [.closingAll, .finish], false,
    some ⟨env.name, s.frames⟩, none⟩

/-- What going through the code with these modes open has led to. -/
def outcome (env : Setting ρ) (frames : List (Frame ρ)) : Except Problem (Outcome ρ) :=
  (run env (stepBound env frames.length) (initial env.language frames)).map (finished env)

end Scan

end CodeMarkup
