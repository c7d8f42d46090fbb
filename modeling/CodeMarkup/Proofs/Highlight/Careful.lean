import CodeMarkup.Highlight.Scan

/-! # Going through code carefully

Going through code cuts out parts of texts and looks up modes, rules and frames. Here it is done
again, step by step, so that nothing comes of it where a part, a mode, a rule or a frame is not
there: not even a problem (`Careful`). -/

namespace CodeMarkup

open Regex (Span Captures)
open Scan (State)

/-- What comes of something in which all that is looked up has to be there. -/
abbrev Careful (α : Type) : Type := ExceptT Problem Option α

namespace Careful

variable {α β : Type}

/-- What is looked up, if it is there. -/
def look (o : Option α) : Careful α := ExceptT.lift o

/-- What has come of something in which nothing is looked up. -/
def give (result : Except Problem α) : Careful α := ExceptT.mk (some result)

@[simp] theorem look_some (a : α) : look (some a) = pure a := rfl

@[simp] theorem give_ok (a : α) : give (.ok a) = pure a := rfl

variable {ρ : Type} [Engine ρ]

/-! ### Matches -/

/-- The text between two byte offsets. -/
def part (cs : List Char) (start stop : Nat) : Careful String :=
  return String.ofList (← look (Text.slice? cs start stop))

/-- The text that a group matched. -/
def groupText (text : List Char) (c : Captures) (group : Nat) : Careful (Option String) :=
  match c.get? group with
  | some s => return some (← part text s.start s.stop)
  | none => return none

/-- The match that captures in a text record, of one of these rules. -/
def foundIn (ch : Choice ρ) (all : List Rule) (text : List Char) (c : Captures) :
    Careful (Option Found) :=
  match c.get? 0, Choice.participant? c 1 ch.first ch.rules with
  | some whole, some (_, group, position) => do
    let r ← look all[position]?
    let groups ← (List.range (r.groups + 1)).mapM fun g => groupText text c (group + g)
    return some ⟨whole.start, groups, r.kind, position⟩
  | _, _ => return none

/-- The first match at or after an offset, among the rules from one of them on. -/
def searchFrom (m : Matcher ρ) (first : Nat) (text : List Char) (offset : Nat) :
    Careful (Option Found) := do
  let lazy ← look m.choices[first]?
  let ch ← give (match lazy.get with
    | .ok ch => .ok ch
    | .error (source, fault) => .error (.search source (.refused fault)))
  match ch.regex? with
  | none => return none
  | some regex =>
    match Engine.search regex text offset with
    | .ok none => return none
    | .ok (some c) => foundIn ch m.rules text c
    | .error e => give (.error (.search ch.source (.overrun e)))

/-- The next match at or after an offset and the rule to go on with. -/
def find (m : Matcher ρ) (first : Nat) (text : List Char) (offset : Nat) :
    Careful (Option (Found × Nat)) := do
  let here ← searchFrom m first text offset
  let found ←
    if first = 0 || here.any (·.index == offset) then pure here
    else match Text.nextPlace? text offset with
      | some next => searchFrom m 0 text next
      | none => pure none
  return found.map fun f => (f, m.ruleAfter f)

/-! ### Content -/

/-- The mode on top of the stack. -/
def topMode (env : Setting ρ) (s : State ρ) : Careful (CompiledMode ρ) := do
  let f ← look s.frames.head?
  look (env.language.mode? f.mode)

/-- Reports text in which these are the words. -/
def readWords (l : Language ρ) (table : KeywordTable) (text : List Char) :
    List Span → Nat → String → State ρ → Careful (State ρ)
  | [], last, pending, s => do
    return s.emitText (pending ++ (← part text last (Text.byteSize text)))
  | w :: ws, last, pending, s => do
    let pending := pending ++ (← part text last w.start)
    let word ← part text w.start w.stop
    match table.find? l.caseInsensitive word with
    | none => readWords l table text ws w.stop (pending ++ word) s
    | some entry =>
      let s := (s.emitText pending).weigh entry.relevance
      if entry.category.startsWith "_" then readWords l table text ws w.stop word s
      else
        let s := if word.isEmpty then s
          else s.emit (.keyword word (l.displayClass entry.category))
        readWords l table text ws w.stop "" s

/-- Reports content with its keywords. -/
def readKeywords (l : Language ρ) (m : CompiledMode ρ) (content : String) (s : State ρ) :
    Careful (State ρ) :=
  match m.keywords with
  | none => return s.emitText content
  | some table =>
    match Engine.occurrences m.keywordPattern.regex content.toList with
    | .ok ws => readWords l table content.toList ws 0 "" s
    | .error e => give (.error (.search m.keywordPattern.source (.overrun e)))

/-- Reports the content of the top mode. -/
def readContent (env : Setting ρ) (s : State ρ) : Careful (State ρ) := do
  let m ← topMode env s
  let content := s.buffer
  let s := { s with buffer := "" }
  match m.subLanguage with
  | some d => give (Scan.readEmbedded env.nested m d content s)
  | none => readKeywords env.language m content s

/-! ### Begins -/

/-- Takes the character at an offset as content. -/
def keepChar (env : Setting ρ) (s : State ρ) (index : Nat) : Careful (State ρ × Nat) :=
  match Text.nextPlace? env.code index with
  | some next => return (s.keep (← part env.code index next), next - index)
  | none => return (s, 1)

/-- Opens a mode. -/
def start (l : Language ρ) (s : State ρ) (f : Frame ρ) : Careful (State ρ) := do
  let m ← look (l.mode? f.mode)
  let s := match m.className with
    | some name => s.emit (.opening (l.displayClass name))
    | none => s
  return { s with frames := f :: s.frames }

/-- Goes on after a begin that does not count. -/
def passBegin (env : Setting ρ) (s : State ρ) (found : Found) : Careful (State ρ × Nat) :=
  if s.firstRule = 0 then keepChar env s found.index else return ({ s with resume := true }, 0)

/-- Whether a begin counts, and what its guard remembers. -/
def admits (env : Setting ρ) (m : CompiledMode ρ) (found : Found) : Careful (Bool × Memory) := do
  let refused ←
    if m.skipAfterDot then do
      let (before, _) ← look (Text.splitAt? env.code found.index)
      pure (before.getLast? == some '.')
    else pure false
  return if refused then (false, .empty)
    else match m.onBegin with
      | some guard => guard found .empty
      | none => (true, .empty)

/-- Reports the content before a begin and keeps the text of the begin where it belongs. -/
def contentAtBegin (env : Setting ρ) (m : CompiledMode ρ) (lexeme : String) (s : State ρ) :
    Careful (State ρ) :=
  if m.skip then return s.keep lexeme
  else do
    let s ← readContent env (if m.excludeBegin then s.keep lexeme else s)
    return if m.returnBegin || m.excludeBegin then s else { s with buffer := lexeme }

/-- Follows the begin of a mode. -/
def followBegin (env : Setting ρ) (s : State ρ) (found : Found) (id : Nat) :
    Careful (State ρ × Nat) := do
  let m ← look (env.language.mode? id)
  let (admitted, memory) ← admits env m found
  if admitted then
    let endOverride ← give (Scan.endLike env m found.lexeme)
    let s ← contentAtBegin env m found.lexeme s
    let s ← start env.language s ⟨id, endOverride, memory⟩
    return (s, if m.returnBegin then 0 else found.lexeme.utf8ByteSize)
  else passBegin env s found

/-! ### Ends -/

/-- Whether the end of a frame's mode is at a match. -/
def endsAt (env : Setting ρ) (found : Found) (f : Frame ρ) : Careful (Bool × Frame ρ) := do
  let m ← look (env.language.mode? f.mode)
  match f.endOverride <|> m.endRegex with
  | none => return (false, f)
  | some re =>
    match Engine.matchesAt re.regex env.code found.index with
    | .error e => give (.error (.search re.source (.overrun e)))
    | .ok false => return (false, f)
    | .ok true =>
      match m.onEnd with
      | none => return (true, f)
      | some guard =>
        let (accepted, memory) := guard found f.memory
        return (accepted, { f with memory })

/-- The place on the stack of the outermost frame that ends with the innermost one. -/
def outermostEnding (l : Language ρ) : List (Frame ρ) → Careful Nat
  | [] => look none
  | f :: fs => do
    if 1 < fs.length then
      let m ← look (l.mode? f.mode)
      if m.endsParent then outermostEnding l fs else return fs.length
    else return fs.length

/-- The place on the stack of the outermost frame that ends at a match, if any does, and the frames
with what they remember then. -/
def endingFrame (env : Setting ρ) (found : Found) :
    List (Frame ρ) → Careful (Option Nat × List (Frame ρ))
  | [] => look none
  | f :: fs => do
    let (ends, f) ← endsAt env found f
    if ends then return (some (← outermostEnding env.language (f :: fs)), f :: fs)
    else
      let m ← look (env.language.mode? f.mode)
      if m.endsWithParent && !fs.isEmpty then
        let (ending, fs) ← endingFrame env found fs
        return (ending, f :: fs)
      else return (none, f :: fs)

/-- Takes so many frames off the stack. -/
def close (l : Language ρ) : Nat → Option (Frame ρ) → State ρ → Careful (State ρ × Option (Frame ρ))
  | 0, ended, s => return (s, ended)
  | n + 1, _, s => do
    let f ← look s.frames.head?
    let m ← look (l.mode? f.mode)
    close l n (some f) (Scan.stop m { s with frames := s.frames.tail })

/-- Reports the content before an end and keeps the text of the end where it belongs. -/
def contentAtEnd (env : Setting ρ) (m : CompiledMode ρ) (lexeme : String) (s : State ρ) :
    Careful (State ρ) :=
  if m.skip then return s.keep lexeme
  else do
    let s ← readContent env (if m.returnEnd || m.excludeEnd then s else s.keep lexeme)
    return if m.excludeEnd then { s with buffer := lexeme } else s

/-- Opens the mode that follows one that has ended. -/
def startNext (l : Language ρ) (ended : Option (Frame ρ)) (s : State ρ) : Careful (State ρ) :=
  match ended with
  | none => return s
  | some f => do
    let m ← look (l.mode? f.mode)
    match m.starts with
    | none => return s
    | some next => start l s ⟨next, if m.endSameAsBegin then f.endOverride else none, .empty⟩

/-- Follows an end. -/
def followEnd (env : Setting ρ) (s : State ρ) (found : Found) : Careful (State ρ × Option Nat) := do
  let (ending, frames) ← endingFrame env found s.frames
  let s := { s with frames }
  match ending with
  | none => return (s, none)
  | some place =>
    let origin ← topMode env s
    let s ← contentAtEnd env origin found.lexeme s
    let (s, ended) ← close env.language (s.frames.length - max place 1) none s
    let s ← startNext env.language ended s
    return (s, some (if origin.returnEnd then 0 else found.lexeme.utf8ByteSize))

/-! ### Steps -/

/-- What is said about a text that cannot occur where it does. -/
def illegalAt (env : Setting ρ) (s : State ρ) (found : Found) : Careful Problem := do
  let first := Text.floorPlace env.code (found.index - Scan.contextSize)
  let last := Text.ceilPlace env.code (found.index + Scan.contextSize)
  let m ← topMode env s
  return .illegalLexeme env.name (m.className.getD Scan.unnamedMode) found.lexeme found.index
    (← part env.code first last)

/-- Follows a match. -/
def follow (env : Setting ρ) (s : State ρ) (found : Found) : Careful (State ρ × Nat) :=
  match Scan.emptyMode? s found with
  | some id =>
    if env.safeMode then keepChar env s found.index
    else do
      let m ← look (env.language.mode? id)
      give (.error (.zeroWidthMatch env.name m.beginPattern))
  | none =>
    let s := { s with lastMatch := some (found.kind, found.index) }
    match found.kind with
    | .begins id => followBegin env s found id
    | .illegal =>
      if !env.ignoreIllegals then do
        give (.error (← illegalAt env s found))
      else if found.lexeme.isEmpty then keepChar env s found.index
      else give (Scan.keepMatch env s found)
    | .ends => do
      match ← followEnd env s found with
      | (s, some taken) => return (s, taken)
      | (s, none) => give (Scan.keepMatch env s found)

/-- Goes on to the next match and follows it. -/
def step (env : Setting ρ) (s : State ρ) : Careful (Option (State ρ)) := do
  let s := Scan.next s
  let m ← topMode env s
  match ← find m.matcher s.firstRule env.code s.index with
  | none => return none
  | some (found, firstRule) =>
    -- No part has to be there: an offset that has gone past the code has nothing before a match.
    let s := { s.keep (Scan.between env.code s.index found.index) with firstRule }
    let (s, taken) ← follow env s found
    return some { s with index := found.index + taken }

/-- Reports what is left when nothing is found any more. -/
def finish (env : Setting ρ) (s : State ρ) : Careful (State ρ) :=
  readContent env (s.keep (Scan.between env.code s.index (Text.byteSize env.code)))

/-- Opens modes again that are open before the code. -/
def reopen (l : Language ρ) : List (Frame ρ) → State ρ → Careful (State ρ)
  | [], s => return s
  | f :: fs, s => do
    let s ← reopen l fs s
    let m ← look (l.mode? f.mode)
    return match m.className with
      | some name => s.emit (.opening (l.displayClass name))
      | none => s

/-- The state before the code, with these modes open. -/
def initial (l : Language ρ) (frames : List (Frame ρ)) : Careful (State ρ) :=
  reopen l frames.dropLast { frames }

end Careful

end CodeMarkup
