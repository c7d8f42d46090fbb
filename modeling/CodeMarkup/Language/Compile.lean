import CodeMarkup.Language.Basic

/-! # Compiling grammars

Modes are numbered in the order in which they are met, a mode before its children and the mode that
follows it after them. A mode that is met again keeps its number, so that modes can contain each
other. Only where the end of a mode is also given by the mode around it, it is a mode of its own in
each of them. -/

namespace CodeMarkup

namespace Language

variable {ρ : Type} [Engine ρ]

/-! ### The fields of one mode -/

/-- What a word looks like unless a grammar says otherwise. -/
def defaultWordPattern : String := "\\w+"

/-- The pattern of one of these words, not followed by a point. -/
def wordsPattern (words : String) : String :=
  "\\b(" ++ "|".intercalate (Text.words words) ++ ")(?!\\.)(?=\\b|\\s)"

/-- The begin of a mode as its grammar says it. -/
def writtenBegin (m : Mode) : Except GrammarProblem (Option String) :=
  match m.matchPattern with
  | none => .ok m.beginPattern
  | some pattern =>
    if m.beginPattern.isSome || m.endPattern.isSome then .error .matchWithBeginOrEnd
    else .ok (some pattern)

/-- The mode that a mode beginning with keywords stands for. -/
structure BeginWords where
  beginPattern : Option String
  keywords : Option Keywords
  relevance : Option Nat
  skipAfterDot : Bool

/-- What beginning with keywords does to a mode; the root cannot begin with any. -/
def beginWords (m : Mode) (begin? : Option String) (isRoot : Bool) : BeginWords :=
  match m.beginKeywords, isRoot with
  | some words, false =>
    ⟨some (wordsPattern words), m.keywords <|> some (Keywords.ofWords words),
      m.relevance <|> some 0, true⟩
  | _, _ => ⟨begin?, m.keywords, m.relevance, false⟩

/-- The pattern of what cannot occur in a mode. -/
def illegalPattern : Option Illegal → Option String
  | some (.one pattern) => some pattern
  | some (.any (p :: ps)) => some (Pattern.either (p :: ps))
  | _ => none

/-- The source of what a word looks like. -/
def wordSource (m : Mode) (keywords : Option Keywords) : Except GrammarProblem String :=
  match keywords.bind Keywords.pattern, m.lexemes with
  | some _, some _ => .error .patternAndLexemes
  | some pattern, none => .ok pattern
  | none, some pattern => .ok pattern
  | none, none => .ok defaultWordPattern

/-- Compiles a pattern of a mode. -/
def prepare (foldCase : Bool) (source : String) : Except GrammarProblem (Prepared ρ) :=
  match Prepared.compile foldCase source with
  | .ok re => .ok re
  | .error fault => .error (.badPattern source fault)

/-- The end of a mode by itself: its begin if it ends as it begins, nothing if it only ends with its
parent, else the empty text if nothing is said. -/
def ownEnd (m : Mode) (beginPattern : String) : Option String :=
  if m.endSameAsBegin == some true then some beginPattern
  else match m.endPattern with
    | some pattern => some pattern
    | none => if m.endsWithParent == some true then none else some Pattern.everywhere

/-- The end of a mode by itself or with its parent. -/
def terminatorOf (m : Mode) (endPattern : Option String) (parentTerminator : String) : String :=
  if m.endsWithParent == some true && !parentTerminator.isEmpty then
    match endPattern with
    | some pattern => pattern ++ "|" ++ parentTerminator
    | none => parentTerminator
  else endPattern.getD ""

/-- The begin, the end and the terminator of a mode; the root has none. -/
def boundaries (m : Mode) (begin? : Option String) :
    Option String → String × Option String × String
  | none => ("", none, "")
  | some parentTerminator =>
    let beginPattern := begin?.getD Pattern.everywhere
    let endPattern := ownEnd m beginPattern
    (beginPattern, endPattern, terminatorOf m endPattern parentTerminator)

/-- The mode without its links to other modes, given the terminator of its parent if it has one. -/
def ownFields (foldCase : Bool) (m : Mode) (parentTerminator : Option String) :
    Except GrammarProblem (CompiledMode ρ) := do
  let written ← writtenBegin m
  let words := beginWords m written parentTerminator.isNone
  let keywordPattern ← prepare foldCase (← wordSource m words.keywords)
  let keywords ← words.keywords.mapM (KeywordTable.compile foldCase)
  let (beginPattern, endPattern, terminator) :=
    boundaries m words.beginPattern parentTerminator
  let endRegex ← endPattern.mapM (prepare foldCase)
  return {
    className := m.className
    beginPattern, endPattern, endRegex, terminator
    illegal := illegalPattern m.illegal
    keywords, keywordPattern
    relevance := words.relevance.getD 1
    endsWithParent := m.endsWithParent.getD false
    endsParent := m.endsParent.getD false
    endSameAsBegin := m.endSameAsBegin.getD false
    skip := m.skip.getD false
    excludeBegin := m.excludeBegin.getD false
    excludeEnd := m.excludeEnd.getD false
    returnBegin := m.returnBegin.getD false
    returnEnd := m.returnEnd.getD false
    subLanguage := m.subLanguage
    skipAfterDot := words.skipAfterDot
    onBegin := m.onBegin
    onEnd := m.onEnd
    children := []
    starts := none
    matcher := .empty }

/-! ### Numbering -/

/-- What makes a mode one and the same: its place on the shelf, the variant laid over it, and the
mode around it if its end depends on that. -/
structure Identity where
  key : Key
  variant : Option Nat
  parent : Option Nat
  deriving DecidableEq, Repr

/-- The modes numbered so far. -/
structure Arena (ρ : Type) [Engine ρ] where
  modes : Array (CompiledMode ρ) := #[]
  known : List (Identity × Nat) := []

namespace Arena

/-- The number of a mode that has been met before. -/
def number? (a : Arena ρ) (i : Identity) : Option Nat := a.known.lookup i

/-- The terminator of a mode. -/
def terminator (a : Arena ρ) (id : Nat) : String := (a.modes[id]?.map (·.terminator)).getD ""

/-- Adds a mode, which has the next number. -/
def add (a : Arena ρ) (m : CompiledMode ρ) (i : Option Identity) : Arena ρ where
  modes := a.modes.push m
  known := (i.map (·, a.modes.size)).toList ++ a.known

/-- The rules of a mode in order: the begins of its children, its end, and what cannot occur in it.
-/
def rules (a : Arena ρ) (id : Nat) (children : List Nat) : List (RuleKind × String) :=
  match a.modes[id]? with
  | none => []
  | some m =>
    children.map (fun child =>
      (.begins child, (a.modes[child]?.map (·.beginPattern)).getD "")) ++
    (if m.terminator.isEmpty then [] else [(.ends, m.terminator)]) ++
    (m.illegal.map fun pattern => (.illegal, pattern)).toList

/-- Gives a mode its links to other modes. -/
def link (a : Arena ρ) (id : Nat) (children : List Nat) (starts : Option Nat)
    (matcher : Matcher ρ) : Arena ρ :=
  { a with modes := a.modes.modify id fun m => { m with children, starts, matcher } }

end Arena

/-- Numbers modes. -/
abbrev Compiling (ρ : Type) [Engine ρ] := StateT (Arena ρ) (Except GrammarProblem)

/-- What makes a mode one and the same inside a parent. -/
def identity (shelf : Shelf) (key : Key) (variant : Option Nat) (m : Mode) (parent : Option Nat) :
    Identity :=
  ⟨key, variant, if shelf.dependsOnParent m then parent else none⟩

section Children

variable (shelf : Shelf) (compile : Mode → Option Identity → Option Nat → Compiling ρ Nat)

/-- The numbers of the variants of a mode inside a parent. -/
def variantIds (key : Key) (m : Mode) (parent : Nat) : Nat → List Key → Compiling ρ (List Nat)
  | _, [] => return []
  | index, v :: vs => do
    let variant := shelf.mode v
    if variant.variants.any (!·.isEmpty) then throw .nestedVariants
    let merged := m.merge variant
    let id ← compile merged (identity shelf key (some index) merged (some parent)) (some parent)
    return id :: (← variantIds key m parent (index + 1) vs)

/-- The numbers that a mode on the shelf has inside a parent: one, or one for each variant. -/
def expand (key : Key) (parent : Nat) : Compiling ρ (List Nat) :=
  let m := shelf.mode key
  match m.variants with
  | some (v :: vs) => variantIds shelf compile key m parent 0 (v :: vs)
  | _ => do
    let id ← compile m (identity shelf key none m (some parent)) (some parent)
    return [id]

/-- The numbers of the children of a mode. -/
def childIds (id : Nat) : List Child → Compiling ρ (List Nat)
  | [] => return []
  | .self :: cs => do
    return id :: (← childIds id cs)
  | .mode key :: cs => do
    let ids ← expand shelf compile key id
    return ids ++ (← childIds id cs)
  | .late slot :: cs =>
    match shelf.inSlot? slot with
    | none => throw .unsetSlot
    | some key => do
      let ids ← expand shelf compile key id
      return ids ++ (← childIds id cs)

end Children

/-- The number of a mode inside a parent. The first argument bounds how deep modes are followed. -/
def compileMode (shelf : Shelf) (foldCase : Bool) :
    Nat → Mode → Option Identity → Option Nat → Compiling ρ Nat
  | 0, _, _, _ => throw .endless
  | depth + 1, m, i, parent => do
    let arena ← get
    match i.bind arena.number? with
    | some id => return id
    | none =>
      let own ← ownFields foldCase m (parent.map arena.terminator)
      let id := arena.modes.size
      -- known before its links are followed, which may lead back to it
      set (arena.add own i)
      let children ← childIds shelf (compileMode shelf foldCase depth) id (m.contains.getD [])
      let starts ← match m.starts with
        | none => pure none
        | some key =>
          let next := shelf.mode key
          let i := identity shelf key none next parent
          some <$> compileMode shelf foldCase depth next i parent
      let matcher ← Matcher.ofRules ((← get).rules id children) foldCase
      modify (·.link id children starts matcher)
      return id

/-- How deep modes are followed: on a way on which no mode comes back inside the same parent there
are not more. -/
def depthBound (shelf : Shelf) : Nat := Nat.pow (shelf.places.length + 2) 2

/-- Numbers the modes of a grammar from the root on. -/
def compileRoot (g : Grammar) : Compiling ρ Nat := do
  if (g.root.contains.getD []).contains .self then throw .selfAtRoot
  compileMode g.shelf g.caseInsensitive (depthBound g.shelf) g.root none none

/-- Makes a grammar ready for code; the name is displayed if the grammar has none. -/
def compile (g : Grammar) (name : String) : Except Problem (Language ρ) :=
  let name := g.name.getD name
  match (compileRoot g).run {} with
  | .error cause => .error (.grammar name cause)
  | .ok (_, arena) =>
    if size_pos : 0 < arena.modes.size then
      .ok {
        name
        aliases := g.aliases
        caseInsensitive := g.caseInsensitive
        disableAutodetect := g.disableAutodetect
        supersetOf := g.supersetOf
        classNameAliases := g.classNameAliases
        modes := arena.modes
        size_pos }
    else .error (.grammar name .endless)

end Language

end CodeMarkup
