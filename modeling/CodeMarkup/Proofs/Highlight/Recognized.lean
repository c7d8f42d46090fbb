import CodeMarkup.Proofs.Highlight.Account
import CodeMarkup.Proofs.Highlight.Lossless
import CodeMarkup.Proofs.Language.Declared
import CodeMarkup.Proofs.Language.Lawful

/-! # Keywords as they were declared

Reading content with its keywords reports plain events only, text and keywords, whose texts are the
content (`Scan.Reports`). Which matches are reported as keywords, under which category, and what they
count for is here said by the words of the mode as they were declared, of which the last declaration
counts (`Scan.readKeywords_declared`). A match that is declared under a category whose name begins
with an underscore counts but is text, and so is an empty one. -/

namespace CodeMarkup

open Markup (Event)
open Regex (Span)

variable {ρ : Type} [Engine ρ]

namespace Markup.Event

/-- Text, or a keyword. -/
def isPlain : Event → Bool
  | .text _ => true
  | .keyword _ _ => true
  | _ => false

/-- The word of a keyword and its category. -/
def keyword? : Event → Option (String × String)
  | .keyword word kind => some (word, kind)
  | _ => none

end Markup.Event

namespace Scan

/-! ### What is reported -/

/-- Only the events and the relevance have changed, plain events have been reported, and these are
the keywords among them. -/
def Reports (s s' : State ρ) (words : List (String × String)) : Prop :=
  ∃ events : List Event,
    s' = { s with events := events.reverse ++ s.events, relevance := s'.relevance } ∧
    (∀ e ∈ events, e.isPlain) ∧ events.filterMap Event.keyword? = words

section Reports

omit [Engine ρ]

theorem reports_weigh (s : State ρ) (n : ℕ) : Reports s (s.weigh n) [] := ⟨[], rfl, nofun, rfl⟩

theorem Reports.append {s t u : State ρ} {words more : List (String × String)}
    (h : Reports s t words) (h' : Reports t u more) : Reports s u (words ++ more) := by
  obtain ⟨events, ht, hplain, hwords⟩ := h
  obtain ⟨events', hu, hplain', hmore⟩ := h'
  refine ⟨events ++ events', ?_, List.forall_mem_append.mpr ⟨hplain, hplain'⟩, ?_⟩
  · rw [hu, ht, List.reverse_append, List.append_assoc]
  · rw [List.filterMap_append, hwords, hmore]

theorem reports_emitText (s : State ρ) (t : String) : Reports s (s.emitText t) [] := by
  unfold State.emitText
  split
  · exact ⟨[], rfl, nofun, rfl⟩
  · exact ⟨[.text t], rfl, by simp [Event.isPlain], rfl⟩

theorem reports_emit_keyword (s : State ρ) (word kind : String) :
    Reports s (s.emit (.keyword word kind)) [(word, kind)] :=
  ⟨[.keyword word kind], rfl, by simp [Event.isPlain], rfl⟩

end Reports

/-- What a match is reported as, if it is a keyword that is shown. -/
def shown? (l : Language ρ) (table : KeywordTable) (text : List Char) (w : Span) :
    Option (String × String) :=
  (keyword? l table text w).bind fun (word, entry) =>
    if word.isEmpty || entry.category.startsWith "_" then none
    else some (word, l.displayClass entry.category)

/-- The keywords that are shown are reported in order. -/
theorem reports_readWords (l : Language ρ) (table : KeywordTable) (text : List Char) :
    ∀ (ws : List Span) (last : ℕ) (pending : String) (s : State ρ),
      Reports s (readWords l table text ws last pending s) (ws.filterMap (shown? l table text))
  | [], _, _, s => reports_emitText s _
  | w :: ws, last, pending, s => by
    have ih := reports_readWords l table text ws w.stop
    rw [readWords, List.filterMap_cons, shown?, keyword?]
    split
    · next hnone =>
      rw [hnone]
      exact ih _ s
    · next entry hentry =>
      have hpending : ∀ t, Reports s ((s.emitText t).weigh entry.relevance) [] := fun t =>
        (reports_emitText s t).append (reports_weigh _ _)
      rw [hentry, Option.map_some, Option.bind_some]
      dsimp only
      by_cases hplain : entry.category.startsWith "_"
      · rw [if_pos hplain, hplain, Bool.or_true, if_pos rfl]
        exact (hpending _).append (ih _ _)
      · rw [if_neg hplain, Bool.eq_false_iff.mpr hplain, Bool.or_false]
        split
        · exact (hpending _).append (ih _ _)
        · exact ((hpending _).append (reports_emit_keyword _ _ _)).append (ih _ _)

/-! ### Matches of declared words -/

/-- The last declaration of the text of a match, with its category. -/
def declaredAt? (l : Language ρ) (k : Keywords) (content : String) (w : Span) :
    Option (String × String) :=
  k.last? l.caseInsensitive (between content.toList w.start w.stop)

/-- The word and the category that a match ought to be reported with: there has to be something in
it, it has to be declared, and the name of its category does not begin with an underscore. -/
def keywordAt? (l : Language ρ) (k : Keywords) (content : String) (w : Span) :
    Option (String × String) :=
  let word := between content.toList w.start w.stop
  (declaredAt? l k content w).bind fun (category, _) =>
    if word.isEmpty || category.startsWith "_" then none else some (word, l.displayClass category)

/-- What a match ought to count for. -/
def weightAt (l : Language ρ) (k : Keywords) (content : String) (w : Span) : ℕ :=
  ((declaredAt? l k content w).map fun (_, declared) => Keywords.weightOf declared).getD 0

section Declared

variable {l : Language ρ} {k : Keywords} {table : KeywordTable}

theorem keyword?_declared (h : KeywordTable.compile l.caseInsensitive k = .ok table)
    (content : String) (w : Span) : keyword? l table content.toList w =
      (declaredAt? l k content w).map fun (category, declared) =>
        (between content.toList w.start w.stop, ⟨category, Keywords.weightOf declared⟩) := by
  rw [keyword?, declaredAt?, KeywordTable.find?_compile h, Option.map_map]
  rfl

theorem shown?_declared (h : KeywordTable.compile l.caseInsensitive k = .ok table)
    (content : String) (w : Span) :
    shown? l table content.toList w = keywordAt? l k content w := by
  rw [shown?, keyword?_declared h, keywordAt?, Option.bind_map]
  rfl

theorem sum_declared (h : KeywordTable.compile l.caseInsensitive k = .ok table)
    (content : String) (ws : List Span) :
    ((ws.filterMap (keyword? l table content.toList)).map fun (_, entry) => entry.relevance).sum =
      (ws.map (weightAt l k content)).sum := by
  induction ws with
  | nil => rfl
  | cons w ws ih =>
    rw [List.filterMap_cons, keyword?_declared h, List.map_cons, List.sum_cons, weightAt, ← ih]
    cases declaredAt? l k content w with
    | none => exact (Nat.zero_add _).symm
    | some d => rfl

end Declared

/-- **Keywords are found as they were declared.** If the words of a mode are those of a declaration,
and the successive matches of its pattern are parts of the content that follow each other, then
reading the content, unless the search for them is given up, reports text and keywords whose texts
are the content. The keywords are, in order, the matches that are not empty and have, without regard
to case if it does not matter, the name of a declared word, as long as the category of the last such
declaration is not one that begins with an underscore. Every match of a declared word, empty or
underscored as it may be, adds the weight of its last declaration to the relevance. -/
theorem readKeywords_declared (l : Language ρ) (m : CompiledMode ρ) (s : State ρ) {k : Keywords}
    {table : KeywordTable} {content : String}
    (hcompile : KeywordTable.compile l.caseInsensitive k = .ok table)
    (hm : m.keywords = some table) (hs : s.relevance ≤ relevanceLimit)
    (hws : ∀ ws, Engine.occurrences m.keywordPattern.regex content.toList = .ok ws →
      Span.Follow content.toList 0 ws) :
    (∃ e, Engine.occurrences m.keywordPattern.regex content.toList = .error e ∧
      readKeywords l m content s = .error (.search m.keywordPattern.source (.overrun e))) ∨
    ∃ (ws : List Span) (events : List Event),
      Engine.occurrences m.keywordPattern.regex content.toList = .ok ws ∧
      readKeywords l m content s =
        .ok { s with
          events := events.reverse ++ s.events
          relevance := min (s.relevance + (ws.map (weightAt l k content)).sum) 4294967295 } ∧
      (∀ e ∈ events, e.isPlain) ∧ Event.charsOf events = content ∧
      events.filterMap Event.keyword? = ws.filterMap (keywordAt? l k content) := by
  cases ho : Engine.occurrences m.keywordPattern.regex content.toList with
  | error e => exact .inl ⟨e, rfl, by rw [readKeywords, hm]; simp only [ho]⟩
  | ok ws =>
    refine .inr ?_
    have hread : readKeywords l m content s =
        .ok (readWords l table content.toList ws 0 "" s) := by
      rw [readKeywords, hm]
      simp only [ho]
    obtain ⟨events, hstate, hplain, hwords⟩ := reports_readWords l table content.toList ws 0 "" s
    have hrelevance := relevance_readWords l table content.toList ws 0 "" s s.relevance
      (Nat.min_eq_left hs).symm
    have hreported := (reported_readWords l table content.toList ws 0 "" s (Text.isPlace_zero _)
      (hws ws ho)).1
    refine ⟨ws, events, rfl, ?_, hplain, ?_, ?_⟩
    · rw [hread, hstate, hrelevance, sum_declared hcompile]
      rfl
    · -- what had been reported before stays in front of it
      rw [hstate, State.reported, State.reported, List.reverse_append, List.reverse_reverse,
        Markup.Event.charsOf_append, String.append_empty, restFrom, Text.rest_zero,
        String.ofList_toList] at hreported
      exact String.append_right_inj _ |>.mp hreported
    · rw [hwords]
      exact List.filterMap_congr fun w _ => shown?_declared hcompile content w

/-- A word declared in three ways, one that is not shown, a common one, and the empty word. -/
def declaredTwice : Keywords where
  pattern := some "null|of|let|"
  categories := [("literal", ["NULL|4", "let"]), ("keyword", ["null| 2", "|5", "OF"]),
    ("_word", ["Let|3"])]

/-- A language with these words, in which case does not matter. -/
def spelling : Grammar where
  caseInsensitive := true
  classNameAliases := Dictionary.empty.insert "keyword" "kw"
  root := { keywords := some declaredTwice }

/-- Two keywords are shown; these, the word that is not and the empty match at the end count. -/
theorem readKeywords_declared_spelling :
    ∃ (l : Language Regex.Tried) (table : KeywordTable) (events : List Event),
      let content := "Null of let."
      KeywordTable.compile l.caseInsensitive declaredTwice = .ok table ∧
      l.root.keywords = some table ∧
      readKeywords l l.root content (initial l []) =
        .ok { initial l [] with events := events.reverse, relevance := 10 } ∧
      (∀ e ∈ events, e.isPlain) ∧ Event.charsOf events = content ∧
      events.filterMap Event.keyword? = [("Null", "kw"), ("of", "kw")] := by
  let ws : List Span := [⟨0, 4⟩, ⟨5, 7⟩, ⟨8, 11⟩, ⟨12, 12⟩]
  -- all that is evaluated is evaluated at once, in the compiled language
  obtain ⟨l, -, h⟩ : ∃ l : Language Regex.Tried, Language.compile spelling "spelling" = .ok l ∧
      ((KeywordTable.compile l.caseInsensitive declaredTwice).toOption.any fun table =>
        decide (l.root.keywords.map KeywordTable.entries = some table.entries)) &&
      (Engine.occurrences l.root.keywordPattern.regex "Null of let.".toList).toOption.any
        (decide <| · = ws) &&
      decide ((ws.map (weightAt l declaredTwice "Null of let.")).sum = 10) &&
      decide (ws.filterMap (keywordAt? l declaredTwice "Null of let.") =
        [("Null", "kw"), ("of", "kw")]) := exists_of_any (by decide +kernel)
  simp only [Bool.and_eq_true, decide_eq_true_eq] at h
  obtain ⟨⟨⟨htable, hws⟩, hsum⟩, hwords⟩ := h
  obtain ⟨table, hcompile, hentries⟩ := exists_of_any htable
  obtain ⟨_, hws, hsame⟩ := exists_of_any hws
  obtain rfl := of_decide_eq_true hsame
  have hroot : l.root.keywords = some table := by
    obtain ⟨t, ht, he⟩ := Option.map_eq_some_iff.mp (of_decide_eq_true hentries)
    rw [ht]
    cases t
    cases table
    exact congrArg (fun es => some (KeywordTable.mk es)) he
  have hfollow : ∀ ws', Engine.occurrences l.root.keywordPattern.regex "Null of let.".toList =
      .ok ws' → Span.Follow "Null of let.".toList 0 ws' := by
    intro ws' hws'
    obtain rfl := Except.ok.inj (hws.symm.trans hws')
    decide +kernel
  obtain ⟨e, he, -⟩ | ⟨_, events, hws', hread, hplain, hchars, hkeywords⟩ :=
    readKeywords_declared l l.root (initial l []) hcompile hroot (Nat.zero_le _) hfollow
  · exact absurd (hws.symm.trans he) nofun
  · obtain rfl := Except.ok.inj (hws.symm.trans hws')
    rw [hsum] at hread
    rw [hwords] at hkeywords
    refine ⟨l, table, events, hcompile, hroot, hread.trans ?_, hplain, hchars, hkeywords⟩
    rw [show (initial l []).events = [] from rfl, List.append_nil]
    rfl

end Scan

end CodeMarkup
