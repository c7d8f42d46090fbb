import CodeMarkup.Proofs.Language.Lawful
import CodeMarkup.Proofs.Language.Linking

/-! # What a mode can have wrong by itself

Making the fields of a mode fails where the mode says something twice, where the weight of a keyword
is no number, and where its word pattern or its end is no pattern of the engine (`Faulty`); making
its matcher fails where a rule is none, by itself or joined with the others. Both are said without
the order in which things are looked at (`fails_ownFields_iff`, `fails_ofRules_iff`). -/

namespace CodeMarkup

/-! ### Failures -/

/-- Whether there is no result. -/
def Fails {ε α : Type} (x : Except ε α) : Prop := ∃ e, x = .error e

section Fails

variable {ε α β : Type}

@[simp] theorem fails_error (e : ε) : Fails (.error e : Except ε α) := ⟨e, rfl⟩

@[simp] theorem not_fails_ok (v : α) : ¬ Fails (.ok v : Except ε α) := by
  rintro ⟨e, he⟩
  cases he

theorem exists_ok_of_not_fails {x : Except ε α} (h : ¬ Fails x) : ∃ v, x = .ok v := by
  cases x with
  | error e => exact absurd (fails_error e) h
  | ok v => exact ⟨v, rfl⟩

/-- Of two steps that follow each other the second one can only fail where the first one does not. -/
theorem fails_bind_iff {x : Except ε α} {f : α → Except ε β} {P Q : Prop} (hx : Fails x ↔ P)
    (hf : ∀ v, x = .ok v → (Fails (f v) ↔ Q)) : Fails (x >>= f) ↔ P ∨ Q := by
  rw [← hx]
  cases x with
  | error e => exact ⟨fun _ => Or.inl (fails_error e), fun _ => fails_error e⟩
  | ok v =>
    rw [or_iff_right (not_fails_ok v)]
    exact hf v rfl

theorem fails_map_iff {x : Except ε α} {f : α → β} : Fails (f <$> x) ↔ Fails x := by
  cases x with
  | error e => exact ⟨fun _ => fails_error e, fun _ => fails_error e⟩
  | ok v => exact ⟨fun h => absurd h (not_fails_ok (f v)), fun h => absurd h (not_fails_ok v)⟩

theorem fails_mapM_iff {f : α → Except ε β} : ∀ {vs : List α},
    Fails (vs.mapM f) ↔ ∃ v ∈ vs, Fails (f v)
  | [] => by simp [pure, Except.pure]
  | v :: vs => by
    rw [List.mapM_cons, List.exists_mem_cons_iff]
    refine fails_bind_iff Iff.rfl fun w _ => ?_
    rw [← map_eq_pure_bind, fails_map_iff, fails_mapM_iff]

theorem fails_option_mapM_iff {f : α → Except ε β} {v : Option α} :
    Fails (v.mapM f) ↔ ∃ w, v = some w ∧ Fails (f w) := by
  cases v with
  | none => simp [pure, Except.pure]
  | some w =>
    rw [Option.mapM_some, fails_map_iff]
    simp

end Fails

variable (ρ : Type) [Engine ρ]

/-- Whether a source is no pattern of the engine. -/
def Engine.Invalid (source : String) : Prop :=
  Fails (Engine.compile source : Except Regex.Fault ρ)

/-! ### Keywords -/

namespace KeywordTable

theorem fails_entry_iff {foldCase : Bool} {category word : String} :
    Fails (entry foldCase category word) ↔ ∃ weight,
      (splitBar (folded foldCase word).toList).2 = some weight ∧
        number? (Text.trim (String.ofList weight)).toList = none := by
  unfold entry
  obtain ⟨key, weight⟩ := splitBar (folded foldCase word).toList
  cases weight with
  | none => simp [relevance?]
  | some weight =>
    simp only [Option.map_some, relevance?, Option.some.injEq, exists_eq_left']
    cases number? (Text.trim (String.ofList weight)).toList <;> simp

/-- Keywords fail to make a table just for their weights. -/
theorem fails_compile_iff {foldCase : Bool} {k : Keywords} :
    Fails (compile foldCase k) ↔ ∃ declared ∈ declarations k, ∃ weight,
      (splitBar (folded foldCase declared.2).toList).2 = some weight ∧
        number? (Text.trim (String.ofList weight)).toList = none := by
  unfold compile
  rw [← map_eq_pure_bind, fails_map_iff, fails_mapM_iff]
  simp only [fails_entry_iff]

end KeywordTable

namespace Language

/-! ### Fields -/

/-- What a mode begins with, and the keywords that this gives it, inside a mode with a terminator or
in none. -/
def wordsIn (m : Mode) (around : Option String) : BeginWords :=
  beginWords m (m.matchPattern <|> m.beginPattern) around.isNone

/-- The begin, the end and the terminator of a mode inside a mode with a terminator; in none it has
no end. -/
def boundsIn (m : Mode) (around : Option String) : String × Option String × String :=
  boundaries m (wordsIn m around).beginPattern around

/-- What a word looks like in a mode. -/
def wordPattern (m : Mode) : String :=
  (m.keywords.bind Keywords.pattern <|> m.lexemes).getD defaultWordPattern

/-- What a mode can have wrong by itself, inside a mode with a terminator or in none. -/
inductive Faulty (foldCase : Bool) (m : Mode) (around : Option String) : Prop
  /-- There is a pattern for the whole of it and one for its begin or its end. -/
  | whole : m.matchPattern.isSome → m.beginPattern.isSome ∨ m.endPattern.isSome →
      Faulty foldCase m around
  /-- What a word looks like is said with the keywords and beside them. -/
  | lexemes : (m.keywords.bind Keywords.pattern).isSome → m.lexemes.isSome →
      Faulty foldCase m around
  /-- The weight of a keyword is no number that a relevance can be. -/
  | weight {k : Keywords} {category word : String} {weight : List Char} :
      (wordsIn m around).keywords = some k → (category, word) ∈ KeywordTable.declarations k →
      (KeywordTable.splitBar (KeywordTable.folded foldCase word).toList).2 = some weight →
      KeywordTable.number? (Text.trim (String.ofList weight)).toList = none →
      Faulty foldCase m around
  /-- What a word looks like is no pattern. -/
  | word : Engine.Invalid ρ (Pattern.flagged (wordPattern m) foldCase) → Faulty foldCase m around
  /-- The end is no pattern. -/
  | ending {pattern : String} : (boundsIn m around).2.1 = some pattern →
      Engine.Invalid ρ (Pattern.flagged pattern foldCase) → Faulty foldCase m around

section Fields

variable {ρ} {foldCase : Bool} {m : Mode} {around : Option String}

theorem fails_writtenBegin_iff : Fails (writtenBegin m) ↔
    m.matchPattern.isSome ∧ (m.beginPattern.isSome ∨ m.endPattern.isSome) := by
  unfold writtenBegin
  cases m.matchPattern with
  | none => simp
  | some pattern =>
    dsimp only
    split <;> simp_all

theorem eq_of_writtenBegin {begin? : Option String} (h : writtenBegin m = .ok begin?) :
    begin? = (m.matchPattern <|> m.beginPattern) := by
  unfold writtenBegin at h
  cases hm : m.matchPattern with
  | none =>
    rw [hm] at h
    exact (Except.ok.inj h).symm
  | some pattern =>
    rw [hm] at h
    dsimp only at h
    split at h
    · cases h
    · exact (Except.ok.inj h).symm

/-- The words that a mode begins with do not say what a word looks like. -/
theorem pattern_beginWords (begin? : Option String) (isRoot : Bool) :
    (beginWords m begin? isRoot).keywords.bind Keywords.pattern =
      m.keywords.bind Keywords.pattern := by
  unfold beginWords
  split
  · cases m.keywords <;> rfl
  · rfl

theorem fails_wordSource_iff {keywords : Option Keywords} : Fails (wordSource m keywords) ↔
    (keywords.bind Keywords.pattern).isSome ∧ m.lexemes.isSome := by
  unfold wordSource
  cases keywords.bind Keywords.pattern <;> cases m.lexemes <;> simp

theorem eq_of_wordSource {keywords : Option Keywords} {source : String}
    (h : wordSource m keywords = .ok source) :
    source = (keywords.bind Keywords.pattern <|> m.lexemes).getD defaultWordPattern := by
  unfold wordSource at h
  cases hk : keywords.bind Keywords.pattern <;> cases hl : m.lexemes <;>
    simp only [hk, hl] at h <;> cases h <;> rfl

theorem fails_prepare_iff {source : String} :
    Fails (prepare foldCase source : Except GrammarProblem (Prepared ρ)) ↔
      Engine.Invalid ρ (Pattern.flagged source foldCase) := by
  unfold prepare Prepared.compile Engine.Invalid
  cases (Engine.compile (Pattern.flagged source foldCase) : Except Regex.Fault ρ) <;> simp

/-- **The fields of a mode fail to be made just where the mode has something wrong by itself.** -/
theorem fails_ownFields_iff :
    Fails (ownFields foldCase m around : Except GrammarProblem (CompiledMode ρ)) ↔
      Faulty ρ foldCase m around := by
  have hpattern : (wordsIn m around).keywords.bind Keywords.pattern =
      m.keywords.bind Keywords.pattern := pattern_beginWords _ _
  -- the fields are made one after the other, and all of them have to be made
  have hfields : Fails (ownFields foldCase m around : Except GrammarProblem (CompiledMode ρ)) ↔
      (m.matchPattern.isSome ∧ (m.beginPattern.isSome ∨ m.endPattern.isSome)) ∨
      ((m.keywords.bind Keywords.pattern).isSome ∧ m.lexemes.isSome) ∨
      Engine.Invalid ρ (Pattern.flagged (wordPattern m) foldCase) ∨
      (∃ k, (wordsIn m around).keywords = some k ∧ Fails (KeywordTable.compile foldCase k)) ∨
      ∃ pattern, (boundsIn m around).2.1 = some pattern ∧
        Engine.Invalid ρ (Pattern.flagged pattern foldCase) := by
    unfold ownFields
    refine fails_bind_iff fails_writtenBegin_iff fun begin? hwritten => ?_
    obtain rfl := eq_of_writtenBegin hwritten
    rw [← hpattern]
    refine fails_bind_iff fails_wordSource_iff fun source hsource => ?_
    have hword : source = wordPattern m := by
      rw [eq_of_wordSource hsource, wordPattern, ← hpattern]
      rfl
    rw [hword]
    refine fails_bind_iff fails_prepare_iff fun _ _ => ?_
    refine fails_bind_iff fails_option_mapM_iff fun _ _ => ?_
    dsimp only
    rw [← map_eq_pure_bind, fails_map_iff, fails_option_mapM_iff]
    simp only [fails_prepare_iff]
    rfl
  rw [hfields]
  constructor
  · rintro (⟨hmatch, hbounds⟩ | ⟨hwords, hlexemes⟩ | hword | ⟨k, hk, hweight⟩ | ⟨_, hend, hinvalid⟩)
    · exact .whole hmatch hbounds
    · exact .lexemes hwords hlexemes
    · exact .word hword
    · obtain ⟨_, hdeclared, _, hweight, hnumber⟩ := KeywordTable.fails_compile_iff.mp hweight
      exact .weight hk hdeclared hweight hnumber
    · exact .ending hend hinvalid
  · rintro (⟨hmatch, hbounds⟩ | ⟨hwords, hlexemes⟩ | ⟨hk, hdeclared, hweight, hnumber⟩ | hword |
      ⟨hend, hinvalid⟩)
    · exact Or.inl ⟨hmatch, hbounds⟩
    · exact Or.inr (Or.inl ⟨hwords, hlexemes⟩)
    · refine Or.inr (Or.inr (Or.inr (Or.inl ⟨_, hk, ?_⟩)))
      exact KeywordTable.fails_compile_iff.mpr ⟨_, hdeclared, _, hweight, hnumber⟩
    · exact Or.inr (Or.inr (Or.inl hword))
    · exact Or.inr (Or.inr (Or.inr (Or.inr ⟨_, hend, hinvalid⟩)))

/-- The bounds that a mode gets. -/
theorem bounds_of_ownFields {own : CompiledMode ρ} (h : ownFields foldCase m around = .ok own) :
    (own.beginPattern, own.endPattern, own.terminator) = boundsIn m around := by
  unfold ownFields at h
  obtain ⟨begin?, hwritten, h⟩ := of_bind_ok h
  obtain rfl := eq_of_writtenBegin hwritten
  obtain ⟨_, -, h⟩ := of_bind_ok h
  obtain ⟨_, -, h⟩ := of_bind_ok h
  obtain ⟨_, -, h⟩ := of_bind_ok h
  obtain ⟨_, -, h⟩ := of_bind_ok h
  cases h
  rfl

/-- The fields of a mode are made bare of links. -/
theorem bare_of_ownFields {own : CompiledMode ρ} (h : ownFields foldCase m around = .ok own) :
    ownFields foldCase m around = .ok own.bare :=
  h.trans (congrArg Except.ok (of_ownFields h).bare.symm)

section Linked

variable {cm : CompiledMode ρ} (h : ownFields foldCase m around = .ok cm.bare)

include h

theorem begin_of_ownFields : cm.beginPattern = (boundsIn m around).1 :=
  congrArg Prod.fst (bounds_of_ownFields h)

theorem terminator_of_ownFields : cm.terminator = (boundsIn m around).2.2 :=
  congrArg (Prod.snd ∘ Prod.snd) (bounds_of_ownFields h)

end Linked

/-- What a mode begins with does not depend on what the mode around it ends with. -/
theorem boundsIn_fst (m : Mode) (s t : String) :
    (boundsIn m (some s)).1 = (boundsIn m (some t)).1 := rfl

end Fields

/-! ### Rules -/

variable {ρ} {foldCase : Bool}

theorem fails_check_iff {kind : RuleKind} {source : String} :
    Fails (Matcher.check ρ kind source) ↔ Engine.Invalid ρ source := by
  unfold Matcher.check Engine.Invalid
  cases (Engine.compile source : Except Regex.Fault ρ) <;> simp

theorem fails_choice_iff {rules : List Rule} :
    Fails (Choice.ofRules rules foldCase 0 : Except (String × Regex.Fault) (Choice ρ)) ↔
      rules ≠ [] ∧
        Engine.Invalid ρ (Pattern.flagged (Pattern.join (rules.map Rule.source) "|") foldCase) := by
  unfold Choice.ofRules Engine.Invalid
  rw [List.drop_zero]
  cases rules with
  | nil => simp
  | cons r rules =>
    rw [if_neg (by simp)]
    dsimp only
    cases (Engine.compile (Pattern.flagged (Pattern.join ((r :: rules).map Rule.source) "|")
      foldCase) : Except Regex.Fault ρ) <;> simp

/-- **A matcher fails to be made just where a rule is no pattern or all of them joined are none.** -/
theorem fails_ofRules_iff {rules : List (RuleKind × String)} :
    Fails (Matcher.ofRules rules foldCase : Except GrammarProblem (Matcher ρ)) ↔
      (∃ source ∈ rules.map Prod.snd, Engine.Invalid ρ source) ∨ rules ≠ [] ∧
        Engine.Invalid ρ
          (Pattern.flagged (Pattern.join (rules.map Prod.snd) "|") foldCase) := by
  have hchecks : Fails (rules.mapM fun rule => Matcher.check ρ rule.1 rule.2) ↔
      ∃ source ∈ rules.map Prod.snd, Engine.Invalid ρ source := by
    rw [fails_mapM_iff]
    simp only [fails_check_iff, List.mem_map, exists_exists_and_eq_and]
  unfold Matcher.ofRules
  refine fails_bind_iff hchecks fun checked hchecked => ?_
  have hchoice : (Matcher.ofChecked checked foldCase : Matcher ρ).choices[0]? =
      some (Thunk.mk fun _ => Choice.ofRules checked foldCase 0) := by
    rw [Matcher.getElem?_choices, if_pos (by omega)]
    rfl
  have hjoined : Fails (Choice.ofRules checked foldCase 0 :
      Except (String × Regex.Fault) (Choice ρ)) ↔ rules ≠ [] ∧
        Engine.Invalid ρ (Pattern.flagged (Pattern.join (rules.map Prod.snd) "|") foldCase) := by
    rw [fails_choice_iff, ← sources_of_check hchecked, List.map_map, ne_eq, ne_eq,
      List.map_eq_nil_iff]
    rfl
  rw [← hjoined]
  dsimp only
  rw [hchoice]
  dsimp only [Thunk.get]
  cases (Choice.ofRules checked foldCase 0 : Except (String × Regex.Fault) (Choice ρ)) with
  | error e => exact ⟨fun _ => fails_error e, fun _ => fails_error _⟩
  | ok ch => exact ⟨fun h => absurd h (not_fails_ok _), fun h => absurd h (not_fails_ok ch)⟩

end Language

end CodeMarkup
