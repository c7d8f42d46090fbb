import CodeMarkup.Proofs.Language.Landing
import CodeMarkup.Proofs.Language.Scan

/-! # Lawful engines

What may be asked of every engine: what it captures are parts of the text, a match starts at or
behind the offset that it is looked for from, and successive matches follow each other
(`Engine.Lawful`). Any engine obeys this once its matches are looked over (`Checked`).

Of a matcher's match it follows that it lies at a place of the text at or behind the offset, and
which rules can have matched (`Matcher.find_spec`). -/

namespace CodeMarkup

open Regex (Span Captures)

/-- An engine whose matches are where they were looked for. -/
structure Engine.Lawful (ρ : Type) [Engine ρ] : Prop where
  search_le : ∀ {re : ρ} {text : List Char} {offset : Nat} {c : Captures} {whole : Span},
    Engine.search re text offset = .ok (some c) → c.get? 0 = some whole → offset ≤ whole.start
  search_in : ∀ {re : ρ} {text : List Char} {offset group : Nat} {c : Captures} {s : Span},
    Engine.search re text offset = .ok (some c) → c.get? group = some s → s.In text
  follow : ∀ {re : ρ} {text : List Char} {ws : List Span},
    Engine.occurrences re text = .ok ws → Span.Follow text 0 ws

/-! ### Matches that are looked over -/

namespace Regex

instance (s : Span) (text : List Char) : Decidable (s.In text) :=
  decidable_of_iff (Text.slice? text s.start s.stop).isSome Option.isSome_iff_exists

instance Span.decidableFollow (text : List Char) : ∀ (n : Nat) (ss : List Span),
    Decidable (Span.Follow text n ss)
  | _, [] => isTrue trivial
  | n, s :: ss =>
    have := Span.decidableFollow text s.stop ss
    inferInstanceAs (Decidable (n ≤ s.start ∧ s.In text ∧ Span.Follow text s.stop ss))

/-- Whether everything captured is a part of the text, the whole match at or behind an offset. -/
def Captures.lands (text : List Char) (offset : Nat) (c : Captures) : Bool :=
  (c.get? 0).all (offset ≤ ·.start) &&
    c.groups.all fun group => group.all fun s => decide (s.In text)

end Regex

/-- A pattern of an engine whose matches are looked over: one that does not lie where it was looked
for is none. -/
structure Checked (ρ : Type) where
  regex : ρ

instance {ρ : Type} [Engine ρ] : Engine (Checked ρ) where
  compile source := (Engine.compile source).map Checked.mk
  groupCount re := Engine.groupCount re.regex
  search re text offset :=
    (Engine.search re.regex text offset).map (Option.filter (·.lands text offset))
  occurrences re text :=
    (Engine.occurrences re.regex text).map fun ws => if Span.Follow text 0 ws then ws else []

theorem Checked.lands_of_search {ρ : Type} [Engine ρ] {re : Checked ρ} {text : List Char}
    {offset : Nat} {c : Captures} (h : Engine.search re text offset = .ok (some c)) :
    c.lands text offset := by
  change (Engine.search re.regex text offset).map (Option.filter (·.lands text offset)) = _ at h
  cases hs : Engine.search re.regex text offset with
  | error e => rw [hs] at h; cases h
  | ok found =>
    rw [hs] at h
    exact (Option.filter_eq_some_iff.mp (Except.ok.inj h)).2

theorem Checked.lawful (ρ : Type) [Engine ρ] : Engine.Lawful (Checked ρ) where
  search_le {re text offset c whole} h hw := by
    have hl := (Bool.and_eq_true _ _ ▸ Checked.lands_of_search h).1
    rw [hw] at hl
    simpa using hl
  search_in {re text offset group c s} h hs := by
    have hl := (Bool.and_eq_true _ _ ▸ Checked.lands_of_search h).2
    unfold Captures.get? at hs
    cases hg : c.groups[group]? with
    | none => rw [hg] at hs; cases hs
    | some found =>
      rw [hg] at hs
      obtain rfl : found = some s := hs
      have hin := Array.all_eq_true_iff_forall_mem.mp hl _ (Array.mem_of_getElem? hg)
      simpa using hin
  follow {re text ws} h := by
    change (Engine.occurrences re.regex text).map _ = _ at h
    cases ho : Engine.occurrences re.regex text with
    | error e => rw [ho] at h; cases h
    | ok found =>
      rw [ho] at h
      obtain rfl := Except.ok.inj h
      dsimp only
      split
      · assumption
      · trivial

/-! ### Rules that match -/

variable {ρ : Type} [Engine ρ]

theorem Choice.participant?_mem {c : Captures} : ∀ {group position : Nat} {rules : List Rule}
    {r : Rule} {g at' : Nat}, participant? c group position rules = some (r, g, at') →
      position ≤ at' ∧ rules[at' - position]? = some r
  | _, _, [], _, _, _, h => by cases h
  | group, position, r' :: rs, r, g, at', h => by
    unfold participant? at h
    split at h
    · cases h
      exact ⟨Nat.le_refl _, by simp⟩
    · obtain ⟨hle, hr⟩ := participant?_mem h
      refine ⟨by omega, ?_⟩
      obtain ⟨k, hk⟩ : ∃ k, at' - position = k + 1 := ⟨at' - (position + 1), by omega⟩
      rw [hk, List.getElem?_cons_succ]
      rwa [show k = at' - (position + 1) by omega]

namespace Matcher

variable {m : Matcher ρ}

/-- The choices are those that start with each of the rules, and one even if there are none. -/
theorem getElem?_choices (m : Matcher ρ) (first : Nat) : m.choices[first]? =
    if first < max m.rules.length 1 then
      some (Thunk.mk fun _ => Choice.ofRules m.rules m.foldCase first)
    else none := by
  rw [m.choices_eq, choicesOf, List.getElem?_toArray, List.getElem?_map]
  split
  · next h => rw [List.getElem?_range h, Option.map_some]
  · next h => rw [List.getElem?_eq_none (by rw [List.length_range]; omega), Option.map_none]

theorem ofRules_of_choice {first : Nat} {ch : Choice ρ} (h : m.choice first = .ok ch) :
    Choice.ofRules m.rules m.foldCase first = .ok ch := by
  unfold choice at h
  rw [getElem?_choices] at h
  by_cases hlt : first < max m.rules.length 1
  · simp only [if_pos hlt, Thunk.get] at h
    split at h
    · next ch' hch =>
      cases h
      exact hch
    · cases h
  · simp only [if_neg hlt] at h
    cases h

/-- Where there is a rule, or nothing has been passed over, there is a choice. -/
theorem choice_ne_noRule {first : Nat} (h : first = 0 ∨ first < m.rules.length)
    (pattern : String) (index : Nat) : m.choice first ≠ .error (.search pattern (.noRule index)) := by
  unfold choice
  rw [getElem?_choices, if_pos (by omega)]
  dsimp only [Thunk.get]
  split <;> simp

theorem searchFrom_ne_noRule {first : Nat} (h : first = 0 ∨ first < m.rules.length)
    (text : List Char) (offset : Nat) (pattern : String) (index : Nat) :
    m.searchFrom first text offset ≠ .error (.search pattern (.noRule index)) := by
  unfold searchFrom
  cases hc : m.choice first with
  | error p =>
    intro he
    exact choice_ne_noRule h pattern index (hc.trans (congrArg Except.error (Except.error.inj he)))
  | ok ch =>
    change ch.search text offset ≠ _
    unfold Choice.search
    split
    · simp
    · split <;> simp

/-- Where there is a rule to go on with, or all are looked for, none is missed. -/
theorem find_ne_noRule {first : Nat} (h : first = 0 ∨ first < m.rules.length)
    (text : List Char) (offset : Nat) (pattern : String) (index : Nat) :
    m.find first text offset ≠ .error (.search pattern (.noRule index)) := by
  unfold find
  cases hs : m.searchFrom first text offset with
  | error p =>
    intro he
    exact searchFrom_ne_noRule h text offset pattern index
      (hs.trans (congrArg Except.error (Except.error.inj he)))
  | ok here =>
    simp only [bind, Except.bind, pure, Except.pure]
    split
    · simp
    · split
      · next next _ =>
        cases hs' : m.searchFrom 0 text next with
        | error p =>
          intro he
          exact searchFrom_ne_noRule (Or.inl rfl) text next pattern index
            (hs'.trans (congrArg Except.error (Except.error.inj he)))
        | ok there => simp
      · simp

/-- What is found is found by one of the rules from the first one on. -/
theorem rule_of_searchFrom {first offset : Nat} {text : List Char} {found : Found}
    (h : m.searchFrom first text offset = .ok (some found)) : first ≤ found.position ∧
      ∃ r, m.rules[found.position]? = some r ∧ r.kind = found.kind := by
  obtain ⟨ch, regex, c, hc, hr, -, hf⟩ := exists_captures_of_searchFrom h
  obtain ⟨whole, r, group, -, hp, -, hkind, -⟩ := Choice.of_foundIn? hf
  rcases Choice.of_ofRules (ofRules_of_choice hc) with ⟨-, hnone⟩ | ⟨-, hfirst, hrules, -⟩
  · rw [hnone] at hr
    cases hr
  · obtain ⟨hle, hrule⟩ := Choice.participant?_mem hp
    rw [hfirst] at hle hrule
    rw [hrules, List.getElem?_drop, Nat.add_sub_cancel' hle] at hrule
    exact ⟨hle, r, hrule, hkind⟩

theorem kind_of_find {first offset next : Nat} {text : List Char} {found : Found}
    (h : m.find first text offset = .ok (some (found, next))) :
    ∃ r ∈ m.rules, r.kind = found.kind := by
  obtain ⟨-, hsearch | ⟨place, -, hsearch⟩⟩ := searchFrom_of_find h
  all_goals
    obtain ⟨-, r, hr, hkind⟩ := rule_of_searchFrom hsearch
    exact ⟨r, List.mem_of_getElem? hr, hkind⟩

/-- A match of a matcher at a place of the text. -/
structure Matches (m : Matcher ρ) (first : Nat) (text : List Char) (offset : Nat) (found : Found) :
    Prop where
  le : offset ≤ found.index
  place : Text.IsPlace text found.index
  first_le : first ≤ found.position
  rule : ∃ r, m.rules[found.position]? = some r ∧ r.kind = found.kind

theorem matches_of_searchFrom (hρ : Engine.Lawful ρ) {first offset : Nat} {text : List Char}
    {found : Found} (h : m.searchFrom first text offset = .ok (some found)) :
    m.Matches first text offset found := by
  obtain ⟨hfirst, hrule⟩ := rule_of_searchFrom h
  obtain ⟨ch, regex, c, -, -, hs, hf⟩ := exists_captures_of_searchFrom h
  obtain ⟨whole, -, -, hw, -, hindex, -, -⟩ := Choice.of_foundIn? hf
  obtain ⟨part, hpart⟩ := hρ.search_in hs hw
  exact ⟨hindex ▸ hρ.search_le hs hw, hindex ▸ Text.isPlace_left hpart, hfirst, hrule⟩

/-- **What the next match is**: it comes from a search at or behind the offset, and where it is right
at the offset from the search among the rules from the first one on. -/
theorem find_spec (hρ : Engine.Lawful ρ) {first offset next : Nat} {text : List Char}
    {found : Found} (h : m.find first text offset = .ok (some (found, next))) :
    next = m.ruleAfter found ∧ ∃ first' offset', offset ≤ offset' ∧
      m.searchFrom first' text offset' = .ok (some found) ∧
      (found.index = offset → first' = first) := by
  obtain ⟨hnext, hsearch | ⟨place, hplace, hsearch⟩⟩ := searchFrom_of_find h
  · exact ⟨hnext, first, offset, Nat.le_refl _, hsearch, fun _ => rfl⟩
  · have hlt := (Text.nextPlace?_eq_some hplace).1
    have hle := (matches_of_searchFrom hρ hsearch).le
    exact ⟨hnext, 0, place, by omega, hsearch, fun he => by omega⟩

theorem rule_of_find (hρ : Engine.Lawful ρ) {first offset next : Nat} {text : List Char}
    {found : Found} (h : m.find first text offset = .ok (some (found, next))) :
    Text.IsPlace text found.index ∧ ∃ r ∈ m.rules, r.kind = found.kind := by
  obtain ⟨-, first', offset', -, hsearch, -⟩ := find_spec hρ h
  exact ⟨(matches_of_searchFrom hρ hsearch).place, kind_of_find h⟩

end Matcher

end CodeMarkup
