import CodeMarkup.Language.Basic
import CodeMarkup.Proofs.Text.Parts

/-! # Where matches lie

What going through code asks of the patterns of a mode: a match lies at or behind the offset that
it is looked for from, it is a part of the text, and the group of the rule that matched spans all of
it; words follow each other. From this the match of a matcher is a part of the text that starts at
or behind the offset (`Matcher.slice?_of_find`). -/

namespace CodeMarkup

open Regex (Span)

variable {ρ : Type} [Engine ρ]

/-- A span that is a part of a text. -/
def Regex.Span.In (s : Span) (text : List Char) : Prop :=
  ∃ part, Text.slice? text s.start s.stop = some part

/-- Spans of a text that follow each other from an offset on. -/
def Regex.Span.Follow (text : List Char) : Nat → List Span → Prop
  | _, [] => True
  | n, s :: ss => n ≤ s.start ∧ s.In text ∧ Span.Follow text s.stop ss

/-- The matches of a matcher lie where they were looked for, and the group of the rule that matched
spans them. -/
def Matcher.Lands (m : Matcher ρ) : Prop :=
  ∀ first ch regex text offset c whole, m.choice first = .ok ch → ch.regex? = some regex →
    Engine.search regex text offset = .ok (some c) → c.get? 0 = some whole →
    offset ≤ whole.start ∧ whole.In text ∧
      ∀ r group position, Choice.participant? c 1 ch.first ch.rules = some (r, group, position) →
        c.get? group = some whole

/-- The patterns of a mode match where they are looked for. -/
structure CompiledMode.Lands (m : CompiledMode ρ) : Prop where
  matcher : m.matcher.Lands
  words : ∀ text ws, Engine.occurrences m.keywordPattern.regex text = .ok ws →
    Span.Follow text 0 ws

/-! ### Matches of a choice -/

theorem Choice.groupText?_eq {text : List Char} {c : Regex.Captures} {group : Nat} {s : Span}
    {part : List Char} (hg : c.get? group = some s)
    (hs : Text.slice? text s.start s.stop = some part) :
    groupText? text c group = some (String.ofList part) := by
  rw [groupText?, hg, Option.map_some, hs, Option.getD_some]

omit [Engine ρ] in
/-- What is found is at the place of the whole match, by the rule whose group has matched, and has the
text of that group. -/
theorem Choice.of_foundIn? {ch : Choice ρ} {text : List Char} {c : Regex.Captures} {found : Found}
    (h : ch.foundIn? text c = some found) :
    ∃ whole r group, c.get? 0 = some whole ∧
      participant? c 1 ch.first ch.rules = some (r, group, found.position) ∧
      found.index = whole.start ∧ r.kind = found.kind ∧
      found.lexeme = (groupText? text c group).getD "" := by
  unfold foundIn? at h
  split at h
  · next whole r group position hw hp =>
    cases h
    refine ⟨whole, r, group, hw, hp, rfl, rfl, ?_⟩
    simp [Found.lexeme, Found.group?]
  · cases h

/-! ### Matches of a matcher -/

namespace Matcher

variable {m : Matcher ρ} {text : List Char}

/-- What is found among the rules from one of them on comes from what their choice captures. -/
theorem exists_captures_of_searchFrom {first offset : Nat} {found : Found}
    (h : m.searchFrom first text offset = .ok (some found)) :
    ∃ ch regex c, m.choice first = .ok ch ∧ ch.regex? = some regex ∧
      Engine.search regex text offset = .ok (some c) ∧ ch.foundIn? text c = some found := by
  unfold searchFrom at h
  cases hc : m.choice first with
  | error p => rw [hc] at h; cases h
  | ok ch =>
    rw [hc] at h
    change ch.search text offset = .ok (some found) at h
    unfold Choice.search at h
    split at h
    · cases h
    · next regex hr =>
      split at h
      · next captures hs =>
        obtain ⟨c, rfl, hf⟩ := Option.bind_eq_some_iff.mp (Except.ok.inj h)
        exact ⟨ch, regex, c, rfl, hr, hs, hf⟩
      · cases h

/-- The next match comes from a search at the offset among the rules from the first one on, or from
one among all rules from the next character on. -/
theorem searchFrom_of_find {first offset next : Nat} {found : Found}
    (h : m.find first text offset = .ok (some (found, next))) : next = m.ruleAfter found ∧
      (m.searchFrom first text offset = .ok (some found) ∨ ∃ place,
        Text.nextPlace? text offset = some place ∧
          m.searchFrom 0 text place = .ok (some found)) := by
  unfold find at h
  cases hs : m.searchFrom first text offset with
  | error p => rw [hs] at h; cases h
  | ok here =>
    rw [hs] at h
    simp only [bind, Except.bind, pure, Except.pure] at h
    split at h
    · obtain ⟨f, rfl, hf⟩ := Option.map_eq_some_iff.mp (Except.ok.inj h)
      cases hf
      exact ⟨rfl, Or.inl rfl⟩
    · split at h
      · next place hn =>
        cases hs' : m.searchFrom 0 text place with
        | error p => rw [hs'] at h; cases h
        | ok there =>
          rw [hs'] at h
          obtain ⟨f, rfl, hf⟩ := Option.map_eq_some_iff.mp (Except.ok.inj h)
          cases hf
          exact ⟨rfl, Or.inr ⟨place, hn, hs'⟩⟩
      · cases h

/-- A match that has been found among the rules from one of them on lies in the text. -/
theorem slice?_of_searchFrom (hm : m.Lands) {first offset : Nat} {found : Found}
    (h : m.searchFrom first text offset = .ok (some found)) :
    offset ≤ found.index ∧
      Text.slice? text found.index (found.index + found.lexeme.utf8ByteSize) =
        some found.lexeme.toList := by
  obtain ⟨ch, regex, c, hc, hr, hs, hf⟩ := exists_captures_of_searchFrom h
  obtain ⟨whole, r, group, hw, hp, hi, -, hl⟩ := Choice.of_foundIn? hf
  obtain ⟨hle, ⟨part, hpart⟩, hg⟩ := hm first ch regex text offset c whole hc hr hs hw
  rw [Choice.groupText?_eq (hg r group found.position hp) hpart, Option.getD_some] at hl
  obtain ⟨before, after, -, -, hsize⟩ := Text.slice?_eq_some.mp hpart
  rw [hi, hl, Text.utf8ByteSize_ofList, hsize, String.toList_ofList]
  exact ⟨hle, hpart⟩

/-- **The next match is a part of the text, at or behind the offset.** -/
theorem slice?_of_find (hm : m.Lands) {first offset next : Nat} {found : Found}
    (h : m.find first text offset = .ok (some (found, next))) :
    offset ≤ found.index ∧
      Text.slice? text found.index (found.index + found.lexeme.utf8ByteSize) =
        some found.lexeme.toList := by
  obtain ⟨-, hsearch | ⟨place, hplace, hsearch⟩⟩ := searchFrom_of_find h
  · exact slice?_of_searchFrom hm hsearch
  · obtain ⟨hle, hpart⟩ := slice?_of_searchFrom hm hsearch
    have hlt := (Text.nextPlace?_eq_some hplace).1
    exact ⟨by omega, hpart⟩

end Matcher

end CodeMarkup
