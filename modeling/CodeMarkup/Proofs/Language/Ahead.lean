import CodeMarkup.Proofs.Language.Lawful
import CodeMarkup.Proofs.Language.Unions

/-! # What is ahead

The matches that a matcher comes upon from an offset on: at one place those of its rules in order,
then those at the next place (`Matcher.ahead`). The next match is the first of them
(`Matcher.find_eq`), and behind a match that is refused all others are still ahead
(`Matcher.ahead_eq_cons`). -/

namespace CodeMarkup

open Regex
open Text (Cursor byteSize)

/-! ### At one place -/

theorem Pattern.start_of_spanAlone? {ρ : Type} [Engine ρ] {foldCase : Bool} {text : List Char}
    {offset : Nat} {source : String} {s : Span}
    (h : spanAlone? ρ foldCase text offset source = some s) : s.start = offset := by
  unfold spanAlone? Engine.spanAt at h
  split at h
  · split at h
    · simpa using (Option.filter_eq_some_iff.mp h).2
    · cases h
  · cases h

namespace Rule

variable (ρ : Type) [Engine ρ] (foldCase : Bool) (text : List Char)

/-- What rules match at a byte offset, one after the other. -/
def allAt (offset : Nat) : Nat → List Rule → List Found
  | _, [] => []
  | position, r :: rs =>
    (r.matchAt? ρ foldCase text offset position).toList ++ allAt offset (position + 1) rs

variable {ρ foldCase text} {offset : Nat}

theorem firstAt?_eq_head? : ∀ (position : Nat) (rs : List Rule),
    firstAt? ρ foldCase text offset position rs = (allAt ρ foldCase text offset position rs).head?
  | _, [] => rfl
  | position, r :: rs => by
    rw [firstAt?, allAt, firstAt?_eq_head? (position + 1) rs]
    cases r.matchAt? ρ foldCase text offset position <;> rfl

theorem mem_allAt_iff {found : Found} : ∀ {rs : List Rule} {position : Nat},
    found ∈ allAt ρ foldCase text offset position rs ↔
      ∃ (k : Nat) (r : Rule), rs[k]? = some r ∧
        r.matchAt? ρ foldCase text offset (position + k) = some found
  | [], _ => by simp [allAt]
  | r :: rs, position => by
    rw [allAt, List.mem_append, Option.mem_toList, mem_allAt_iff]
    constructor
    · rintro (h | ⟨k, r', hk, hr'⟩)
      · exact ⟨0, r, rfl, h⟩
      · exact ⟨k + 1, r', hk, by rwa [← Nat.add_assoc, Nat.add_right_comm]⟩
    · rintro ⟨k, r', hk, hr'⟩
      cases k with
      | zero =>
        cases hk
        exact Or.inl hr'
      | succ k => exact Or.inr ⟨k, r', hk, by rwa [Nat.add_right_comm, Nat.add_assoc]⟩

theorem of_matchAt? {position : Nat} {r : Rule} {found : Found}
    (h : r.matchAt? ρ foldCase text offset position = some found) :
    found.index = offset ∧ found.position = position ∧ found.kind = r.kind := by
  unfold matchAt? at h
  split at h
  · cases h
  · split at h
    · split at h
      · cases h
        exact ⟨rfl, rfl, rfl⟩
      · cases h
    · cases h

/-- No rule matches at a byte offset, or one of them is the first that does and the rules behind it
match what is left. -/
theorem allAt_cases : ∀ (position : Nat) (rs : List Rule),
    allAt ρ foldCase text offset position rs = [] ∨
    ∃ k r found, rs[k]? = some r ∧ r.matchAt? ρ foldCase text offset (position + k) = some found ∧
      allAt ρ foldCase text offset position rs =
        found :: allAt ρ foldCase text offset (position + k + 1) (rs.drop (k + 1))
  | _, [] => Or.inl rfl
  | position, r :: rs => by
    rw [allAt]
    cases hr : r.matchAt? ρ foldCase text offset position with
    | some found => exact Or.inr ⟨0, r, found, rfl, hr, rfl⟩
    | none =>
      rw [Option.toList_none, List.nil_append]
      rcases allAt_cases (position + 1) rs with hnil | ⟨k, r', found, hk, hr', htail⟩
      · exact Or.inl hnil
      · have hposition : position + 1 + k = position + (k + 1) := by omega
        rw [hposition] at hr' htail
        exact Or.inr ⟨k + 1, r', found, hk, hr', htail⟩

/-- A match ends at a place of the text. -/
theorem isPlace_of_matchAt? {position : Nat} {r : Rule} {found : Found}
    (h : r.matchAt? ρ foldCase text offset position = some found)
    (hoffset : Text.IsPlace text offset) :
    Text.IsPlace text (found.index + found.lexeme.utf8ByteSize) := by
  have hlexeme := @lexeme_matchAt? ρ _ foldCase r text offset position
  rw [h, Option.map_some] at hlexeme
  obtain ⟨s, hs, hlexeme⟩ := Option.map_eq_some_iff.mp hlexeme.symm
  rw [(of_matchAt? h).1, ← hlexeme]
  cases hpart : Text.slice? text s.start s.stop with
  | none => exact hoffset
  | some part =>
    obtain ⟨-, -, -, -, hstop⟩ := Text.slice?_eq_some.mp hpart
    rw [← Pattern.start_of_spanAlone? hs, Option.getD_some, Text.utf8ByteSize_ofList, hstop]
    exact Text.isPlace_right hpart

theorem index_of_firstAt? {position : Nat} {rs : List Rule} {found : Found}
    (h : firstAt? ρ foldCase text offset position rs = some found) : found.index = offset := by
  rw [firstAt?_eq_head?] at h
  rcases @allAt_cases ρ _ foldCase text offset position rs with hnil | ⟨k, r, f, -, hr, htail⟩
  · rw [hnil] at h
    cases h
  · rw [htail] at h
    cases h
    exact (of_matchAt? hr).1

end Rule

/-! ### From place to place -/

theorem le_of_mem_placesFrom : ∀ {n : Nat} {cs : List Char} {o : Nat}, o ∈ placesFrom n cs → n ≤ o
  | n, [], o, h => by
    rw [placesFrom, List.mem_singleton] at h
    exact Nat.le_of_eq h.symm
  | n, c :: cs, o, h => by
    rw [placesFrom, List.mem_cons] at h
    rcases h with rfl | h
    · exact Nat.le_refl _
    · exact Nat.le_trans (Nat.le_add_right n c.utf8Size) (le_of_mem_placesFrom h)

theorem isPlace_of_mem_placesFrom {o : Nat} : ∀ {before after : List Char},
    o ∈ placesFrom (byteSize before) after → Text.IsPlace (before ++ after) o
  | before, [], h => by
    rw [placesFrom, List.mem_singleton] at h
    exact ⟨before, [], rfl, h.symm⟩
  | before, c :: cs, h => by
    rw [placesFrom, List.mem_cons] at h
    rcases h with h | h
    · exact ⟨before, c :: cs, rfl, h.symm⟩
    · have hsize : byteSize before + c.utf8Size = byteSize (before ++ [c]) := by simp
      rw [hsize] at h
      simpa using isPlace_of_mem_placesFrom h

theorem Text.nextPlace?_byteSize (before : List Char) (c : Char) (after : List Char) :
    Text.nextPlace? (before ++ c :: after) (byteSize before) =
      some (byteSize (before ++ [c])) := by
  unfold Text.nextPlace?
  rw [Text.dropTo?_eq, Text.splitAt?_byteSize]
  simp

theorem Text.nextPlace?_end (before : List Char) :
    Text.nextPlace? before (byteSize before) = none := by
  have hs := Text.splitAt?_byteSize before []
  rw [List.append_nil] at hs
  unfold Text.nextPlace?
  rw [Text.dropTo?_eq, hs]
  rfl

namespace Matcher

variable {ρ : Type} [Engine ρ] (m : Matcher ρ) (text : List Char)

/-- What the rules match at the place at an offset and behind it; at the place itself only the rules
from one of them on are asked. Nothing if there is no such place. -/
def ahead (offset first : Nat) : List Found :=
  match Text.splitAt? text offset with
  | some (_, after) => Rule.allAt ρ m.foldCase text offset first (m.rules.drop first) ++
      (placesFrom offset after).tail.flatMap fun o => Rule.allAt ρ m.foldCase text o 0 m.rules
  | none => []

/-- What the rules match behind the place at an offset. -/
def aheadBehind (offset : Nat) : List Found :=
  ((Text.nextPlace? text offset).map fun next => m.ahead text next 0).getD []

theorem ahead_of_lt {offset : Nat} (h : byteSize text < offset) (first : Nat) :
    m.ahead text offset first = [] := by
  unfold ahead
  cases hs : Text.splitAt? text offset with
  | none => rfl
  | some parts =>
    obtain ⟨before, after⟩ := parts
    have hsize := Text.byteSize_of_splitAt? hs
    rw [← Text.append_of_splitAt? hs, Text.byteSize_append] at h
    omega

theorem ahead_byteSize (before after : List Char) (first : Nat) :
    m.ahead (before ++ after) (byteSize before) first =
      Rule.allAt ρ m.foldCase (before ++ after) (byteSize before) first (m.rules.drop first) ++
        m.aheadBehind (before ++ after) (byteSize before) := by
  unfold aheadBehind
  rw [ahead, Text.splitAt?_byteSize]
  cases after with
  | nil =>
    rw [List.append_nil, Text.nextPlace?_end]
    rfl
  | cons c cs =>
    have htext : before ++ c :: cs = before ++ [c] ++ cs := by simp
    have hsize : byteSize before + c.utf8Size = byteSize (before ++ [c]) := by simp
    rw [Text.nextPlace?_byteSize, Option.map_some, Option.getD_some, ahead]
    conv_rhs => rw [htext, Text.splitAt?_byteSize]
    dsimp only
    rw [placesFrom, List.tail_cons, hsize, ← htext, List.drop_zero]
    cases cs <;> rw [placesFrom] <;> rfl

variable {m text}

/-- With all rules, what is ahead begins with the first match of any rule at the first place. -/
theorem head?_ahead (before after : List Char) :
    (m.ahead (before ++ after) (byteSize before) 0).head? =
      (placesFrom (byteSize before) after).findSome? fun o =>
        Rule.firstAt? ρ m.foldCase (before ++ after) o 0 m.rules := by
  have hall : ∀ os : List Nat, (os.flatMap fun o =>
      Rule.allAt ρ m.foldCase (before ++ after) o 0 m.rules).head? =
        os.findSome? fun o => Rule.firstAt? ρ m.foldCase (before ++ after) o 0 m.rules := by
    intro os
    simp only [Rule.firstAt?_eq_head?, List.head?_flatMap]
  rw [← hall, ahead, Text.splitAt?_byteSize, List.drop_zero]
  cases after <;> rw [placesFrom] <;> rfl

/-- A match that is ahead. -/
structure IsAhead (m : Matcher ρ) (text : List Char) (offset : Nat) (found : Found) : Prop where
  le : offset ≤ found.index
  place : Text.IsPlace text found.index
  lt : found.position < m.rules.length
  rule : ∃ r ∈ m.rules, ∃ position, r.matchAt? ρ m.foldCase text found.index position = some found

theorem isAhead_of_mem {offset first : Nat} {found : Found}
    (h : found ∈ m.ahead text offset first) : m.IsAhead text offset found := by
  have hrules : ∀ {o first : Nat}, offset ≤ o → Text.IsPlace text o →
      found ∈ Rule.allAt ρ m.foldCase text o first (m.rules.drop first) →
        m.IsAhead text offset found := by
    intro o first hle hplace hmem
    obtain ⟨k, r, hk, hr⟩ := Rule.mem_allAt_iff.mp hmem
    obtain ⟨rfl, hposition, -⟩ := Rule.of_matchAt? hr
    rw [List.getElem?_drop] at hk
    exact ⟨hle, hplace, hposition ▸ (List.getElem?_eq_some_iff.mp hk).1, r,
      List.mem_of_getElem? hk, first + k, hr⟩
  unfold ahead at h
  split at h
  · next before after hs =>
    obtain rfl := Text.byteSize_of_splitAt? hs
    have htext := Text.append_of_splitAt? hs
    rw [List.mem_append, List.mem_flatMap] at h
    rcases h with h | ⟨o, ho, h⟩
    · exact hrules (Nat.le_refl _) ⟨before, after, htext.symm, rfl⟩ h
    · have ho' := List.mem_of_mem_tail ho
      have hplace := isPlace_of_mem_placesFrom ho'
      rw [htext] at hplace
      exact hrules (le_of_mem_placesFrom ho') hplace h
  · cases h

/-- The offset and the rule from which on all matches behind a match are ahead: the rules behind its
own at the same place, or all rules behind the place if there are none. -/
def behind (m : Matcher ρ) (text : List Char) (found : Found) : Nat × Nat :=
  if m.ruleAfter found = 0 then
    ((Text.nextPlace? text found.index).getD (found.index + 1), 0)
  else (found.index, m.ruleAfter found)

theorem ahead_behind {before after : List Char} {found : Found}
    (hindex : found.index = byteSize before) :
    m.ahead (before ++ after) (m.behind (before ++ after) found).1
        (m.behind (before ++ after) found).2 =
      Rule.allAt ρ m.foldCase (before ++ after) (byteSize before) (found.position + 1)
        (m.rules.drop (found.position + 1)) ++
          m.aheadBehind (before ++ after) (byteSize before) := by
  unfold behind ruleAfter
  by_cases hlt : found.position + 1 < m.rules.length
  · rw [if_pos hlt, if_neg (Nat.succ_ne_zero _), hindex, ahead_byteSize]
  · rw [if_neg hlt, if_pos rfl, hindex, List.drop_of_length_le (Nat.le_of_not_lt hlt), Rule.allAt,
      List.nil_append, aheadBehind]
    cases after with
    | nil =>
      rw [List.append_nil, Text.nextPlace?_end]
      exact ahead_of_lt m before (Nat.lt_succ_self _) 0
    | cons c cs => rw [Text.nextPlace?_byteSize]; rfl

theorem ahead_cases (first : Nat) (after before : List Char) :
    m.ahead (before ++ after) (byteSize before) first = [] ∨
    ∃ found, m.ahead (before ++ after) (byteSize before) first = found ::
      m.ahead (before ++ after) (m.behind (before ++ after) found).1
        (m.behind (before ++ after) found).2 := by
  rw [ahead_byteSize]
  rcases @Rule.allAt_cases ρ _ m.foldCase (before ++ after) (byteSize before) first
    (m.rules.drop first) with hnil | ⟨k, r, found, hk, hr, htail⟩
  · rw [hnil, List.nil_append, aheadBehind]
    cases after with
    | nil =>
      rw [List.append_nil, Text.nextPlace?_end]
      exact Or.inl rfl
    | cons c cs =>
      have htext : before ++ c :: cs = before ++ [c] ++ cs := by simp
      rw [Text.nextPlace?_byteSize, Option.map_some, Option.getD_some, htext]
      exact ahead_cases 0 cs (before ++ [c])
  · obtain ⟨hindex, hposition, -⟩ := Rule.of_matchAt? hr
    refine Or.inr ⟨found, ?_⟩
    rw [ahead_behind hindex, htail, List.drop_drop, hposition, Nat.add_assoc, List.cons_append]
termination_by after.length

/-- **Behind the first match that is ahead all others are ahead.** -/
theorem ahead_eq_cons {offset first : Nat} {found : Found} {rest : List Found}
    (h : m.ahead text offset first = found :: rest) :
    rest = m.ahead text (m.behind text found).1 (m.behind text found).2 := by
  cases hs : Text.splitAt? text offset with
  | none =>
    rw [ahead, hs] at h
    cases h
  | some parts =>
    obtain ⟨before, after⟩ := parts
    obtain rfl := Text.byteSize_of_splitAt? hs
    obtain rfl := Text.append_of_splitAt? hs
    rcases @ahead_cases ρ _ m first after before with hnil | ⟨found', heq⟩
    · rw [hnil] at h
      cases h
    · rw [heq] at h
      cases h
      rfl

theorem behind_lt (found : Found) :
    (m.behind text found).2 = 0 ∨ (m.behind text found).2 < m.rules.length := by
  unfold behind
  split
  · exact Or.inl rfl
  · unfold ruleAfter
    split
    · next hlt => exact Or.inr hlt
    · exact Or.inl rfl

/-! ### The next match -/

/-- A matcher whose rules are plain patterns that are accepted, alone and joined. -/
structure Joins (m : Matcher ρ) : Prop where
  accepted : ∀ r ∈ m.rules, r.Accepted ρ m.foldCase
  joined : ∀ first, first = 0 ∨ first < m.rules.length →
    ∃ ch : Choice ρ, Choice.ofRules m.rules m.foldCase first = .ok ch

theorem choice_of_ofRules {first : Nat} (hfirst : first = 0 ∨ first < m.rules.length)
    {ch : Choice ρ} (h : Choice.ofRules m.rules m.foldCase first = .ok ch) :
    m.choice first = .ok ch := by
  unfold choice
  rw [getElem?_choices, if_pos (by omega)]
  simp only [Thunk.get, h]

end Matcher

/-- An engine that finds nothing from an offset on that is behind the text. -/
def Engine.StopsAtEnd (ρ : Type) [Engine ρ] : Prop :=
  ∀ (re : ρ) (text : List Char) (offset : Nat), byteSize text < offset →
    Engine.search re text offset = .ok none

theorem Regex.Tried.stopsAtEnd : Engine.StopsAtEnd Tried := by
  intro re text offset hlt
  change Except.ok ((Text.splitAt? text offset).bind _) = _
  cases hsplit : Text.splitAt? text offset with
  | none => rfl
  | some parts =>
    have happend := Text.append_of_splitAt? hsplit
    have hsize := Text.byteSize_of_splitAt? hsplit
    rw [← happend, Text.byteSize_append] at hlt
    omega

namespace Matcher

variable {ρ : Type} [Engine ρ]

/-- A matcher whose searches in a text find what its rules match alone: what the first of the rules
that are looked for matches at the first place where any of them does. -/
structure SearchesAlone (m : Matcher ρ) (text : List Char) : Prop where
  found : ∀ first, first = 0 ∨ first < m.rules.length → ∀ before after, before ++ after = text →
    m.searchFrom first text (byteSize before) =
      .ok ((placesFrom (byteSize before) after).findSome? fun o =>
        Rule.firstAt? ρ m.foldCase text o first (m.rules.drop first))
  behind : ∀ first, first = 0 ∨ first < m.rules.length → ∀ offset, byteSize text < offset →
    m.searchFrom first text offset = .ok none

section Joined

variable {letters : Letters} (hρ : LeftmostFirst ρ letters) {m : Matcher ρ} (hm : m.Joins)

include hm

include hρ in
/-- A search among the rules from one of them on finds what the first of them matches that does at
the first place where any does. -/
theorem searchFrom_byteSize {first : Nat} (hfirst : first = 0 ∨ first < m.rules.length)
    (before after : List Char) :
    m.searchFrom first (before ++ after) (byteSize before) =
      .ok ((placesFrom (byteSize before) after).findSome? fun o =>
        Rule.firstAt? ρ m.foldCase (before ++ after) o first (m.rules.drop first)) := by
  obtain ⟨ch, hch⟩ := hm.joined first hfirst
  unfold searchFrom
  rw [choice_of_ofRules hfirst hch]
  exact Choice.search_eq_scan hρ hch (fun r hr => hm.accepted r (List.mem_of_mem_drop hr)) before
    after

/-- Behind the text nothing is found. -/
theorem searchFrom_of_lt (hend : Engine.StopsAtEnd ρ) {first : Nat}
    (hfirst : first = 0 ∨ first < m.rules.length) {text : List Char} {offset : Nat}
    (h : byteSize text < offset) : m.searchFrom first text offset = .ok none := by
  obtain ⟨ch, hch⟩ := hm.joined first hfirst
  unfold searchFrom
  rw [choice_of_ofRules hfirst hch]
  change ch.search text offset = _
  unfold Choice.search
  cases ch.regex? with
  | none => rfl
  | some re =>
    dsimp only
    rw [hend re text offset h]
    rfl

include hρ in
/-- **Plain rules that are joined are found as they match alone.** -/
theorem Joins.searchesAlone (hend : Engine.StopsAtEnd ρ) (text : List Char) :
    m.SearchesAlone text where
  found first hfirst before after htext := by
    subst htext
    exact searchFrom_byteSize hρ hm hfirst before after
  behind first hfirst offset := searchFrom_of_lt hm hend hfirst

end Joined

namespace SearchesAlone

variable {m : Matcher ρ} {text : List Char} (h : m.SearchesAlone text) {first : Nat}
  (hfirst : first = 0 ∨ first < m.rules.length)

include h hfirst

/-- **The next match is the first of those that are ahead.** -/
theorem find_byteSize (before after : List Char) (htext : before ++ after = text) :
    m.find first text (byteSize before) =
      .ok ((m.ahead text (byteSize before) first).head?.map fun found =>
        (found, m.ruleAfter found)) := by
  subst htext
  unfold find
  rw [h.found first hfirst before after rfl]
  by_cases hzero : first = 0
  · subst hzero
    rw [List.drop_zero, ← head?_ahead]
    rfl
  obtain ⟨later, hplaces, hlater⟩ : ∃ later, placesFrom (byteSize before) after =
      byteSize before :: later ∧ ∀ o ∈ later, byteSize before < o := by
    cases after with
    | nil => exact ⟨[], rfl, by simp⟩
    | cons c cs => exact ⟨_, rfl, fun o ho => Nat.lt_of_lt_of_le
        (Nat.lt_add_of_pos_right c.utf8Size_pos) (le_of_mem_placesFrom ho)⟩
  simp only [bind, Except.bind, pure, Except.pure, hplaces, List.findSome?_cons, ahead_byteSize,
    List.head?_append, ← Rule.firstAt?_eq_head?, hzero, decide_false, Bool.false_or]
  cases hhere : Rule.firstAt? ρ m.foldCase (before ++ after) (byteSize before) first
      (m.rules.drop first) with
  | some found =>
    have hindex := Rule.index_of_firstAt? hhere
    simp [hindex]
  | none =>
    -- What is found further on among these rules only is not what counts.
    have hfar : (later.findSome? fun o => Rule.firstAt? ρ m.foldCase (before ++ after) o first
        (m.rules.drop first)).any (·.index == byteSize before) = false := by
      cases hf : later.findSome? fun o => Rule.firstAt? ρ m.foldCase (before ++ after) o first
          (m.rules.drop first) with
      | none => rfl
      | some found =>
        obtain ⟨o, ho, hfound⟩ := List.exists_of_findSome?_eq_some hf
        have hlt := hlater o ho
        rw [← Rule.index_of_firstAt? hfound] at hlt
        simpa using Nat.ne_of_gt hlt
    rw [hfar, Option.none_or, aheadBehind]
    cases after with
    | nil =>
      rw [List.append_nil, Text.nextPlace?_end]
      rfl
    | cons c cs =>
      have htext : before ++ c :: cs = before ++ [c] ++ cs := by simp
      have hall := h.found 0 (Or.inl rfl) (before ++ [c]) cs htext.symm
      rw [htext] at hall
      rw [Text.nextPlace?_byteSize, htext, if_neg Bool.false_ne_true]
      dsimp only
      rw [hall, List.drop_zero, ← head?_ahead]
      rfl

/-- Behind the text no match is next. -/
theorem find_of_lt {offset : Nat} (hlt : byteSize text < offset) :
    m.find first text offset = .ok none := by
  have hnext : Text.nextPlace? text offset = none := by
    cases hn : Text.nextPlace? text offset with
    | none => rfl
    | some next =>
      obtain ⟨-, c, hc⟩ := Text.nextPlace?_eq_some hn
      have := (Text.isPlace_left hc).le
      omega
  unfold find
  rw [h.behind first hfirst offset hlt, hnext]
  simp only [bind, Except.bind]
  split <;> rfl

/-- At a place of the text and behind it, the next match is the first of those that are ahead. -/
theorem find_eq {offset : Nat} (hoffset : Text.IsPlace text offset ∨ byteSize text < offset) :
    m.find first text offset =
      .ok ((m.ahead text offset first).head?.map fun found => (found, m.ruleAfter found)) := by
  rcases hoffset with ⟨before, after, htext, rfl⟩ | hlt
  · exact h.find_byteSize hfirst before after htext.symm
  · rw [h.find_of_lt hfirst hlt, ahead_of_lt m text hlt]
    rfl

end SearchesAlone

/-- With plain rules that are joined, the next match is the first of those that are ahead. -/
theorem find_eq {letters : Letters} (hρ : LeftmostFirst ρ letters) {m : Matcher ρ} (hm : m.Joins)
    {first : Nat} (hfirst : first = 0 ∨ first < m.rules.length) (hend : Engine.StopsAtEnd ρ)
    {text : List Char} {offset : Nat}
    (hoffset : Text.IsPlace text offset ∨ byteSize text < offset) :
    m.find first text offset =
      .ok ((m.ahead text offset first).head?.map fun found => (found, m.ruleAfter found)) :=
  (hm.searchesAlone hρ hend text).find_eq hfirst hoffset

end Matcher

end CodeMarkup
