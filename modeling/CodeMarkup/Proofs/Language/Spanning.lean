import CodeMarkup.Proofs.Language.Lawful

/-! # The group of the rule that has matched

With an engine that takes the first alternative it can, and plain patterns, the group of the rule
that has matched spans all of the match (`Choice.get?_of_search`). So the matchers of plain patterns
match where they are looked for, once their matches are looked over (`Matcher.lands_of_accepted`). -/

namespace CodeMarkup

open Regex
open Text (Cursor byteSize)

theorem exists_of_mem_forall₂ {α β : Type} {R : α → β → Prop} {xs : List α} {ys : List β}
    (h : List.Forall₂ R xs ys) {x : α} (hx : x ∈ xs) : ∃ y, R x y := by
  induction h with
  | nil => cases hx
  | @cons x' y xs ys hxy _ ih =>
    rcases List.mem_cons.mp hx with rfl | hx
    · exact ⟨y, hxy⟩
    · exact ih hx

instance {ρ : Type} [Engine ρ] (foldCase : Bool) (r : Rule) : Decidable (r.Accepted ρ foldCase) :=
  decidable_of_iff (Matcher.check ρ r.kind r.source = .ok r ∧
      (Engine.compile (Pattern.flagged r.source foldCase) : Except Fault ρ).isOk ∧
        Pattern.Plain false r.source.toList)
    ⟨fun ⟨hc, hok, hp⟩ => ⟨hc, by
      cases hre : (Engine.compile (Pattern.flagged r.source foldCase) : Except Fault ρ) with
      | error fault => rw [hre] at hok; cases hok
      | ok re => exact ⟨re, rfl⟩, hp⟩,
    fun ⟨hc, ⟨_, hre⟩, hp⟩ => ⟨hc, by rw [hre]; rfl, hp⟩⟩

section LeftmostFirst

variable {ρ : Type} [Engine ρ] {letters : Letters} (hρ : LeftmostFirst ρ letters) {foldCase : Bool}

include hρ

/-- **The group of the rule that has matched spans the match.** -/
theorem Choice.get?_of_search {rules : List Rule} (hrules : ∀ r ∈ rules, r.Accepted ρ foldCase)
    (hne : rules ≠ []) {re : ρ} (hre : Engine.compile (Pattern.flagged
      (Pattern.join (rules.map Rule.source) "|") foldCase) = .ok re) {before after : List Char}
    {c : Captures} (h : Engine.search re (before ++ after) (byteSize before) = .ok (some c))
    {first : Nat} {r : Rule} {group position : Nat}
    (hp : participant? c 1 first rules = some (r, group, position)) :
    c.get? group = c.get? 0 := by
  obtain ⟨qs, hqs⟩ := exists_readings hρ hrules
  obtain ⟨p, hread, -, hsearch⟩ := hρ.exists_parsed hre
  have hsources : List.Forall₂ (fun source q => Pattern.Plain false source.toList ∧
      Parsed.read (Pattern.flagged source foldCase) = .ok q) (rules.map Rule.source) qs :=
    List.forall₂_map_left_iff.mpr (hqs.imp fun _ _ hq => ⟨hq.1, hq.2.1⟩)
  obtain ⟨he, hg⟩ := read_join hsources (by simpa using hne) hread
  rw [hsearch] at h
  obtain ⟨m, hm, rfl⟩ := Option.map_eq_some_iff.mp (Except.ok.inj h)
  obtain ⟨d, hd, hm⟩ := List.exists_of_findSome?_eq_some hm
  obtain ⟨-, b, a, htext, rfl, -⟩ := exists_of_mem_forall₂ (forall₂_onwards after before rfl) hd
  have hat := hqs.imp fun r q hq => hq.2.2 b a
  have hf := firstAt?_of_matchAt? (Cursor.between before after).offset first he hg hat
  rw [hm] at hf
  obtain ⟨r', g, at', hpart, hspan, -⟩ := hf.first
  obtain ⟨-, rfl, -⟩ := Prod.mk.inj (Option.some.inj (hpart.symm.trans hp)) |>.imp_right Prod.mk.inj
  exact hspan

end LeftmostFirst

/-! ### Matches that are looked over -/

theorem Regex.Tried.exists_split {re : Tried} {text : List Char} {offset : Nat} {c : Captures}
    (h : Engine.search re text offset = .ok (some c)) :
    ∃ before after, text = before ++ after ∧ offset = byteSize before := by
  obtain ⟨⟨before, after⟩, hs, -⟩ := Option.bind_eq_some_iff.mp (Except.ok.inj h)
  exact ⟨before, after, (Text.append_of_splitAt? hs).symm, (Text.byteSize_of_splitAt? hs).symm⟩

theorem Checked.of_compile {ρ : Type} [Engine ρ] {source : String} {re : Checked ρ}
    (h : Engine.compile source = .ok re) : Engine.compile source = .ok re.regex := by
  change (Engine.compile source).map Checked.mk = .ok re at h
  cases hc : (Engine.compile source : Except Fault ρ) with
  | error fault => rw [hc] at h; cases h
  | ok regex =>
    rw [hc] at h
    rw [← Except.ok.inj h]

theorem Checked.of_search {ρ : Type} [Engine ρ] {re : Checked ρ} {text : List Char} {offset : Nat}
    {c : Captures} (h : Engine.search re text offset = .ok (some c)) :
    Engine.search re.regex text offset = .ok (some c) := by
  change (Engine.search re.regex text offset).map (Option.filter (·.lands text offset)) = _ at h
  cases hs : Engine.search re.regex text offset with
  | error e => rw [hs] at h; cases h
  | ok found =>
    rw [hs] at h
    rw [(Option.filter_eq_some_iff.mp (Except.ok.inj h)).1]

/-- Plain patterns match where they are looked for. -/
theorem Matcher.lands_of_accepted {m : Matcher (Checked Tried)}
    (h : ∀ r ∈ m.rules, r.Accepted Tried m.foldCase) : m.Lands := by
  intro first ch regex text offset c whole hch hregex hsearch hwhole
  have hρ := Checked.lawful Tried
  refine ⟨hρ.search_le hsearch hwhole, hρ.search_in hsearch hwhole, fun r group position hp => ?_⟩
  rcases Choice.of_ofRules (ofRules_of_choice hch) with ⟨-, hnone⟩ | ⟨hne, -, hrules, re, hre, hsome⟩
  · rw [hnone] at hregex
    cases hregex
  · obtain rfl : re = regex := Option.some.inj (hsome.symm.trans hregex)
    have hsearch' := Checked.of_search hsearch
    obtain ⟨before, after, rfl, rfl⟩ := Tried.exists_split hsearch'
    rw [hrules] at hp
    rw [← hwhole]
    exact Choice.get?_of_search Tried.leftmostFirst
      (fun r hr => h r (List.mem_of_mem_drop hr)) hne (Checked.of_compile hre) hsearch' hp

end CodeMarkup
