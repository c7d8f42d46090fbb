import CodeMarkup.Proofs.Language.Ahead
import CodeMarkup.Proofs.Language.Spanning
import CodeMarkup.Proofs.Regex.Onward

/-! # Engines that may give up

An engine may accept more patterns than are read here and may give up while it looks for one, as long
as all that it finds is what the first way to match gives (`Regex.FindsFirst`). What such an engine
finds an engine finds as well that goes through all the ways (`Regex.Sought`), so what holds of the
matches of that one holds of them: rules whose patterns are read alone match where they are looked for
(`Matcher.lands_of_read`), and a rule whose pattern takes a character does not match the empty text
(`Matcher.lexeme_ne_empty`). -/

namespace CodeMarkup

open Regex
open Text (Cursor byteSize)

theorem Text.byteSize_reverse : ∀ cs : List Char, byteSize cs.reverse = byteSize cs
  | [] => rfl
  | c :: cs => by
    rw [List.reverse_cons, byteSize_append, byteSize_reverse cs, byteSize_cons, byteSize_cons,
      byteSize_nil]
    omega

namespace Regex

/-- An engine that finds nothing but what the first way to match gives; it may give up. -/
structure FindsFirst (ρ : Type) [Engine ρ] (letters : Letters) : Prop where
  groups : ∀ {source : String} {re : ρ} {p : Parsed}, Engine.compile source = .ok re →
    Parsed.read source = .ok p → Engine.groupCount re = p.groups
  search : ∀ {source : String} {re : ρ} {text : List Char} {offset : Nat} {c : Captures},
    Engine.compile source = .ok re → Engine.search re text offset = .ok (some c) →
      ∃ p before after, Parsed.read source = .ok p ∧ text = before ++ after ∧
        byteSize before = offset ∧ p.search letters (Cursor.between before after) = some c

/-- A pattern to be searched for by going through the ways in which it matches, where letters are given
their meaning. -/
structure Sought (letters : Letters) where
  pattern : Parsed

instance (letters : Letters) : Engine (Sought letters) where
  compile source := (Parsed.read source).map Sought.mk
  groupCount re := re.pattern.groups
  search re text offset :=
    .ok ((Text.splitAt? text offset).bind fun (before, after) =>
      re.pattern.search letters (Cursor.between before after))
  occurrences _ _ := .ok []

namespace Sought

variable {letters : Letters}

theorem of_compile {source : String} {re : Sought letters} (h : Engine.compile source = .ok re) :
    Parsed.read source = .ok re.pattern := by
  change (Parsed.read source).map Sought.mk = .ok re at h
  cases hr : Parsed.read source with
  | error fault => rw [hr] at h; cases h
  | ok p =>
    rw [hr] at h
    rw [← Except.ok.inj h]

theorem compile_eq {source : String} {p : Parsed} (h : Parsed.read source = .ok p) :
    (Engine.compile source : Except Fault (Sought letters)) = .ok ⟨p⟩ := by
  change (Parsed.read source).map Sought.mk = _
  rw [h]
  rfl

theorem search_byteSize (p : Parsed) (before after : List Char) :
    Engine.search (⟨p⟩ : Sought letters) (before ++ after) (byteSize before) =
      .ok (p.search letters (Cursor.between before after)) := by
  change Except.ok ((Text.splitAt? _ _).bind _) = _
  rw [Text.splitAt?_byteSize]
  rfl

theorem leftmostFirst (letters : Letters) : LeftmostFirst (Sought letters) letters where
  exists_parsed {_ re} h := ⟨re.pattern, of_compile h, rfl, search_byteSize re.pattern⟩

end Sought

end Regex

theorem Regex.Tried.findsFirst : FindsFirst Tried .standard where
  groups hre hp := by
    obtain ⟨q, hq, hgroups, -⟩ := Tried.leftmostFirst.exists_parsed hre
    obtain rfl := Except.ok.inj (hp.symm.trans hq)
    exact hgroups
  search hre hsearch := by
    obtain ⟨before, after, rfl, rfl⟩ := Tried.exists_split hsearch
    obtain ⟨p, hp, -, hfirst⟩ := Tried.leftmostFirst.exists_parsed hre
    exact ⟨p, before, after, hp, rfl, rfl, Except.ok.inj ((hfirst before after).symm.trans hsearch)⟩

/-! ### Matches of a rule -/

/-- What a pattern matches at a place ends at another one, as many bytes behind it as the pattern takes
characters. -/
theorem Regex.Parsed.span_of_matchAt? {letters : Letters} {q : Parsed} (hq : q.expr.isSteady)
    {start : Nat} {before after : List Char} {m : Marks}
    (h : q.matchAt? letters start (Cursor.between before after) = some m) :
    ∃ stop, (Captures.ofMarks q.groups m).get? 0 = some ⟨byteSize before, stop⟩ ∧
      Text.IsPlace (before ++ after) stop ∧ byteSize before + q.expr.leastTaken ≤ stop := by
  obtain ⟨stop, hstop, honward⟩ := Parsed.onward_of_matchAt? hq h
  have htext : before ++ after = stop.before.reverse ++ stop.after := by
    have hhere : (Cursor.between before after).text = before ++ after := by
      rw [Cursor.text, Cursor.between, List.reverse_reverse]
    exact hhere.symm.trans honward.text.symm
  refine ⟨stop.offset, ?_, ⟨stop.before.reverse, stop.after, htext, ?_⟩, honward.le⟩
  · rw [Captures.get?_ofMarks, if_pos (Nat.zero_le _), hstop]
    rfl
  · rw [Text.byteSize_reverse, stop.offset_eq]

/-- What a pattern is found to match is a part of the text, at or behind the place that it is looked
for from. -/
theorem Regex.Parsed.in_of_search {letters : Letters} {q : Parsed} (hq : q.expr.isSteady)
    {before after : List Char} {c : Captures}
    (h : q.search letters (Cursor.between before after) = some c) {whole : Span}
    (hwhole : c.get? 0 = some whole) :
    byteSize before ≤ whole.start ∧ whole.In (before ++ after) := by
  obtain ⟨m, hm, rfl⟩ := Option.map_eq_some_iff.mp h
  obtain ⟨d, hd, hm⟩ := List.exists_of_findSome?_eq_some hm
  obtain ⟨-, b, a, htext, rfl, -⟩ := exists_of_mem_forall₂ (forall₂_onwards after before rfl) hd
  obtain ⟨stop, hstop, hplace, hle⟩ := Parsed.span_of_matchAt? hq hm
  obtain rfl : ⟨byteSize b, stop⟩ = whole := Option.some.inj (hstop.symm.trans hwhole)
  rw [htext] at hplace
  have hfrom : byteSize before ≤ byteSize b := Cursor.offset_le_of_mem_onwardsFrom hd
  exact ⟨hfrom, Text.exists_slice? ⟨b, a, htext.symm, rfl⟩ hplace
    (Nat.le_trans (Nat.le_add_right ..) hle)⟩

/-- A rule whose pattern takes a character does not match the empty text. -/
theorem Rule.Accepted.lexeme_ne_empty {letters : Letters} {foldCase : Bool} {r : Rule}
    (hr : r.Accepted (Sought letters) foldCase) {q : Parsed}
    (hq : Parsed.read (Pattern.flagged r.source foldCase) = .ok q)
    (htaken : 0 < q.expr.leastTaken) {text : List Char} {offset position : Nat} {found : Found}
    (hplace : Text.IsPlace text offset)
    (h : r.matchAt? (Sought letters) foldCase text offset position = some found) :
    found.lexeme ≠ "" := by
  obtain ⟨before, after, rfl, rfl⟩ := hplace
  obtain ⟨q', hq', hreading⟩ := hr.exists_reading (Sought.leftmostFirst letters)
  obtain rfl : q' = q := Except.ok.inj (hq'.symm.trans hq)
  have hread := hreading before after
  change r.matchAt? (Sought letters) foldCase (before ++ after)
    (Cursor.between before after).offset position = some found at h
  rw [hread.matchAt?] at h
  obtain ⟨m, hm, rfl⟩ := Option.map_eq_some_iff.mp h
  obtain ⟨stop, hspan, hend, hle⟩ := Parsed.span_of_matchAt? hread.steady hm
  obtain ⟨part, hpart⟩ := Text.exists_slice? ⟨before, after, rfl, rfl⟩ hend (by omega)
  obtain ⟨-, -, -, -, hsize⟩ := Text.slice?_eq_some.mp hpart
  intro hempty
  have hlexeme : String.ofList part = "" := by
    rw [← hempty, Found.lexeme, Found.group?, List.getElem?_map, List.getElem?_range (Nat.succ_pos _),
      Option.map_some, Option.join_some, Choice.groupText?_eq hspan hpart, Option.getD_some]
  have hnone : byteSize part = 0 := by
    rw [← Text.utf8ByteSize_ofList, hlexeme]
    rfl
  omega

/-! ### Matches of a matcher -/

theorem Regex.isSteady_groupsFrom : ∀ {qs : List Parsed}, (∀ q ∈ qs, q.expr.isSteady) →
    ∀ before : Nat, (groupsFrom before qs).all Expr.isSteady
  | [], _, _ => rfl
  | q :: qs, h, before => by
    obtain ⟨hq, hqs⟩ := List.forall_mem_cons.mp h
    rw [groupsFrom, List.all_cons, isSteady_groupsFrom hqs, Expr.isSteady,
      Expr.isSteady_renumber _ q.expr hq]
    rfl

/-- Joined plain patterns are read to what does not look at what has been recorded before. -/
theorem Choice.isSteady_of_read {ρ : Type} [Engine ρ] {letters : Letters}
    (hρ : LeftmostFirst ρ letters) {foldCase : Bool} {rules : List Rule}
    (hrules : ∀ r ∈ rules, r.Accepted ρ foldCase) (hne : rules ≠ []) {p : Parsed}
    (hread : Parsed.read (Pattern.flagged (Pattern.join (rules.map Rule.source) "|") foldCase) =
      .ok p) : p.expr.isSteady := by
  obtain ⟨qs, hqs⟩ := exists_readings hρ hrules
  have hsources : List.Forall₂ (fun source q => Pattern.Plain false source.toList ∧
      Parsed.read (Pattern.flagged source foldCase) = .ok q) (rules.map Rule.source) qs :=
    List.forall₂_map_left_iff.mpr (hqs.imp fun _ _ hq => ⟨hq.1, hq.2.1⟩)
  have hsteady : ∀ q ∈ qs, q.expr.isSteady := by
    intro q hq
    obtain ⟨r, hr⟩ := exists_of_mem_forall₂ hqs.flip hq
    exact (hr.2.2 [] []).steady
  rw [(read_join hsources (by simpa using hne) hread).1, isSteady_eitherOf]
  exact isSteady_groupsFrom hsteady 0

namespace Matcher

variable {ρ : Type} [Engine ρ] {letters : Letters} (hρ : FindsFirst ρ letters) {m : Matcher ρ}
  {first offset : Nat} {text : List Char} {found : Found}

include hρ

/-- What is found is found as well by an engine that goes through all the ways. -/
theorem exists_sought (h : m.searchFrom first text offset = .ok (some found)) :
    ∃ (ch : Choice (Sought letters)) (before after : List Char),
      Choice.ofRules m.rules m.foldCase first = .ok ch ∧ text = before ++ after ∧
        byteSize before = offset ∧
        ch.search (before ++ after) (byteSize before) = .ok (some found) := by
  obtain ⟨ch, regex, c, hc, hr, hs, hfound⟩ := exists_captures_of_searchFrom h
  rcases Choice.of_ofRules (ofRules_of_choice hc) with
    ⟨-, hnone⟩ | ⟨hne, hfirst, hrules, re, hre, hsome⟩
  · rw [hnone] at hr
    cases hr
  · obtain rfl := Option.some.inj (hsome.symm.trans hr)
    obtain ⟨p, before, after, hp, htext, hsize, hsearch⟩ := hρ.search hre hs
    refine ⟨⟨first, m.rules.drop first, Pattern.join ((m.rules.drop first).map Rule.source) "|",
      some ⟨p⟩⟩, before, after, ?_, htext, hsize, ?_⟩
    · unfold Choice.ofRules
      simp only [List.isEmpty_iff, hne, if_false]
      rw [Sought.compile_eq hp]
    · unfold Choice.search
      dsimp only
      rw [Sought.search_byteSize, hsearch, ← htext]
      refine congrArg Except.ok (Eq.trans ?_ hfound)
      unfold Choice.foundIn?
      rw [hfirst, hrules]
      rfl

/-- What is found is what one of the rules matches alone at a place of the text. -/
theorem exists_matchAt? (hrules : ∀ r ∈ m.rules, r.Accepted (Sought letters) m.foldCase)
    (h : m.searchFrom first text offset = .ok (some found)) :
    ∃ r place position, r ∈ m.rules ∧ Text.IsPlace text place ∧
      r.matchAt? (Sought letters) m.foldCase text place position = some found := by
  obtain ⟨ch, before, after, hch, rfl, rfl, hsearch⟩ := exists_sought hρ h
  rw [Choice.search_eq_scan (Sought.leftmostFirst letters) hch
    (fun r hr => hrules r (List.mem_of_mem_drop hr))] at hsearch
  obtain ⟨place, hplace, hfirst⟩ := List.exists_of_findSome?_eq_some (Except.ok.inj hsearch)
  rw [Rule.firstAt?_eq_head?] at hfirst
  obtain ⟨k, r, hk, hr⟩ := Rule.mem_allAt_iff.mp (List.mem_of_mem_head? hfirst)
  exact ⟨r, place, first + k, List.mem_of_mem_drop (List.mem_of_getElem? hk),
    isPlace_of_mem_placesFrom hplace, hr⟩

/-- **A rule whose pattern takes a character does not match the empty text.** -/
theorem lexeme_ne_empty (hrules : ∀ r ∈ m.rules, r.Accepted (Sought letters) m.foldCase)
    (htaken : ∀ r ∈ m.rules, r.kind = found.kind → ∃ q,
      Parsed.read (Pattern.flagged r.source m.foldCase) = .ok q ∧ 0 < q.expr.leastTaken)
    (h : m.searchFrom first text offset = .ok (some found)) : found.lexeme ≠ "" := by
  obtain ⟨r, place, position, hr, hplace, hmatch⟩ := exists_matchAt? hρ hrules h
  obtain ⟨q, hq, hpos⟩ := htaken r hr (Rule.of_matchAt? hmatch).2.2.symm
  exact (hrules r hr).lexeme_ne_empty hq hpos hplace hmatch

/-- **Rules whose patterns are read match where they are looked for.** -/
theorem lands_of_read (hrules : ∀ r ∈ m.rules, r.Accepted (Sought letters) m.foldCase) :
    m.Lands := by
  intro first ch regex text offset c whole hch hregex hsearch hwhole
  rcases Choice.of_ofRules (ofRules_of_choice hch) with ⟨-, hnone⟩ | ⟨hne, -, hdrop, re, hre, hsome⟩
  · rw [hnone] at hregex
    cases hregex
  · obtain rfl : re = regex := Option.some.inj (hsome.symm.trans hregex)
    obtain ⟨p, before, after, hread, rfl, rfl, hfound⟩ := hρ.search hre hsearch
    have hdropped : ∀ r ∈ m.rules.drop first, r.Accepted (Sought letters) m.foldCase :=
      fun r hr => hrules r (List.mem_of_mem_drop hr)
    obtain ⟨hle, hin⟩ := Parsed.in_of_search
      (Choice.isSteady_of_read (Sought.leftmostFirst letters) hdropped hne hread) hfound hwhole
    refine ⟨hle, hin, fun r group position hp => ?_⟩
    rw [hdrop] at hp
    rw [← hwhole]
    exact Choice.get?_of_search (Sought.leftmostFirst letters) hdropped hne (Sought.compile_eq hread)
      ((Sought.search_byteSize p before after).trans (congrArg Except.ok hfound)) hp

end Matcher

end CodeMarkup
