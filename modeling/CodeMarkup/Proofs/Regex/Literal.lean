import CodeMarkup.Proofs.Language.Unions
import CodeMarkup.Proofs.Regex.Alone

/-! # Literals

The pattern of an escaped text is read to the row of its characters (`read_escape`): a backslash
stands before every character that means something, so that none of them is taken for a group, a
repetition or an alternative. A row of characters matches at a place in one way at most, and does
where the text goes on with them (`waysThrough_chars`). So an escaped text, compiled, matches at a
place if and only if the text there starts with it (`LeftmostFirst.matchesAt_escape`). -/

namespace CodeMarkup.Regex

open Pattern (metaChars)
open PatternReader Placement
open Text (Cursor byteSize)

/-! ### Reading an escaped text -/

/-- An escaped text. -/
def escapedChars (cs : List Char) : List Char := cs.flatMap Pattern.escapeChar

/-- The characters of a row that case matters for. -/
def charsOf (cs : List Char) : List Expr := cs.map (.char · false)

/-- Of the characters that mean something only a backslash starts an escaped text. -/
theorem head_escapedChars {cs ds : List Char} {c : Char} (h : escapedChars cs = c :: ds) :
    c = '\\' ∨ c ∉ metaChars := by
  cases cs with
  | nil => cases h
  | cons d cs =>
    rw [escapedChars, List.flatMap_cons, Pattern.escapeChar] at h
    split at h
    · exact .inl (List.cons.inj h).1.symm
    · next hd =>
      rw [← (List.cons.inj h).1]
      exact .inr fun hm => hd (List.contains_iff_mem.mpr hm)

/-- There is no comment in front of an escaped text. -/
theorem dropBlanks_escapedChars (cs : List Char) :
    dropBlanks false .blanks (escapedChars cs) = some (escapedChars cs) := by
  refine dropBlanks_eq fun ds hds => ?_
  rcases head_escapedChars hds with h | h
  · exact absurd h (by decide)
  · exact h (by decide)

/-- There is no repetition in front of an escaped text. -/
theorem repetition?_escapedChars (ignoreBlanks : Bool) (cs : List Char) :
    repetition? ignoreBlanks (escapedChars cs) = none := by
  have hhead : ∀ c ds, escapedChars cs = c :: ds → c ∉ ['?', '*', '+', '\x7b'] := by
    intro c ds hds
    rcases head_escapedChars hds with rfl | h
    · decide
    · exact fun hm => h ((by decide : ['?', '*', '+', '\x7b'] ⊆ metaChars) hm)
  unfold repetition?
  split
  next heq => exact absurd (hhead _ _ heq) (by decide)
  next heq => exact absurd (hhead _ _ heq) (by decide)
  next heq => exact absurd (hhead _ _ heq) (by decide)
  next heq => exact absurd (hhead _ _ heq) (by decide)
  next => rfl

section Reader

variable {s : ReaderState} (hfold : s.flags.foldCase = false)
  (hblanks : s.flags.ignoreBlanks = false)

include hblanks in
/-- What stands before an escaped text is not repeated. -/
theorem repeated_escapedChars (e : Expr) {cs : List Char} (hs : s.rest = escapedChars cs) :
    repeated e s = .ok (e, s) := by
  have hb : dropBlanks s.flags.ignoreBlanks .blanks s.rest = some s.rest := by
    rw [hblanks, hs, dropBlanks_escapedChars]
  unfold repeated
  rw [run_skipBlanks_bind hb, run_get_bind, hs, repetition?_escapedChars]
  rfl

/-- A backslash and a character that means something are read as that character. -/
theorem escape_meta {c : Char} (hc : c ∈ metaChars) (cs : List Char) :
    escape false { s with rest := c :: cs } = .ok (.char c false, { s with rest := cs }) := by
  unfold metaChars at hc
  simp only [List.mem_cons, List.not_mem_nil, or_false] at hc
  rcases hc with rfl | rfl | rfl | rfl | rfl | rfl | rfl | rfl | rfl | rfl | rfl | rfl | rfl | rfl <;>
    rfl

include hfold in
/-- An escaped character is read as itself. -/
theorem atom_escapeChar (steps depth : ℕ) (c : Char) (cs : List Char) :
    atom (steps + 1) depth { s with rest := Pattern.escapeChar c ++ cs } =
      .ok (.char c false, { s with rest := cs }) := by
  unfold Pattern.escapeChar
  split
  · next hc =>
    rw [List.cons_append, List.cons_append, List.nil_append, atom, run_get_bind]
    simp only [run_goTo_bind]
    rw [run_bind_ok (escape_meta (List.contains_iff_mem.mp hc) cs)]
    rfl
  · next hc =>
    have hne : ∀ d ∈ metaChars, c ≠ d := fun d hd he =>
      hc (List.contains_iff_mem.mpr (he ▸ hd))
    have hmark : c ≠ '.' ∧ c ≠ '^' ∧ c ≠ '$' ∧ c ≠ '(' ∧ c ≠ '\\' ∧ c ≠ '[' :=
      ⟨hne _ (by decide), hne _ (by decide), hne _ (by decide), hne _ (by decide),
        hne _ (by decide), hne _ (by decide)⟩
    have hagain : ¬ (c = '+' ∨ c = '*' ∨ c = '?') := by
      rintro (h | h | h)
      · exact hne '+' (by decide) h
      · exact hne '*' (by decide) h
      · exact hne '?' (by decide) h
    rw [List.singleton_append, atom, run_get_bind]
    simp only [hmark, imp_self, if_neg hagain, hfold, run_goTo_bind]
    rfl

include hfold hblanks in
/-- An escaped text is read as its characters, one after the other. -/
theorem branch_escapedChars : ∀ (cs : List Char) {steps : ℕ} (depth : ℕ) (found : List Expr),
    cs.length + 1 < steps → branch steps depth found { s with rest := escapedChars cs } =
      .ok (sequence (found.reverse ++ charsOf cs), { s with rest := [] })
  | [], steps + 1, depth, found, _ => by
    rw [branch_end (.inl rfl) (by rw [hblanks]; rfl), charsOf, List.map_nil, List.append_nil]
    rfl
  | c :: cs, steps + 2, depth, found, h => by
    have ih := branch_escapedChars cs depth (.char c false :: found)
      (by rw [List.length_cons] at h; omega : cs.length + 1 < steps + 1)
    obtain ⟨d, ds, hrest⟩ : ∃ d ds, escapedChars (c :: cs) = d :: ds := by
      rw [escapedChars, List.flatMap_cons, Pattern.escapeChar]
      split <;> exact ⟨_, _, rfl⟩
    have hd : d ≠ '|' ∧ d ≠ ')' := by
      rcases head_escapedChars hrest with rfl | hd
      · decide
      · exact ⟨fun he => hd (he ▸ by decide), fun he => hd (he ▸ by decide)⟩
    have hb : dropBlanks s.flags.ignoreBlanks .blanks (escapedChars (c :: cs)) =
        some (escapedChars (c :: cs)) := by
      rw [hblanks, dropBlanks_escapedChars]
    have hatom : atom (steps + 1) depth { s with rest := escapedChars (c :: cs) } =
        .ok (.char c false, { s with rest := escapedChars cs }) :=
      atom_escapeChar hfold steps depth c (escapedChars cs)
    have hrepeated : repeated (.char c false) { s with rest := escapedChars cs } =
        .ok (.char c false, { s with rest := escapedChars cs }) :=
      repeated_escapedChars (s := { s with rest := escapedChars cs }) hblanks _ rfl
    rw [branch_atom hrest hd hb, run_bind_ok hatom, run_bind_ok hrepeated]
    refine Eq.trans ih ?_
    rw [List.reverse_cons, List.append_assoc]
    rfl

end Reader

/-- The flags of a grammar's pattern are read before it. -/
theorem branch_flagText {steps limit : ℕ} {cs : List Char} :
    branch (steps + 3) 0 []
      { rest := '(' :: '?' :: (flagText false ++ escapedChars cs), referenceLimit := limit } =
      branch (steps + 2) 0 []
        { rest := escapedChars cs, flags := grammarFlags false, referenceLimit := limit } := by
  have hatom : atom (steps + 2) 0
      { rest := '(' :: '?' :: (flagText false ++ escapedChars cs), referenceLimit := limit } =
      .ok (.empty,
        { rest := escapedChars cs, flags := grammarFlags false, referenceLimit := limit }) := by
    rw [atom, run_get_bind]
    exact group_flags (by decide) false (escapedChars cs) limit
  rw [branch_atom rfl (by decide) (dropBlanks_eq (by simp [flagText])), run_bind_ok hatom,
    run_bind_ok (repeated_escapedChars rfl _ rfl)]
  rfl

/-- **An escaped text is read to the row of its characters**, without groups. -/
theorem read_escape (literal : String) :
    Parsed.read (Pattern.flagged (Pattern.escape literal) false) =
      .ok ⟨sequence (charsOf literal.toList), 0⟩ := by
  have hsource : (Pattern.flagged (Pattern.escape literal) false).toList =
      '(' :: '?' :: (flagText false ++ escapedChars literal.toList) := by
    rw [Pattern.flagged, String.toList_append, Pattern.escape, String.toList_ofList]
    rfl
  have hlength : literal.toList.length ≤ (escapedChars literal.toList).length := by
    rw [escapedChars]
    induction literal.toList with
    | nil => exact le_rfl
    | cons c cs ih =>
      rw [List.flatMap_cons, List.length_append, List.length_cons, Pattern.escapeChar]
      split <;> simp only [List.length_cons, List.length_nil] <;> omega
  unfold Parsed.read
  simp only [StateT.run, alternatives_eq, hsource]
  generalize hsteps : 8 * ('(' :: '?' :: (flagText false ++ escapedChars literal.toList)).length +
    15 = steps
  generalize Text.byteSize _ / 2 = limit
  obtain ⟨n, rfl⟩ : ∃ n, steps = n + 3 := Nat.exists_eq_add_of_le' (by omega)
  have hn : literal.toList.length + 1 < n + 2 := by
    rw [List.length_cons, List.length_cons, List.length_append] at hsteps
    omega
  let s : ReaderState := { rest := [], flags := grammarFlags false, referenceLimit := limit }
  have hread := branch_escapedChars (s := s) rfl rfl literal.toList 0 [] hn
  rw [← branch_flagText] at hread
  rw [run_bind_ok hread]
  rfl

/-! ### Matching a row of characters -/

section Match

variable {letters : Letters} (hletters : ∀ c d, letters.char c false d ↔ c = d) (start : ℕ)

include hletters

/-- A row of characters matches where the text goes on with them, in one way. -/
theorem waysThrough_chars : ∀ (cs : List Char) (a : Arrival),
    (Expr.waysThrough letters start (charsOf cs) a).isEmpty = !cs.isPrefixOf a.here.after
  | [], a => by
    rw [charsOf, List.map_nil, Expr.waysThrough]
    cases a.here.after <;> rfl
  | c :: cs, a => by
    rw [charsOf, List.map_cons, Expr.waysThrough, Expr.ways, Arrival.pass]
    obtain ⟨⟨before, after, offset, hoffset⟩, marks⟩ := a
    cases after with
    | nil => rfl
    | cons d after =>
      simp only [Cursor.next?, List.isPrefixOf]
      by_cases hc : c = d
      · rw [if_pos ((hletters c d).mpr hc), List.flatMap_singleton, hc, beq_self_eq_true,
          Bool.true_and]
        exact waysThrough_chars cs _
      · rw [if_neg (fun h => hc ((hletters c d).mp h)), List.flatMap_nil, beq_eq_false_iff_ne.mpr hc]
        rfl

end Match

theorem ways_sequence (letters : Letters) (start : ℕ) (es : List Expr) (a : Arrival) :
    (sequence es).ways letters start a = Expr.waysThrough letters start es a := by
  unfold PatternReader.sequence
  split
  next => rw [Expr.ways, Expr.waysThrough]
  next e => simp [Expr.waysThrough]
  next => rw [Expr.ways]

/-- **An escaped text matches at a place if and only if the text there starts with it.** -/
theorem LeftmostFirst.matchesAt_escape {ρ : Type} [Engine ρ] {letters : Letters}
    (hρ : LeftmostFirst ρ letters) (hletters : ∀ c d, letters.char c false d ↔ c = d)
    {literal : String} {re : Prepared ρ}
    (hre : Prepared.compile false (Pattern.escape literal) = .ok re) (before after : List Char) :
    Engine.matchesAt re.regex (before ++ after) (byteSize before) =
      .ok (literal.toList.isPrefixOf after) := by
  have hcompile : Engine.compile (Pattern.flagged (Pattern.escape literal) false) =
      .ok re.regex := by
    unfold Prepared.compile at hre
    split at hre
    next regex heq =>
      rw [← Except.ok.inj hre]
      exact heq
    next => cases hre
  have hsteady : (sequence (charsOf literal.toList)).isSteady := by
    refine isSteady_sequence (List.all_eq_true.mpr fun e he => ?_)
    obtain ⟨c, -, rfl⟩ := List.mem_map.mp he
    rfl
  have hways := waysThrough_chars hletters (byteSize before) literal.toList
    (Arrival.record ⟨Cursor.between before after, []⟩ 0)
  have hend : ∀ found : List Arrival, ((found.head?.map Arrival.here).map fun stop =>
      (⟨byteSize before, stop.offset⟩ : Span)).isSome = !found.isEmpty := by
    rintro (_ | ⟨b, bs⟩) <;> rfl
  rw [hρ.matchesAt_eq hcompile, hρ.spanAt_eq hcompile (read_escape literal) hsteady,
    Parsed.endAt?, ways_sequence, hend]
  exact congrArg Except.ok ((congrArg Bool.not hways).trans (Bool.not_not _))

end CodeMarkup.Regex
