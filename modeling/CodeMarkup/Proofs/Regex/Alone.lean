import CodeMarkup.Pattern.Source
import CodeMarkup.Proofs.Regex.Mirror
import Mathlib.Data.List.Induction

/-! # Reading a pattern alone

A grammar's patterns are read with flags in front of them, and with the flags set without them in
front the reader finds the same (`readsAs_of_read_flagged`). A plain pattern opens as many groups as
its parts tell (`ReadsAs.groups_eq`). -/

namespace CodeMarkup.Regex

open Pattern (moved Plain groupsIn digitsValue)
open PatternReader Placement

/-- A text is read to a pattern, with these flags set from the start. -/
def ReadsAs (flags : Flags) (cs : List Char) (p : Parsed) : Prop :=
  ∃ n m limit t, (branch n 0 [] >>= alternativesBehind m 0)
    { rest := cs, flags := flags, referenceLimit := limit } = .ok (p.expr, t) ∧
      t.rest = [] ∧ t.opened = p.groups

theorem readsAs_of_read {source : String} {p : Parsed} (h : Parsed.read source = .ok p) :
    ReadsAs {} source.toList p := by
  unfold Parsed.read at h
  simp only [StateT.run, alternatives_eq] at h
  generalize Text.byteSize source.toList / 2 = limit at h
  cases hr : (branch (8 * source.toList.length + 15) 0 [] >>=
      alternativesBehind (8 * source.toList.length + 15) 0)
      { rest := source.toList, referenceLimit := limit } with
  | error fault =>
    rw [hr] at h
    cases h
  | ok found =>
    obtain ⟨e, t⟩ := found
    rw [hr] at h
    change (if t.rest.isEmpty then Except.ok ⟨e, t.opened⟩ else .error Fault.trailing) = .ok p at h
    split at h
    · next ht =>
      cases h
      exact ⟨_, _, limit, t, hr, List.isEmpty_iff.mp ht, rfl⟩
    · cases h

/-! ### Flags in front -/

/-- The flags that patterns of a grammar are read with. -/
def grammarFlags (foldCase : Bool) : Flags := { foldCase := foldCase, multiLine := true }

/-- How these flags are written, from behind the question mark. -/
def flagText (foldCase : Bool) : List Char := if foldCase then ['m', 'i', ')'] else ['m', ')']

theorem flagList_put {start steps : Nat} {c : Char} {cs : List Char} {flags : Flags}
    {s : ReaderState} (hs : s.rest = c :: cs) (hc : c = 'm' ∨ c = 'i')
    (hb : s.flags.ignoreBlanks = false) (hf : Flags.put s.flags c true = some flags) :
    flagList start (steps + 1) false s =
      flagList start steps false { s with flags := flags, rest := cs } := by
  have hnone : dropBlanks s.flags.ignoreBlanks .blanks s.rest = some s.rest := by
    rw [hb]
    exact dropBlanks_eq (by rcases hc with rfl | rfl <;> simp [hs])
  rw [flagList, run_skipBlanks_bind hnone, run_rest_bind, hs]
  rcases hc with rfl | rfl <;> cases hf <;> rfl

theorem flagList_end {start steps : Nat} {cs : List Char} {s : ReaderState}
    (hs : s.rest = ')' :: cs) (hb : s.flags.ignoreBlanks = false) (hl : cs.length + 1 < start) :
    flagList start (steps + 1) false s = .ok (false, { s with rest := cs }) := by
  have hnone : dropBlanks s.flags.ignoreBlanks .blanks s.rest = some s.rest := by
    rw [hb]
    exact dropBlanks_eq (by simp [hs])
  have hne : ¬ ((')' :: cs).length = start ∨ (false && (')' :: cs).length + 1 == start) = true) := by
    rintro (h | h)
    · rw [List.length_cons] at h
      omega
    · cases h
  rw [flagList, run_skipBlanks_bind hnone, run_rest_bind, hs]
  simp only [hne, if_false]
  rfl

/-- A list of flags that opens no group sets them. -/
theorem flaggedGroup_flags (content : PatternReader Expr) (foldCase : Bool) (cs : List Char)
    (limit : Nat) : flaggedGroup content
      { rest := flagText foldCase ++ cs, referenceLimit := limit } =
      .ok (.empty, { rest := cs, flags := grammarFlags foldCase, referenceLimit := limit }) := by
  have hset : ∀ s : ReaderState, flagList s.rest.length (s.rest.length + 1) false s =
      .ok (false, { s with rest := cs, flags := grammarFlags foldCase }) →
      flaggedGroup content s =
        .ok (.empty, { s with rest := cs, flags := grammarFlags foldCase }) := by
    intro s h
    unfold flaggedGroup
    simp only [run_get_bind, run_rest_bind]
    rw [run_bind_ok h]
    rfl
  refine hset _ ?_
  cases foldCase with
  | false =>
    rw [flagList_put rfl (Or.inl rfl) rfl rfl]
    exact flagList_end rfl rfl (by simp [flagText])
  | true =>
    rw [flagList_put rfl (Or.inl rfl) rfl rfl]
    refine (flagList_put rfl (Or.inr rfl) rfl rfl).trans ?_
    exact flagList_end rfl rfl (by simp [flagText])

theorem of_repeated_empty {e : Expr} {s t : ReaderState}
    (hb : dropBlanks s.flags.ignoreBlanks .blanks s.rest = some s.rest)
    (h : repeated .empty s = .ok (e, t)) : e = .empty ∧ t = s := by
  unfold repeated at h
  rw [run_skipBlanks_bind hb, run_get_bind] at h
  cases hr : repetition? s.flags.ignoreBlanks s.rest with
  | none =>
    simp only [hr] at h
    obtain ⟨rfl, rfl⟩ := Prod.mk.inj (Except.ok.inj h)
    exact ⟨rfl, rfl⟩
  | some found =>
    simp only [hr] at h
    cases h

/-- An atom that starts with a parenthesis is a group. -/
theorem of_atom_opening {n d : Nat} {s t : ReaderState} {e : Expr} {cs : List Char}
    (hs : s.rest = '(' :: cs) (h : atom n d s = .ok (e, t)) :
    ∃ m, d + 1 < depthLimit ∧ group (m + 1) (d + 1) { s with rest := cs } = .ok (e, t) := by
  cases n with
  | zero =>
    rw [atom.eq_1] at h
    cases h
  | succ n =>
    rw [atom, run_get_bind, hs] at h
    simp only [run_goTo_bind] at h
    cases n with
    | zero =>
      rw [group.eq_1] at h
      cases h
    | succ m =>
      refine ⟨m, ?_, h⟩
      by_cases hd : depthLimit ≤ d + 1
      · rw [group, if_pos hd] at h
        cases h
      · exact Nat.lt_of_not_le hd

theorem group_flags {n d : Nat} (hd : d < depthLimit) (foldCase : Bool) (cs : List Char)
    (limit : Nat) : group (n + 1) d
      { rest := '?' :: (flagText foldCase ++ cs), referenceLimit := limit } =
      .ok (.empty, { rest := cs, flags := grammarFlags foldCase, referenceLimit := limit }) := by
  have hk : groupKind
      { rest := '?' :: (flagText foldCase ++ cs), referenceLimit := limit } =
      .ok (.flags, { rest := flagText foldCase ++ cs, referenceLimit := limit }) := by
    have hb : dropBlanks false .blanks ('?' :: (flagText foldCase ++ cs)) =
        some ('?' :: (flagText foldCase ++ cs)) := dropBlanks_eq (by simp)
    have he := groupKind_eq (s := { rest := [], referenceLimit := limit }) hb
    cases foldCase <;> exact he
  rw [group, if_neg (Nat.not_le_of_lt hd)]
  exact (run_bind_ok hk).trans (flaggedGroup_flags _ foldCase cs limit)

/-- A list of flags in front of a text sets them. -/
theorem of_branch_flagged {n : Nat} {foldCase : Bool} {cs : List Char} {limit : Nat}
    (hb : dropBlanks false .blanks cs = some cs) {e : Expr} {t : ReaderState}
    (h : branch n 0 []
      { rest := (if foldCase then "(?mi)" else "(?m)").toList ++ cs, referenceLimit := limit } =
        .ok (e, t)) :
    branch (n - 1) 0 [] { rest := cs, flags := grammarFlags foldCase, referenceLimit := limit } =
      .ok (e, t) := by
  have hs : (if foldCase then "(?mi)" else "(?m)").toList ++ cs =
      '(' :: '?' :: (flagText foldCase ++ cs) := by
    cases foldCase <;> rfl
  rw [hs] at h
  cases n with
  | zero =>
    rw [branch.eq_1] at h
    cases h
  | succ n =>
    rw [branch_atom rfl (by decide) (dropBlanks_eq (by cases foldCase <;> simp [flagText]))] at h
    obtain ⟨e₁, t₁, h₁, h⟩ := of_run_bind h
    obtain ⟨m, hd, h₁⟩ := of_atom_opening rfl h₁
    rw [group_flags hd] at h₁
    obtain ⟨rfl, rfl⟩ := Prod.mk.inj (Except.ok.inj h₁)
    obtain ⟨e₂, t₂, h₂, h⟩ := of_run_bind h
    obtain ⟨rfl, rfl⟩ := of_repeated_empty hb h₂
    exact h

theorem readsAs_of_read_flagged {source : String} {foldCase : Bool} {p : Parsed}
    (hb : dropBlanks false .blanks source.toList = some source.toList)
    (h : Parsed.read (Pattern.flagged source foldCase) = .ok p) :
    ReadsAs (grammarFlags foldCase) source.toList p := by
  obtain ⟨n, m, limit, t, hr, ht, hp⟩ := readsAs_of_read h
  rw [Pattern.flagged, String.toList_append] at hr
  obtain ⟨e, u, hu, hr⟩ := of_run_bind hr
  exact ⟨n - 1, m, limit, t, (run_bind_ok (of_branch_flagged hb hu)).trans hr, ht, hp⟩

/-! ### The first character -/

/-- A pattern does not start with a question mark. -/
theorem ReadsAs.head?_ne {flags : Flags} {cs : List Char} {p : Parsed}
    (hf : flags.ignoreBlanks = false) (h : ReadsAs flags cs p) : cs.head? ≠ some '?' := by
  intro hc
  obtain ⟨ds, rfl⟩ := List.head?_eq_some_iff.mp hc
  obtain ⟨n, m, limit, t, h, -⟩ := h
  obtain ⟨e, u, h, -⟩ := of_run_bind h
  have hb : dropBlanks flags.ignoreBlanks .blanks ('?' :: ds) = some ('?' :: ds) := by
    rw [hf]
    exact dropBlanks_eq (by simp)
  cases n with
  | zero =>
    rw [branch.eq_1] at h
    cases h
  | succ n =>
    rw [branch_atom rfl (by decide) hb] at h
    obtain ⟨e, u, h, hr⟩ := of_run_bind h
    cases n with
    | zero =>
      rw [atom.eq_1] at h
      cases h
    | succ n =>
      rw [atom, run_get_bind] at h
      obtain ⟨rfl, rfl⟩ := Prod.mk.inj (Except.ok.inj h)
      obtain ⟨e, u, hr, -⟩ := of_run_bind hr
      unfold repeated at hr
      rw [run_skipBlanks_bind hb, run_get_bind] at hr
      cases hr

/-! ### The number of groups -/

theorem toNat_of_isDigit {c : Char} (h : c.isDigit) : 48 ≤ c.toNat ∧ c.toNat ≤ 57 := by
  simp only [Char.isDigit, Bool.and_eq_true, decide_eq_true_eq] at h
  exact h

theorem toDigits_of_isDigit {c : Char} (h : c.isDigit) :
    Nat.toDigits 10 (c.toNat - 48) = [c] := by
  have hd := toNat_of_isDigit h
  have hall : ∀ n < 10, (Nat.digitChar n).toNat = n + 48 := by decide
  have hc : (c.toNat - 48).digitChar.toNat = c.toNat := by
    rw [hall _ (by omega)]
    omega
  rw [Nat.toDigits_of_lt_base (by omega), Char.toNat_inj.mp hc]

/-- A number without leading zeros is written in one way. -/
theorem toDigits_digitsValue {d : Char} (hd : '1' ≤ d ∧ d ≤ '9') (ds : List Char)
    (h : ∀ c ∈ ds, c.isDigit) : Nat.toDigits 10 (digitsValue (d :: ds)) = d :: ds := by
  induction ds using List.reverseRec with
  | nil => simpa [digitsValue] using toDigits_of_isDigit (isDigit_of_le hd)
  | append_singleton ds c ih =>
    have hc : c.isDigit := h c (by simp)
    have hv : digitsValue (d :: (ds ++ [c])) = 10 * digitsValue (d :: ds) + (c.toNat - 48) := by
      simp [digitsValue, List.foldl_append]
    have hlt : c.toNat - 48 < 10 := by
      have := toNat_of_isDigit hc
      omega
    rw [hv, ← Nat.toDigits_append_toDigits (by decide) (digitsValue_pos hd ds) hlt,
      ih fun c hc => h c (by simp [hc]), toDigits_of_isDigit hc, List.cons_append]

theorem shifted_zero_next (c : Char) (cs : List Char) :
    (Pattern.Part.next c cs).1.shifted 0 = (Pattern.Part.next c cs).1.text := by
  fun_cases Pattern.Part.next c cs with
  | case5 d cs h =>
    have hd := toDigits_digitsValue h (cs.takeWhile Char.isDigit) fun c hc =>
      List.mem_takeWhile_imp hc
    rw [Pattern.Part.shifted, Nat.add_zero, Nat.toString_eq_ofList_toDigits, String.toList_ofList,
      hd]
    split <;> rfl
  | _ => rfl

/-- No groups before a pattern move nothing. -/
theorem moved_zero (cs : List Char) : moved 0 cs = cs := by
  have h : ∀ (steps : Nat) (cs : List Char), (Pattern.Part.readFor steps cs).flatMap
      (Pattern.Part.shifted 0) = (Pattern.Part.readFor steps cs).flatMap Pattern.Part.text := by
    intro steps
    induction steps with
    | zero => exact fun _ => rfl
    | succ steps ih =>
      intro cs
      cases cs with
      | nil => rfl
      | cons c cs =>
        rw [Pattern.Part.readFor, List.flatMap_cons, List.flatMap_cons, ih, shifted_zero_next]
  exact (h cs.length cs).trans (Pattern.Part.text_read cs)

/-- A plain pattern that is read twice is read in the same way. -/
theorem ReadsAs.exists_agree {directives : Bool} {flags : Flags} {cs : List Char} {p : Parsed}
    (h : ReadsAs flags cs p) (hp : Plain directives cs) (hf : flags.ignoreBlanks = false) :
    ∃ (q : Placement) (t : ReaderState), q.directives = directives ∧ q.total = groupsIn cs ∧
      t.rest = [] ∧ t.opened = p.groups ∧ q.Agree p.expr t p.expr t := by
  obtain ⟨n, m, limit, t, hr, ht, hg⟩ := h
  let q : Placement := ⟨flags, directives, 0, groupsIn cs, [], Or.inl rfl, hf⟩
  have hm : q.Mirrors { rest := cs, flags := flags, referenceLimit := limit }
      { rest := cs, flags := flags, referenceLimit := limit } :=
    ⟨⟨rfl, rfl, rfl⟩, hp, by rw [moved_zero, List.append_nil], Nat.zero_add _⟩
  have hl := Leads.bind ((q.reads n).branch n 0 0 _ _ [] [] ⟨rfl, fun _ => rfl, hm⟩)
    fun e u e' u' he => alternativesBehind_leads (q.reads m) m 0 0 he
  rcases hl _ _ _ _ hr hr with ⟨-, hend⟩ | ha
  · cases hend
  · exact ⟨q, t, rfl, rfl, ht, hg, ha⟩

/-- A plain pattern opens the groups that its parts open. -/
theorem ReadsAs.groups_eq {directives : Bool} {flags : Flags} {cs : List Char} {p : Parsed}
    (h : ReadsAs flags cs p) (hp : Plain directives cs) (hf : flags.ignoreBlanks = false) :
    p.groups = groupsIn cs := by
  obtain ⟨q, t, -, htotal, ht, hg, ha⟩ := h.exists_agree hp hf
  have hc := ha.mirrors.text.counted
  rwa [ht, hg, htotal] at hc

theorem ReadsAs.isSteady {flags : Flags} {cs : List Char} {p : Parsed} (h : ReadsAs flags cs p)
    (hp : Plain false cs) (hf : flags.ignoreBlanks = false) : p.expr.isSteady := by
  obtain ⟨q, t, hd, -, -, -, ha⟩ := h.exists_agree hp hf
  exact ha.steady hd

end CodeMarkup.Regex
