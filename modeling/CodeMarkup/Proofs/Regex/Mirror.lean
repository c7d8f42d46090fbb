import CodeMarkup.Proofs.Regex.Escape
import CodeMarkup.Proofs.Regex.Renumber

/-! # Reading a pattern inside another one

A plain pattern is read alone, and once more as a group of a longer pattern, where its references
have been moved on by the number of groups before it. If both are accepted, then the reader passes
the same parts in both, and reads the same expression up to the numbers of its groups
(`Placement.reads`).

The reader's functions are taken one by one. Each is run from two states that mirror each other
(`Placement.Mirrors`), and where both runs succeed they end in such states again; where one of them
fails there is nothing to show. -/

namespace CodeMarkup.Regex

open Pattern (moved Plain groupsIn digitsValue)
open Pattern.Part (isOther)
open PatternReader

namespace Placement

/-- The reader has the same flags when it reads a pattern alone and inside another one, and as many
groups more have been opened as stand before the pattern. -/
structure Alike (p : Placement) (s s' : ReaderState) : Prop where
  flags : s.flags = p.flags
  flags' : s'.flags = p.flags
  opened : s'.opened = s.opened + p.offset

/-- The reader stands at the same part of a pattern that it reads alone and inside another one. -/
structure Mirrors (p : Placement) (s s' : ReaderState) : Prop extends p.Alike s s' where
  text : p.Tracks s.opened s.rest s'.rest

/-- An expression that is read alone, and the one that is read inside another pattern, with the
states behind them. -/
structure Agree (p : Placement) (e : Expr) (s : ReaderState) (e' : Expr) (s' : ReaderState) :
    Prop where
  expr : e' = e.renumber p.offset
  steady : p.directives = false → e.isSteady
  mirrors : p.Mirrors s s'

/-- Rows of such expressions. -/
structure AgreeAll (p : Placement) (es : List Expr) (s : ReaderState) (es' : List Expr)
    (s' : ReaderState) : Prop where
  exprs : es' = es.map (Expr.renumber p.offset)
  steady : p.directives = false → es.all Expr.isSteady
  mirrors : p.Mirrors s s'

/-- Such expressions, unless all of the pattern has been read and a bar follows it in the longer one,
where the reader then goes on with what stands behind the bar. -/
def AgreeInside (p : Placement) (e : Expr) (s : ReaderState) (e' : Expr) (s' : ReaderState) : Prop :=
  (s.rest = [] ∧ p.tail.head? = some '|') ∨ p.Agree e s e' s'

/-- Rows of such expressions. -/
def AgreeAllInside (p : Placement) (es : List Expr) (s : ReaderState) (es' : List Expr)
    (s' : ReaderState) : Prop :=
  (s.rest = [] ∧ p.tail.head? = some '|') ∨ p.AgreeAll es s es' s'

/-- The value that is read is the same. -/
def Same {α : Type} (p : Placement) (a : α) (s : ReaderState) (a' : α) (s' : ReaderState) : Prop :=
  a' = a ∧ p.Mirrors s s'

variable {p : Placement} {s s' : ReaderState}

/-! ### Moving on -/

theorem Alike.goTo (h : p.Alike s s') {cs cs' : List Char} (ht : p.Tracks s.opened cs cs') :
    p.Mirrors { s with rest := cs } { s' with rest := cs' } :=
  ⟨⟨h.flags, h.flags', h.opened⟩, ht⟩

/-- A character that is a part of its own is passed in both. -/
theorem Mirrors.other (h : p.Mirrors s s') {c : Char} {cs : List Char} (hs : s.rest = c :: cs)
    (hc : isOther c) :
    ∃ cs', s'.rest = c :: cs' ∧ p.Mirrors { s with rest := cs } { s' with rest := cs' } := by
  have ht := h.text
  rw [hs] at ht
  obtain ⟨cs', hs', ht'⟩ := ht.other hc
  exact ⟨cs', hs', h.goTo ht'⟩

theorem run_skipBlanks_bind {α : Type} {f : Unit → PatternReader α}
    (h : dropBlanks s.flags.ignoreBlanks .blanks s.rest = some s.rest) :
    (skipBlanks >>= f) s = f () s := by
  change ((skipBlanks s) >>= fun x => f x.1 x.2) = _
  have hs : skipBlanks s = .ok ((), s) := by
    unfold skipBlanks
    rw [run_get_bind, h]
    rfl
  rw [hs]
  rfl

/-- Nothing is dropped in front of a part of a plain pattern. -/
theorem Mirrors.skipBlanks {α : Type} (h : p.Mirrors s s') (f : Unit → PatternReader α) :
    (PatternReader.skipBlanks >>= f) s = f () s :=
  run_skipBlanks_bind (by rw [h.flags, p.noBlanks, Plain.dropBlanks h.text.plain])

theorem Mirrors.skipBlanks' {α : Type} (h : p.Mirrors s s') (f : Unit → PatternReader α) :
    (PatternReader.skipBlanks >>= f) s' = f () s' :=
  run_skipBlanks_bind (by rw [h.flags', p.noBlanks, h.text.dropBlanks])

/-- There is nothing to close at the end of the text. -/
theorem run_close_bind_nil {α : Type} {f : Unit → PatternReader α} (hs : s.rest = []) :
    (close >>= f) s = .error .unclosedGroup := by
  have hb : dropBlanks s.flags.ignoreBlanks .blanks s.rest = some s.rest := by
    rw [hs]
    rfl
  have hc : close s = .error .unclosedGroup := by
    unfold close
    rw [run_skipBlanks_bind hb, run_rest_bind, hs]
    rfl
  change (close s >>= fun x => f x.1 x.2) = _
  rw [hc]
  rfl

theorem close_leads (h : p.Mirrors s s') : Leads (close s) (close s') p.Same := by
  unfold close
  rw [h.skipBlanks, h.skipBlanks']
  simp only [run_rest_bind]
  cases hs : s.rest with
  | nil => exact Leads.error_left _ _
  | cons c cs =>
    by_cases hc : c = ')'
    · subst hc
      obtain ⟨cs', hs', hm⟩ := h.other hs rfl
      rw [hs']
      exact Leads.ok ⟨rfl, hm⟩
    · simp [hc]
      exact Leads.error_left _ _

/-! ### References -/

theorem isDigit_of_mem_toString {n : Nat} {c : Char} (h : c ∈ (toString n).toList) : c.isDigit := by
  rw [Nat.toString_eq_ofList_toDigits, String.toList_ofList] at h
  exact Nat.isDigit_of_mem_toDigits (by decide) (by decide) h

theorem digitsValue_toString (n : Nat) : digitsValue (toString n).toList = n := by
  rw [Nat.toString_eq_ofList_toDigits, String.toList_ofList]
  exact (Nat.ofDigitChars_eq_foldl).symm.trans Nat.ofDigitChars_ten_toDigits

/-- The digits of a number are read as the number. -/
theorem decimal?_eq {ds rest : List Char} (hds : ∀ c ∈ ds, c.isDigit) (hne : ds ≠ [])
    (hrest : rest.head?.all (!·.isDigit)) : decimal? (ds ++ rest) =
      if digitsValue ds < wordLimit then some (digitsValue ds, rest) else none := by
  have hs : (ds ++ rest).span Char.isDigit = (ds, rest) := by
    cases rest with
    | nil =>
      rw [List.append_nil, List.span_eq_takeWhile_dropWhile, List.takeWhile_eq_self_iff.mpr hds,
        List.dropWhile_eq_nil_iff.mpr hds]
    | cons c rest => exact span_append_cons hds (by simpa using hrest) rest
  unfold decimal?
  rw [hs]
  cases ds with
  | nil => exact absurd rfl hne
  | cons d ds => rfl

theorem decimal?_toString (n : Nat) {rest : List Char} (hrest : rest.head?.all (!·.isDigit)) :
    decimal? ((toString n).toList ++ rest) = if n < wordLimit then some (n, rest) else none := by
  have h := decimal?_eq (fun c => isDigit_of_mem_toString (n := n)) (by simp) hrest
  rwa [digitsValue_toString] at h

theorem of_numberedReference {e : Expr} {t : ReaderState}
    (h : numberedReference s = .ok (e, t)) : ∃ g r, decimal? s.rest = some (g, r) ∧
      e = .reference g ∧ t = { s with rest := r, numbered := true } := by
  unfold numberedReference at h
  rw [run_get_bind] at h
  cases hd : decimal? s.rest with
  | none =>
    rw [hd] at h
    cases h
  | some found =>
    obtain ⟨g, r⟩ := found
    simp only [hd] at h
    refine ⟨g, r, rfl, ?_⟩
    by_cases hl : g < s.referenceLimit
    · rw [if_pos hl] at h
      change referTo g { s with rest := r, numbered := true } = _ at h
      unfold referTo at h
      rw [run_get_bind] at h
      by_cases ho : s.opened < g
      · simp only [ho, if_true] at h
        cases h
      · simp only [ho, if_false] at h
        obtain ⟨rfl, rfl⟩ := Prod.mk.inj (Except.ok.inj h)
        exact ⟨rfl, rfl⟩
    · rw [if_neg hl] at h
      cases h

theorem isDigit_of_le {c : Char} (h : '1' ≤ c ∧ c ≤ '9') : c.isDigit := by
  have h1 : '0' ≤ '1' := by decide
  simp only [Char.isDigit, Bool.and_eq_true, decide_eq_true_eq]
  exact ⟨Char.le_trans h1 h.1, h.2⟩

theorem digitsValue_pos {c : Char} (h : '1' ≤ c ∧ c ≤ '9') (ds : List Char) :
    0 < digitsValue (c :: ds) := by
  have hmono : ∀ (ds : List Char) (n : Nat), n ≤ ds.foldl
      (fun n c => 10 * n + (c.toNat - '0'.toNat)) n := by
    intro ds
    induction ds with
    | nil => exact fun n => Nat.le_refl n
    | cons d ds ih =>
      intro n
      have hd : n ≤ 10 * n + (d.toNat - '0'.toNat) := by omega
      exact Nat.le_trans hd (ih _)
  have hc : 49 ≤ c.toNat := h.1
  have hv : 0 < 10 * 0 + (c.toNat - 48) := by omega
  exact Nat.lt_of_lt_of_le hv (hmono ds _)

/-- A reference is read as the reference moved on. -/
theorem reference_leads (h : p.Mirrors s s') {c : Char} {cs cs' : List Char}
    (hs : s.rest = '\\' :: c :: cs) (hs' : s'.rest = '\\' :: cs') (hc : '1' ≤ c ∧ c ≤ '9') :
    Leads (numberedReference { s with rest := c :: cs })
      (numberedReference { s' with rest := cs' }) p.Agree := by
  intro e t e' t' he he'
  obtain ⟨g, r, hg, rfl, rfl⟩ := of_numberedReference he
  obtain ⟨g', r', hg', rfl, rfl⟩ := of_numberedReference he'
  have ht := h.text
  rw [hs] at ht
  have hdigits : ∀ d ∈ c :: cs.takeWhile Char.isDigit, d.isDigit := by
    intro d hd
    rcases List.mem_cons.mp hd with rfl | hd
    · exact isDigit_of_le hc
    · exact List.mem_takeWhile_imp hd
  have hstop : (cs.dropWhile Char.isDigit).head?.all (!·.isDigit) := by
    have := List.head?_dropWhile_not Char.isDigit cs
    cases hd : (cs.dropWhile Char.isDigit).head? with
    | none => rfl
    | some c => simpa [hd] using this
  have hg1 := decimal?_eq hdigits (by simp) hstop
  rw [List.cons_append, List.takeWhile_append_dropWhile, hg] at hg1
  split at hg1
  · next hlt =>
    obtain ⟨rfl, rfl⟩ := Prod.mk.inj (Option.some.inj hg1)
    have hi := ht.image
    rw [hs', Pattern.moved_reference p.offset hc hlt, List.cons_append] at hi
    -- behind the number, which has been moved on, the texts go on alike
    have hrest : p.Tracks s.opened (cs.dropWhile Char.isDigit)
        (moved p.offset (cs.dropWhile Char.isDigit) ++ p.tail) :=
      ⟨(Pattern.plain_reference _ hc).mp ht.plain, rfl, by
        rw [← Pattern.groupsIn_reference hc, ht.counted]⟩
    have hstop' := hrest.head?_all (q := (!·.isDigit)) rfl rfl hstop
    obtain ⟨-, rfl⟩ := List.cons.inj hi
    rw [List.append_assoc, decimal?_toString _ hstop'] at hg'
    split at hg'
    · obtain ⟨rfl, rfl⟩ := Prod.mk.inj (Option.some.inj hg')
      exact ⟨rfl, fun _ => by simpa [Expr.isSteady] using digitsValue_pos hc _,
        ⟨h.flags, h.flags', h.opened⟩, hrest⟩
    · cases hg'
  · cases hg1

/-- The joined text has a digit behind the backslash of a reference, too. -/
theorem exists_digit (h : p.Mirrors s s') {c : Char} {cs cs' : List Char}
    (hs : s.rest = '\\' :: c :: cs) (hs' : s'.rest = '\\' :: cs') (hc : '1' ≤ c ∧ c ≤ '9') :
    ∃ d ds, cs' = d :: ds ∧ d.isDigit := by
  have hi := h.text.image
  rw [hs, hs', moved, Pattern.Part.read_reference hc, List.flatMap_cons, Pattern.Part.shifted] at hi
  split at hi
  · obtain ⟨-, rfl⟩ := List.cons.inj hi
    generalize hn : digitsValue (c :: cs.takeWhile Char.isDigit) + p.offset = n
    cases hl : (toString n).toList with
    | nil => simp at hl
    | cons d ds => exact ⟨d, _, rfl, isDigit_of_mem_toString (n := n) (hl ▸ List.mem_cons_self)⟩
  · obtain ⟨-, rfl⟩ := List.cons.inj hi
    exact ⟨c, _, rfl, isDigit_of_le hc⟩

/-! ### Escapes -/

/-- What an escape stands for, its groups having greater numbers. -/
def renumberEscaped (offset : Nat) : Escaped → Escaped
  | .expr e => .expr (e.renumber offset)
  | a => a

/-- Whether what an escape stands for is steady. -/
def isSteadyEscaped : Escaped → Bool
  | .expr e => e.isSteady
  | _ => true

/-- What an escape stands for alone and inside another pattern. -/
structure AgreeEscaped (p : Placement) (a : Escaped) (s : ReaderState) (a' : Escaped)
    (s' : ReaderState) : Prop where
  escaped : a' = renumberEscaped p.offset a
  steady : p.directives = false → isSteadyEscaped a
  mirrors : p.Mirrors s s'

theorem eq_zero_of_isDigit {c : Char} (hd : c.isDigit) (h : ¬('1' ≤ c ∧ c ≤ '9')) : c = '0' := by
  simp only [Char.isDigit, Bool.and_eq_true, decide_eq_true_eq] at hd
  have h0 : 48 ≤ c.toNat := hd.1
  have h9 : c.toNat ≤ 57 := hd.2
  have h1 : ¬(49 ≤ c.toNat ∧ c.toNat ≤ 57) := h
  exact Char.toNat_inj.mp (show c.toNat = 48 by omega)

/-- The edge of a word, or what is not one. -/
theorem escape_edge_leads {c : Char} (hc : c = 'b' ∨ c = 'B') {cs cs' : List Char}
    (h : p.Mirrors { s with rest := cs } { s' with rest := cs' }) :
    Leads (escape false { s with rest := c :: cs }) (escape false { s' with rest := c :: cs' })
      p.AgreeEscaped := by
  have hok : ∀ (s : ReaderState) (cs : List Char), cs.head? ≠ some '\x7b' →
      escape false { s with rest := c :: cs } = .ok (.expr (.anchor
        (if c = 'b' then .wordEdge else .notWordEdge)), { s with rest := cs }) := by
    intro s cs hb
    cases cs with
    | nil => rcases hc with rfl | rfl <;> rfl
    | cons d cs =>
      have hd : d ≠ '\x7b' := by simpa using hb
      rcases hc with rfl | rfl
      · simp [escape, run_rest_bind, outsideEscape?, hd]
        rfl
      · simp [escape, run_rest_bind, outsideEscape?, hd]
        rfl
  by_cases hb : cs.head? = some '\x7b'
  · obtain ⟨ds, rfl⟩ := List.head?_eq_some_iff.mp hb
    rcases hc with rfl | rfl <;> exact Leads.error_left _ _
  · have hb' : cs'.head? ≠ some '\x7b' := h.text.head?_ne (by decide) (by decide) hb
    rw [hok s cs hb, hok s' cs' hb']
    exact Leads.ok ⟨rfl, fun _ => rfl, h⟩

theorem escape_leads (h : p.Mirrors s s') {cs cs' : List Char} (hs : s.rest = '\\' :: cs)
    (hs' : s'.rest = '\\' :: cs') : Leads (escape false { s with rest := cs })
      (escape false { s' with rest := cs' }) p.AgreeEscaped := by
  cases cs with
  | nil => exact Leads.error_left _ _
  | cons c after =>
    -- references are moved on, no brace may follow an edge, and all else is read alike
    by_cases hr : '1' ≤ c ∧ c ≤ '9'
    · obtain ⟨d, ds, rfl, hd⟩ := exists_digit h hs hs' hr
      have he : ∀ (s : ReaderState) (c : Char) (cs : List Char), c.isDigit →
          escape false { s with rest := c :: cs } =
            (numberedReference >>= fun e => pure (.expr e)) { s with rest := c :: cs } := by
        intro s c cs hd
        simp only [escape, run_rest_bind, hd, if_true]
      rw [he _ _ _ (isDigit_of_le hr), he _ _ _ hd]
      refine Leads.bind (reference_leads h hs hs' hr) ?_
      rintro e t e' t' ⟨rfl, hsteady, hm⟩
      exact Leads.ok ⟨rfl, hsteady, hm⟩
    have ht := h.text
    rw [hs] at ht
    obtain ⟨hplain, hafter⟩ := (Pattern.plain_escape _ hr).mp ht.plain
    have hi := ht.image
    rw [Pattern.moved_escape _ hr, hs', List.cons_append, List.cons_append] at hi
    obtain ⟨-, rfl⟩ := List.cons.inj hi
    have hm : p.Tracks s.opened after (moved p.offset after ++ p.tail) :=
      ⟨hafter, rfl, by rw [← Pattern.groupsIn_escape hr, ht.counted]⟩
    simp only [Pattern.escapePlain, Bool.and_eq_true, Bool.or_eq_true, bne_iff_ne, ne_eq] at hplain
    obtain ⟨⟨⟨h0, hk⟩, hprop⟩, hdir⟩ := hplain
    have hd : c.isDigit = false := by
      cases hd : c.isDigit with
      | false => rfl
      | true => exact absurd (eq_zero_of_isDigit hd hr) h0
    by_cases hb : c = 'b' ∨ c = 'B'
    · exact escape_edge_leads hb (h.goTo hm)
    intro a t a' t' ha ha'
    obtain ⟨pre, hpre⟩ := exists_escapeTaken hd (fun _ => by simp_all)
      (fun hc => hprop.resolve_left (by tauto)) ha
    have hothers : ∀ c ∈ pre, isOther c := fun c hc => by
      have := hpre.inner c hc
      simp only [isInner, Bool.and_eq_true] at this
      exact this.1
    have htakes := hpre.takes s t.rest
    rw [List.cons_append, ← hpre.text, ha] at htakes
    obtain ⟨-, hst⟩ := Prod.mk.inj (Except.ok.inj htakes)
    rw [hpre.text] at hm
    obtain ⟨ds, hds, htracks⟩ := hm.others hothers
    rw [hpre.text, hds, ← List.cons_append, hpre.takes] at ha'
    obtain ⟨rfl, rfl⟩ := Prod.mk.inj (Except.ok.inj ha')
    rw [hst]
    refine ⟨?_, ?_, h.goTo htracks⟩
    · cases a with
      | expr e => rcases hpre.from_ e rfl with ⟨x, rfl⟩ | ⟨rfl, -⟩ | ⟨rfl, -⟩ <;> rfl
      | _ => rfl
    · intro hdirectives
      cases a with
      | expr e =>
        have hdir := hdir.resolve_left (by rw [hdirectives]; exact Bool.false_ne_true)
        rcases hpre.from_ e rfl with ⟨x, rfl⟩ | ⟨rfl, hc⟩ | ⟨rfl, hc⟩
        · rfl
        · exact absurd hc hdir.1
        · exact absurd hc hdir.2
      | _ => rfl

/-! ### Repetitions -/

theorem lazyMark_leads (h : p.Mirrors s s') : Leads (lazyMark s) (lazyMark s') p.Same := by
  unfold lazyMark
  simp only [run_rest_bind]
  cases hs : s.rest with
  | nil =>
    have ht := h.text
    rw [hs] at ht
    rcases ht.end with ht | ⟨_, _, ht, rfl | rfl⟩ <;> rw [ht] <;> exact Leads.ok ⟨rfl, h⟩
  | cons c cs =>
    by_cases hc : c = '?'
    · subst hc
      obtain ⟨cs', hs', hm⟩ := h.other hs rfl
      rw [hs']
      exact Leads.ok ⟨rfl, hm⟩
    · have ht := h.text
      rw [hs] at ht
      obtain ⟨cs', hs'⟩ := ht.cons
      simp [hs', hc]
      exact Leads.ok ⟨rfl, h⟩

theorem possessive_leads {e e' : Expr} (h : p.Agree e s e' s') :
    Leads (possessive e s) (possessive e' s') p.Agree := by
  unfold possessive
  simp only [run_rest_bind]
  cases hs : s.rest with
  | nil =>
    have ht := h.mirrors.text
    rw [hs] at ht
    rcases ht.end with ht | ⟨_, _, ht, rfl | rfl⟩ <;> rw [ht] <;> exact Leads.ok h
  | cons c cs =>
    by_cases hc : c = '+'
    · subst hc
      obtain ⟨cs', hs', hm⟩ := h.mirrors.other hs rfl
      rw [hs']
      exact Leads.ok ⟨by rw [h.expr, Expr.renumber], h.steady, hm⟩
    · have ht := h.mirrors.text
      rw [hs] at ht
      obtain ⟨cs', hs'⟩ := ht.cons
      simp [hs', hc]
      exact Leads.ok h

theorem repeated_leads {e e' : Expr} (h : p.Agree e s e' s') :
    Leads (repeated e s) (repeated e' s') p.Agree := by
  have hm := h.mirrors
  unfold repeated
  rw [hm.skipBlanks, hm.skipBlanks']
  simp only [run_get_bind, hm.flags, hm.flags', p.noBlanks]
  have hr := hm.text.repetition?
  cases hx : repetition? false s.rest with
  | none =>
    cases hy : repetition? false s'.rest with
    | none => exact Leads.ok h
    | some _ =>
      rw [hx, hy] at hr
      exact hr.elim
  | some found =>
    cases hy : repetition? false s'.rest with
    | none =>
      rw [hx, hy] at hr
      exact hr.elim
    | some found' =>
      obtain ⟨lo, hi, cs⟩ := found
      obtain ⟨lo', hi', cs'⟩ := found'
      rw [hx, hy] at hr
      obtain ⟨rfl, rfl, ht⟩ := hr
      rw [h.expr, Expr.isRepeatable_renumber]
      by_cases hrep : e.isRepeatable
      · simp only [hrep, Bool.not_true, Bool.false_eq_true, if_false, run_goTo_bind]
        have hm' := hm.goTo ht
        rw [hm'.skipBlanks, hm'.skipBlanks']
        refine Leads.bind (lazyMark_leads hm') ?_
        rintro marked t _ t' ⟨rfl, hm''⟩
        exact possessive_leads ⟨by rw [Expr.renumber], h.steady, hm''⟩
      · simp only [hrep, Bool.not_false, if_true]
        exact Leads.error_left _ _

/-! ### Kinds of groups -/

/-- What holds behind the characters that tell what a group of a plain pattern does. -/
def KindFits : GroupKind → ReaderState → Prop
  | .capture, t => 0 < t.opened
  | .flags, t => t.rest.head? = some ':'
  | .around .., _ | .atomic, _ => True
  | .backReference, _ | .conditional, _ => False

/-- The group does the same, and is one that plain patterns have. -/
structure AgreeKind (p : Placement) (kind : GroupKind) (s : ReaderState) (kind' : GroupKind)
    (s' : ReaderState) : Prop where
  same : kind' = kind
  mirrors : p.Mirrors s s'
  fits : KindFits kind s

theorem groupKind_eq {cs : List Char}
    (hb : dropBlanks s.flags.ignoreBlanks .blanks cs = some cs) :
    groupKind { s with rest := cs } = groupKindOf cs { s with rest := cs } := by
  unfold groupKind
  rw [run_skipBlanks_bind hb, run_rest_bind]

/-- A group without a question mark is numbered. -/
theorem groupKindOf_capture {cs : List Char} (hq : cs.head? ≠ some '?') :
    groupKindOf cs s = .ok (.capture, { s with opened := s.opened + 1 }) := by
  cases cs with
  | nil => rfl
  | cons c cs =>
    have hc : c ≠ '?' := by simpa using hq
    unfold groupKindOf
    simp [hc]
    rfl

/-- Names of groups are read alike. -/
theorem namedGroup_leads (h : p.Alike s s') {cs cs' : List Char}
    (ht : p.Tracks (s.opened + 1) cs cs') :
    Leads (namedGroup cs s) (namedGroup cs' s') p.AgreeKind := by
  unfold namedGroup
  simp only [run_get_bind]
  rcases ht.name?.cases with ⟨hx, hy⟩ | ⟨name, ds, ds', hx, hy, hd⟩
  · rw [hx]
    exact Leads.error_left _ _
  · rw [hx, hy]
    exact Leads.ok ⟨rfl, ⟨⟨h.flags, h.flags', by simp [h.opened, Nat.add_right_comm]⟩, hd⟩,
      Nat.succ_pos _⟩

/-- The group that a mark makes does the same. -/
theorem groupKindOf_leads (h : p.Alike s s') {cs cs' : List Char} (hm : Pattern.marksGroup cs)
    (ht : p.Tracks (s.opened + if Pattern.opensNamed cs then 1 else 0) cs cs') :
    Leads (groupKindOf ('?' :: cs) s) (groupKindOf ('?' :: cs') s') p.AgreeKind := by
  have agree : ∀ kind {ds ds'}, p.Tracks s.opened ds ds' → KindFits kind { s with rest := ds } →
      p.AgreeKind kind { s with rest := ds } kind { s' with rest := ds' } :=
    fun kind _ _ ht hf => ⟨rfl, h.goTo ht, hf⟩
  unfold Pattern.marksGroup at hm
  split at hm
  · obtain ⟨ds, rfl⟩ := ht.cons
    exact Leads.ok (agree .flags ht rfl)
  · obtain ⟨ds, rfl, ht'⟩ := ht.other rfl
    exact Leads.ok (agree (.around true false) ht' trivial)
  · obtain ⟨ds, rfl, ht'⟩ := ht.other rfl
    exact Leads.ok (agree (.around true true) ht' trivial)
  · obtain ⟨ds, rfl, ht'⟩ := ht.other rfl
    exact Leads.ok (agree .atomic ht' trivial)
  · next cs =>
    obtain ⟨ds, rfl, ht'⟩ := ht.other rfl
    -- looking back, or else the name of a group
    by_cases he : cs.head? = some '='
    · obtain ⟨es, rfl⟩ := List.head?_eq_some_iff.mp he
      obtain ⟨fs, rfl, ht''⟩ := ht'.other rfl
      exact Leads.ok (agree (.around false false) ht'' trivial)
    by_cases hn : cs.head? = some '!'
    · obtain ⟨es, rfl⟩ := List.head?_eq_some_iff.mp hn
      obtain ⟨fs, rfl, ht''⟩ := ht'.other rfl
      exact Leads.ok (agree (.around false true) ht'' trivial)
    have hnamed : ∀ es : List Char, es.head? ≠ some '=' → es.head? ≠ some '!' →
        groupKindOf ('?' :: '<' :: es) = namedGroup es ∧
          Pattern.opensNamed ('<' :: es) = true := by
      intro es h1 h2
      cases es with
      | nil => exact ⟨rfl, rfl⟩
      | cons e es =>
        have h1 : e ≠ '=' := by simpa using h1
        have h2 : e ≠ '!' := by simpa using h2
        exact ⟨by simp [groupKindOf, h1, h2], by simp [Pattern.opensNamed, h1, h2]⟩
    rw [(hnamed cs he hn).1,
      (hnamed ds (ht'.head?_ne (by decide) (by decide) he)
        (ht'.head?_ne (by decide) (by decide) hn)).1]
    rw [(hnamed cs he hn).2] at ht'
    exact namedGroup_leads h ht'
  · obtain ⟨ds, rfl, ht'⟩ := ht.other rfl
    obtain ⟨es, rfl, ht''⟩ := ht'.other rfl
    exact namedGroup_leads h ht''
  · cases hm

theorem groupKind_leads (h : p.Mirrors s s') {cs cs' : List Char} (hs : s.rest = '(' :: cs)
    (hs' : s'.rest = '(' :: cs') : Leads (groupKind { s with rest := cs })
      (groupKind { s' with rest := cs' }) p.AgreeKind := by
  have ht := h.text
  rw [hs, hs'] at ht
  by_cases hq : cs.head? = some '?'
  · obtain ⟨ds, rfl⟩ := List.head?_eq_some_iff.mp hq
    obtain ⟨hm, hp⟩ := (Pattern.plain_openingMark _).mp ht.plain
    have hi := ht.image
    rw [Pattern.moved_openingMark, List.cons_append, List.cons_append] at hi
    obtain ⟨-, rfl⟩ := List.cons.inj hi
    have htr : p.Tracks (s.opened + if Pattern.opensNamed ds then 1 else 0) ds
        (moved p.offset ds ++ p.tail) :=
      ⟨hp, rfl, by rw [Nat.add_assoc, ← Pattern.groupsIn_openingMark, ht.counted]⟩
    have hnone : ∀ (b : Bool) (es : List Char), b = false →
        dropBlanks b .blanks ('?' :: es) = some ('?' :: es) := by
      rintro _ es rfl
      exact dropBlanks_eq (by simp)
    rw [groupKind_eq (hnone _ _ (by rw [h.flags, p.noBlanks])),
      groupKind_eq (hnone _ _ (by rw [h.flags', p.noBlanks]))]
    have ha : p.Alike { s with rest := '?' :: ds }
        { s' with rest := '?' :: (moved p.offset ds ++ p.tail) } :=
      ⟨h.flags, h.flags', h.opened⟩
    exact groupKindOf_leads ha hm htr
  · have hi := ht.image
    rw [Pattern.moved_opening _ hq, List.cons_append] at hi
    obtain ⟨-, rfl⟩ := List.cons.inj hi
    have htr : p.Tracks (s.opened + 1) cs (moved p.offset cs ++ p.tail) :=
      ⟨(Pattern.plain_opening _ hq).mp ht.plain, rfl, by
        rw [Nat.add_assoc, ← Pattern.groupsIn_opening hq, ht.counted]⟩
    have hq' := htr.head?_ne (by decide) (by decide) hq
    rw [groupKind_eq (by rw [h.flags, p.noBlanks, Plain.dropBlanks htr.plain]),
      groupKind_eq (by rw [h.flags', p.noBlanks, htr.dropBlanks]), groupKindOf_capture hq,
      groupKindOf_capture hq']
    exact Leads.ok ⟨rfl, ⟨⟨h.flags, h.flags', by simp [h.opened, Nat.add_right_comm]⟩, htr⟩,
      Nat.succ_pos _⟩

/-! ### Rows -/

theorem sequence_renumber (offset : Nat) (es : List Expr) :
    sequence (es.map (Expr.renumber offset)) = (sequence es).renumber offset := by
  rcases es with _ | ⟨e, _ | ⟨e', es⟩⟩
  · rfl
  · rfl
  · simp [PatternReader.sequence, Expr.renumber, Expr.renumberAll_eq_map]

theorem isSteady_sequence {es : List Expr} (h : es.all Expr.isSteady) :
    (sequence es).isSteady := by
  match es with
  | [] => rfl
  | [e] => simpa [PatternReader.sequence] using h
  | e :: e' :: es => simpa [PatternReader.sequence, Expr.isSteady, Expr.allSteady_eq_all] using h

/-! ### The whole reader -/

/-- What the functions of the reader do with so many steps, inside another pattern with any number
of steps. -/
structure Reads (p : Placement) (n : Nat) : Prop where
  alternatives : ∀ n' d d' s s', p.Mirrors s s' →
    Leads (alternatives n d s) (alternatives n' d' s') p.AgreeInside
  furtherAlternatives : ∀ n' d d' s s', p.Mirrors s s' →
    Leads (furtherAlternatives n d s) (furtherAlternatives n' d' s') p.AgreeAllInside
  branch : ∀ n' d d' s s' es es', p.AgreeAll es s es' s' →
    Leads (branch n d es s) (branch n' d' es' s') p.Agree
  atom : ∀ n' d d' s s', p.Mirrors s s' → s.rest ≠ [] →
    Leads (atom n d s) (atom n' d' s') p.Agree
  group : ∀ n' d d' s s' cs cs', p.Mirrors s s' → s.rest = '(' :: cs → s'.rest = '(' :: cs' →
    Leads (group n d { s with rest := cs }) (group n' d' { s' with rest := cs' }) p.Agree

theorem reads_zero : p.Reads 0 := by
  constructor <;> intros
  · rw [alternatives]
    exact Leads.error_left _ _
  · rw [furtherAlternatives]
    exact Leads.error_left _ _
  · rw [branch]
    exact Leads.error_left _ _
  · rw [atom]
    exact Leads.error_left _ _
  · rw [group]
    exact Leads.error_left _ _

/-- Goes on behind the first alternative. -/
def alternativesBehind (steps depth : Nat) (e : Expr) : PatternReader Expr := do
  skipBlanks
  match ← rest with
  | '|' :: _ => return .alt (e :: (← furtherAlternatives steps depth))
  | _ =>
    let s ← get
    if s.numbered && !s.names.isEmpty then throw .mixedReferences
    return e

theorem alternatives_eq (steps depth : Nat) : alternatives (steps + 1) depth =
    branch steps depth [] >>= alternativesBehind steps depth := by
  rw [alternatives]
  rfl

/-- Without a further alternative there is only the first one. -/
theorem of_alternativesBehind {steps depth : Nat} {e a : Expr} {t : ReaderState}
    (hs : s.rest.head? ≠ some '|')
    (hb : dropBlanks s.flags.ignoreBlanks .blanks s.rest = some s.rest)
    (h : alternativesBehind steps depth e s = .ok (a, t)) : a = e ∧ t = s := by
  have hstop : (do
      let s ← get
      if s.numbered && !s.names.isEmpty then throw .mixedReferences
      return e : PatternReader Expr) s = .ok (a, t) := by
    rw [← h, alternativesBehind, run_skipBlanks_bind hb, run_rest_bind]
    cases hr : s.rest with
    | nil => rfl
    | cons c cs =>
      have hc : c ≠ '|' := by simpa [hr] using hs
      simp [hc]
  simp only [run_get_bind] at hstop
  split at hstop
  · cases hstop
  · obtain ⟨rfl, rfl⟩ := Prod.mk.inj (Except.ok.inj hstop)
    exact ⟨rfl, rfl⟩

/-- A row that ends is read to its end. -/
theorem branch_end {steps depth : Nat} {es : List Expr}
    (hs : s.rest = [] ∨ ∃ c cs, s.rest = c :: cs ∧ (c = '|' ∨ c = ')'))
    (hb : dropBlanks s.flags.ignoreBlanks .blanks s.rest = some s.rest) :
    branch (steps + 1) depth es s = .ok (sequence es.reverse, s) := by
  rw [branch, run_skipBlanks_bind hb, run_rest_bind]
  rcases hs with hs | ⟨c, cs, hs, rfl | rfl⟩ <;> rw [hs] <;> rfl

/-- A row that does not end goes on with an atom. -/
theorem branch_atom {steps depth : Nat} {es : List Expr} {c : Char} {cs : List Char}
    (hs : s.rest = c :: cs) (hc : c ≠ '|' ∧ c ≠ ')')
    (hb : dropBlanks s.flags.ignoreBlanks .blanks s.rest = some s.rest) :
    branch (steps + 1) depth es s = (atom steps depth >>= fun e => repeated e >>= fun e =>
      branch steps depth (if e.isEmpty then es else e :: es)) s := by
  rw [branch, run_skipBlanks_bind hb, run_rest_bind, hs]
  simp [hc.1, hc.2]

section Step

variable {n : Nat} (ih : p.Reads n) (n' d d' : Nat)

include ih

/-- What stands behind the first alternative. -/
theorem alternativesBehind_leads {e e' : Expr} (h : p.Agree e s e' s') :
    Leads (alternativesBehind n d e s) (alternativesBehind n' d' e' s') p.AgreeInside := by
  have hm := h.mirrors
  by_cases hc : s.rest.head? = some '|'
  · obtain ⟨cs, hs⟩ := List.head?_eq_some_iff.mp hc
    have ht := hm.text
    rw [hs] at ht
    obtain ⟨cs', hs'⟩ := ht.cons
    unfold alternativesBehind
    rw [hm.skipBlanks, hm.skipBlanks', run_rest_bind, run_rest_bind, hs, hs']
    refine Leads.bind (ih.furtherAlternatives n' d d' s s' hm) ?_
    rintro es t es' t' (hend | ⟨rfl, hsteady, hm'⟩)
    · exact Leads.ok (Or.inl hend)
    refine Leads.ok (Or.inr ⟨?_, fun hd => ?_, hm'⟩)
    · rw [h.expr, Expr.renumber, Expr.renumberAll_eq_map, List.map_cons]
    · simp only [Expr.isSteady, Expr.allSteady_eq_all, List.all_cons, h.steady hd, hsteady hd,
        Bool.and_self]
  · intro a t a' t' ha ha'
    obtain ⟨rfl, rfl⟩ := of_alternativesBehind hc (by
      rw [hm.flags, p.noBlanks, Plain.dropBlanks hm.text.plain]) ha
    rcases hm.text.bar_or hc with hend | hc'
    · exact Or.inl hend
    obtain ⟨rfl, rfl⟩ := of_alternativesBehind hc' (by
      rw [hm.flags', p.noBlanks, hm.text.dropBlanks]) ha'
    exact Or.inr h

theorem alternatives_succ (h : p.Mirrors s s') :
    Leads (alternatives (n + 1) d s) (alternatives n' d' s') p.AgreeInside := by
  cases n' with
  | zero =>
    rw [alternatives.eq_1]
    exact Leads.error_right _ _
  | succ n' =>
    rw [alternatives_eq, alternatives_eq]
    refine Leads.bind (ih.branch n' d d' s s' [] [] ⟨rfl, fun _ => rfl, h⟩) ?_
    exact fun e t e' t' he => alternativesBehind_leads ih n' d d' he

theorem furtherAlternatives_succ (h : p.Mirrors s s') :
    Leads (furtherAlternatives (n + 1) d s) (furtherAlternatives n' d' s') p.AgreeAllInside := by
  cases n' with
  | zero =>
    rw [furtherAlternatives.eq_1]
    exact Leads.error_right _ _
  | succ n' =>
    rw [furtherAlternatives, furtherAlternatives, run_rest_bind, run_rest_bind]
    cases hs : s.rest with
    | nil =>
      have ht := h.text
      rw [hs] at ht
      -- the pattern is over; inside another one a parenthesis or a bar may follow
      rcases ht.end with ht' | ⟨_, _, ht', rfl | rfl⟩
      · rw [ht']
        exact Leads.ok (Or.inr ⟨rfl, fun _ => rfl, h⟩)
      · rw [ht']
        exact Leads.ok (Or.inr ⟨rfl, fun _ => rfl, h⟩)
      · intro es t es' t' he _
        obtain ⟨rfl, rfl⟩ := Prod.mk.inj (Except.ok.inj he)
        exact Or.inl ⟨hs, by rw [← ht.nil, ht']; rfl⟩
    | cons c cs =>
      by_cases hc : c = '|'
      · subst hc
        obtain ⟨cs', hs', hm⟩ := h.other hs rfl
        rw [hs']
        simp only [run_goTo_bind]
        refine Leads.bind (ih.branch n' d d' _ _ [] [] ⟨rfl, fun _ => rfl, hm⟩) ?_
        intro e t e' t' he
        rw [he.mirrors.skipBlanks, he.mirrors.skipBlanks']
        refine Leads.bind (ih.furtherAlternatives n' d d' t t' he.mirrors) ?_
        rintro es u es' u' (hend | ⟨rfl, hsteady, hm'⟩)
        · exact Leads.ok (Or.inl hend)
        exact Leads.ok (Or.inr ⟨by rw [he.expr, List.map_cons], fun hd => by
          rw [List.all_cons, he.steady hd, hsteady hd]; rfl, hm'⟩)
      · have ht := h.text
        rw [hs] at ht
        obtain ⟨cs', hs'⟩ := ht.cons
        simp [hs', hc]
        exact Leads.ok (Or.inr ⟨rfl, fun _ => rfl, h⟩)

theorem branch_succ {es es' : List Expr} (h : p.AgreeAll es s es' s') :
    Leads (branch (n + 1) d es s) (branch n' d' es' s') p.Agree := by
  have hm := h.mirrors
  have hb : dropBlanks s.flags.ignoreBlanks .blanks s.rest = some s.rest := by
    rw [hm.flags, p.noBlanks, Plain.dropBlanks hm.text.plain]
  have hb' : dropBlanks s'.flags.ignoreBlanks .blanks s'.rest = some s'.rest := by
    rw [hm.flags', p.noBlanks, hm.text.dropBlanks]
  cases n' with
  | zero =>
    rw [branch.eq_1]
    exact Leads.error_right _ _
  | succ n' =>
    -- where the branch is over, what has been read makes a sequence
    have hend : p.Agree (sequence es.reverse) s (sequence es'.reverse) s' := by
      refine ⟨?_, fun hd => isSteady_sequence ?_, hm⟩
      · rw [h.exprs, ← List.map_reverse, sequence_renumber]
      · rw [List.all_reverse]
        exact h.steady hd
    have ht := hm.text
    cases hs : s.rest with
    | nil =>
      rw [hs] at ht
      have hs' : s'.rest = [] ∨ ∃ c cs, s'.rest = c :: cs ∧ (c = '|' ∨ c = ')') := by
        refine ht.end.imp_right ?_
        rintro ⟨c, cs, h, hc⟩
        exact ⟨c, cs, h, hc.symm⟩
      rw [branch_end (Or.inl hs) hb, branch_end hs' hb']
      exact Leads.ok hend
    | cons c cs =>
      rw [hs] at ht
      obtain ⟨cs', hs'⟩ := ht.cons
      by_cases hc : c = '|' ∨ c = ')'
      · rw [branch_end (Or.inr ⟨c, cs, hs, hc⟩) hb, branch_end (Or.inr ⟨c, cs', hs', hc⟩) hb']
        exact Leads.ok hend
      · rw [not_or] at hc
        rw [branch_atom hs hc hb, branch_atom hs' hc hb']
        refine Leads.bind (ih.atom n' d d' s s' hm (by simp [hs])) ?_
        intro e t e' t' he
        refine Leads.bind (repeated_leads he) ?_
        intro e t e' t' he
        refine ih.branch n' d d' t t' _ _ ⟨?_, fun hd => ?_, he.mirrors⟩
        · rw [he.expr, Expr.isEmpty_renumber, h.exprs]
          split <;> simp
        · split
          · exact h.steady hd
          · rw [List.all_cons, he.steady hd, h.steady hd]
            rfl

omit ih in
/-- A bracket is read to the same set. -/
theorem bracket_mirror_leads (h : p.Mirrors s s') {cs : List Char} (hs : s.rest = '[' :: cs) :
    ∃ cs', s'.rest = '[' :: cs' ∧
      Leads (bracket n { s with rest := cs }) (bracket n' { s' with rest := cs' }) p.Agree := by
  have ht := h.text
  rw [hs] at ht
  obtain ⟨inside, rest, hb⟩ := Pattern.Plain.bracketEnd _ ht.plain
  obtain ⟨hp, hrest⟩ := (Pattern.plain_bracket _ hb).mp ht.plain
  have hi := ht.image
  rw [Pattern.moved_bracket _ hb, List.cons_append, List.append_assoc] at hi
  refine ⟨_, hi, (bracket_leads hb hp n n' _ s s' (by rw [h.flags, h.flags'])).imp ?_⟩
  rintro a t a' t' ⟨rfl, ⟨written, foldCase, rfl⟩, rfl, rfl⟩
  refine ⟨rfl, fun _ => rfl, h.goTo ⟨hrest, rfl, ?_⟩⟩
  rw [← Pattern.groupsIn_bracket hb, ht.counted]

theorem atom_succ (h : p.Mirrors s s') (hne : s.rest ≠ []) :
    Leads (atom (n + 1) d s) (atom n' d' s') p.Agree := by
  cases n' with
  | zero =>
    rw [atom.eq_1]
    exact Leads.error_right _ _
  | succ n' =>
    obtain ⟨c, cs, hs⟩ := List.exists_cons_of_ne_nil hne
    have hflags : s'.flags = s.flags := by rw [h.flags, h.flags']
    rw [atom, atom, run_get_bind, run_get_bind, hs]
    -- first what stands for something by itself, then what opens something
    by_cases hdot : c = '.'
    · subst hdot
      obtain ⟨cs', hs', hm⟩ := h.other hs rfl
      rw [hs', hflags]
      exact Leads.ok ⟨rfl, fun _ => rfl, hm⟩
    by_cases hcaret : c = '^'
    · subst hcaret
      obtain ⟨cs', hs', hm⟩ := h.other hs rfl
      rw [hs', hflags]
      exact Leads.ok ⟨rfl, fun _ => rfl, hm⟩
    by_cases hdollar : c = '$'
    · subst hdollar
      obtain ⟨cs', hs', hm⟩ := h.other hs rfl
      rw [hs', hflags]
      exact Leads.ok ⟨rfl, fun _ => rfl, hm⟩
    have ht := h.text
    rw [hs] at ht
    by_cases hopen : c = '('
    · subst hopen
      obtain ⟨cs', hs'⟩ := ht.cons
      rw [hs']
      exact ih.group n' (d + 1) (d' + 1) s s' cs cs' h hs hs'
    by_cases hback : c = '\\'
    · subst hback
      obtain ⟨cs', hs'⟩ := ht.cons
      rw [hs']
      simp only [run_goTo_bind]
      refine Leads.bind (escape_leads h hs hs') ?_
      rintro a t a' t' ⟨rfl, hsteady, hm⟩
      cases a with
      | char c folds =>
        rw [hflags]
        exact Leads.ok ⟨rfl, fun _ => rfl, hm⟩
      | set written =>
        rw [hflags]
        exact Leads.ok ⟨rfl, fun _ => rfl, hm⟩
      | expr e => exact Leads.ok ⟨rfl, hsteady, hm⟩
    by_cases hbracket : c = '['
    · subst hbracket
      obtain ⟨cs', hs', hl⟩ := bracket_mirror_leads n' h hs
      rw [hs']
      exact hl
    obtain ⟨cs', hs', hm⟩ := h.other hs (by simp [isOther, hopen, hback, hbracket])
    rw [hs']
    simp only []
    by_cases hrep : c = '+' ∨ c = '*' ∨ c = '?'
    · simp only [hrep, if_true]
      exact Leads.ok ⟨rfl, fun _ => rfl, h⟩
    · simp only [hrep, if_false, hflags]
      exact Leads.ok ⟨rfl, fun _ => rfl, hm⟩

/-- The content of a group and its closing parenthesis. -/
theorem content_leads (h : p.Mirrors s s') {f f' : Expr → Expr}
    (hf : ∀ e, f' (e.renumber p.offset) = (f e).renumber p.offset)
    (hsteady : ∀ e, e.isSteady → (f e).isSteady) :
    Leads ((alternatives n d >>= fun e => close >>= fun _ => pure (f e)) s)
      ((alternatives n' d' >>= fun e => close >>= fun _ => pure (f' e)) s') p.Agree := by
  refine Leads.bind (ih.alternatives n' d d' s s' h) ?_
  rintro e t e' t' (⟨hend, -⟩ | ⟨rfl, he, hm⟩)
  · rw [run_close_bind_nil hend]
    exact Leads.error_left _ _
  refine Leads.bind (close_leads hm) ?_
  rintro _ u _ u' ⟨-, hm'⟩
  exact Leads.ok ⟨hf e, fun hd => hsteady e (he hd), hm'⟩

omit ih in
/-- A colon sets no flags and opens a group. -/
theorem flagList_colon {start steps : Nat} {cs : List Char} (hs : s.rest = ':' :: cs)
    (hb : s.flags.ignoreBlanks = false) :
    flagList start (steps + 1) false s = .ok (true, { s with rest := cs }) := by
  have hnone : dropBlanks s.flags.ignoreBlanks .blanks s.rest = some s.rest := by
    rw [hb]
    exact dropBlanks_eq (by simp [hs])
  rw [flagList, run_skipBlanks_bind hnone, run_rest_bind, hs]
  rfl

/-- A group that only holds alternatives together. -/
theorem flaggedGroup_leads (h : p.Mirrors s s') {cs : List Char} (hs : s.rest = ':' :: cs) :
    Leads (flaggedGroup (alternatives n d) s) (flaggedGroup (alternatives n' d') s') p.Agree := by
  obtain ⟨cs', hs', hm⟩ := h.other hs rfl
  unfold flaggedGroup
  simp only [run_get_bind, run_rest_bind]
  refine Leads.bind (Q := fun a t a' t' => a = true ∧ a' = true ∧ p.Mirrors t t') ?_ ?_
  · rw [flagList_colon hs (by rw [h.flags, p.noBlanks]),
      flagList_colon hs' (by rw [h.flags', p.noBlanks])]
    exact Leads.ok ⟨rfl, rfl, hm⟩
  rintro _ t _ t' ⟨rfl, rfl, ht⟩
  simp only [if_true]
  refine Leads.bind (ih.alternatives n' d d' t t' ht) ?_
  rintro e u e' u' (⟨hend, -⟩ | he)
  · rw [run_rest_bind, hend]
    exact Leads.error_left _ _
  rw [run_rest_bind, run_rest_bind]
  cases hu : u.rest with
  | nil => exact Leads.error_left _ _
  | cons c es =>
    by_cases hc : c = ')'
    · subst hc
      obtain ⟨es', hu', hm'⟩ := he.mirrors.other hu rfl
      rw [hu']
      exact Leads.ok ⟨he.expr, he.steady, ⟨h.flags, h.flags', hm'.opened⟩, hm'.text⟩
    · simp [hc]
      exact Leads.error_left _ _

theorem group_succ {cs cs' : List Char} (h : p.Mirrors s s') (hs : s.rest = '(' :: cs)
    (hs' : s'.rest = '(' :: cs') : Leads (group (n + 1) d { s with rest := cs })
      (group n' d' { s' with rest := cs' }) p.Agree := by
  cases n' with
  | zero =>
    rw [group.eq_1]
    exact Leads.error_right _ _
  | succ n' =>
    rw [group, group]
    by_cases hd : depthLimit ≤ d
    · rw [if_pos hd]
      exact Leads.error_left _ _
    by_cases hd' : depthLimit ≤ d'
    · rw [if_pos hd']
      exact Leads.error_right _ _
    rw [if_neg hd, if_neg hd']
    refine Leads.bind (groupKind_leads h hs hs') ?_
    rintro _ t kind t' ⟨rfl, hm, hfits⟩
    cases kind with
    | capture =>
      simp only [run_get_bind]
      refine content_leads ih n' d d' hm (fun e => ?_) fun e he => ?_
      · rw [Expr.renumber, hm.opened]
      · simp only [Expr.isSteady, he, Bool.and_true, decide_eq_true_eq]
        exact hfits
    | around ahead negated =>
      exact content_leads ih n' d d' hm (fun e => by rw [Expr.renumber]) fun e he => he
    | atomic => exact content_leads ih n' d d' hm (fun e => by rw [Expr.renumber]) fun e he => he
    | backReference => exact hfits.elim
    | conditional => exact hfits.elim
    | flags =>
      obtain ⟨ds, hds⟩ := List.head?_eq_some_iff.mp hfits
      exact flaggedGroup_leads ih n' d d' hm hds

end Step

/-- **A plain pattern is read inside another one as it is read alone**, up to the numbers of its
groups. -/
theorem reads : ∀ n, p.Reads n
  | 0 => reads_zero
  | n + 1 => {
    alternatives := fun n' d d' _ _ h => alternatives_succ (reads n) n' d d' h
    furtherAlternatives := fun n' d d' _ _ h => furtherAlternatives_succ (reads n) n' d d' h
    branch := fun n' d d' _ _ _ _ h => branch_succ (reads n) n' d d' h
    atom := fun n' d d' _ _ h hne => atom_succ (reads n) n' d d' h hne
    group := fun n' d d' _ _ _ _ h hs hs' => group_succ (reads n) n' d d' h hs hs' }

end Placement

end CodeMarkup.Regex
