import CodeMarkup.Proofs.Regex.Joined
import Mathlib.Algebra.GroupWithZero.Nat

/-! # Reading patterns side by side

Grammars also put patterns side by side with nothing but bars between them, bare or in one group
around all. The references in them are not moved on, so that a pattern keeps its meaning only where
this makes no difference: it is the first one, no group stands before it, or it refers to no group
(`moved_of_unreferring`). Plain patterns of that kind are read to all their alternatives in a row,
those of each pattern as they are alone up to the numbers of their groups (`read_barred`,
`read_either`). -/

namespace CodeMarkup

/-! ### Patterns that refer to no group -/

namespace Pattern

/-- Whether no part of a text is a reference by number. -/
def isUnreferring (cs : List Char) : Bool :=
  (Part.read cs).all fun
    | .reference _ => false
    | _ => true

/-- Where there are no references, none are moved on. -/
theorem moved_of_isUnreferring {cs : List Char} (h : isUnreferring cs) (offset : Nat) :
    moved offset cs = cs := by
  have hpart : ∀ part ∈ Part.read cs, part.shifted offset = part.text := by
    intro part hpart
    have hall := List.all_eq_true.mp h part hpart
    cases part with
    | reference digits => cases hall
    | _ => rfl
  calc moved offset cs = (Part.read cs).flatMap Part.text :=
        List.flatMap_congr hpart
    _ = cs := Part.text_read cs

end Pattern

namespace Regex

open Pattern (moved Plain groupsIn)
open PatternReader Placement

/-! ### Rows of alternatives -/

/-- Reads alternatives in a row. -/
def rows (steps further depth : Nat) : PatternReader (List Expr) :=
  branch steps depth [] >>= fun e => skipBlanks >>= fun _ =>
    furtherAlternatives further depth >>= fun es => pure (e :: es)

section Rows

variable {n m d : Nat} {s t : ReaderState} {e : Expr} {es : List Expr}

theorem of_rows (h : rows n m d s = .ok (es, t)) : ∃ e u v fs,
    branch n d [] s = .ok (e, u) ∧ skipBlanks u = .ok ((), v) ∧
      furtherAlternatives m d v = .ok (fs, t) ∧ es = e :: fs := by
  obtain ⟨e, u, he, h⟩ := of_run_bind h
  obtain ⟨_, v, hv, h⟩ := of_run_bind h
  obtain ⟨fs, w, hfs, h⟩ := of_run_bind h
  obtain ⟨rfl, rfl⟩ := Prod.mk.inj (Except.ok.inj h)
  exact ⟨e, u, v, fs, he, hv, hfs, rfl⟩

theorem rows_ne_nil (h : rows n m d s = .ok (es, t)) : es ≠ [] := by
  obtain ⟨e, u, v, fs, -, -, -, rfl⟩ := of_rows h
  exact List.cons_ne_nil e fs

/-- Behind a bar another row follows. -/
theorem furtherAlternatives_bar {cs : List Char} (hs : s.rest = '|' :: cs) :
    furtherAlternatives (n + 1) d s = rows n n d { s with rest := cs } := by
  rw [furtherAlternatives, run_rest_bind, hs]
  rfl

theorem furtherAlternatives_stop (hs : s.rest.head? ≠ some '|') :
    furtherAlternatives (n + 1) d s = .ok ([], s) := by
  rw [furtherAlternatives, run_rest_bind]
  cases hr : s.rest with
  | nil => rfl
  | cons c cs =>
    have hc : c ≠ '|' := by simpa [hr] using hs
    simp [hc]
    rfl

/-- Reading alternatives is reading them in a row. -/
theorem exists_rows (h : (branch n d [] >>= alternativesBehind m d) s = .ok (e, t)) :
    ∃ k es, rows n k d s = .ok (es, t) ∧ e = eitherOf es := by
  obtain ⟨e₁, u, he, h⟩ := of_run_bind h
  obtain ⟨_, v, hv, h⟩ := of_run_bind h
  rw [run_rest_bind] at h
  by_cases hbar : v.rest.head? = some '|'
  · obtain ⟨cs, hs⟩ := List.head?_eq_some_iff.mp hbar
    rw [hs] at h
    simp only at h
    obtain ⟨es, w, hes, h⟩ := of_run_bind h
    obtain ⟨rfl, rfl⟩ := Prod.mk.inj (Except.ok.inj h)
    refine ⟨m, e₁ :: es, ?_, ?_⟩
    · rw [rows, run_bind_ok he, run_bind_ok hv, run_bind_ok hes]
      rfl
    · cases m with
      | zero =>
        rw [furtherAlternatives.eq_1] at hes
        cases hes
      | succ m =>
        rw [furtherAlternatives_bar hs] at hes
        cases es with
        | nil => exact absurd rfl (rows_ne_nil hes)
        | cons e₂ es => rfl
  · have hstop : (do
        let s ← get
        if s.numbered && !s.names.isEmpty then throw .mixedReferences
        return e₁ : PatternReader Expr) v = .ok (e, t) := by
      rw [← h]
      cases hr : v.rest with
      | nil => rfl
      | cons c cs =>
        have hc : c ≠ '|' := by simpa [hr] using hbar
        simp [hc]
    simp only [run_get_bind] at hstop
    split at hstop
    · cases hstop
    · obtain ⟨rfl, rfl⟩ := Prod.mk.inj (Except.ok.inj hstop)
      refine ⟨1, [e₁], ?_, rfl⟩
      rw [rows, run_bind_ok he, run_bind_ok hv, run_bind_ok (furtherAlternatives_stop hbar)]
      rfl

end Rows

/-! ### A row inside another one -/

namespace Placement

variable {p : Placement} {s s' t t' : ReaderState} {es es' : List Expr} {d d' : Nat}

/-- Between the parts of a plain pattern there are no blanks. -/
theorem Mirrors.eq_of_skipBlanks (h : p.Mirrors s s') (ht : PatternReader.skipBlanks s = .ok ((), t)) :
    t = s := by
  have hrun := h.skipBlanks (fun _ => (get : PatternReader ReaderState))
  rw [run_bind_ok ht] at hrun
  exact (Prod.mk.inj (Except.ok.inj hrun)).1

theorem Mirrors.eq_of_skipBlanks' (h : p.Mirrors s s') (ht : PatternReader.skipBlanks s' = .ok ((), t)) :
    t = s' := by
  have hrun := h.skipBlanks' (fun _ => (get : PatternReader ReaderState))
  rw [run_bind_ok ht] at hrun
  exact (Prod.mk.inj (Except.ok.inj hrun)).1

/-- The first alternatives of rows that are read alone and inside, and what is read behind them. -/
theorem Mirrors.exists_of_rows (hm : p.Mirrors s s') {n n' m m' : Nat}
    (h : rows n m d s = .ok (es, t)) (h' : rows n' m' d' s' = .ok (es', t')) :
    ∃ e u u' fs fs', p.Mirrors u u' ∧ furtherAlternatives m d u = .ok (fs, t) ∧
      furtherAlternatives m' d' u' = .ok (fs', t') ∧ es = e :: fs ∧
        es' = e.renumber p.offset :: fs' := by
  obtain ⟨e, u, v, fs, he, hv, hfs, rfl⟩ := of_rows h
  obtain ⟨e', u', v', fs', he', hv', hfs', rfl⟩ := of_rows h'
  have hagree := (p.reads n).branch n' d d' _ _ [] [] ⟨rfl, fun _ => rfl, hm⟩ e u e' u' he he'
  obtain rfl := hagree.mirrors.eq_of_skipBlanks hv
  obtain rfl := hagree.mirrors.eq_of_skipBlanks' hv'
  exact ⟨e, v, v', fs, fs', hagree.mirrors, hfs, hfs', rfl, by rw [hagree.expr]⟩

/-- Where no bar follows the pattern, the whole row is read alike. -/
theorem Mirrors.rows_agree (hm : p.Mirrors s s') (htail : p.tail.head? ≠ some '|')
    {n n' m m' : Nat} (h : rows n m d s = .ok (es, t)) (h' : rows n' m' d' s' = .ok (es', t')) :
    es' = es.map (Expr.renumber p.offset) ∧ p.Mirrors t t' := by
  obtain ⟨e, u, u', fs, fs', hu, hfs, hfs', rfl, rfl⟩ := hm.exists_of_rows h h'
  rcases (p.reads m).furtherAlternatives m' d d' u u' hu _ _ _ _ hfs hfs' with hend | hagree
  · exact absurd hend.2 htail
  · exact ⟨by rw [hagree.exprs, List.map_cons], hagree.mirrors⟩

/-- A row that is read alone, and one that goes on behind the bar that follows the pattern. -/
def AgreeUpTo (p : Placement) (ds : List Char) (d : Nat) (es : List Expr) (t : ReaderState)
    (es' : List Expr) (t' : ReaderState) : Prop :=
  ∃ u k more, p.Mirrors t u ∧ rows k k d { u with rest := ds } = .ok (more, t') ∧
    es' = es.map (Expr.renumber p.offset) ++ more

theorem AgreeUpTo.cons {ds : List Char} {e : Expr} (h : p.AgreeUpTo ds d es t es' t') :
    p.AgreeUpTo ds d (e :: es) t (e.renumber p.offset :: es') t' := by
  obtain ⟨u, k, more, hu, hmore, rfl⟩ := h
  exact ⟨u, k, more, hu, hmore, by rw [List.map_cons, List.cons_append]⟩

/-- At the end of a pattern that a bar follows the row goes on behind the bar. -/
theorem agreeUpTo_furtherAlternatives {ds : List Char} (htail : p.tail = '|' :: ds) :
    ∀ (n n' : Nat) {s s' t t' : ReaderState} {es es' : List Expr}, p.Mirrors s s' →
      furtherAlternatives n d s = .ok (es, t) → t.rest = [] →
      furtherAlternatives n' d' s' = .ok (es', t') → p.AgreeUpTo ds d' es t es' t'
  | 0, _, _, _, _, _, _, _, _, h, _, _ => by
    rw [furtherAlternatives.eq_1] at h
    cases h
  | _ + 1, 0, _, _, _, _, _, _, _, _, _, h' => by
    rw [furtherAlternatives.eq_1] at h'
    cases h'
  | n + 1, n' + 1, s, s', t, t', es, es', hm, h, ht, h' => by
    by_cases hbar : s.rest.head? = some '|'
    · obtain ⟨cs, hs⟩ := List.head?_eq_some_iff.mp hbar
      obtain ⟨cs', hs', hm'⟩ := hm.other hs rfl
      rw [furtherAlternatives_bar hs] at h
      rw [furtherAlternatives_bar hs'] at h'
      obtain ⟨e, u, u', fs, fs', hu, hfs, hfs', rfl, rfl⟩ := hm'.exists_of_rows h h'
      exact (agreeUpTo_furtherAlternatives htail n n' hu hfs ht hfs').cons
    · rw [furtherAlternatives_stop hbar] at h
      obtain ⟨rfl, rfl⟩ := Prod.mk.inj (Except.ok.inj h)
      have hs' : s'.rest = '|' :: ds := by
        have htext := hm.text
        rw [ht] at htext
        rw [htext.nil, htail]
      rw [furtherAlternatives_bar hs'] at h'
      exact ⟨s', n', es', hm, h', rfl⟩

theorem Mirrors.rows_agreeUpTo {ds : List Char} (hm : p.Mirrors s s') (htail : p.tail = '|' :: ds)
    {n n' m m' : Nat} (h : rows n m d s = .ok (es, t)) (ht : t.rest = [])
    (h' : rows n' m' d' s' = .ok (es', t')) : p.AgreeUpTo ds d' es t es' t' := by
  obtain ⟨e, u, u', fs, fs', hu, hfs, hfs', rfl, rfl⟩ := hm.exists_of_rows h h'
  exact (agreeUpTo_furtherAlternatives htail m m' hu hfs ht hfs').cons

end Placement

/-! ### Patterns side by side -/

/-- Plain patterns that keep their meaning side by side, so many groups coming before the first of
them, with what they are read to alone. -/
inductive Beside (flags : Flags) : Nat → List (List Char) → List Parsed → Prop
  | nil (before : Nat) : Beside flags before [] []
  | cons {before : Nat} {cs : List Char} {q : Parsed} {css : List (List Char)} {qs : List Parsed} :
      Plain false cs → moved before cs = cs → ReadsAs flags cs q →
      Beside flags (before + q.groups) css qs → Beside flags before (cs :: css) (q :: qs)

/-- The alternatives of patterns in a row, the groups of each numbered on. -/
inductive RowsOf : Nat → List Parsed → List Expr → Prop
  | nil (before : Nat) : RowsOf before [] []
  | cons {before : Nat} {q : Parsed} {qs : List Parsed} {es more : List Expr} :
      q.expr = eitherOf es → RowsOf (before + q.groups) qs more →
      RowsOf before (q :: qs) (es.map (Expr.renumber before) ++ more)

/-- The number of groups of patterns side by side. -/
def groupSum (qs : List Parsed) : Nat := (qs.map Parsed.groups).sum

section Standing

variable {flags : Flags} (hf : flags.ignoreBlanks = false)

/-- Where a pattern stands that so many groups come before and that is left as it is. -/
def standing (before : Nat) (cs tail : List Char)
    (hclosed : tail = [] ∨ ∃ c ds, tail = c :: ds ∧ (c = ')' ∨ c = '|')) : Placement :=
  ⟨flags, false, before, groupsIn cs, tail, hclosed, hf⟩

theorem mirrors_standing (limit : Nat) {before : Nat} {cs tail : List Char} {s : ReaderState}
    (hclosed : tail = [] ∨ ∃ c ds, tail = c :: ds ∧ (c = ')' ∨ c = '|')) (hplain : Plain false cs)
    (hmoved : moved before cs = cs) (hs : s.rest = cs ++ tail) (hflags : s.flags = flags)
    (ho : s.opened = before) : (standing hf before cs tail hclosed).Mirrors
      { rest := cs, flags := flags, referenceLimit := limit } s where
  flags := rfl
  flags' := hflags
  opened := ho.trans (Nat.zero_add _).symm
  text := ⟨hplain, by rw [hs]; exact congrArg (· ++ tail) hmoved.symm, Nat.zero_add _⟩

include hf

/-- Patterns with bars between them are read to their alternatives in a row. -/
theorem of_rows_beside {more : List Char} (hmore : more = [] ∨ ∃ cs, more = ')' :: cs)
    {before : Nat} {css : List (List Char)} {qs : List Parsed} (hb : Beside flags before css qs)
    (hne : css ≠ []) :
    ∀ {n m d : Nat} {s t : ReaderState} {es : List Expr},
      s.rest = ['|'].intercalate css ++ more → s.flags = flags → s.opened = before →
      rows n m d s = .ok (es, t) →
      RowsOf before qs es ∧ t.rest = more ∧ t.flags = flags ∧ t.opened = before + groupSum qs := by
  induction hb with
  | nil => exact absurd rfl hne
  | @cons before cs q css qs hplain hmoved hreads hrest ih =>
    intro n m d s t es hs hflags ho h
    obtain ⟨n₀, m₀, limit, u, hrun, hu, hgroups⟩ := hreads
    obtain ⟨k₀, es₀, halone, heither⟩ := exists_rows hrun
    -- the last pattern is read to the end, each before it up to the bar behind it
    cases css with
    | nil =>
      cases hrest
      rw [List.intercalate_singleton] at hs
      have hm := mirrors_standing hf limit
        (hmore.imp_right fun ⟨ds, h⟩ => ⟨')', ds, h, Or.inl rfl⟩) hplain hmoved hs hflags ho
      have htail : more.head? ≠ some '|' := by
        rcases hmore with rfl | ⟨ds, rfl⟩ <;> simp
      obtain ⟨rfl, ha, ht⟩ := hm.rows_agree htail halone h
      rw [hu] at ht
      refine ⟨?_, ht.nil, ha.flags', ?_⟩
      · have hrows := RowsOf.cons heither (.nil (before + q.groups))
        rw [List.append_nil] at hrows
        exact hrows
      · rw [ha.opened, hgroups, groupSum]
        exact Nat.add_comm _ _
    | cons ds css =>
      rw [List.intercalate_cons_cons, List.append_assoc, List.append_assoc] at hs
      have hm := mirrors_standing hf limit (Or.inr ⟨'|', _, rfl, Or.inr rfl⟩) hplain
        hmoved hs hflags ho
      obtain ⟨v, k, es', ⟨ha, -⟩, hrun', rfl⟩ := hm.rows_agreeUpTo rfl halone hu h
      have hopened : v.opened = before + q.groups := by
        rw [ha.opened, hgroups]
        exact Nat.add_comm _ _
      obtain ⟨hrows, ht, htflags, hto⟩ := ih (List.cons_ne_nil _ _)
        (s := { v with rest := ['|'].intercalate (ds :: css) ++ more }) rfl ha.flags' hopened hrun'
      refine ⟨.cons heither hrows, ht, htflags, ?_⟩
      rw [hto, groupSum, groupSum, List.map_cons, List.sum_cons, Nat.add_assoc]

/-- What stands side by side, with an end or a closing parenthesis behind it, starts as a pattern
does. -/
theorem front_beside {more : List Char} (hmore : more = [] ∨ ∃ cs, more = ')' :: cs)
    {before : Nat} {css : List (List Char)} {qs : List Parsed} (hb : Beside flags before css qs)
    (hne : css ≠ []) :
    (['|'].intercalate css ++ more).head? ≠ some '?' ∧
      dropBlanks false .blanks (['|'].intercalate css ++ more) =
        some (['|'].intercalate css ++ more) := by
  cases hb with
  | nil => exact absurd rfl hne
  | @cons _ cs q css qs hplain hmoved hreads hrest =>
    obtain ⟨tail, hclosed, htext⟩ : ∃ tail : List Char,
        (tail = [] ∨ ∃ c ds, tail = c :: ds ∧ (c = ')' ∨ c = '|')) ∧
          ['|'].intercalate (cs :: css) ++ more = cs ++ tail := by
      cases css with
      | nil =>
        exact ⟨more, hmore.imp_right fun ⟨ds, h⟩ => ⟨')', ds, h, Or.inl rfl⟩, by simp⟩
      | cons ds css =>
        exact ⟨'|' :: (['|'].intercalate (ds :: css) ++ more), Or.inr ⟨'|', _, rfl, Or.inr rfl⟩,
          by simp⟩
    have htracks : (standing hf before cs tail hclosed).Tracks 0 cs (cs ++ tail) :=
      (mirrors_standing hf 0 (s := ⟨cs ++ tail, flags, before, [], false, 0⟩) hclosed
        hplain hmoved rfl rfl rfl).text
    rw [htext]
    exact ⟨htracks.head?_ne (by decide) (by decide) (hreads.head?_ne hf), htracks.dropBlanks⟩

end Standing

/-! ### Bare and in a group -/

section Read

variable {foldCase : Bool} {sources : List String} {qs : List Parsed} {p : Parsed}

/-- **Patterns with bars between them are read to their alternatives in a row.** -/
theorem read_barred
    (h : Beside (grammarFlags foldCase) 0 (sources.map String.toList) qs) (hne : sources ≠ [])
    (hp : Parsed.read (Pattern.flagged ("|".intercalate sources) foldCase) = .ok p) :
    ∃ es, RowsOf 0 qs es ∧ p.expr = eitherOf es ∧ p.groups = groupSum qs := by
  have hf : (grammarFlags foldCase).ignoreBlanks = false := rfl
  have hne' : sources.map String.toList ≠ [] := by simpa using hne
  have htext : ("|".intercalate sources).toList =
      ['|'].intercalate (sources.map String.toList) ++ [] := by simp
  have hfront := (front_beside hf (Or.inl rfl) h hne').2
  rw [← htext] at hfront
  obtain ⟨n, m, limit, t, hrun, -, hgroups⟩ := readsAs_of_read_flagged hfront hp
  obtain ⟨k, es, hrows, heither⟩ := exists_rows hrun
  obtain ⟨hes, -, -, ho⟩ := of_rows_beside hf (Or.inl rfl) h hne' htext rfl rfl hrows
  exact ⟨es, hes, heither, by rw [← hgroups, ho, Nat.zero_add]⟩

/-- **Patterns in one group are read to the group of their alternatives in a row.** -/
theorem read_either
    (h : Beside (grammarFlags foldCase) 1 (sources.map String.toList) qs) (hne : sources ≠ [])
    (hp : Parsed.read (Pattern.flagged (Pattern.either sources) foldCase) = .ok p) :
    ∃ es, RowsOf 1 qs es ∧ p.expr = .group 1 (eitherOf es) ∧ p.groups = 1 + groupSum qs := by
  have hf : (grammarFlags foldCase).ignoreBlanks = false := rfl
  have hne' : sources.map String.toList ≠ [] := by simpa using hne
  have htext : (Pattern.either sources).toList =
      '(' :: (['|'].intercalate (sources.map String.toList) ++ [')']) := by
    simp [Pattern.either]
  obtain ⟨hq, hb⟩ := front_beside hf (Or.inr ⟨[], rfl⟩) h hne'
  have hfront : dropBlanks false .blanks (Pattern.either sources).toList =
      some (Pattern.either sources).toList := by
    rw [htext]
    exact dropBlanks_opening hq
  obtain ⟨n, m, limit, t, hrun, -, hgroups⟩ := readsAs_of_read_flagged hfront hp
  obtain ⟨e, u, he, hbehind⟩ := of_run_bind hrun
  -- inside the group the patterns stand in a row, one group having been opened
  have hinside : ∀ {k e' v}, alternatives k 1
      { rest := ['|'].intercalate (sources.map String.toList) ++ [')'], opened := 1,
        flags := grammarFlags foldCase, referenceLimit := limit } = .ok (e', v) →
        ∃ es, RowsOf 1 qs es ∧ e' = eitherOf es ∧ v.rest = [')'] ∧
          v.flags = grammarFlags foldCase ∧ v.opened = 1 + groupSum qs := by
    intro k e' v hk
    cases k with
    | zero =>
      rw [alternatives.eq_1] at hk
      cases hk
    | succ k =>
      rw [alternatives_eq] at hk
      obtain ⟨_, es, hrows, heither⟩ := exists_rows hk
      obtain ⟨hes, hv, hflags, ho⟩ := of_rows_beside hf (Or.inr ⟨[], rfl⟩) h hne' rfl rfl rfl hrows
      exact ⟨es, hes, heither, hv, hflags, ho⟩
  obtain ⟨k, e', v, hk, rfl, rfl⟩ := of_branch_group he rfl htext hq hb (Or.inl rfl) fun hk => by
    obtain ⟨es, -, -, hv, hflags, -⟩ := hinside hk
    exact ⟨hv, hflags⟩
  obtain ⟨es, hes, rfl, -, hflags, ho⟩ := hinside hk
  obtain ⟨hpe, rfl⟩ := of_alternativesBehind (by simp) (by rw [hflags]; rfl) hbehind
  exact ⟨es, hes, hpe, by rw [← hgroups, ← ho]⟩

end Read

end Regex

end CodeMarkup
