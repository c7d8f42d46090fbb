import CodeMarkup.Proofs.Regex.Alone
import Mathlib.Data.List.Forall2

/-! # Reading joined patterns

Plain patterns that are joined are read as alternatives, each of them the group of one pattern, in
which the groups of the pattern are numbered on (`read_join`). -/

namespace CodeMarkup.Regex

open Pattern (moved Plain groupsIn)
open PatternReader Placement

/-! ### Alternatives of groups -/

/-- The groups of patterns that follow `before` other groups. -/
def groupsFrom : Nat → List Parsed → List Expr
  | _, [] => []
  | before, p :: ps =>
    .group (before + 1) (p.expr.renumber (before + 1)) :: groupsFrom (before + 1 + p.groups) ps

/-- The number of groups of patterns in groups of their own. -/
def groupTotal : List Parsed → Nat
  | [] => 0
  | p :: ps => p.groups + 1 + groupTotal ps

/-- One expression for alternatives. -/
def eitherOf : List Expr → Expr
  | [e] => e
  | es => .alt es

/-- The characters of patterns that are joined behind another one, `before` groups coming first. -/
def joinedFrom : Nat → List (List Char) → List Char
  | _, [] => []
  | before, cs :: css => '|' :: '(' :: (moved (before + 1) cs ++
      ')' :: joinedFrom (before + 1 + groupsIn cs) css)

theorem toList_wrapped : ∀ (source : String) (sources : List String) (before : Nat),
    ("|".intercalate (Pattern.wrapped before (source :: sources))).toList =
      (joinedFrom before ((source :: sources).map String.toList)).tail
  | source, [], before => by
    simp [Pattern.wrapped, joinedFrom, Pattern.shifted, moved]
  | source, next :: sources, before => by
    have ih := toList_wrapped next sources (before + 1 + groupsIn source.toList)
    rw [Pattern.wrapped] at ih
    rw [Pattern.wrapped, Pattern.wrapped, String.intercalate_cons_cons, String.toList_append,
      String.toList_append, groupsIn] at *
    rw [ih]
    simp [joinedFrom, Pattern.shifted, moved, groupsIn]

theorem toList_join {sources : List String} (h : sources ≠ []) :
    (Pattern.join sources "|").toList = (joinedFrom 0 (sources.map String.toList)).tail := by
  obtain ⟨source, sources, rfl⟩ := List.exists_cons_of_ne_nil h
  exact toList_wrapped source sources 0

/-! ### One pattern of them -/

section Piece

variable {directives : Bool} {flags : Flags} {cs more : List Char} {q : Parsed} {before d : Nat}
  {s t : ReaderState} {e : Expr}

/-- Where a pattern stands that follows `before` other groups. -/
def placed (hf : flags.ignoreBlanks = false) (directives : Bool) (before : Nat) (cs : List Char)
    (more : List Char) : Placement :=
  ⟨flags, directives, before + 1, groupsIn cs, ')' :: more, Or.inr ⟨')', more, rfl, Or.inl rfl⟩, hf⟩

/-- The content of the group that a pattern stands in. -/
theorem of_alternatives_piece {n : Nat} (h : alternatives n d s = .ok (e, t))
    (hf : flags.ignoreBlanks = false) (hp : Plain directives cs) (hr : ReadsAs flags cs q)
    (hs : s.rest = moved (before + 1) cs ++ ')' :: more) (hflags : s.flags = flags)
    (ho : s.opened = before + 1) :
    e = q.expr.renumber (before + 1) ∧ t.rest = ')' :: more ∧ t.flags = flags ∧
      t.opened = before + 1 + q.groups := by
  obtain ⟨m, k, limit, u, hr, hu, hg⟩ := hr
  cases n with
  | zero =>
    rw [alternatives.eq_1] at h
    cases h
  | succ n =>
    rw [alternatives_eq] at h
    let p : Placement := placed hf directives before cs more
    have hm : p.Mirrors { rest := cs, flags := flags, referenceLimit := limit } s :=
      ⟨⟨rfl, hflags, by rw [ho]; exact (Nat.zero_add _).symm⟩, hp, hs, Nat.zero_add _⟩
    have hl := Leads.bind ((p.reads m).branch n 0 d _ _ [] [] ⟨rfl, fun _ => rfl, hm⟩)
      fun e u e' u' he => alternativesBehind_leads (p.reads k) n 0 d he
    obtain ⟨he, -, ha, ht⟩ := (hl _ _ _ _ hr h).resolve_left fun hend => by cases hend.2
    rw [hu] at ht
    exact ⟨he, ht.nil, ha.flags', by rw [ha.opened, hg]; exact Nat.add_comm _ _⟩

/-- What a group without a question mark is read to. -/
theorem of_group_capture {n : Nat} {cs : List Char} (hd : d < depthLimit)
    (hb : dropBlanks s.flags.ignoreBlanks .blanks cs = some cs) (hq : cs.head? ≠ some '?')
    (h : group (n + 1) d { s with rest := cs } = .ok (e, t)) : ∃ e' t',
      alternatives n d { s with rest := cs, opened := s.opened + 1 } = .ok (e', t') ∧
        e = .group (s.opened + 1) e' ∧ close t' = .ok ((), t) := by
  rw [group, if_neg (Nat.not_le_of_lt hd)] at h
  obtain ⟨kind, t₁, hk, h⟩ := of_run_bind h
  rw [groupKind_eq hb, groupKindOf_capture hq] at hk
  obtain ⟨rfl, rfl⟩ := Prod.mk.inj (Except.ok.inj hk)
  simp only [run_get_bind] at h
  obtain ⟨e', t', ha, h⟩ := of_run_bind h
  obtain ⟨_, t'', hc, h⟩ := of_run_bind h
  obtain ⟨rfl, rfl⟩ := Prod.mk.inj (Except.ok.inj h)
  exact ⟨e', t', ha, rfl, hc⟩

theorem of_close {cs : List Char} (hb : s.flags.ignoreBlanks = false) (hs : s.rest = ')' :: cs)
    (h : close s = .ok ((), t)) : t = { s with rest := cs } := by
  have hnone : dropBlanks s.flags.ignoreBlanks .blanks s.rest = some s.rest := by
    rw [hb]
    exact dropBlanks_eq (by simp [hs])
  unfold close at h
  rw [run_skipBlanks_bind hnone, run_rest_bind, hs] at h
  exact (Prod.mk.inj (Except.ok.inj h)).2.symm

/-- Nothing repeats what the end or a bar follows. -/
theorem of_repeated_end {e' : Expr} (hb : s.flags.ignoreBlanks = false)
    (hs : s.rest = [] ∨ ∃ ds, s.rest = '|' :: ds) (h : repeated e s = .ok (e', t)) :
    e' = e ∧ t = s := by
  have hnone : dropBlanks s.flags.ignoreBlanks .blanks s.rest = some s.rest := by
    rw [hb]
    exact dropBlanks_eq (by rcases hs with hs | ⟨ds, hs⟩ <;> simp [hs])
  unfold repeated at h
  rw [run_skipBlanks_bind hnone, run_get_bind] at h
  rcases hs with hs | ⟨ds, hs⟩ <;> rw [hs] at h
  · obtain ⟨rfl, rfl⟩ := Prod.mk.inj (Except.ok.inj h)
    exact ⟨rfl, rfl⟩
  · obtain ⟨rfl, rfl⟩ := Prod.mk.inj (Except.ok.inj h)
    exact ⟨rfl, rfl⟩

/-- A parenthesis that no question mark follows is no comment. -/
theorem dropBlanks_opening {cs : List Char} (hq : cs.head? ≠ some '?') :
    dropBlanks false .blanks ('(' :: cs) = some ('(' :: cs) := by
  refine dropBlanks_eq fun ds hd => hq ?_
  rw [(List.cons.inj hd).2]
  rfl

/-- A group without a question mark, with nothing or another alternative behind it. -/
theorem of_branch_group {n : Nat} {cs : List Char} (h : branch n d [] s = .ok (e, t))
    (hf : s.flags.ignoreBlanks = false) (hs : s.rest = '(' :: cs) (hq : cs.head? ≠ some '?')
    (hb : dropBlanks false .blanks cs = some cs) (hmore : more = [] ∨ ∃ ds, more = '|' :: ds)
    (hinside : ∀ {k e' u}, alternatives k (d + 1)
      { s with rest := cs, opened := s.opened + 1 } = .ok (e', u) →
        u.rest = ')' :: more ∧ u.flags = s.flags) :
    ∃ k e' u, alternatives k (d + 1) { s with rest := cs, opened := s.opened + 1 } = .ok (e', u) ∧
      e = .group (s.opened + 1) e' ∧ t = { u with rest := more } := by
  have hblanks : ∀ ds : List Char, dropBlanks false .blanks ds = some ds →
      dropBlanks s.flags.ignoreBlanks .blanks ds = some ds := by
    rw [hf]
    exact fun _ h => h
  cases n with
  | zero =>
    rw [branch.eq_1] at h
    cases h
  | succ n =>
    -- a parenthesis, what is inside, the closing parenthesis, and what ends the branch
    rw [branch_atom hs (by decide) (hblanks _ (hs ▸ dropBlanks_opening hq))] at h
    obtain ⟨e₁, t₁, h₁, h⟩ := of_run_bind h
    obtain ⟨m, hd, h₁⟩ := of_atom_opening hs h₁
    obtain ⟨e₂, t₂, h₂, rfl, hc⟩ := of_group_capture hd (hblanks _ hb) hq h₁
    obtain ⟨hrest, hflags⟩ := hinside h₂
    rw [of_close (by rw [hflags, hf]) hrest hc] at h
    obtain ⟨e₃, t₃, h₃, h⟩ := of_run_bind h
    obtain ⟨rfl, rfl⟩ := of_repeated_end (by rw [hflags, hf]) hmore h₃
    cases n with
    | zero =>
      rw [branch.eq_1] at h
      cases h
    | succ n =>
      rw [branch_end] at h
      · obtain ⟨rfl, rfl⟩ := Prod.mk.inj (Except.ok.inj h)
        exact ⟨_, e₂, t₂, h₂, rfl, rfl⟩
      · refine hmore.imp_right ?_
        rintro ⟨ds, hd⟩
        exact ⟨'|', ds, hd, Or.inl rfl⟩
      · rw [hflags, hf]
        exact dropBlanks_eq (by rcases hmore with rfl | ⟨ds, rfl⟩ <;> simp)

theorem head?_piece (hf : flags.ignoreBlanks = false) (hp : Plain directives cs)
    (hr : ReadsAs flags cs q) : (moved (before + 1) cs ++ ')' :: more).head? ≠ some '?' := by
  have htr : (placed hf directives before cs more).Tracks 0 cs
      (moved (before + 1) cs ++ ')' :: more) := ⟨hp, rfl, Nat.zero_add _⟩
  exact htr.head?_ne (by decide) (by decide) (hr.head?_ne hf)

/-- A pattern in a group of its own, with nothing or another alternative behind it. -/
theorem of_branch_piece {n : Nat} (h : branch n d [] s = .ok (e, t))
    (hf : flags.ignoreBlanks = false) (hp : Plain directives cs) (hr : ReadsAs flags cs q)
    (hmore : more = [] ∨ ∃ ds, more = '|' :: ds)
    (hs : s.rest = '(' :: (moved (before + 1) cs ++ ')' :: more)) (hflags : s.flags = flags)
    (ho : s.opened = before) :
    e = .group (before + 1) (q.expr.renumber (before + 1)) ∧ t.rest = more ∧ t.flags = flags ∧
      t.opened = before + 1 + q.groups := by
  have htr : (placed hf directives before cs more).Tracks 0 cs
      (moved (before + 1) cs ++ ')' :: more) := ⟨hp, rfl, Nat.zero_add _⟩
  obtain ⟨k, e', u, hk, rfl, rfl⟩ := of_branch_group h (by rw [hflags, hf]) hs (head?_piece hf hp hr)
    htr.dropBlanks hmore fun hk => by
      obtain ⟨-, hrest, hflags', -⟩ :=
        of_alternatives_piece hk hf hp hr rfl hflags (congrArg (· + 1) ho)
      exact ⟨hrest, hflags'.trans hflags.symm⟩
  obtain ⟨rfl, -, hflags', ho'⟩ := of_alternatives_piece hk hf hp hr rfl hflags (congrArg (· + 1) ho)
  exact ⟨by rw [ho], rfl, hflags', ho'⟩

end Piece

/-! ### All of them -/

section Joined

variable {directives : Bool} {flags : Flags}

/-- Patterns that are plain, and what they are read to alone. -/
def ReadAlone (directives : Bool) (flags : Flags) : List (List Char) → List Parsed → Prop :=
  List.Forall₂ fun cs q => Plain directives cs ∧ ReadsAs flags cs q

theorem joinedFrom_eq (before : Nat) (css : List (List Char)) :
    joinedFrom before css = [] ∨ ∃ ds, joinedFrom before css = '|' :: ds := by
  cases css with
  | nil => exact Or.inl rfl
  | cons cs css => exact Or.inr ⟨_, rfl⟩

theorem dropBlanks_joinedFrom {flags : Flags} (hf : flags.ignoreBlanks = false) (before : Nat)
    (css : List (List Char)) : dropBlanks flags.ignoreBlanks .blanks (joinedFrom before css) =
      some (joinedFrom before css) := by
  rw [hf]
  refine dropBlanks_eq fun ds hd => ?_
  rcases joinedFrom_eq before css with h | ⟨es, h⟩ <;> rw [h] at hd <;> cases hd

theorem of_furtherAlternatives_joined (hf : flags.ignoreBlanks = false) {css : List (List Char)}
    {qs : List Parsed} (h : ReadAlone directives flags css qs) : ∀ {before n d : Nat}
    {s t : ReaderState} {es : List Expr}, s.rest = joinedFrom before css → s.flags = flags →
      s.opened = before → furtherAlternatives n d s = .ok (es, t) →
      es = groupsFrom before qs ∧ t.rest = [] ∧ t.opened = before + groupTotal qs := by
  induction h with
  | nil =>
    intro before n d s t es hs _ ho h
    cases n with
    | zero =>
      rw [furtherAlternatives.eq_1] at h
      cases h
    | succ n =>
      rw [furtherAlternatives, run_rest_bind, hs] at h
      obtain ⟨rfl, rfl⟩ := Prod.mk.inj (Except.ok.inj h)
      exact ⟨rfl, hs, ho⟩
  | @cons cs q css qs hq _ ih =>
    intro before n d s t es hs hflags ho h
    cases n with
    | zero =>
      rw [furtherAlternatives.eq_1] at h
      cases h
    | succ n =>
      rw [furtherAlternatives, run_rest_bind, hs, joinedFrom] at h
      simp only [run_goTo_bind] at h
      obtain ⟨e, u, he, h⟩ := of_run_bind h
      obtain ⟨rfl, hrest, hflags', ho'⟩ :=
        of_branch_piece he hf hq.1 hq.2 (joinedFrom_eq _ css) rfl hflags ho
      have hb := dropBlanks_joinedFrom hf (before + 1 + groupsIn cs) css
      rw [run_skipBlanks_bind (by rw [hflags', hrest, hb])] at h
      obtain ⟨es, u', hes, h⟩ := of_run_bind h
      obtain ⟨rfl, rfl⟩ := Prod.mk.inj (Except.ok.inj h)
      rw [← hq.2.groups_eq hq.1 hf] at hrest
      obtain ⟨rfl, hend, ho''⟩ := ih hrest hflags' ho' hes
      exact ⟨rfl, hend, by rw [ho'', groupTotal]; omega⟩

/-- Joined patterns are read to the alternatives of their groups. -/
theorem of_readsAs_joined (hf : flags.ignoreBlanks = false) {css : List (List Char)}
    {qs : List Parsed} (h : ReadAlone directives flags css qs) (hne : css ≠ []) {p : Parsed}
    (hp : ReadsAs flags (joinedFrom 0 css).tail p) :
    p.expr = eitherOf (groupsFrom 0 qs) ∧ p.groups = groupTotal qs := by
  obtain ⟨n, m, limit, t, hrun, ht, hg⟩ := hp
  obtain ⟨e, u, he, hbehind⟩ := of_run_bind hrun
  cases h with
  | nil => exact absurd rfl hne
  | @cons cs q css qs hq htail =>
    obtain ⟨rfl, hrest, hflags, ho⟩ :=
      of_branch_piece he hf hq.1 hq.2 (joinedFrom_eq (0 + 1 + groupsIn cs) css) rfl rfl
        (show _ = 0 from rfl)
    have hb : dropBlanks u.flags.ignoreBlanks .blanks u.rest = some u.rest := by
      rw [hflags, hrest, dropBlanks_joinedFrom hf]
    cases htail with
    | nil =>
      obtain ⟨hpe, rfl⟩ := of_alternativesBehind (by rw [hrest]; simp [joinedFrom]) hb hbehind
      exact ⟨hpe, by simp only [← hg, ho, groupTotal]; omega⟩
    | @cons ds r dss rs hr' htail =>
      unfold alternativesBehind at hbehind
      rw [run_skipBlanks_bind hb, run_rest_bind, hrest, joinedFrom] at hbehind
      simp only at hbehind
      obtain ⟨es, v, hes, hbehind⟩ := of_run_bind hbehind
      obtain ⟨hpe, rfl⟩ := Prod.mk.inj (Except.ok.inj hbehind)
      rw [← hq.2.groups_eq hq.1 hf] at hrest
      obtain ⟨rfl, -, ho'⟩ := of_furtherAlternatives_joined hf (.cons hr' htail) hrest hflags ho hes
      exact ⟨hpe.symm, by simp only [← hg, ho', groupTotal]; omega⟩

/-- **Joined patterns are read to the alternatives of their groups**, in which each pattern is what
it is alone, up to the numbers of its groups. -/
theorem read_join {foldCase : Bool} {sources : List String} {qs : List Parsed}
    (h : List.Forall₂ (fun source q => Plain directives source.toList ∧
      Parsed.read (Pattern.flagged source foldCase) = .ok q) sources qs)
    (hne : sources ≠ []) {p : Parsed}
    (hp : Parsed.read (Pattern.flagged (Pattern.join sources "|") foldCase) = .ok p) :
    p.expr = eitherOf (groupsFrom 0 qs) ∧ p.groups = groupTotal qs := by
  have halone : ReadAlone directives (grammarFlags foldCase) (sources.map String.toList) qs := by
    refine List.forall₂_map_left_iff.mpr (h.imp fun source q hq => ⟨hq.1, ?_⟩)
    exact readsAs_of_read_flagged (Plain.dropBlanks hq.1) hq.2
  refine of_readsAs_joined rfl halone (by simpa using hne) ?_
  rw [← toList_join hne]
  refine readsAs_of_read_flagged ?_ hp
  rw [toList_join hne]
  cases h with
  | nil => exact absurd rfl hne
  | cons hq _ =>
    exact dropBlanks_opening (head?_piece (show (grammarFlags foldCase).ignoreBlanks = false from rfl)
      hq.1 (readsAs_of_read_flagged (Plain.dropBlanks hq.1) hq.2))

end Joined

end CodeMarkup.Regex
