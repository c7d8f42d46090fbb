import CodeMarkup.Proofs.Highlight.Ending
import CodeMarkup.Proofs.Language.Registered
import CodeMarkup.Proofs.Language.Sought
import CodeMarkup.Proofs.Regex.Literal

/-! # Modes that end as they begin

What a mode that ends as it begins has begun with is its end from then on, as a text and not as a
pattern: it closes at a match of its begin where the code goes on with that text (`Scan.step_alike`).
How much of the code the closing match takes is up to the begin, though, which may match more of the
code there, or less. Where none of the texts that delimit the mode in the code starts with another one
the match is that same text, and every other delimiter stays inside as text (`Scan.closes_alike`);
where one does, a mode begun with `#` is closed by `##` (`Scan.closes_with_longer`). -/

namespace CodeMarkup

open Regex
open Text (byteSize)

variable {ρ : Type} [Engine ρ]

/-- A mode that ends where it goes on as it has begun, and only there. -/
structure CompiledMode.EndsAlike (m : CompiledMode ρ) : Prop where
  alike : m.endSameAsBegin = true
  unguarded : m.onEnd = none
  alone : m.endsWithParent = false
  childless : m.children = []

namespace Scan

variable {env : Setting ρ}

/-! ### Begins -/

/-- A step in which a mode begins with a match, on top of another one. -/
structure Begins (env : Setting ρ) (s : State ρ) (found : Found) (id : Nat) (s' : State ρ) : Prop where
  find : ∃ firstRule, (topMode env s).matcher.find (next s).firstRule env.code s.index =
    .ok (some (found, firstRule))
  kind : found.kind = .begins id
  step : step env s = .ok (some s')
  stack : s.frames ≠ []
  grows : s'.frames.length = s.frames.length + 1

/-- A begin that does not count opens nothing, and one that does opens its mode with the end that the
mode has there. -/
theorem Followed.frames_of_begins {s s' : State ρ} {found : Found} {id taken : Nat}
    (h : Followed env s found s' taken) (hk : found.kind = .begins id) :
    s'.frames = s.frames ∨ ∃ endOverride memory,
      endLike env (env.language.mode id) found.lexeme = .ok endOverride ∧
      s'.frames = ⟨id, endOverride, memory⟩ :: s.frames ∧
      (taken = 0 ∨ taken = found.lexeme.utf8ByteSize) := by
  cases h with
  | empty hempty => cases hk.symm.trans (emptyMode?_eq_some hempty).1
  | emptyIllegal hk' | illegal hk' | ends hk' | endless hk' => cases hk.symm.trans hk'
  | refused =>
    have hframes := frames_of_control (control_keepChar env (s.matched found) found.index).1
    exact Or.inl hframes
  | passed => exact Or.inl rfl
  | begins hk' _ hlike hcontent =>
    obtain rfl := RuleKind.begins.inj (hk.symm.trans hk')
    refine Or.inr ⟨_, (admits env (env.language.mode id) found).2, hlike, ?_, ?_⟩
    · rw [frames_start, frames_of_control (control_contentAtBegin hcontent)]
    · split
      · exact Or.inl rfl
      · exact Or.inr rfl

/-- A mode that ends as it begins has what it has begun with for its end. -/
theorem Begins.exists_frame {s s' : State ρ} {opened : Found} {id : Nat}
    (h : Begins env s opened id s') (hlike : (env.language.mode id).endSameAsBegin = true) :
    ∃ re memory taken, s'.frames = ⟨id, some re, memory⟩ :: s.frames ∧
      Prepared.compile env.language.caseInsensitive (Pattern.escape opened.lexeme) = .ok re ∧
      s'.index = opened.index + taken ∧ (taken = 0 ∨ taken = opened.lexeme.utf8ByteSize) := by
  obtain ⟨found, firstRule, t, taken, hfind, hfollowed, rfl⟩ := exists_followed_of_step h.step
  obtain ⟨firstRule', hfind'⟩ := h.find
  obtain ⟨rfl, -⟩ := Prod.mk.inj (Option.some.inj (Except.ok.inj (hfind.symm.trans hfind')))
  rcases hfollowed.frames_of_begins h.kind with
    hsame | ⟨endOverride, memory, hend, hframes, htaken⟩
  · have hlength : t.frames.length = s.frames.length := congrArg List.length hsame
    exact absurd (hlength.symm.trans h.grows) (Nat.ne_of_lt (Nat.lt_succ_self _))
  · unfold endLike at hend
    rw [hlike, if_pos rfl] at hend
    dsimp only at hend
    split at hend
    · next re hre =>
      cases hend
      exact ⟨re, memory, taken, hframes, hre, rfl, htaken⟩
    · cases hend

/-! ### Ends -/

section Ends

variable {letters : Letters} (hρ : LeftmostFirst ρ letters)
  (hletters : ∀ c d, letters.char c false d ↔ c = d) {opened : String} {re : Prepared ρ}
  (hre : Prepared.compile false (Pattern.escape opened) = .ok re)
  {found : Found} (hplace : Text.IsPlace env.code found.index) {f : Frame ρ} {fs : List (Frame ρ)}
  (hf : f.endOverride = some re) (hm : (env.language.mode f.mode).EndsAlike)

include hρ hletters hre hplace hf hm

/-- A mode that ends as it begins ends where the code goes on with what it has begun with. -/
theorem endingFrame_alike : endingFrame env found (f :: fs) =
    .ok (if opened.toList <+: Text.rest env.code found.index then
      some (outermostEnding env.language (f :: fs)) else none, f :: fs) := by
  obtain ⟨before, after, hcode, hindex⟩ := hplace
  have hends : endsAt env found f = .ok (opened.toList.isPrefixOf after, f) := by
    have hmatches := hρ.matchesAt_escape hletters hre before after
    rw [← hcode, hindex] at hmatches
    unfold endsAt
    simp only [hf, hm.unguarded, hmatches, Option.orElse_eq_orElse, Option.orElse_eq_or,
      Option.some_or]
    cases opened.toList.isPrefixOf after <;> rfl
  have hrest : Text.rest env.code found.index = after := by
    rw [hcode, ← hindex, Text.rest_byteSize]
  rw [hrest, endingFrame, hends]
  by_cases hgoes : opened.toList <+: after
  · rw [if_pos hgoes, List.isPrefixOf_iff_prefix.mpr hgoes]
  · have hnot : opened.toList.isPrefixOf after = false := by
      rw [← Bool.not_eq_true, List.isPrefixOf_iff_prefix]
      exact hgoes
    rw [if_neg hgoes, hnot]
    simp only [hm.alone, Bool.false_and, Bool.false_eq_true, if_false]

end Ends

/-! ### Steps -/

/-- What a step leaves that keeps a mode open: the same is open, the same has been reported, and the
code that has been gone over is kept. -/
structure Keeps (code : List Char) (s s' : State ρ) : Prop where
  frames : s'.frames = s.frames
  events : s'.events = s.events
  relevance : s'.relevance = s.relevance
  text : s'.text ++ restFrom code s'.index = s.text ++ restFrom code s.index

/-- Following a match keeps what is open, and keeps its text. -/
structure TakesAsText (env : Setting ρ) (found : Found) (s s' : State ρ) (taken : Nat) : Prop where
  frames : s'.frames = s.frames
  events : s'.events = s.events
  relevance : s'.relevance = s.relevance
  takes : Takes env.code found.index s s' taken

theorem takesAsText_keepChar (env : Setting ρ) (s : State ρ) {found : Found}
    (hfound : Stands env.code found) : TakesAsText env found s (keepChar env s found.index).1
      (keepChar env s found.index).2 := by
  obtain ⟨text, htext⟩ := exists_keep_keepChar env s found.index
  exact ⟨by rw [htext]; rfl, by rw [htext]; rfl, by rw [htext]; rfl,
    takes_keepChar env s (Text.isPlace_left hfound)⟩

/-- A step that takes what it finds as text, unless that is an end with what a mode has begun with. -/
structure Passes (env : Setting ρ) (opened : String) (s s' : State ρ) : Prop where
  step : Scan.step env s = .ok (some s')
  keeps : Keeps env.code s s'
  found : ∃ found firstRule, (topMode env s).matcher.find (next s).firstRule env.code s.index =
    .ok (some (found, firstRule)) ∧ (found.kind = .ends → opened ≠ "" → found.lexeme ≠ opened)

/-- A step that closes the innermost mode, and the text that it finds. -/
structure Closes (env : Setting ρ) (s : State ρ) (found : Found) (s' : State ρ) : Prop where
  step : Scan.step env s = .ok (some s')
  find : ∃ firstRule, (topMode env s).matcher.find (next s).firstRule env.code s.index =
    .ok (some (found, firstRule))
  kind : found.kind = .ends
  index : s'.index = found.index + if (topMode env s).returnEnd then 0 else found.lexeme.utf8ByteSize
  frames : ∃ (n : Nat) (begun : Option (Frame ρ)), 0 < n ∧
    s'.frames = begun.toList ++ s.frames.drop n

section Inside

variable {letters : Letters} (hρ : LeftmostFirst ρ letters)
  (hletters : ∀ c d, letters.char c false d ↔ c = d) {opened : String} {re : Prepared ρ}
  (hre : Prepared.compile false (Pattern.escape opened) = .ok re)
  {f : Frame ρ} {fs : List (Frame ρ)} (hne : fs ≠ [])
  (hf : f.endOverride = some re) (hm : (env.language.mode f.mode).EndsAlike)

include hρ hletters hre hne hf hm

/-- Inside a mode that ends as it begins an end closes it where the code goes on with what it has
begun with; all else is text. -/
theorem Followed.alike {s s' : State ρ} {found : Found} {taken : Nat} (hframes : s.frames = f :: fs)
    (hfound : Stands env.code found) (hk : ∀ id, found.kind ≠ .begins id)
    (h : Followed env s found s' taken) :
    (found.kind = .ends ∧ opened.toList <+: Text.rest env.code found.index ∧
        taken = (if (topMode env s).returnEnd then 0 else found.lexeme.utf8ByteSize) ∧
        ∃ (n : Nat) (begun : Option (Frame ρ)), 0 < n ∧
          s'.frames = begun.toList ++ s.frames.drop n) ∨
      (found.kind = .ends → found.lexeme ≠ "" →
        ¬ opened.toList <+: Text.rest env.code found.index) ∧ TakesAsText env found s s' taken := by
  have hending : endingFrame env found (f :: fs) = _ :=
    endingFrame_alike hρ hletters hre (Text.isPlace_left hfound) hf hm
  rw [← hframes] at hending
  -- that the match is remembered concerns neither what is open nor what is kept
  have hmatched {t : State ρ} {n : Nat} (ht : TakesAsText env found (s.matched found) t n) :
      TakesAsText env found s t n :=
    ⟨ht.frames, ht.events, ht.relevance, ht.takes.text, ht.takes.place⟩
  cases h with
  | begins hid | refused hid | passed hid => exact absurd hid (hk _)
  | empty hempty =>
    exact Or.inr ⟨fun _ hlexeme => absurd (emptyMode?_eq_some hempty).2.1 hlexeme,
      takesAsText_keepChar env s hfound⟩
  | emptyIllegal hillegal =>
    exact Or.inr ⟨fun hends => (nomatch hillegal.symm.trans hends),
      hmatched (takesAsText_keepChar env (s.matched found) hfound)⟩
  | illegal hillegal =>
    exact Or.inr ⟨fun hends => (nomatch hillegal.symm.trans hends),
      ⟨rfl, rfl, rfl, takes_lexeme hfound (text_keep _ _)⟩⟩
  | endless _ _ hnone =>
    obtain ⟨hnot, rfl⟩ := Prod.mk.inj (Except.ok.inj (hending.symm.trans hnone))
    refine Or.inr ⟨fun _ _ hgoes => ?_, ⟨rfl, rfl, rfl, takes_lexeme hfound (text_keep _ _)⟩⟩
    rw [if_pos hgoes] at hnot
    cases hnot
  | @ends place frames t hends _ hsome hcontent =>
    obtain ⟨hplace, rfl⟩ := Prod.mk.inj (Except.ok.inj (hending.symm.trans hsome))
    have hgoes : opened.toList <+: Text.rest env.code found.index := by
      by_contra hnot
      rw [if_neg hnot] at hplace
      cases hplace
    rw [if_pos hgoes] at hplace
    obtain rfl := Option.some.inj hplace
    have hkept := frames_of_control (control_contentAtEnd hcontent)
    change t.frames = s.frames at hkept
    -- the frames from the outermost one that ends, though never the root
    let n := t.frames.length - max (outermostEnding env.language s.frames) 1
    obtain ⟨begun, hbegun, -⟩ := frames_startNext env.language (close env.language n none t).2
      (close env.language n none t).1
    refine Or.inl ⟨hends, hgoes, rfl, n, begun, ?_, ?_⟩
    · have hlt := outermostEnding_lt env.language f fs
      have hpos := List.length_pos_iff.mpr hne
      change 0 < t.frames.length - _
      rw [hkept, hframes, List.length_cons]
      omega
    · rw [hbegun, frames_close, hkept]

/-- A step inside a mode that ends as it begins closes it where the code goes on with what it has begun
with, and otherwise keeps the code. -/
theorem step_alike (hl : env.language.Linking) (hlands : (env.language.mode f.mode).matcher.Lands)
    {s s' : State ρ} (hframes : s.frames = f :: fs)
    (hindex : Text.IsPlace env.code s.index ∨ byteSize env.code < s.index)
    (h : step env s = .ok (some s')) :
    ∃ found firstRule, (topMode env s).matcher.find (next s).firstRule env.code s.index =
        .ok (some (found, firstRule)) ∧ Stands env.code found ∧
      (opened.toList <+: Text.rest env.code found.index ∧ Closes env s found s' ∨
        (found.kind = .ends → found.lexeme ≠ "" →
          ¬ opened.toList <+: Text.rest env.code found.index) ∧ Keeps env.code s s' ∧
        (Text.IsPlace env.code s'.index ∨ byteSize env.code < s'.index)) := by
  obtain ⟨found, firstRule, t, taken, hfind, hfollowed, rfl⟩ := exists_followed_of_step h
  have hhead : s.course.modes.head? = some f.mode := by simp [State.course, hframes]
  have htop : topMode env s = env.language.mode f.mode := topMode_of_head? hhead
  obtain ⟨hle, hstands⟩ := Matcher.slice?_of_find (htop ▸ hlands) hfind
  have hk : ∀ id, found.kind ≠ .begins id := fun id hid => by
    have hchild := mem_children_of_find hl hhead hfind hid
    rw [hm.childless] at hchild
    cases hchild
  refine ⟨found, firstRule, hfind, hstands, ?_⟩
  rcases hfollowed.alike hρ hletters hre hne hf hm (s := onMatch env s found firstRule) hframes
    hstands hk with
    ⟨hkind, hgoes, htaken, hends⟩ | ⟨hends, htext⟩
  · exact Or.inl ⟨hgoes, h, ⟨firstRule, hfind⟩, hkind,
      congrArg (found.index + ·) htaken, hends⟩
  · refine Or.inr ⟨hends, ⟨htext.frames, htext.events, htext.relevance, ?_⟩, htext.takes.place⟩
    have hplace := Text.isPlace_left hstands
    have hi := hindex.resolve_right (Nat.not_lt.mpr (Nat.le_trans hle hplace.le))
    obtain ⟨gap, hgap⟩ := Text.exists_slice? hi hplace hle
    have hkept : (onMatch env s found firstRule).text = s.text ++ between env.code s.index found.index :=
      text_keep s _
    have htaken := htext.takes.text
    rw [hkept, String.append_assoc, between_append_restFrom hgap] at htaken
    exact htaken

end Inside

/-! ### Runs -/

/-- The texts that delimit a mode in the code: those that are found to begin it, in whatever mode, and
those that are found to be its end. -/
inductive Delimits (env : Setting ρ) (id : Nat) : String → Prop
  | begins {outer first offset firstRule : Nat} {found : Found} :
      (env.language.mode outer).matcher.find first env.code offset = .ok (some (found, firstRule)) →
      found.kind = .begins id → Delimits env id found.lexeme
  | ends {first offset firstRule : Nat} {found : Found} :
      (env.language.mode id).matcher.find first env.code offset = .ok (some (found, firstRule)) →
      found.kind = .ends → Delimits env id found.lexeme

/-- None of the texts that delimit a mode in the code starts with another one. -/
def ToldApart (env : Setting ρ) (id : Nat) : Prop :=
  ∀ a b, Delimits env id a → Delimits env id b → a.toList <+: b.toList → a = b

theorem frames_passes {opened : String} {s u : State ρ}
    (h : Relation.ReflTransGen (Passes env opened) s u) : u.frames = s.frames := by
  induction h with
  | refl => rfl
  | tail _ hpasses ih => exact hpasses.keeps.frames.trans ih

/-- Where a mode begins, going on is at a place of the code. -/
theorem Begins.isPlace_index (hlands : ∀ m ∈ env.language.modes, m.matcher.Lands) {s s' : State ρ}
    {opened : Found} {id : Nat} (h : Begins env s opened id s') {taken : Nat}
    (hindex : s'.index = opened.index + taken)
    (htaken : taken = 0 ∨ taken = opened.lexeme.utf8ByteSize) :
    Text.IsPlace env.code s'.index := by
  obtain ⟨firstRule, hfind⟩ := h.find
  have hstands := (Matcher.slice?_of_find (hlands _ (topMode_mem env s)) hfind).2
  rw [hindex]
  rcases htaken with rfl | rfl
  · exact Text.isPlace_left hstands
  · exact Text.isPlace_right hstands

/-- What is found to begin a mode delimits it. -/
theorem Begins.delimits {s s' : State ρ} {opened : Found} {id : Nat} (h : Begins env s opened id s') :
    Delimits env id opened.lexeme := by
  obtain ⟨g, fs, hframes⟩ := List.exists_cons_of_ne_nil h.stack
  obtain ⟨firstRule, hfind⟩ := h.find
  have htop : topMode env s = env.language.mode g.mode :=
    topMode_of_head? (by simp [State.course, hframes])
  rw [htop] at hfind
  exact .begins hfind h.kind

/-- A match where the code goes on with a text is that text, if both delimit a mode. -/
theorem ToldApart.eq_of_prefix {id : Nat} (h : ToldApart env id) {found : Found} {opened : String}
    (hstands : Stands env.code found) (hfound : Delimits env id found.lexeme)
    (hopened : Delimits env id opened)
    (hgoes : opened.toList <+: Text.rest env.code found.index) : found.lexeme = opened := by
  have hlexeme : found.lexeme.toList <+: Text.rest env.code found.index :=
    ⟨_, Text.append_rest hstands⟩
  rcases Nat.le_total opened.toList.length found.lexeme.toList.length with hle | hle
  · exact (h _ _ hopened hfound (List.prefix_of_prefix_length_le hgoes hlexeme hle)).symm
  · exact h _ _ hfound hopened (List.prefix_of_prefix_length_le hlexeme hgoes hle)

/-- What delimits a mode is what the pattern of a begin or an end matches alone at some place. -/
theorem Delimits.exists_span {letters : Letters} (hρ : FindsFirst ρ letters)
    (hrules : ∀ m ∈ env.language.modes, ∀ r ∈ m.matcher.rules,
      r.Accepted (Sought letters) m.matcher.foldCase) {id : Nat} {a : String}
    (h : Delimits env id a) :
    ∃ m ∈ env.language.modes, ∃ r ∈ m.matcher.rules, (r.kind = .begins id ∨ r.kind = .ends) ∧
      ∃ place ≤ byteSize env.code, (Pattern.spanAlone? (Sought letters) m.matcher.foldCase env.code
        place r.source).map (fun s => between env.code s.start s.stop) = some a := by
  have hfound {m : CompiledMode ρ} (hm : m ∈ env.language.modes) {first offset firstRule : Nat}
      {found : Found}
      (hfind : m.matcher.find first env.code offset = .ok (some (found, firstRule)))
      (hk : found.kind = .begins id ∨ found.kind = .ends) :
      ∃ m ∈ env.language.modes, ∃ r ∈ m.matcher.rules, (r.kind = .begins id ∨ r.kind = .ends) ∧
        ∃ place ≤ byteSize env.code, (Pattern.spanAlone? (Sought letters) m.matcher.foldCase env.code
          place r.source).map (fun s => between env.code s.start s.stop) = some found.lexeme := by
    obtain ⟨first', offset', hsearch⟩ : ∃ first' offset',
        m.matcher.searchFrom first' env.code offset' = .ok (some found) := by
      obtain ⟨-, hsearch | ⟨place, -, hsearch⟩⟩ := Matcher.searchFrom_of_find hfind
      · exact ⟨_, _, hsearch⟩
      · exact ⟨_, _, hsearch⟩
    obtain ⟨r, place, position, hr, hplace, hmatch⟩ :=
      Matcher.exists_matchAt? hρ (hrules m hm) hsearch
    refine ⟨m, hm, r, hr, (Rule.of_matchAt? hmatch).2.2 ▸ hk, place, hplace.le, ?_⟩
    have hlexeme := @Rule.lexeme_matchAt? (Sought letters) _ m.matcher.foldCase r env.code place
      position
    rw [hmatch] at hlexeme
    exact hlexeme.symm
  cases h with
  | begins hfind hk => exact hfound (env.language.mode_mem _) hfind (.inl hk)
  | ends hfind hk => exact hfound (env.language.mode_mem _) hfind (.inr hk)

/-- **A mode that ends as it begins is closed by the text that it has begun with**, if none of the texts
that delimit it in the code starts with another one. As long as it is open all other ends are text. -/
theorem closes_alike {letters : Letters} (hρ : LeftmostFirst ρ letters)
    (hletters : ∀ c d, letters.char c false d ↔ c = d) {g : Grammar} {name : String}
    (hcompile : Language.compile g name = .ok env.language)
    (hcase : env.language.caseInsensitive = false)
    (hlands : ∀ m ∈ env.language.modes, m.matcher.Lands) {id : Nat}
    (hm : (env.language.mode id).EndsAlike) (hapart : ToldApart env id) {s s' : State ρ}
    {opened : Found} (hbegins : Begins env s opened id s') {u : State ρ} (hu : Leads env s' u) :
    Relation.ReflTransGen (Passes env opened.lexeme) s' u ∨
      ∃ t t' closing, Relation.ReflTransGen (Passes env opened.lexeme) s' t ∧
        Closes env t closing t' ∧ closing.lexeme = opened.lexeme ∧ Leads env t' u := by
  obtain ⟨re, memory, taken, hframes, hre, hindex, htaken⟩ := hbegins.exists_frame hm.alike
  rw [hcase] at hre
  have hopened := hbegins.delimits
  -- while the mode is open, going on is at a place of the code or behind its end
  suffices hstrong : (Relation.ReflTransGen (Passes env opened.lexeme) s' u ∧
      (Text.IsPlace env.code u.index ∨ byteSize env.code < u.index)) ∨
      ∃ t t' closing, Relation.ReflTransGen (Passes env opened.lexeme) s' t ∧
        Closes env t closing t' ∧ closing.lexeme = opened.lexeme ∧ Leads env t' u from
    hstrong.imp_left And.left
  induction hu with
  | refl => exact Or.inl ⟨.refl, Or.inl (hbegins.isPlace_index hlands hindex htaken)⟩
  | @tail t t' _ hstep ih =>
    rcases ih with ⟨hpasses, hplace⟩ | ⟨t₁, t₂, closing, hpasses, hcloses, hsame, hleads⟩
    · have htop : t.frames = ⟨id, some re, memory⟩ :: s.frames := (frames_passes hpasses).trans hframes
      have hmode : topMode env t = env.language.mode id :=
        topMode_of_head? (by simp [State.course, htop])
      obtain ⟨found, firstRule, hfind, hstands, hcase⟩ := step_alike hρ hletters hre hbegins.stack rfl hm
        (Language.linking_of_compile hcompile) (hlands _ (env.language.mode_mem id)) htop hplace hstep
      have hdelimits (hk : found.kind = .ends) : Delimits env id found.lexeme :=
        .ends (hmode ▸ hfind) hk
      rcases hcase with ⟨hgoes, hcloses⟩ | ⟨hends, hkeeps, hplace'⟩
      · exact Or.inr ⟨t, t', found, hpasses, hcloses,
          hapart.eq_of_prefix hstands (hdelimits hcloses.kind) hopened hgoes, .refl⟩
      · refine Or.inl ⟨hpasses.tail ⟨hstep, hkeeps, found, firstRule, hfind, ?_⟩, hplace'⟩
        intro hk hnonempty hsame
        refine hends hk (hsame ▸ hnonempty) ?_
        rw [← hsame]
        exact ⟨_, Text.append_rest hstands⟩
    · exact Or.inr ⟨t₁, t₂, closing, hpasses, hcloses, hsame, hleads.tail hstep⟩

/-! ### A mode with two ways to begin, and one that begins with a run of characters -/

/-- What is found next, if anything is. -/
def nextFound (env : Setting ρ) (s : State ρ) : Option (Found × Nat) :=
  ((topMode env s).matcher.find (next s).firstRule env.code s.index).toOption.join

theorem find_of_nextFound {s : State ρ} {found : Found} {firstRule : Nat}
    (h : nextFound env s = some (found, firstRule)) :
    (topMode env s).matcher.find (next s).firstRule env.code s.index =
      .ok (some (found, firstRule)) := by
  unfold nextFound at h
  generalize (topMode env s).matcher.find (next s).firstRule env.code s.index = result at h ⊢
  cases result with
  | error p => cases h
  | ok result => exact congrArg Except.ok h

/-- A language in which a mode ends as it begins. -/
def enclosed (delimiter : String) : Grammar where
  root := { contains := some [.mode 0] }
  shelf := { modes := #[
    { className := some "m", beginPattern := some delimiter, endSameAsBegin := some true }] }

/-- Whether a mode ends as it begins, and only there. -/
def endsAlike (cm : CompiledMode Tried) : Bool :=
  cm.endSameAsBegin && cm.onEnd.isNone && !cm.endsWithParent && cm.children.isEmpty

theorem endsAlike_iff {cm : CompiledMode Tried} : endsAlike cm ↔ cm.EndsAlike := by
  simp only [endsAlike, Bool.and_eq_true, Option.isNone_iff_eq_none, Bool.not_eq_true',
    List.isEmpty_iff]
  exact ⟨fun ⟨⟨⟨ha, hu⟩, hw⟩, hc⟩ => ⟨ha, hu, hw, hc⟩, fun h => ⟨⟨⟨h.1, h.2⟩, h.3⟩, h.4⟩⟩

/-- Whether the rules of a mode are plain, and what its begins and ends match in a text is among these. -/
def delimitedBy (text : List Char) (id : Nat) (delimiters : List String) (cm : CompiledMode Tried) :
    Bool :=
  cm.matcher.rules.all fun r => decide (r.Accepted (Sought .standard) cm.matcher.foldCase) &&
    (r.kind != .begins id && r.kind != .ends || (List.range (byteSize text + 1)).all fun place =>
      (Pattern.spanAlone? (Sought .standard) cm.matcher.foldCase text place r.source).all fun s =>
        delimiters.contains (between text s.start s.stop))

/-- What delimits a mode is among these texts, if it is for all modes. -/
theorem Delimits.mem (env : Setting Tried) {id : Nat} {delimiters : List String}
    (h : env.language.modes.toList.all (delimitedBy env.code id delimiters)) :
    (∀ m ∈ env.language.modes, ∀ r ∈ m.matcher.rules,
      r.Accepted (Sought .standard) m.matcher.foldCase) ∧
    ∀ a, Delimits env id a → a ∈ delimiters := by
  have hrule : ∀ m ∈ env.language.modes, ∀ r ∈ m.matcher.rules,
      r.Accepted (Sought .standard) m.matcher.foldCase ∧
      (r.kind = .begins id ∨ r.kind = .ends → ∀ place ≤ byteSize env.code,
        ∀ s ∈ Pattern.spanAlone? (Sought .standard) m.matcher.foldCase env.code place r.source,
          between env.code s.start s.stop ∈ delimiters) := by
    intro m hm r hr
    have hall := List.all_eq_true.mp (List.all_eq_true.mp h m (Array.mem_toList_iff.mpr hm)) r hr
    simp only [Bool.and_eq_true, decide_eq_true_eq, Bool.or_eq_true, bne_iff_ne, List.all_eq_true,
      List.mem_range, Option.all_eq_true, List.contains_iff_mem] at hall
    refine ⟨hall.1, fun hk place hplace => ?_⟩
    rcases hall.2 with ⟨hbegins, hends⟩ | hspans
    · exact absurd hk (not_or.mpr ⟨hbegins, hends⟩)
    · exact hspans place (Nat.lt_succ_of_le hplace)
  refine ⟨fun m hm r hr => (hrule m hm r hr).1, fun a ha => ?_⟩
  obtain ⟨m, hm, r, hr, hk, place, hplace, hspan⟩ :=
    ha.exists_span Tried.findsFirst fun m hm r hr => (hrule m hm r hr).1
  obtain ⟨s, hs, rfl⟩ := Option.map_eq_some_iff.mp hspan
  exact (hrule m hm r hr).2 hk place hplace s hs

/-- Between two `#` there may be `%%`. -/
theorem closes_alike_mixed : ∃ (l : Language Tried) (s s' u : State Tried) (opened : Found),
    Language.compile (enclosed "#|%%") "t" = .ok l ∧ l.caseInsensitive = false ∧
      (l.mode 1).EndsAlike ∧ ToldApart (aloneWith l "#a%%b#c") 1 ∧
      Begins (aloneWith l "#a%%b#c") s opened 1 s' ∧ opened.lexeme = "#" ∧
      Leads (aloneWith l "#a%%b#c") s' u ∧ u.frames.length = 1 ∧
      (Relation.ReflTransGen (Passes (aloneWith l "#a%%b#c") opened.lexeme) s' u ∨
        ∃ t t' closing,
          Relation.ReflTransGen (Passes (aloneWith l "#a%%b#c") opened.lexeme) s' t ∧
            Closes (aloneWith l "#a%%b#c") t closing t' ∧ closing.lexeme = opened.lexeme ∧
            Leads (aloneWith l "#a%%b#c") t' u) := by
  obtain ⟨l, hl, h⟩ : ∃ l : Language Tried, Language.compile (enclosed "#|%%") "t" = .ok l ∧
      (!l.caseInsensitive && endsAlike (l.mode 1) &&
        l.modes.toList.all (delimitedBy "#a%%b#c".toList 1 ["#", "%%"]) &&
        ((nextFound (aloneWith l "#a%%b#c") (initial l [Frame.new 0])).any fun found =>
          found.1.kind == .begins 1 && found.1.lexeme == "#") &&
        ((stateAfter (aloneWith l "#a%%b#c") 1).any fun s => s.frames.length == 2 &&
          (stateAfter (aloneWith l "#a%%b#c") 3).any fun u => u.frames.length == 1)) = true :=
    exists_of_any (by decide +kernel)
  simp only [Bool.and_eq_true, Bool.not_eq_true', Option.any_eq_true, beq_iff_eq] at h
  obtain ⟨⟨⟨⟨hcase, halike⟩, hmodes⟩, ⟨opened, firstRule⟩, hfound, hkind, hlexeme⟩, s', hs', hgrows, u,
    hu, hone⟩ := h
  obtain ⟨haccepted, hdelimits⟩ := Delimits.mem (aloneWith l "#a%%b#c") hmodes
  have hlands : ∀ m ∈ l.modes, m.matcher.Lands := fun m hm =>
    Matcher.lands_of_read Tried.findsFirst (haccepted m hm)
  have hapart : ToldApart (aloneWith l "#a%%b#c") 1 := by
    intro a b ha hb hgoes
    have hmem := hdelimits a ha
    have hmem' := hdelimits b hb
    simp only [List.mem_cons, List.not_mem_nil, or_false] at hmem hmem'
    rcases hmem with rfl | rfl <;> rcases hmem' with rfl | rfl <;> revert hgoes <;> decide
  have hbegins : Begins (aloneWith l "#a%%b#c") (initial l [Frame.new 0]) opened 1 s' :=
    ⟨⟨firstRule, find_of_nextFound hfound⟩, hkind, step_of_stateAfter rfl hs', nofun, hgrows⟩
  obtain ⟨t, ht, -⟩ := Option.bind_eq_some_iff.mp hu
  have hleads : Leads (aloneWith l "#a%%b#c") s' u :=
    .tail (.single (step_of_stateAfter hs' ht)) (step_of_stateAfter ht hu)
  exact ⟨l, _, s', u, opened, hl, hcase, endsAlike_iff.mp halike, hapart, hbegins, hlexeme, hleads, hone,
    closes_alike Tried.leftmostFirst (fun _ _ => beq_iff_eq) hl hcase hlands (endsAlike_iff.mp halike)
      hapart hbegins hleads⟩

/-- A mode that has begun with `#` is closed by `##`: its begin matches both there, and the code goes on
with `#`. -/
theorem closes_with_longer : ∃ (l : Language Tried) (s s' t : State Tried) (opened closing : Found),
    Language.compile (enclosed "#+") "t" = .ok l ∧ l.caseInsensitive = false ∧
      (l.mode 1).EndsAlike ∧ (l.mode 1).onBegin = none ∧
      Leads (aloneWith l "#a##b") (initial l [Frame.new 0]) s ∧
      Begins (aloneWith l "#a##b") s opened 1 s' ∧ Closes (aloneWith l "#a##b") s' closing t ∧
      opened.lexeme = "#" ∧ closing.lexeme = "##" := by
  obtain ⟨l, hl, h⟩ : ∃ l : Language Tried, Language.compile (enclosed "#+") "t" = .ok l ∧
      (!l.caseInsensitive && endsAlike (l.mode 1) && (l.mode 1).onBegin.isNone &&
        l.modes.toList.all (delimitedBy "#a##b".toList 1 ["#", "##"]) &&
        ((nextFound (aloneWith l "#a##b") (initial l [Frame.new 0])).any fun found =>
          found.1.kind == .begins 1 && found.1.lexeme == "#") &&
        ((stateAfter (aloneWith l "#a##b") 1).any fun s => s.frames.length == 2 &&
          ((nextFound (aloneWith l "#a##b") s).any fun found => found.1.lexeme == "##") &&
          (stateAfter (aloneWith l "#a##b") 2).any fun t => t.frames.length == 1)) = true :=
    exists_of_any (by decide +kernel)
  simp only [Bool.and_eq_true, Bool.not_eq_true', Option.any_eq_true, beq_iff_eq,
    Option.isNone_iff_eq_none] at h
  obtain ⟨⟨⟨⟨⟨hcase, halike⟩, hguard⟩, hmodes⟩, ⟨opened, _⟩, hfound, hkind, hlexeme⟩, s', hs',
    ⟨hgrows, ⟨closing, _⟩, hclosing, hlonger⟩, t, ht, hone⟩ := h
  have haccepted := (Delimits.mem (aloneWith l "#a##b") hmodes).1
  have hlands : ∀ m ∈ l.modes, m.matcher.Lands := fun m hm =>
    Matcher.lands_of_read Tried.findsFirst (haccepted m hm)
  have halike := endsAlike_iff.mp halike
  have hbegins : Begins (aloneWith l "#a##b") (initial l [Frame.new 0]) opened 1 s' :=
    ⟨⟨_, find_of_nextFound hfound⟩, hkind, step_of_stateAfter rfl hs', nofun, hgrows⟩
  obtain ⟨re, memory, taken, hframes, hre, hindex, htaken⟩ := hbegins.exists_frame halike.alike
  obtain ⟨found, _, hfind, -, ⟨-, hcloses⟩ | ⟨-, hkeeps, -⟩⟩ := step_alike Tried.leftmostFirst
    (fun _ _ => beq_iff_eq) (hcase ▸ hre) hbegins.stack rfl halike (Language.linking_of_compile hl)
    (hlands _ (l.mode_mem 1)) hframes (.inl (hbegins.isPlace_index hlands hindex htaken))
    (step_of_stateAfter hs' ht)
  · obtain ⟨rfl, -⟩ := Prod.mk.inj (Option.some.inj
      (Except.ok.inj (hfind.symm.trans (find_of_nextFound hclosing))))
    exact ⟨l, _, s', t, opened, found, hl, hcase, halike, hguard, .refl, hbegins, hcloses, hlexeme, hlonger⟩
  · have hlength := congrArg List.length hkeeps.frames
    rw [hgrows, hone] at hlength
    cases hlength

end Scan

end CodeMarkup
