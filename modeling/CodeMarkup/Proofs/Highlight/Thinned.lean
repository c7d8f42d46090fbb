import CodeMarkup.Proofs.Highlight.Alike
import CodeMarkup.Proofs.Highlight.Lossless

/-! # Going through code without some children

Code is gone through in a language and in one that lacks some children whose begins are refused
anyway (`Language.Thinning`). The first run comes upon the matches of the second one and upon those
begins (`Scan.Beside`). Each of the latter it passes, which the second run does not notice; all other
matches both follow alike (`Scan.agree_run_thinned`). -/

namespace CodeMarkup.Scan

variable {ρ : Type} [Engine ρ]

open Text (byteSize)

/-! ### One step -/

/-- The rule from which on rules are looked for next. -/
def State.first {ρ : Type} (s : State ρ) : Nat := if s.resume then s.firstRule else 0

/-- The matches that are ahead of a state while its modes stay open. -/
def upcoming (env : Setting ρ) (s : State ρ) : List Found :=
  (topMode env s).matcher.ahead env.code s.index s.first

/-- The state in which a match is followed. -/
def reached (env : Setting ρ) (s : State ρ) (found : Found) : State ρ :=
  { (next s).keep (between env.code s.index found.index) with
    firstRule := (topMode env s).matcher.ruleAfter found }

/-- A state from which the next match can be looked for. -/
structure Placed (env : Setting ρ) (s : State ρ) : Prop where
  place : Text.IsPlace env.code s.index ∨ byteSize env.code < s.index
  first : s.first = 0 ∨ s.first < (topMode env s).matcher.rules.length

/-- What is kept where a match is reached is the code up to the match. -/
theorem text_reached {env : Setting ρ} {s : State ρ} (hs : Placed env s) {found : Found}
    (hfound : found ∈ upcoming env s) :
    (reached env s found).text ++ restFrom env.code found.index =
      s.text ++ restFrom env.code s.index := by
  have hahead := Matcher.isAhead_of_mem hfound
  have hplace := hs.place.resolve_right fun hlt => by
    have := hahead.place.le
    have := hahead.le
    omega
  obtain ⟨gap, hgap⟩ := Text.exists_slice? hplace hahead.place hahead.le
  have hkept : (reached env s found).text = s.text ++ between env.code s.index found.index :=
    text_keep s _
  rw [hkept, String.append_assoc, between_append_restFrom hgap]

/-- A begin has been passed: all other matches that were ahead still are. -/
structure Passed (env : Setting ρ) (found : Found) (s t : State ρ) : Prop where
  frames : t.frames = s.frames
  embeddedStacks : t.embeddedStacks = s.embeddedStacks
  events : t.events = s.events
  relevance : t.relevance = s.relevance
  iterations : t.iterations = s.iterations + 1
  lastMatch : t.lastMatch = some (found.kind, found.index)
  text : t.text ++ restFrom env.code t.index = s.text ++ restFrom env.code s.index
  placed : Placed env t
  le : found.index ≤ t.index
  upcoming : ∀ rest, upcoming env s = found :: rest → rest = upcoming env t

theorem topMode_of_frames (env : Setting ρ) {s t : State ρ} (h : t.frames = s.frames) :
    topMode env t = topMode env s := by
  unfold topMode
  rw [h]

theorem takes_passBegin (env : Setting ρ) (s : State ρ) {found : Found}
    (hplace : Text.IsPlace env.code found.index) :
    Takes env.code found.index s (passBegin env s found).1 (passBegin env s found).2 := by
  unfold passBegin
  split
  · exact takes_keepChar env s hplace
  · exact takes_none hplace rfl

/-- Passing a begin leaves all but what is kept and the rule to go on with as it is. -/
theorem keeps_passBegin (env : Setting ρ) (s : State ρ) (found : Found) :
    let t := (passBegin env s found).1
    t.frames = s.frames ∧ t.embeddedStacks = s.embeddedStacks ∧ t.events = s.events ∧
      t.relevance = s.relevance ∧ t.iterations = s.iterations ∧ t.lastMatch = s.lastMatch := by
  unfold passBegin
  split
  · obtain ⟨text, htext⟩ := exists_keep_keepChar env s found.index
    rw [htext]
    exact ⟨rfl, rfl, rfl, rfl, rfl, rfl⟩
  · exact ⟨rfl, rfl, rfl, rfl, rfl, rfl⟩

theorem index_add_keepChar (env : Setting ρ) (s : State ρ) (index : Nat) :
    index + (keepChar env s index).2 = (Text.nextPlace? env.code index).getD (index + 1) := by
  unfold keepChar
  cases hn : Text.nextPlace? env.code index with
  | none => rfl
  | some place => exact Nat.add_sub_cancel' (Text.nextPlace?_eq_some hn).1.le

/-- Where no rule is left behind a begin the next character is taken as text, else the rules behind
it are gone on with. Both leads behind the begin. -/
theorem behind_passBegin {env : Setting ρ} {s : State ρ} {found : Found} {m : Matcher ρ}
    (hrule : s.firstRule = m.ruleAfter found) (hresume : s.resume = false) :
    (found.index + (passBegin env s found).2, (passBegin env s found).1.first) =
      m.behind env.code found := by
  unfold passBegin Matcher.behind
  by_cases hzero : m.ruleAfter found = 0
  · obtain ⟨text, htext⟩ := exists_keep_keepChar env s found.index
    have hfirst : (s.keep text).first = 0 := by
      change (if s.resume then s.firstRule else 0) = 0
      rw [hresume]
      rfl
    rw [if_pos (hrule.trans hzero), if_pos hzero, index_add_keepChar, htext, hfirst]
  · rw [if_neg (hrule ▸ hzero), if_neg hzero, ← hrule]
    rfl

/-- Passing a begin leaves all that is ahead but the begin. -/
theorem passed_passBegin {env : Setting ρ} {s : State ρ} (hs : Placed env s) {found : Found}
    (hfound : found ∈ upcoming env s) {t : State ρ} {taken : Nat}
    (h : passBegin env ((reached env s found).matched found) found = (t, taken)) :
    Passed env found s { t with index := found.index + taken } := by
  have htakes := takes_passBegin env ((reached env s found).matched found)
    (Matcher.isAhead_of_mem hfound).place
  obtain ⟨hframes, hstacks, hevents, hrelevance, hiterations, hlast⟩ :=
    keeps_passBegin env ((reached env s found).matched found) found
  have hbehind : _ = (topMode env s).matcher.behind env.code found :=
    behind_passBegin (s := (reached env s found).matched found) rfl rfl
  rw [h] at htakes hframes hstacks hevents hrelevance hiterations hlast hbehind
  have hindex : found.index + taken = ((topMode env s).matcher.behind env.code found).1 :=
    congrArg Prod.fst hbehind
  have hfirst : t.first = ((topMode env s).matcher.behind env.code found).2 :=
    congrArg Prod.snd hbehind
  have htop : topMode env { t with index := found.index + taken } = topMode env s :=
    topMode_of_frames env hframes
  exact {
    frames := hframes
    embeddedStacks := hstacks
    events := hevents
    relevance := hrelevance
    iterations := hiterations
    lastMatch := hlast
    text := htakes.text.trans (text_reached hs hfound)
    placed := by
      refine ⟨htakes.place, ?_⟩
      rw [htop]
      change t.first = 0 ∨ t.first < _
      rw [hfirst]
      exact Matcher.behind_lt found
    le := Nat.le_add_right _ _
    upcoming := by
      intro rest hrest
      unfold upcoming
      rw [htop]
      change _ = (topMode env s).matcher.ahead env.code (found.index + taken) t.first
      rw [hindex, hfirst]
      exact Matcher.ahead_eq_cons hrest }

section Step

variable {letters : Regex.Letters} (hρ : Regex.LeftmostFirst ρ letters)
  (hend : Engine.StopsAtEnd ρ) {env : Setting ρ} {s : State ρ}
  (hm : (topMode env s).matcher.Joins) (hs : Placed env s)

include hρ hend hm hs

/-- A step follows the first of the matches that are ahead. -/
theorem step_eq : step env s =
    match (upcoming env s).head? with
    | none => .ok none
    | some found => (follow env (reached env s found) found).map fun (t, taken) =>
        some { t with index := found.index + taken } := by
  have hfind : (topMode env s).matcher.find (next s).firstRule env.code s.index =
      .ok ((upcoming env s).head?.map fun found =>
        (found, (topMode env s).matcher.ruleAfter found)) :=
    Matcher.find_eq hρ hm hs.first hend hs.place
  cases hhead : (upcoming env s).head? with
  | none =>
    rw [hhead] at hfind
    exact step_of_find_none hfind
  | some found =>
    rw [hhead] at hfind
    rw [step_of_find hfind]
    change _ = Except.map _ (follow env (onMatch env s found _) found)
    cases follow env (onMatch env s found ((topMode env s).matcher.ruleAfter found)) found <;> rfl

end Step

section Places

variable {env : Setting ρ} {s t : State ρ} {found : Found} {taken : Nat}
  (hplace : Text.IsPlace env.code found.index)
  (hstop : Text.IsPlace env.code (found.index + found.lexeme.utf8ByteSize))

include hplace hstop

/-- A match is behind its place, unless its text is to be gone through again. -/
theorem place_returning (returns : Bool) :
    Text.IsPlace env.code (found.index + if returns then 0 else found.lexeme.utf8ByteSize) := by
  cases returns
  · exact hstop
  · exact hplace

/-- Following a match leads to a place, or behind the code. -/
theorem Followed.place (h : Followed env s found t taken) :
    Text.IsPlace env.code (found.index + taken) ∨ byteSize env.code < found.index + taken := by
  cases h with
  | empty => exact (takes_keepChar env s hplace).place
  | refused | emptyIllegal => exact (takes_keepChar env (s.matched found) hplace).place
  | passed => exact Or.inl hplace
  | illegal | endless => exact Or.inl hstop
  | begins | ends => exact Or.inl (place_returning hplace hstop _)

end Places

/-! ### Two runs -/

/-- A state of a run and one of a run that lacks some begins that are refused. What is ahead of the
second is ahead of the first, too. -/
structure Beside (twin : String → Nat → Nat → Prop) (env env' : Setting ρ) (s s' : State ρ) :
    Prop where
  frames : Stacked (twin env.name) s.frames s'.frames
  embeddedStacks : ∀ key, Option.Rel (ModeStack.Twin twin) (s.embeddedStacks.find? key)
    (s'.embeddedStacks.find? key)
  events : s'.events = s.events
  relevance : s'.relevance = s.relevance
  iterations : s'.iterations ≤ s.iterations
  text : s'.text ++ restFrom env.code s'.index = s.text ++ restFrom env.code s.index
  placed : Placed env s
  placed' : Placed env' s'
  ahead : Thinned (Found.Twin (twin env.name))
    (env.language.Passes (topMode env s).matcher env.code) (upcoming env s) (upcoming env' s')
  /-- An end is taken for that of an empty mode by both runs or by none. -/
  empty : ∀ found ∈ upcoming env s, ∀ found', found.Twin (twin env.name) found' →
    Option.Rel (twin env.name) (emptyMode? s found) (emptyMode? s' found')
  past : ∀ kind index, s'.lastMatch = some (kind, index) → index ≤ s.index

omit [Engine ρ] in
/-- After the same match an end is taken for that of an empty mode by both runs or by none. -/
theorem rel_emptyMode? {twin : Nat → Nat → Prop} {s s' : State ρ} {kind kind' : RuleKind}
    {index : Nat}
    (hkind : RuleKind.Twin twin kind kind') (hlast : s.lastMatch = some (kind, index))
    (hlast' : s'.lastMatch = some (kind', index)) {found found' : Found}
    (hfound : found.Twin twin found') :
    Option.Rel twin (emptyMode? s found) (emptyMode? s' found') := by
  have hends := hfound.kind_ends
  unfold emptyMode?
  rw [hlast, hlast']
  cases hkind with
  | begins hid =>
    dsimp only
    rw [hfound.index, hfound.lexeme]
    by_cases hempty : found.kind = .ends ∧ index = found.index ∧ found.lexeme.isEmpty = true
    · rw [if_pos hempty, if_pos ⟨hends.mpr hempty.1, hempty.2⟩]
      exact .some hid
    · rw [if_neg hempty, if_neg fun h => hempty ⟨hends.mp h.1, h.2⟩]
      exact .none
  | ends => exact .none
  | illegal => exact .none

section Runs

variable {letters : Regex.Letters} (hρ : Regex.LeftmostFirst ρ letters)
  (hend : Engine.StopsAtEnd ρ) {excused excused' : Problem → Prop}
  {twin : String → Nat → Nat → Prop} {env env' : Setting ρ}
  (he : env.Agrees excused excused' twin env')
  (hthin : env.language.Thinning env'.language (twin env.name))

section One

variable {s t : State ρ} {found : Found} {rest : List Found}

include hρ hend in
/-- A begin that is refused is passed. -/
theorem exists_passed (hm : (topMode env s).matcher.Joins) (hs : Placed env s)
    (hahead : upcoming env s = found :: rest) {id : Nat} (hkind : found.kind = .begins id)
    (hrefused : (admits env (env.language.mode id) found).1 = false) :
    ∃ t, step env s = .ok (some t) ∧ Passed env found s t := by
  have hstep := step_eq hρ hend hm hs
  rw [hahead, List.head?_cons] at hstep
  dsimp only at hstep
  rw [follow_of_refused hkind hrefused] at hstep
  rcases hpass : passBegin env
    { reached env s found with lastMatch := some (found.kind, found.index) } found with ⟨t, taken⟩
  rw [hpass] at hstep
  exact ⟨_, hstep, passed_passBegin hs (by rw [hahead]; exact List.mem_cons_self) hpass⟩

theorem admits_of_rejects {id : Nat} (h : (env.language.mode id).Rejects) (found : Found) :
    (admits env (env.language.mode id) found).1 = false := by
  obtain ⟨guard, hguard, hrejects⟩ := h
  unfold admits
  split
  · rfl
  · rw [hguard]
    exact hrejects found .empty

end One

section Two

variable {s s' t t' : State ρ} {found found' : Found} {rest rest' : List Found}

/-- The first run passes a begin that the second one does not come upon. -/
theorem Beside.passed (h : Beside twin env env' s s') (hahead : upcoming env s = found :: rest)
    (hpasses : env.language.Passes (topMode env s).matcher env.code found)
    (hrest : Thinned (Found.Twin (twin env.name))
      (env.language.Passes (topMode env s).matcher env.code) rest (upcoming env' s'))
    (ht : Passed env found s t) : Beside twin env env' t s' := by
  have htop := topMode_of_frames env ht.frames
  have hupcoming := ht.upcoming rest hahead
  have hle : s.index ≤ found.index :=
    (Matcher.isAhead_of_mem (by rw [hahead]; exact List.mem_cons_self :
      found ∈ upcoming env s)).le
  obtain ⟨id, hkind, -, hends⟩ := hpasses
  -- No end that is still ahead is empty where the begin was.
  have hfull : ∀ g ∈ upcoming env t, g.kind = .ends → g.index = found.index → g.lexeme ≠ "" := by
    intro g hg hgkind hindex
    have hmem : g ∈ upcoming env s := by
      rw [hahead, hupcoming]
      exact List.mem_cons_of_mem _ hg
    obtain ⟨r, hr, position, hmatch⟩ := (Matcher.isAhead_of_mem hmem).rule
    exact hends r hr ((Rule.of_matchAt? hmatch).2.2.symm.trans hgkind) position g (hindex ▸ hmatch)
  exact {
    frames := ht.frames ▸ h.frames
    embeddedStacks := ht.embeddedStacks ▸ h.embeddedStacks
    events := h.events.trans ht.events.symm
    relevance := h.relevance.trans ht.relevance.symm
    iterations := by
      rw [ht.iterations]
      exact Nat.le_succ_of_le h.iterations
    text := h.text.trans ht.text.symm
    placed := ht.placed
    placed' := h.placed'
    ahead := by rwa [← hupcoming, htop]
    empty := by
      intro g hg g' hgg'
      have hbehind : found.index ≤ g.index := ht.le.trans (Matcher.isAhead_of_mem hg).le
      have hnone : emptyMode? t g = none := by
        cases hbegun : emptyMode? t g with
        | none => rfl
        | some begun =>
          obtain ⟨hgkind, hempty, hlast⟩ := emptyMode?_eq_some hbegun
          rw [ht.lastMatch] at hlast
          exact absurd hempty (hfull g hg hgkind (Prod.mk.inj (Option.some.inj hlast)).2.symm)
      have hnone' : emptyMode? s' g' = none := by
        cases hbegun : emptyMode? s' g' with
        | none => rfl
        | some begun =>
          obtain ⟨hgkind, hempty, hlast⟩ := emptyMode?_eq_some hbegun
          have hpast := h.past _ _ hlast
          rw [hgg'.index] at hpast
          rw [hgg'.lexeme] at hempty
          exact absurd hempty (hfull g hg (hgg'.kind_ends.mp hgkind) (by omega))
      rw [hnone, hnone']
      exact .none
    past := fun kind index hlast => ((h.past kind index hlast).trans hle).trans ht.le }

/-- Both runs pass the same begin. -/
theorem Beside.both_passed (h : Beside twin env env' s s') (hcode : env'.code = env.code)
    (hahead : upcoming env s = found :: rest) (hahead' : upcoming env' s' = found' :: rest')
    (hfound : found.Twin (twin env.name) found')
    (hrest : Thinned (Found.Twin (twin env.name))
      (env.language.Passes (topMode env s).matcher env.code) rest rest')
    (ht : Passed env found s t) (ht' : Passed env' found' s' t') : Beside twin env env' t t' where
  frames := by
    rw [ht.frames, ht'.frames]
    exact h.frames
  embeddedStacks := by
    rw [ht.embeddedStacks, ht'.embeddedStacks]
    exact h.embeddedStacks
  events := by rw [ht.events, ht'.events, h.events]
  relevance := by rw [ht.relevance, ht'.relevance, h.relevance]
  iterations := by
    rw [ht.iterations, ht'.iterations]
    exact Nat.succ_le_succ h.iterations
  text := by
    have htext := ht'.text
    rw [hcode] at htext
    rw [htext, ht.text, h.text]
  placed := ht.placed
  placed' := ht'.placed
  ahead := by
    rw [← ht.upcoming rest hahead, ← ht'.upcoming rest' hahead', topMode_of_frames env ht.frames]
    exact hrest
  empty := fun g _ g' hgg' => rel_emptyMode? hfound.kind ht.lastMatch
    (by rw [ht'.lastMatch, hfound.index]) hgg'
  past := by
    intro kind index hlast
    rw [ht'.lastMatch, hfound.index] at hlast
    obtain ⟨-, rfl⟩ := Prod.mk.inj (Option.some.inj hlast)
    exact ht.le

include he in
/-- The same match is reached alike. -/
theorem Beside.alike_reached (h : Beside twin env env' s s') (hmem : found ∈ upcoming env s)
    (hmem' : found' ∈ upcoming env' s') (hfound : found.Twin (twin env.name) found') :
    Alike twin env.name (fun _ _ => True) (reached env s found) (reached env' s' found') := by
  have htext := text_reached h.placed' hmem'
  rw [he.code, hfound.index, h.text, ← text_reached h.placed hmem] at htext
  have hreported : (reached env' s' found').reported = (reached env s found).reported := by
    change Markup.Event.charsOf s'.events.reverse = Markup.Event.charsOf s.events.reverse
    rw [h.events]
  rw [String.append_left_inj, State.text, State.text, hreported, String.append_right_inj] at htext
  exact ⟨h.frames, h.embeddedStacks, htext, h.events, h.relevance, trivial⟩

include he hthin in
/-- States that are alike are beside each other if all rules are asked next. -/
theorem beside_of_alike {gaits : Gait → Gait → Prop} {index : Nat}
    (ht : Alike twin env.name gaits t t') (hresume : t.resume = false) (hresume' : t'.resume = false)
    (hiterations : t'.iterations ≤ t.iterations)
    (hindex : Text.IsPlace env.code index ∨ byteSize env.code < index)
    (hempty : ∀ g g', g.Twin (twin env.name) g' →
      Option.Rel (twin env.name) (emptyMode? t g) (emptyMode? t' g'))
    (hpast : ∀ kind i, t'.lastMatch = some (kind, i) → i ≤ index) :
    Beside twin env env' { t with index } { t' with index } := by
  have hfirst : ({ t with index } : State ρ).first = 0 :=
    if_neg (by rw [hresume]; exact Bool.false_ne_true)
  have hfirst' : ({ t' with index } : State ρ).first = 0 :=
    if_neg (by rw [hresume']; exact Bool.false_ne_true)
  have hframes : Stacked (twin env.name) ({ t with index } : State ρ).frames
      ({ t' with index } : State ρ).frames := ht.frames
  obtain ⟨a, b, hab, htop, htop'⟩ := exists_top env env' hframes
  exact {
    frames := ht.frames
    embeddedStacks := ht.embeddedStacks
    events := ht.events
    relevance := ht.relevance
    iterations := hiterations
    text := by
      change Markup.Event.charsOf t'.events.reverse ++ t'.buffer ++ _ =
        Markup.Event.charsOf t.events.reverse ++ t.buffer ++ _
      rw [ht.events, ht.buffer]
    placed := ⟨hindex, Or.inl hfirst⟩
    placed' := ⟨by rwa [he.code], Or.inl hfirst'⟩
    ahead := by
      unfold upcoming
      rw [htop, htop', hfirst, hfirst', he.code]
      exact hthin.ahead hab env.code index
    empty := fun g _ g' hgg' => hempty g g' hgg'
    past := hpast }

include he hthin in
theorem beside_moved {place index : Nat} {g g' : Gait}
    (ht : Alike twin env.name (Matched (twin env.name) place g g') t t') (hresume : g.resume = false)
    (hresume' : g'.resume = false) (hiterations : g'.iterations ≤ g.iterations)
    (hle : place ≤ index) (hindex : Text.IsPlace env.code index ∨ byteSize env.code < index) :
    Beside twin env env' { t with index } { t' with index } := by
  obtain ⟨kind, kind', hkind, hgait, hgait'⟩ := ht.gait
  have hlast : t.lastMatch = some (kind, place) := congrArg Gait.lastMatch hgait
  have hlast' : t'.lastMatch = some (kind', place) := congrArg Gait.lastMatch hgait'
  have ht₁ : t.iterations = g.iterations := congrArg Gait.iterations hgait
  have ht₂ : t'.iterations = g'.iterations := congrArg Gait.iterations hgait'
  refine beside_of_alike he hthin ht ((congrArg Gait.resume hgait).trans hresume)
    ((congrArg Gait.resume hgait').trans hresume') (by rwa [ht₁, ht₂]) hindex
    (fun g g' hgg' => rel_emptyMode? hkind hlast hlast' hgg') fun k i hki => ?_
  obtain ⟨-, rfl⟩ := Prod.mk.inj (Option.some.inj (hlast'.symm.trans hki))
  exact hle

include hthin in
theorem Beside.joins (h : Beside twin env env' s s') :
    (topMode env s).matcher.Joins ∧ (topMode env' s').matcher.Joins := by
  obtain ⟨a, b, hab, htop, htop'⟩ := exists_top env env' h.frames
  rw [htop, htop']
  exact hthin.joins hab

include hρ hend he hthin in
/-- A match that both runs come upon is followed alike, unless it is a begin that is refused. -/
theorem Beside.agree_followed (hloop : ∀ name n, excused (.infiniteLoop name n))
    (h : Beside twin env env' s s') (hahead : upcoming env s = found :: rest)
    (hahead' : upcoming env' s' = found' :: rest') (hfound : found.Twin (twin env.name) found')
    (hadmits : ∀ id, found.kind = .begins id → (admits env (env.language.mode id) found).1 = true) :
    Agree excused excused' (Option.Rel (Beside twin env env')) (step env s) (step env' s') := by
  obtain ⟨hm, hm'⟩ := h.joins hthin
  have hmem : found ∈ upcoming env s := by rw [hahead]; exact List.mem_cons_self
  have hmem' : found' ∈ upcoming env' s' := by rw [hahead']; exact List.mem_cons_self
  have hempty : Option.Rel (twin env.name) (emptyMode? (reached env s found) found)
      (emptyMode? (reached env' s' found') found') := h.empty found hmem found' hfound
  have hfollow := agree_follow he hfound
    (fun hab guard hguard memory => hthin.blind hab guard hguard found found' memory hfound.blind)
    (Or.inr ⟨Nat.succ_le_succ h.iterations, hloop⟩) hempty hadmits
    (h.alike_reached he hmem hmem' hfound)
  rw [step_eq hρ hend hm h.placed, step_eq hρ hend hm' h.placed', hahead, hahead']
  dsimp only [List.head?_cons]
  generalize hresult : follow env (reached env s found) found = result at hfollow
  generalize hresult' : follow env' (reached env' s' found') found' = result' at hfollow
  cases hfollow with
  | error => exact .error
  | left hp => exact .left hp
  | right hp => exact .right hp
  | @ok x y hxy =>
    obtain ⟨t, taken⟩ := x
    obtain ⟨t', taken'⟩ := y
    obtain ⟨ht, rfl⟩ := hxy
    have hplace := (Matcher.isAhead_of_mem hmem).place
    obtain ⟨r, -, position, hmatch⟩ := (Matcher.isAhead_of_mem hmem).rule
    have hleads := (follow_eq_ok_iff.mp hresult).place hplace
      (Rule.isPlace_of_matchAt? hmatch hplace)
    rw [hfound.index]
    exact .ok (.some (beside_moved he hthin ht rfl rfl (Nat.succ_le_succ h.iterations)
      (Nat.le_add_right _ _) hleads))

include hρ hend he hthin in
/-- **A match that both runs come upon leads to states that are beside each other**, also where it is
a begin that is refused. -/
theorem Beside.agree_step (hloop : ∀ name n, excused (.infiniteLoop name n))
    (h : Beside twin env env' s s') (hahead : upcoming env s = found :: rest)
    (hahead' : upcoming env' s' = found' :: rest') (hfound : found.Twin (twin env.name) found')
    (hrest : Thinned (Found.Twin (twin env.name))
      (env.language.Passes (topMode env s).matcher env.code) rest rest') :
    Agree excused excused' (Option.Rel (Beside twin env env')) (step env s) (step env' s') := by
  obtain ⟨hm, hm'⟩ := h.joins hthin
  by_cases hrefused : ∃ id, found.kind = .begins id ∧
      (admits env (env.language.mode id) found).1 = false
  · obtain ⟨id, hkind, hrefused⟩ := hrefused
    obtain ⟨id', hid, hkind'⟩ := hfound.kind_begins hkind
    have hadmits := admits_eq he hfound (fun hab guard hguard memory =>
      hthin.blind hab guard hguard found found' memory hfound.blind) hid
    obtain ⟨t, hstep, ht⟩ := exists_passed hρ hend hm h.placed hahead hkind hrefused
    obtain ⟨t', hstep', ht'⟩ := exists_passed hρ hend hm' h.placed' hahead' hkind'
      (by rw [hadmits, hrefused])
    rw [hstep, hstep']
    exact .ok (.some (h.both_passed he.code hahead hahead' hfound hrest ht ht'))
  · refine h.agree_followed hρ hend he hthin hloop hahead hahead' hfound fun id hkind => ?_
    by_contra hnot
    exact hrefused ⟨id, hkind, by simpa using hnot⟩

include he in
/-- What is left where nothing is ahead is reported alike. -/
theorem Beside.agree_finish (h : Beside twin env env' s s') :
    Agree excused excused' (Alike twin env.name fun _ _ => True) (finish env s)
      (finish env' s') := by
  have hplace' := h.placed'.place
  unfold finish
  rw [he.code] at hplace' ⊢
  rw [between_size h.placed.place, between_size hplace']
  have htext := h.text
  have hreported : s'.reported = s.reported := by rw [State.reported, State.reported, h.events]
  rw [State.text, State.text, hreported, String.append_assoc, String.append_assoc,
    String.append_right_inj] at htext
  exact agree_readContent he ⟨h.frames, h.embeddedStacks, htext, h.events, h.relevance, trivial⟩

end Two

include hρ hend he hthin

/-- **Both runs lead to the same.** The induction is on the steps of the first run, which may pass
begins while the second one stands still. -/
theorem agree_run_thinned (hloop : ∀ name n, excused (.infiniteLoop name n))
    (hunfinished : excused .unfinished) (hunfinished' : excused' .unfinished) :
    ∀ (steps steps' : Nat) {s s' : State ρ}, Beside twin env env' s s' →
      Agree excused excused' (Alike twin env.name fun _ _ => True) (run env steps s)
        (run env' steps' s')
  | 0, _, _, _, _ => .left hunfinished
  | steps + 1, steps', s, s', h => by
    have ih : ∀ (steps' : Nat) {t t' : State ρ}, Beside twin env env' t t' →
        Agree excused excused' (Alike twin env.name fun _ _ => True) (run env steps t)
          (run env' steps' t') := fun steps' _ _ ht =>
      agree_run_thinned hloop hunfinished hunfinished' steps steps' ht
    obtain ⟨hm, hm'⟩ := h.joins hthin
    have hahead := h.ahead
    generalize hup : upcoming env s = ahead at hahead
    generalize hup' : upcoming env' s' = ahead' at hahead
    cases hahead with
    | @drop found rest _ hpasses hrest =>
      -- only the first run comes upon the begin, and passes it
      obtain ⟨id, hkind, hrejects, -⟩ := id hpasses
      obtain ⟨t, hstep, ht⟩ := exists_passed hρ hend hm h.placed hup hkind
        (admits_of_rejects hrejects found)
      rw [run_of_step hstep]
      exact ih steps' (h.passed hup hpasses (by rwa [hup']) ht)
    | nil =>
      cases steps' with
      | zero => exact .right hunfinished'
      | succ steps' =>
        have hstep := step_eq hρ hend hm h.placed
        have hstep' := step_eq hρ hend hm' h.placed'
        rw [hup] at hstep
        rw [hup'] at hstep'
        rw [run, run, hstep, hstep']
        exact h.agree_finish he
    | keep hfound hrest =>
      cases steps' with
      | zero => exact .right hunfinished'
      | succ steps' =>
        have hstep := h.agree_step hρ hend he hthin hloop hup hup' hfound hrest
        unfold run
        generalize step env s = result at hstep
        generalize step env' s' = result' at hstep
        cases hstep with
        | error => exact .error
        | left hp => exact .left hp
        | right hp => exact .right hp
        | ok hnext =>
          cases hnext with
          | none => exact h.agree_finish he
          | some ht => exact ih steps' ht

/-- **Code leads to the same in both languages but for what modes are called by.** -/
theorem agree_outcome_thinned (hloop : ∀ name n, excused (.infiniteLoop name n))
    (hunfinished : excused .unfinished) (hunfinished' : excused' .unfinished)
    {frames frames' : List (Frame ρ)} (h : Stacked (twin env.name) frames frames') :
    Agree excused excused' (Outcome.Twin twin) (outcome env frames) (outcome env' frames') := by
  have halike := alike_initial he h
  have hcourse := course_initial env.language frames
  have hcourse' := course_initial env'.language frames'
  have hlast' : (initial env'.language frames').lastMatch = none :=
    congrArg Course.lastMatch hcourse'
  have hempty : ∀ g g', g.Twin (twin env.name) g' → Option.Rel (twin env.name)
      (emptyMode? (initial env.language frames) g)
      (emptyMode? (initial env'.language frames') g') := by
    intro g g' _
    rw [emptyMode?, emptyMode?, hlast',
      show (initial env.language frames).lastMatch = none from congrArg Course.lastMatch hcourse]
    exact .none
  have hbeside := beside_of_alike he hthin halike (congrArg Course.resume hcourse)
    (congrArg Course.resume hcourse') (Nat.le_of_eq (congrArg Gait.iterations halike.gait).symm)
    (Or.inl (Text.isPlace_zero env.code)) hempty fun kind i hki => by rw [hlast'] at hki; cases hki
  have hrun := agree_run_thinned hρ hend he hthin hloop hunfinished hunfinished'
    (stepBound env frames.length) (stepBound env' frames'.length) hbeside
  have hzero : ∀ (l : Language ρ) (fs : List (Frame ρ)),
      ({ initial l fs with index := 0 } : State ρ) = initial l fs := fun l fs => by
    rw [← index_initial l fs]
  rw [hzero, hzero] at hrun
  exact hrun.map fun _ _ ht => twin_finished he ht

end Runs

end CodeMarkup.Scan
