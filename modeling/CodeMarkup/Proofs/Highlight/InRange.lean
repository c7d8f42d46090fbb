import CodeMarkup.Proofs.Highlight.Course
import CodeMarkup.Proofs.Highlight.Outcomes
import CodeMarkup.Proofs.Language.Lawful
import CodeMarkup.Proofs.Language.Links
import Mathlib.Data.List.Chain

/-! # Courses in range

As long as the open modes are modes of the language and a search goes on with a rule that the top
mode has, a step keeps to this (`Scan.inRange_step`): what begins is a child of the top mode, and a
rule to go on with is one of the mode that is still on top. So it holds in all states that going
through code passes (`Scan.inRange_leads`), whatever stack it has started from. -/

namespace CodeMarkup

variable {ρ : Type} [Engine ρ]

/-! ### Open modes -/

/-- Open modes, innermost first: all of them modes of the language, the outermost its root. -/
structure Language.Opens (l : Language ρ) (ids : List Nat) : Prop where
  root : ids.getLast? = some 0
  lt : ∀ id ∈ ids, id < l.size

theorem Language.Opens.exists_cons {l : Language ρ} {ids : List Nat} (h : l.Opens ids) :
    ∃ top rest, ids = top :: rest := by
  cases ids with
  | nil => exact nomatch h.root
  | cons top rest => exact ⟨top, rest, rfl⟩

theorem Language.mode?_eq_some {l : Language ρ} {id : Nat} (h : id < l.size) :
    l.mode? id = some (l.mode id) := by
  have hm : l.mode? id = some l.modes[id] := Array.getElem?_eq_getElem h
  rw [Language.mode, hm, Option.getD_some]

/-- The modes that are open at the start are modes of the language. -/
theorem opens_startingFrames (key : String) (l : Language ρ)
    (continuation : Option (ModeStack ρ)) :
    l.Opens ((startingFrames key l continuation).map Frame.mode) := by
  unfold startingFrames
  cases hc : continuation.bind (·.framesFor? key l) with
  | none =>
    refine ⟨rfl, fun id hid => ?_⟩
    obtain rfl : id = 0 := List.mem_singleton.mp hid
    exact l.size_pos
  | some frames =>
    obtain ⟨stack, -, hstack⟩ := Option.bind_eq_some_iff.mp hc
    unfold ModeStack.framesFor? at hstack
    split at hstack
    · next hfits =>
      cases hstack
      simp only [Bool.and_eq_true, beq_iff_eq, List.all_eq_true] at hfits
      obtain ⟨⟨-, hroot⟩, hall⟩ := hfits
      refine ⟨List.getLast?_map.trans hroot, fun id hid => ?_⟩
      obtain ⟨f, hf, rfl⟩ := List.mem_map.mp hid
      exact (Array.getElem?_eq_some_iff.mp (Option.eq_some_of_isSome (hall f hf))).1
    · cases hstack

/-! ### The invariant -/

namespace Scan

variable {env : Setting ρ}

/-- The course of a state whose open modes are modes of the language, in which a search goes on with
a rule that the top mode has, and whose last match, if a mode began there, was of such a mode. -/
structure Course.InRange (l : Language ρ) (c : Course) : Prop where
  opens : l.Opens c.modes
  resume : c.resume = true → ∀ top, c.modes.head? = some top →
    c.firstRule < (l.mode top).matcher.rules.length
  begun : ∀ id index, c.lastMatch = some (.begins id, index) → id < l.size

theorem exists_frames {s : State ρ} (h : env.language.Opens s.course.modes) :
    ∃ f fs, s.frames = f :: fs := by
  obtain ⟨top, rest, hmodes⟩ := h.exists_cons
  obtain ⟨f, fs, hframes, -, -⟩ := List.map_eq_cons_iff.mp hmodes
  exact ⟨f, fs, hframes⟩

theorem topMode_of_head? {s : State ρ} {top : Nat} (h : s.course.modes.head? = some top) :
    topMode env s = env.language.mode top := by
  unfold topMode
  cases hf : s.frames with
  | nil => simp [State.course, hf] at h
  | cons f fs =>
    simp only [State.course, hf, List.map_cons, List.head?_cons, Option.some.injEq] at h
    rw [← h]

/-- What begins at a match is a child of the top mode. -/
theorem mem_children_of_find (hl : env.language.Linking) {s : State ρ} {top : Nat}
    (htop : s.course.modes.head? = some top) {first offset next : Nat} {found : Found}
    (h : (topMode env s).matcher.find first env.code offset = .ok (some (found, next))) {id : Nat}
    (hid : found.kind = .begins id) : id ∈ (env.language.mode top).children := by
  rw [topMode_of_head? htop] at h
  obtain ⟨r, hr, hkind⟩ := Matcher.kind_of_find h
  exact hl.begins hr (hkind.trans hid)

/-- A search goes on with a rule that is there, or with all rules. -/
theorem Course.InRange.firstRule_next {s : State ρ} (h : s.course.InRange env.language) :
    (Scan.next s).firstRule = 0 ∨
      (Scan.next s).firstRule < (topMode env (Scan.next s)).matcher.rules.length := by
  obtain ⟨top, rest, hmodes⟩ := h.opens.exists_cons
  have htop : s.course.modes.head? = some top := by rw [hmodes]; rfl
  rw [topMode_of_head? (s := Scan.next s) htop]
  unfold Scan.next
  dsimp only
  split
  · next hresume => exact Or.inr (h.resume hresume top htop)
  · exact Or.inl rfl

/-- What begins at a match of the top mode is a mode of the language. -/
theorem Course.InRange.begins_lt (hρ : Engine.Lawful ρ) (hl : env.language.Linking) {s : State ρ}
    (hs : s.course.InRange env.language) {first offset next : Nat} {found : Found}
    (h : (topMode env s).matcher.find first env.code offset = .ok (some (found, next))) {id : Nat}
    (hid : found.kind = .begins id) : id < env.language.size := by
  obtain ⟨top, rest, hmodes⟩ := hs.opens.exists_cons
  rw [topMode_of_head? (by rw [hmodes]; rfl : s.course.modes.head? = some top)] at h
  obtain ⟨-, r, hr, hkind⟩ := Matcher.rule_of_find hρ h
  exact hl.children (hl.begins hr (hkind.trans hid))

/-- An end is only found where a mode is open inside the root. -/
theorem Course.InRange.one_lt_length (hl : env.language.Linking) {s : State ρ}
    (hs : s.course.InRange env.language) {first offset next : Nat} {found : Found}
    (h : (topMode env s).matcher.find first env.code offset = .ok (some (found, next)))
    (hk : found.kind = .ends) : 1 < s.course.modes.length := by
  obtain ⟨top, rest, hmodes⟩ := hs.opens.exists_cons
  have hhead : s.course.modes.head? = some top := by rw [hmodes]; rfl
  rw [topMode_of_head? hhead] at h
  obtain ⟨r, hr, hkind⟩ := Matcher.kind_of_find h
  have hroot := hs.opens.root
  rw [hmodes] at hroot ⊢
  cases rest with
  | nil =>
    obtain rfl : top = 0 := Option.some.inj hroot
    exact absurd (hkind.trans hk) (hl.root hr)
  | cons => simp

/-- Following a match keeps to what is in range, if the rules behind it are those of the top mode. -/
theorem Move.inRange (hl : env.language.Linking) {found : Found} {c c' : Course} {taken : Nat}
    (h : Move env found c c' taken) (hc : c.InRange env.language) (hresume : c.resume = false)
    (hfirst : c.firstRule ≠ 0 → ∀ top, c.modes.head? = some top →
      c.firstRule < (env.language.mode top).matcher.rules.length)
    (hbegins : ∀ id, found.kind = .begins id → id < env.language.size) :
    c'.InRange env.language := by
  have hlast : ∀ id index, some (found.kind, found.index) = some (.begins id, index) →
      id < env.language.size := fun id index he =>
    hbegins id (Prod.mk.inj (Option.some.inj he)).1
  cases h with
  | char hlast' _ =>
    refine ⟨hc.opens, hc.resume, fun id index he => ?_⟩
    rcases hlast' with rfl | rfl
    · exact hc.begun id index he
    · exact hlast id index he
  | text _ _ _ => exact ⟨hc.opens, hc.resume, hlast⟩
  | pass _ hne => exact ⟨hc.opens, fun _ => hfirst hne, hlast⟩
  | @begins id hid =>
    refine ⟨⟨?_, List.forall_mem_cons.mpr ⟨hbegins id hid, hc.opens.lt⟩⟩,
      fun h => absurd h (by simp [hresume]), hlast⟩
    rw [List.getLast?_cons, hc.opens.root]
    rfl
  | @ends place top _ _ hplace _ =>
    refine ⟨⟨?_, fun id hid => ?_⟩, fun h => absurd h (by simp [hresume]), hlast⟩
    · have hlt : c.modes.length - max place 1 < c.modes.length := by omega
      rw [List.getLast?_append, List.getLast?_drop, if_neg (by omega), hc.opens.root]
      rfl
    · rcases List.mem_append.mp hid with hid | hid
      · obtain ⟨ended, -, hstarts⟩ := Option.bind_eq_some_iff.mp (Option.mem_toList.mp hid)
        exact hl.starts hstarts
      · exact hc.opens.lt id (List.mem_of_mem_drop hid)

/-- **A step keeps to what is in range.** -/
theorem inRange_step (hρ : Engine.Lawful ρ) (hl : env.language.Linking) {s s' : State ρ}
    (hs : s.course.InRange env.language) (h : step env s = .ok (some s')) :
    s'.course.InRange env.language := by
  obtain ⟨found, first, taken, hfind, -, hmove⟩ := step_cases h
  have hfirst := (Matcher.find_spec hρ hfind).1
  refine hmove.inRange hl ⟨hs.opens, fun h => (Bool.false_ne_true h).elim, hs.begun⟩ rfl
    (fun hne top htop => ?_) fun id => hs.begins_lt hρ hl hfind
  change first ≠ 0 at hne
  change first < _
  rw [topMode_of_head? htop] at hfirst
  rw [hfirst, Matcher.ruleAfter] at hne ⊢
  split at hne
  · next hlt => rwa [if_pos hlt]
  · exact absurd rfl hne

/-! ### Modes on modes -/

/-- **What holds between each open mode and the one it is on holds after a step, too**, if it holds
between a child and the mode that contains it and passes from a mode to the one that follows it. -/
theorem isChain_step (hl : env.language.Linking) {R : Nat → Nat → Prop} {s s' : State ρ}
    (hchild : ∀ top ∈ s.course.modes.head?, ∀ id ∈ (env.language.mode top).children, R id top)
    (hnext : ∀ {id p n}, R id p → (env.language.mode id).starts = some n → R n p)
    (h : step env s = .ok (some s')) (hs : s.course.modes.IsChain R) :
    s'.course.modes.IsChain R := by
  obtain ⟨found, first, taken, hfind, -, hmove⟩ := step_cases h
  generalize s'.course = c' at hmove
  cases hmove with
  | char | text | pass => exact hs
  | @begins id hid =>
    exact List.isChain_cons.mpr
      ⟨fun top htop => hchild top htop id (mem_children_of_find hl htop hfind hid), hs⟩
  | @ends place top _ _ _ _ =>
    change ((following env.language
      (s.course.modes.take (s.course.modes.length - max place 1)).getLast?).toList ++
        s.course.modes.drop (s.course.modes.length - max place 1)).IsChain R
    generalize s.course.modes.length - max place 1 = n
    rw [← List.take_append_drop n s.course.modes] at hs
    obtain ⟨-, hdrop, hlink⟩ := List.isChain_append.mp hs
    cases hfollowing : following env.language (s.course.modes.take n).getLast? with
    | none => exact hdrop
    | some id =>
      obtain ⟨ended, hended, hstarts⟩ := Option.bind_eq_some_iff.mp hfollowing
      exact List.isChain_cons.mpr ⟨fun p hp => hnext (hlink ended hended p hp) hstarts, hdrop⟩

/-! ### Runs -/

theorem inRange_initial {l : Language ρ} {frames : List (Frame ρ)}
    (h : l.Opens (frames.map Frame.mode)) : (initial l frames).course.InRange l := by
  rw [course_initial]
  exact ⟨h, fun hresume => (Bool.false_ne_true hresume).elim, fun id index he => nomatch he⟩

/-- One step after another. -/
def Leads (env : Setting ρ) : State ρ → State ρ → Prop :=
  Relation.ReflTransGen fun s s' => step env s = .ok (some s')

/-- Code that has been gone through to its end has been gone through step by step, until nothing was
found any more. -/
theorem exists_leads_of_run : ∀ {steps : Nat} {s s' : State ρ}, run env steps s = .ok s' →
    ∃ t, Leads env s t ∧ step env t = .ok none ∧ finish env t = .ok s'
  | 0, _, _, h => by cases h
  | steps + 1, s, s', h => by
    unfold run at h
    split at h
    · cases h
    · next hstep => exact ⟨s, .refl, hstep, h⟩
    · next hstep =>
      obtain ⟨last, hleads, hnone, hfinish⟩ := exists_leads_of_run h
      exact ⟨last, .head hstep hleads, hnone, hfinish⟩

theorem inRange_leads (hρ : Engine.Lawful ρ) (hl : env.language.Linking) {s s' : State ρ}
    (hs : s.course.InRange env.language) (h : Leads env s s') : s'.course.InRange env.language := by
  induction h with
  | refl => exact hs
  | tail _ hstep ih => exact inRange_step hρ hl ih hstep

end Scan

end CodeMarkup
