import CodeMarkup.Proofs.Highlight.Failures
import CodeMarkup.Proofs.Highlight.InRange
import CodeMarkup.Proofs.Highlight.Lossless
import CodeMarkup.Proofs.Language.Grounded
import CodeMarkup.Proofs.Language.Registered
import Mathlib.Algebra.Order.BigOperators.Group.List
import Mathlib.Algebra.Order.Ring.Nat
import Mathlib.Data.Finset.Range
import Mathlib.Tactic.Ring

/-! # Going through code ends

What is left to be done, at most, gets less with every step (`Scan.left_step`). It counts the code
behind the offset, what may still happen at the offset, the open modes with those that follow them,
and the steps after which progress is asked for. At one place modes only begin one inside the other
as far as this can go on without any text being taken, and a rule is only passed over for a later
one; modes only end before one has begun there, and every end takes off more than it puts on.
Nothing but the steps counts where an empty end is refused again and again. A mode that leaves the
text of its end to be gone through again must not be one that begins inside another
(`Language.ReturnsApart`).

So the code is gone through to its end (`highlight_ends`), in fewer steps than it may take. -/

namespace CodeMarkup

variable {ρ : Type} [Engine ρ]

namespace Language

/-- Whether a mode may begin inside another one without any text being taken: the text of its begin
is gone through again, or is empty in some text. A begin that could only be empty where an earlier
rule matches is not meant. -/
def BeginsAtOnce (l : Language ρ) (a b : Nat) : Prop :=
  b ∈ (l.mode a).children ∧ ((l.mode b).returnBegin = true ∨
    ∃ first text offset found, (l.mode a).matcher.searchFrom first text offset = .ok (some found) ∧
      found.kind = .begins b ∧ found.lexeme = "")

/-- A mode whose end leaves its text to be gone through again neither contains modes nor is contained
in one: it only follows another mode. -/
def ReturnsApart (l : Language ρ) : Prop :=
  ∀ id, (l.mode id).returnEnd = true → (l.mode id).children = [] ∧ ∀ p, id ∉ (l.mode p).children

theorem returnsApart_of_forall {l : Language ρ} (h : ∀ m ∈ l.modes, m.returnEnd = false) :
    l.ReturnsApart := fun id hreturn =>
  absurd hreturn (by rw [h _ (l.mode_mem id)]; exact Bool.false_ne_true)

/-- How many modes at most begin one inside the other without any text being taken, and how many
follow each other. -/
structure Ranks (l : Language ρ) where
  begins : Nat → Nat
  begins_le : ∀ id, begins id ≤ l.size
  begins_lt : ∀ {a b}, l.BeginsAtOnce a b → begins b < begins a
  starts : Nat → Nat
  starts_le : ∀ id, starts id ≤ l.size
  starts_lt : ∀ {a b}, (l.mode a).starts = some b → starts b < starts a

theorem nonempty_ranks {l : Language ρ} (hl : l.Linking)
    (hstarts : ∀ id, ¬ Relation.TransGen (fun k n => (l.mode k).starts = some n) id id)
    (hbegins : ∀ id, ¬ Relation.TransGen l.BeginsAtOnce id id) : Nonempty l.Ranks := by
  obtain ⟨begins, begins_le, begins_lt⟩ := exists_rank (s := Finset.range l.size)
    (fun h => Finset.mem_range.mpr (hl.children h.1)) hbegins
  obtain ⟨starts, starts_le, starts_lt⟩ := exists_rank (s := Finset.range l.size)
    (fun h => Finset.mem_range.mpr (hl.starts h)) hstarts
  rw [Finset.card_range] at begins_le starts_le
  exact ⟨⟨begins, begins_le, begins_lt, starts, starts_le, starts_lt⟩⟩

/-- The number of rules of all modes, and of the modes. -/
def ruleCount (l : Language ρ) : Nat :=
  l.modes.foldl (fun n m => n + m.matcher.rules.length + 1) 0

theorem ruleCount_eq (l : Language ρ) :
    l.ruleCount = (l.modes.toList.map fun m => m.matcher.rules.length + 1).sum := by
  have h : ∀ (ms : List (CompiledMode ρ)) (n : Nat),
      ms.foldl (fun n m => n + m.matcher.rules.length + 1) n =
        n + (ms.map fun m => m.matcher.rules.length + 1).sum := by
    intro ms
    induction ms with
    | nil => simp
    | cons m ms ih =>
      intro n
      rw [List.foldl_cons, ih, List.map_cons, List.sum_cons]
      omega
  rw [ruleCount, ← Array.foldl_toList, h, Nat.zero_add]

theorem size_le_ruleCount (l : Language ρ) : l.size ≤ l.ruleCount := by
  rw [ruleCount_eq, size, ← Array.length_toList]
  generalize l.modes.toList = ms
  induction ms with
  | nil => simp
  | cons m ms ih =>
    rw [List.length_cons, List.map_cons, List.sum_cons]
    omega

theorem rules_lt_ruleCount (l : Language ρ) (id : Nat) :
    (l.mode id).matcher.rules.length < l.ruleCount := by
  rw [ruleCount_eq]
  have hmem : (l.mode id).matcher.rules.length + 1 ∈
      l.modes.toList.map fun m => m.matcher.rules.length + 1 :=
    List.mem_map_of_mem (Array.mem_def.mp (l.mode_mem id))
  exact List.le_sum_of_mem hmem

end Language

namespace Scan

variable {env : Setting ρ} (k : env.language.Ranks)

/-! ### What is left -/

/-- What the open modes may still lead to by ending. -/
def weight (ids : List Nat) : Nat := (ids.map fun id => k.starts id + 1).sum

/-- What a begin without text may take: all rules of a mode, and the weight of another one. -/
def beginCost (l : Language ρ) : Nat := 2 * l.ruleCount + 2

/-- What may be done at one place, at most. -/
def placeCost (l : Language ρ) : Nat := (l.ruleCount + 1) * beginCost l

/-- What may still begin at a place where a mode has begun: modes inside the top mode, and what is
found by the rules of the top mode that have not been tried. -/
def begunLeft (c : Course) : Nat :=
  k.begins (c.modes.head?.getD 0) * beginCost env.language +
    (env.language.ruleCount - c.next.firstRule)

open Classical in
/-- What may still be done at a place. -/
noncomputable def placeLeft (c : Course) (index : Nat) : Nat :=
  if c.HasBegun index then begunLeft k c else placeCost env.language

/-- What may be done at a place without any match being taken as text. -/
noncomputable def standLeft (c : Course) (index : Nat) : Nat := placeLeft k c index + weight k c.modes

/-- How often a match is taken as text before progress is asked for. -/
def patience (code : List Char) : Nat := max iterationLimit (3 * Text.byteSize code) + 1

/-- What is left to be done, at most. -/
noncomputable def left (c : Course) (index : Nat) : Nat :=
  (patience env.code - c.iterations) +
    (Text.byteSize env.code + 1 - index) * (placeCost env.language + env.language.ruleCount + 2) +
      standLeft k c index

theorem weight_cons (id : Nat) (ids : List Nat) :
    weight k (id :: ids) = k.starts id + 1 + weight k ids := by
  simp [weight]

theorem weight_append (ids ids' : List Nat) : weight k (ids ++ ids') = weight k ids + weight k ids' := by
  simp [weight]

/-- What follows the last of some modes weighs less than they. -/
theorem weight_following_lt {ids : List Nat} (h : ids ≠ []) :
    weight k (following env.language ids.getLast?).toList < weight k ids := by
  obtain ⟨front, last, rfl⟩ : ∃ front last, ids = front ++ [last] :=
    ⟨_, _, (List.dropLast_append_getLast h).symm⟩
  rw [weight_append, List.getLast?_append, List.getLast?_singleton, Option.some_or, following,
    Option.bind_some]
  cases hstarts : (env.language.mode last).starts with
  | none =>
    rw [Option.toList_none, weight_cons]
    exact Nat.lt_of_lt_of_le (Nat.succ_pos _) (Nat.le_add_left _ _)
  | some next =>
    have hlt := k.starts_lt hstarts
    simp only [Option.toList_some, weight_cons]
    omega

theorem begunLeft_lt (c : Course) : begunLeft k c < placeCost env.language := by
  unfold begunLeft placeCost
  have hsize := env.language.size_le_ruleCount
  have hrank := k.begins_le (c.modes.head?.getD 0)
  have hmul : k.begins (c.modes.head?.getD 0) * beginCost env.language ≤
      env.language.ruleCount * beginCost env.language :=
    Nat.mul_le_mul_right _ (hrank.trans hsize)
  rw [Nat.succ_mul]
  unfold beginCost at *
  omega

theorem placeLeft_le (c : Course) (index : Nat) : placeLeft k c index ≤ placeCost env.language := by
  unfold placeLeft
  split
  · exact (begunLeft_lt k c).le
  · exact Nat.le_refl _

theorem begunLeft_le (c : Course) (index : Nat) : begunLeft k c ≤ placeLeft k c index := by
  unfold placeLeft
  split
  · exact Nat.le_refl _
  · exact (begunLeft_lt k c).le

theorem placeLeft_of_hasBegun {c : Course} {index : Nat} (h : c.HasBegun index) :
    placeLeft k c index = begunLeft k c := if_pos h

theorem placeLeft_of_not_hasBegun {c : Course} {index : Nat} (h : ¬ c.HasBegun index) :
    placeLeft k c index = placeCost env.language := if_neg h

/-! ### Moves -/

variable {found : Found} {c c' : Course} {taken : Nat}

omit [Engine ρ] in
theorem iterations_move [Engine ρ] {env : Setting ρ} (h : Move env found c c' taken) :
    c'.iterations = c.iterations := by
  cases h <;> rfl

/-- Ends take more weight off than they add. -/
theorem weight_ends {ids : List Nat} {place : Nat} (hlength : 1 < ids.length)
    (hplace : place < ids.length) :
    weight k ((following env.language (ids.take (ids.length - max place 1)).getLast?).toList ++
      ids.drop (ids.length - max place 1)) < weight k ids := by
  have hpos : 0 < ids.length - max place 1 := by omega
  generalize ids.length - max place 1 = n at hpos
  have hne : ids.take n ≠ [] := by
    intro he
    have := congrArg List.length he
    rw [List.length_take, List.length_nil] at this
    omega
  have hlt := weight_following_lt k hne
  rw [weight_append]
  conv_rhs => rw [← List.take_append_drop n ids, weight_append]
  omega

/-- A move adds the weight of one mode at most. -/
theorem weight_move (h : Move env found c c' taken)
    (hends : found.kind = .ends → 1 < c.modes.length) :
    weight k c'.modes ≤ weight k c.modes + (env.language.ruleCount + 1) := by
  cases h with
  | char _ _ => exact Nat.le_add_right _ _
  | text _ _ _ => exact Nat.le_add_right _ _
  | pass _ _ => exact Nat.le_add_right _ _
  | @begins id _ =>
    have hle := (k.starts_le id).trans env.language.size_le_ruleCount
    change weight k (id :: c.modes) ≤ _
    rw [weight_cons]
    omega
  | ends hk _ hplace _ =>
    have hlt := weight_ends k (hends hk) hplace
    exact hlt.le.trans (Nat.le_add_right _ _)

/-- Where the offset grows, less is left. -/
theorem left_lt_of_lt {index index' : Nat} (hindex : index < index')
    (hle : index ≤ Text.byteSize env.code) (hi : c.iterations ≤ c'.iterations)
    (hw : weight k c'.modes ≤ weight k c.modes + (env.language.ruleCount + 1)) :
    left k c' index' < left k c index := by
  have hplace := placeLeft_le k c' index'
  have hmul : (Text.byteSize env.code + 1 - index') *
        (placeCost env.language + env.language.ruleCount + 2) +
          (placeCost env.language + env.language.ruleCount + 2) ≤
      (Text.byteSize env.code + 1 - index) *
        (placeCost env.language + env.language.ruleCount + 2) := by
    rw [← Nat.succ_mul]
    exact Nat.mul_le_mul_right _ (by omega)
  unfold left standLeft
  omega

/-- Where modes have ended, or a match has been taken as text, none has begun. -/
theorem placeLeft_of_lastMatch {index : Nat} {kind : RuleKind} (hk : ∀ id, kind ≠ .begins id)
    (h : c.lastMatch = some (kind, index)) : placeLeft k c index = placeCost env.language := by
  refine placeLeft_of_not_hasBegun k ?_
  rintro ⟨id, hid⟩
  rw [h] at hid
  exact hk id (Prod.mk.inj (Option.some.inj hid)).1

/-- No mode has just begun if the top mode leaves the text of its end to be gone through again. -/
def Course.Apart (l : Language ρ) (c : Course) : Prop :=
  ∀ top, c.modes.head? = some top → (l.mode top).returnEnd = true →
    ∀ id index, c.lastMatch ≠ some (.begins id, index)

/-- Where the offset stays, either a match is taken as text, as long as progress is not asked for, or
less may be done at the place: a mode begins inside the top mode, or a later rule is to be tried, or
modes end. -/
theorem standLeft_of_stays {first : Nat} (hends : found.kind = .ends → 1 < c.modes.length)
    (hapart : c.Apart env.language)
    (hbegins : ∀ id, found.kind = .begins id →
      (env.language.mode id).returnBegin = true ∨ found.lexeme = "" →
        env.language.BeginsAtOnce (c.modes.head?.getD 0) id)
    (hfirst : first ≠ 0 → c.next.firstRule < first ∧ first < env.language.ruleCount)
    (h : Move env found { c.next with firstRule := first } c' taken) (htaken : taken = 0) :
    (c'.iterations ≤ max iterationLimit (3 * found.index) ∧
      standLeft k c' found.index = standLeft k c found.index) ∨
        standLeft k c' found.index < standLeft k c found.index := by
  have hbegun := begunLeft_le k c found.index
  unfold standLeft
  cases h with
  | char _ hpos => omega
  | text hguard hempty hk =>
    -- an empty match is taken as text: this costs patience only
    have hlexeme : found.lexeme = "" := String.utf8ByteSize_eq_zero_iff.mp htaken
    have hc : ¬ c.HasBegun found.index := hempty hlexeme
    refine Or.inl ⟨?_, ?_⟩
    · change c.iterations + 1 ≤ _
      change ¬ (c.iterations + 1 > iterationLimit ∧ c.iterations + 1 > found.index * 3) at hguard
      omega
    · rw [placeLeft_of_lastMatch k hk rfl, placeLeft_of_not_hasBegun k hc]
      rfl
  | @pass id hk hne =>
    refine Or.inr (Nat.add_lt_add_right (Nat.lt_of_lt_of_le ?_ hbegun) _)
    rw [placeLeft_of_hasBegun k ⟨id, by rw [hk]⟩]
    obtain ⟨hlt, hcount⟩ := hfirst hne
    refine Nat.add_lt_add_left ?_ _
    change env.language.ruleCount - first < env.language.ruleCount - c.next.firstRule
    omega
  | @begins id hk =>
    have hlexeme : (env.language.mode id).returnBegin = true ∨ found.lexeme = "" := by
      split at htaken
      · next hr => exact Or.inl hr
      · exact Or.inr (String.utf8ByteSize_eq_zero_iff.mp htaken)
    -- the mode that begins has a lesser rank than the one around it, which pays for its weight
    have hrank := k.begins_lt (hbegins id hk hlexeme)
    have hmul : (k.begins id + 1) * beginCost env.language ≤
        k.begins (c.modes.head?.getD 0) * beginCost env.language :=
      Nat.mul_le_mul_right _ hrank
    have hweight := (k.starts_le id).trans env.language.size_le_ruleCount
    refine Or.inr ?_
    rw [placeLeft_of_hasBegun k ⟨id, by rw [hk]⟩]
    change k.begins id * beginCost env.language + (env.language.ruleCount - 0) +
      weight k (id :: c.modes) < _
    rw [weight_cons]
    rw [Nat.succ_mul] at hmul
    unfold begunLeft at hbegun
    unfold beginCost at *
    omega
  | @ends _ top hk hempty hplace htop =>
    -- none has just begun, so only the weight of the open modes changes, which falls
    have hc : ¬ c.HasBegun found.index := by
      split at htaken
      · next hreturn => exact fun ⟨id, hid⟩ => hapart top htop hreturn id found.index hid
      · exact hempty (String.utf8ByteSize_eq_zero_iff.mp htaken)
    refine Or.inr ?_
    rw [placeLeft_of_lastMatch k (by simp [hk]) rfl, placeLeft_of_not_hasBegun k hc]
    exact Nat.add_lt_add_left (weight_ends k (hends hk) hplace) _

/-! ### Steps -/

/-- A step adds the weight of one mode at most and goes on to a later offset, or else it takes a match
as text before progress is asked for or leaves less to be done at the place. -/
theorem advances_or_stays (hρ : Engine.Lawful ρ) (hl : env.language.Linking) {s s' : State ρ}
    (hs : s.course.InRange env.language) (hapart : s.course.Apart env.language)
    (h : step env s = .ok (some s')) :
    s'.course.iterations = s.course.iterations + 1 ∧ s.index ≤ Text.byteSize env.code ∧
      weight k s'.course.modes ≤ weight k s.course.modes + (env.language.ruleCount + 1) ∧
      (s.index < s'.index ∨ s'.index = s.index ∧
        ((s'.course.iterations ≤ max iterationLimit (3 * s.index) ∧
          standLeft k s'.course s.index = standLeft k s.course s.index) ∨
            standLeft k s'.course s.index < standLeft k s.course s.index)) := by
  obtain ⟨found, first, taken, hfind, hindex, hmove⟩ := step_cases h
  obtain ⟨top, rest, hmodes⟩ := hs.opens.exists_cons
  have hhead : s.course.modes.head? = some top := by rw [hmodes]; rfl
  have hends := hs.one_lt_length hl hfind
  rw [topMode_of_head? hhead] at hfind
  obtain ⟨hnext, first', offset, hoffset, hsearch, hhere⟩ := Matcher.find_spec hρ hfind
  have hm := Matcher.matches_of_searchFrom hρ hsearch
  obtain ⟨r, hr, hkind⟩ := hm.rule
  have hfound : s.index ≤ found.index := hoffset.trans hm.le
  have hweight := weight_move k hmove hends
  refine ⟨iterations_move hmove, hfound.trans hm.place.le, hweight, ?_⟩
  rw [hindex]
  by_cases hstays : found.index + taken = s.index
  · have heq : found.index = s.index := by omega
    refine Or.inr ⟨hstays, ?_⟩
    rw [← heq]
    refine standLeft_of_stays k hends hapart (fun id hid hlexeme => ?_) (fun hne => ?_) hmove
      (by omega)
    · rw [hhead, Option.getD_some]
      exact ⟨hl.begins (List.mem_of_getElem? hr) (hkind.trans hid), hlexeme.imp_right fun he =>
        ⟨first', env.code, offset, found, hsearch, hid, he⟩⟩
    · have hposition := hm.first_le
      rw [hhere heq] at hposition
      have hcount := env.language.rules_lt_ruleCount top
      rw [Matcher.ruleAfter] at hnext
      split at hnext <;> omega
  · exact Or.inl (by omega)

/-- **After a step less is left to be done.** -/
theorem left_step (hρ : Engine.Lawful ρ) (hl : env.language.Linking) {s s' : State ρ}
    (hs : s.course.InRange env.language) (hapart : s.course.Apart env.language)
    (h : step env s = .ok (some s')) :
    left k s'.course s'.index < left k s.course s.index := by
  obtain ⟨hi, hindex, hweight, hmoved⟩ := advances_or_stays k hρ hl hs hapart h
  rcases hmoved with hlt | ⟨hstays, ⟨hguard, hstand⟩ | hstand⟩
  · exact left_lt_of_lt k hlt hindex (by omega) hweight
  · have hpatience : s'.course.iterations < patience env.code := by
      unfold patience
      omega
    rw [hstays]
    unfold left
    rw [hstand]
    omega
  · rw [hstays]
    unfold left
    omega

/-- **A mode that leaves the text of its end to be gone through again comes to the top by an end**, so
that no mode has just begun then. -/
theorem apart_step (hl : env.language.Linking) (hreturns : env.language.ReturnsApart)
    {s s' : State ρ} (hs : s.course.InRange env.language) (hapart : s.course.Apart env.language)
    (h : step env s = .ok (some s')) : s'.course.Apart env.language := by
  obtain ⟨found, first, taken, hfind, -, hmove⟩ := step_cases h
  obtain ⟨top, rest, hmodes⟩ := hs.opens.exists_cons
  have hhead : s.course.modes.head? = some top := by rw [hmodes]; rfl
  -- what begins is a child of the top mode, so that one does not leave the text of its end
  have hbegins : ∀ {id}, found.kind = .begins id → id ∈ (env.language.mode top).children :=
    fun hid => mem_children_of_find hl hhead hfind hid
  have hkept : ∀ {top'}, s.course.modes.head? = some top' →
      (env.language.mode top').returnEnd = true → ∀ id index,
        some (found.kind, found.index) ≠ some (.begins id, index) := by
    intro top' htop' hreturn id index he
    obtain rfl : top = top' := Option.some.inj (hhead.symm.trans htop')
    have hmem := hbegins (Prod.mk.inj (Option.some.inj he)).1
    rw [(hreturns top hreturn).1] at hmem
    cases hmem
  generalize s'.course = c' at hmove
  intro top' htop' hreturn id index he
  cases hmove with
  | char hlast _ =>
    rcases hlast with rfl | rfl
    · exact hapart top' htop' hreturn id index he
    · exact hkept htop' hreturn id index he
  | text | pass => exact hkept htop' hreturn id index he
  | @begins begun hid =>
    obtain rfl : begun = top' := Option.some.inj htop'
    exact (hreturns begun hreturn).2 top (hbegins hid)
  | ends hk =>
    have hkind := (Prod.mk.inj (Option.some.inj he)).1
    rw [hk] at hkind
    cases hkind

/-! ### Runs -/

theorem failsAlone_ne_unfinished (env : Setting ρ) : FailsAlone env (· ≠ .unfinished) where
  search _ _ := by simp
  loop _ := by simp

theorem failsIn_ne_unfinished (hsub : ∀ m ∈ env.language.modes, m.subLanguage = none) :
    FailsIn env (· ≠ .unfinished) where
  toFailsAlone := failsAlone_ne_unfinished env
  embedded {s t d content p} hd _ := by
    rw [hsub _ (topMode_mem env s)] at hd
    cases hd

/-- **Where more steps may be done than is left to be done, the code is gone through to its end**, if
neither a step nor what is left at the end breaks off as long as a property holds that steps keep. -/
theorem run_ne_unfinished (hρ : Engine.Lawful ρ) (hl : env.language.Linking)
    {P : State ρ → Prop} (hkept : ∀ {s s'}, P s → step env s = .ok (some s') → P s')
    (hcourse : ∀ {s}, P s → s.course.InRange env.language ∧ s.course.Apart env.language)
    (hstep : ∀ {s}, P s → step env s ≠ .error .unfinished)
    (hfinish : ∀ {s}, P s → step env s = .ok none → finish env s ≠ .error .unfinished) :
    ∀ (steps : Nat) (s : State ρ), P s → left k s.course s.index < steps →
      run env steps s ≠ .error .unfinished
  | steps + 1, s, hs, hleft => by
    unfold run
    cases hnext : step env s with
    | error p =>
      rintro he
      obtain rfl : p = .unfinished := Except.error.inj he
      exact hstep hs hnext
    | ok next =>
      cases next with
      | none => exact hfinish hs hnext
      | some s' =>
        have hlt := left_step k hρ hl (hcourse hs).1 (hcourse hs).2 hnext
        exact run_ne_unfinished hρ hl hkept hcourse hstep hfinish steps s' (hkept hs hnext) (by omega)

/-- A step does not break off where embedded code does not. -/
theorem step_ne_unfinished (hfails : FailsIn env (· ≠ .unfinished)) (s : State ρ) :
    step env s ≠ .error .unfinished := by
  intro he
  rcases error_step hfails he with h | ⟨h, -⟩ | ⟨rule, h, -⟩
  · exact h rfl
  · cases h
  · cases h

theorem weight_le : ∀ ids : List Nat,
    weight k ids ≤ ids.length * (env.language.ruleCount + 1)
  | [] => by simp [weight]
  | id :: ids => by
    have ih := weight_le ids
    have hle := (k.starts_le id).trans env.language.size_le_ruleCount
    rw [weight_cons, List.length_cons, Nat.succ_mul]
    omega

/-- What is left at first is polynomial in the bytes, the open modes and the rules. -/
theorem left_bound (bytes frames rules limit : Nat) (hlimit : 3 ≤ limit) :
    max limit (3 * bytes) + 1 +
      (bytes + 1) * ((rules + 1) * (2 * rules + 2) + rules + 2) + (rules + 1) * (2 * rules + 2) +
        frames * (rules + 1) < (bytes + frames + rules + limit) ^ 6 := by
  generalize hn : bytes + frames + rules + limit = n
  have hplace : (rules + 1) * (2 * rules + 2) ≤ n * (2 * n) :=
    Nat.mul_le_mul (by omega) (by omega)
  have hbytes : (bytes + 1) * ((rules + 1) * (2 * rules + 2) + rules + 2) ≤
      n * (n * (2 * n) + n) := Nat.mul_le_mul (by omega) (by omega)
  have hframes : frames * (rules + 1) ≤ n * n := Nat.mul_le_mul (by omega) (by omega)
  have hsquare : n ≤ n * n := Nat.le_mul_of_pos_left n (by omega)
  have hcube : n * n ≤ n * n * n := Nat.le_mul_of_pos_right _ (by omega)
  have hmany : 27 ≤ n * n * n := by
    have hthree : 3 ≤ n := by omega
    exact Nat.mul_le_mul (Nat.mul_le_mul hthree hthree) hthree
  calc max limit (3 * bytes) + 1 +
      (bytes + 1) * ((rules + 1) * (2 * rules + 2) + rules + 2) + (rules + 1) * (2 * rules + 2) +
        frames * (rules + 1)
      ≤ 4 * n + n * (n * (2 * n) + n) + n * (2 * n) + n * n := by omega
    _ = 2 * (n * n * n) + 4 * (n * n) + 4 * n := by ring
    _ ≤ 10 * (n * n * n) := by omega
    _ < 27 * (n * n * n) := by omega
    _ ≤ n * n * n * (n * n * n) := Nat.mul_le_mul_right _ hmany
    _ = n ^ 6 := by ring

/-- **No more is left at first than steps may be done.** -/
theorem left_initial_lt (frames : List (Frame ρ)) :
    left k (initial env.language frames).course (initial env.language frames).index <
      stepBound env frames.length := by
  have hplace : placeLeft k (⟨frames.map Frame.mode, 0, 0, false, none⟩ : Course) 0 =
      placeCost env.language := placeLeft_of_not_hasBegun k fun ⟨id, hid⟩ => nomatch hid
  have hweight := weight_le k (frames.map Frame.mode)
  rw [List.length_map] at hweight
  rw [course_initial, index_initial, left, standLeft, hplace, Nat.sub_zero, Nat.sub_zero,
    ← Nat.add_assoc]
  refine Nat.lt_of_le_of_lt (Nat.add_le_add_left hweight _) ?_
  exact left_bound (Text.byteSize env.code) frames.length env.language.ruleCount iterationLimit
    (by decide)

/-- More steps than are needed change nothing. -/
theorem run_add (env : Setting ρ) (more : Nat) : ∀ (steps : Nat) (s : State ρ),
    run env steps s ≠ .error .unfinished → run env (steps + more) s = run env steps s
  | 0, _, h => absurd rfl h
  | steps + 1, s, h => by
    rw [Nat.succ_add]
    unfold run at h ⊢
    split
    · rfl
    · rfl
    · next s' hstep =>
      rw [hstep] at h
      exact run_add env more steps s' h

/-- Whether going through code with these modes open comes to its end in the steps that it may take:
it does not break off, and nothing else would come of more steps. -/
def Ends (env : Setting ρ) (frames : List (Frame ρ)) : Prop :=
  run env (stepBound env frames.length) (initial env.language frames) ≠ .error .unfinished ∧
    ∀ more, run env (stepBound env frames.length + more) (initial env.language frames) =
      run env (stepBound env frames.length) (initial env.language frames)

theorem apart_initial (l : Language ρ) (frames : List (Frame ρ)) :
    (initial l frames).course.Apart l := by
  rw [course_initial]
  exact fun _ _ _ _ _ => nofun

theorem ends_of_opens (hρ : Engine.Lawful ρ) (hl : env.language.Linking)
    (hsub : ∀ m ∈ env.language.modes, m.subLanguage = none)
    (hreturns : env.language.ReturnsApart) (hranks : Nonempty env.language.Ranks)
    {frames : List (Frame ρ)} (hframes : env.language.Opens (frames.map Frame.mode)) :
    Ends env frames := by
  obtain ⟨k⟩ := hranks
  have hfails := failsIn_ne_unfinished hsub
  have hrun := run_ne_unfinished k hρ hl
    (P := fun s => s.course.InRange env.language ∧ s.course.Apart env.language)
    (fun hs h => ⟨inRange_step hρ hl hs.1 h, apart_step hl hreturns hs.1 hs.2 h⟩) id
    (fun _ => step_ne_unfinished hfails _) (fun _ _ he => error_readContent hfails he rfl) _ _
    ⟨inRange_initial hframes, apart_initial env.language frames⟩ (left_initial_lt k frames)
  exact ⟨hrun, fun more => run_add env more _ _ hrun⟩

end Scan

/-! ### Code in a registered language -/

omit [Engine ρ] in
theorem recover_ne_unfinished {o : Options} {code name : String}
    {result : Except Problem (Outcome ρ)} (h : result ≠ .error .unfinished) :
    recover o code name result ≠ .error .unfinished := by
  unfold recover
  split
  · simp
  · next p =>
    split
    · simp
    · exact h

/-- **Going through code ends** where no language is embedded, no text of an end is gone through
again, and modes do not begin one inside the other for ever without any text being taken. -/
theorem highlight_ends (hρ : Engine.Lawful ρ) {g : Grammar} (hg : g.shelf.Ordered)
    {registered : String} {l : Language ρ} (hl : Language.compile g registered = .ok l)
    (hsub : ∀ m ∈ l.modes, m.subLanguage = none) (hreturn : ∀ m ∈ l.modes, m.returnEnd = false)
    (hcycle : ∀ id, ¬ Relation.TransGen l.BeginsAtOnce id id) {r : Registry ρ} {name key : String}
    (hr : r.resolve name = some (key, l)) (o : Options) (code : String) (ignoreIllegals : Bool)
    (continuation : Option (ModeStack ρ)) :
    (∀ depth, Scan.Ends (settingWithin r o depth key l code ignoreIllegals)
      (startingFrames key l continuation)) ∧
    highlight r o name code ignoreIllegals continuation ≠ .error .unfinished := by
  have hlinking := Language.linking_of_compile hl
  have hranks := Language.nonempty_ranks hlinking (Language.not_transGen_starts hl hg) hcycle
  have hends : ∀ depth, Scan.Ends (settingWithin r o depth key l code ignoreIllegals)
      (startingFrames key l continuation) := fun depth =>
    Scan.ends_of_opens hρ hlinking hsub (Language.returnsApart_of_forall hreturn) hranks
      (opens_startingFrames key l continuation)
  refine ⟨hends, ?_⟩
  obtain ⟨depth, hdepth⟩ := exists_highlight_eq r o code
  rw [hdepth, highlightWithin_succ, hr]
  refine recover_ne_unfinished fun he => (hends depth).1 ?_
  unfold Scan.outcome at he
  exact of_map_error he

/-! ### Keys and values -/

/-- Keys whose texts are gone through again inside of them, and the values behind them. -/
def keyed : Grammar where
  root := { contains := some [.mode 2] }
  shelf := { modes := #[
    { className := some "value", endPattern := some ";" },
    { className := some "name", beginPattern := some "[a-z]+" },
    { beginPattern := some "[a-z]+=", endPattern := some "=", returnBegin := some true,
      contains := some [.mode 1], starts := some 0 }] }

/-- Modes of which each is only followed by earlier ones do not follow each other without end. -/
theorem Shelf.ordered_of_forall {s : Shelf}
    (h : ∀ k < s.modes.size, ∀ n ∈ (s.mode k).starts, n < k) : s.Ordered := by
  refine fun key => not_transGen_of_lt id (fun {k n} hn => ?_) key
  refine h k (Decidable.byContradiction fun hk => ?_) n hn
  rw [Shelf.mode, Array.getElem?_eq_none (Nat.not_lt.mp hk)] at hn
  cases hn

theorem ordered_keyed : keyed.shelf.Ordered := Shelf.ordered_of_forall (by decide)

/-- Whether only later modes begin inside each mode, no language is embedded, and no text of an end is
gone through again. -/
def Language.isTiered (l : Language ρ) : Bool :=
  (l.modes.all fun m => m.subLanguage.isNone && !m.returnEnd) &&
    (List.range l.size).all fun id => (l.mode id).children.all (id < ·)

theorem Language.not_transGen_of_isTiered {l : Language ρ} (hl : l.Linking) (h : l.isTiered)
    (id : Nat) : ¬ Relation.TransGen l.BeginsAtOnce id id := by
  have hchildren := (Bool.and_eq_true _ _ ▸ h).2
  simp only [List.all_eq_true, List.mem_range, decide_eq_true_eq] at hchildren
  have hlt : ∀ {a b}, a < l.size → Relation.TransGen l.BeginsAtOnce a b → a < b ∧ b < l.size := by
    intro a b ha hab
    induction hab with
    | single h => exact ⟨hchildren a ha _ h.1, hl.children h.1⟩
    | tail _ h ih => exact ⟨ih.1.trans (hchildren _ ih.2 _ h.1), hl.children h.1⟩
  intro hid
  obtain ⟨k, -, hk⟩ := Relation.TransGen.tail'_iff.mp hid
  exact Nat.lt_irrefl id (hlt (hl.children hk.1) hid).1

theorem exists_compile_keyed : ∃ l : Language (Checked Regex.Tried),
    Language.compile keyed "Keyed" = .ok l ∧ l.isTiered :=
  exists_of_any (by decide +kernel)

/-- Keys and values can be gone through, from inside a value on. -/
theorem highlight_ends_keyed :
    ∃ (l : Language (Checked Regex.Tried)) (r : Registry (Checked Regex.Tried)),
      keyed.shelf.Ordered ∧ Language.compile keyed "Keyed" = .ok l ∧
        (∀ id, ¬ Relation.TransGen l.BeginsAtOnce id id) ∧
        r.resolve "Keyed" = some (Registry.fold "Keyed", l) ∧
        highlight r {} "Keyed" "x;a=b;" true
          (some ⟨Registry.fold "Keyed", [Frame.new 1, Frame.new 0]⟩) ≠ .error .unfinished := by
  obtain ⟨l, hl, htiered⟩ := exists_compile_keyed
  obtain ⟨r, -, hresolve⟩ := Registry.exists_register hl
  have hcycle := Language.not_transGen_of_isTiered (Language.linking_of_compile hl) htiered
  have hmodes := (Bool.and_eq_true _ _ ▸ htiered).1
  simp only [Array.all_eq_true_iff_forall_mem, Bool.and_eq_true, Option.isNone_iff_eq_none,
    Bool.not_eq_true'] at hmodes
  exact ⟨l, r, ordered_keyed, hl, hcycle, hresolve,
    (highlight_ends (Checked.lawful Regex.Tried) ordered_keyed hl (fun m hm => (hmodes m hm).1)
      (fun m hm => (hmodes m hm).2) hcycle hresolve {} "x;a=b;" true _).2⟩

end CodeMarkup
