import CodeMarkup.Proofs.Language.Lawful
import CodeMarkup.Proofs.Language.Mirrored
import CodeMarkup.Proofs.Language.Words
import Mathlib

/-! # Compiling over another engine

What compiling makes of a grammar does not depend on the engine, words and prepared patterns aside:
where a grammar compiles over one engine it compiles over every engine that takes all patterns, also
with other keywords, and its modes have the same outlines there (`Language.exists_compile_resembles`).
So what the modes of a language say can be read off where no pattern has to be read (`Unread`). -/

namespace CodeMarkup

/-! ### Outlines -/

/-- A pattern that is not read. The engine takes every pattern and finds nothing. -/
structure Unread where

instance : Engine Unread where
  compile _ := .ok ⟨⟩
  groupCount _ := 0
  search _ _ _ := .ok none
  occurrences _ _ := .ok []

/-- Whether an engine takes all patterns. -/
def Engine.TakesAll (ρ : Type) [Engine ρ] : Prop :=
  ∀ source, ∃ re : ρ, Engine.compile source = .ok re

theorem Unread.takesAll : Engine.TakesAll Unread := fun _ => ⟨⟨⟩, rfl⟩

section Outline

variable {ρ : Type} [Engine ρ]

/-- The rules of a matcher without their groups. -/
def Matcher.outline (m : Matcher ρ) : Matcher Unread :=
  .ofChecked (m.rules.map fun r => ⟨r.kind, r.source, 0⟩) m.foldCase

/-- A compiled mode without its words and without prepared patterns. -/
def CompiledMode.outline (m : CompiledMode ρ) : CompiledMode Unread :=
  { m with
    endRegex := none
    keywords := none
    keywordPattern := ⟨"", ⟨⟩⟩
    matcher := m.matcher.outline }

theorem Matcher.outline_ofChecked {checked : List Rule} {foldCase : Bool}
    {rules : List (RuleKind × String)} (h : checked.map (fun r => (r.kind, r.source)) = rules) :
    (Matcher.ofChecked checked foldCase : Matcher ρ).outline =
      .ofChecked (rules.map fun r => ⟨r.1, r.2, 0⟩) foldCase := by
  subst h
  rw [List.map_map]
  rfl

end Outline

/-! ### Words -/

/-- A mode as if it had no keywords. -/
def Mode.wordless (m : Mode) : Mode := { m with keywords := none, lexemes := none }

/-- The modes of a shelf as if they had no keywords. -/
def Shelf.wordless (s : Shelf) : Shelf := { s with modes := s.modes.map Mode.wordless }

/-- A grammar as if it had no keywords. -/
def Grammar.wordless (g : Grammar) : Grammar :=
  { g with root := g.root.wordless, shelf := g.shelf.wordless }

namespace Mode

variable {foldCase : Bool} {m m' : Mode}

/-- Modes that are the same without their keywords only differ in these. -/
theorem eq_of_wordless (h : m.wordless = m'.wordless) :
    m = { m' with keywords := m.keywords, lexemes := m.lexemes } := by
  cases m
  cases m'
  simpa [wordless] using h

/-- What does not look at the keywords of a mode is the same for modes that are the same without them.
-/
theorem congr_of_wordless (h : m.wordless = m'.wordless) {α : Type} (f : Mode → α)
    (hf : ∀ m, f m.wordless = f m) : f m = f m' := by
  rw [← hf m, h, hf m']

theorem wordless_merge (base overlay : Mode) :
    (base.merge overlay).wordless = base.wordless.merge overlay.wordless := rfl

theorem wordless_wordless (m : Mode) : m.wordless.wordless = m.wordless := rfl

theorem Worded.wordless (h : m.Worded foldCase) : m.wordless.Worded foldCase :=
  ⟨h.begins, rfl, nofun⟩

end Mode

theorem Shelf.wordless_mode {s s' : Shelf} (h : s.wordless = s'.wordless) (key : Key) :
    (s.mode key).wordless = (s'.mode key).wordless := by
  have hmodes := congrArg (fun s : Shelf => s.modes[key]?) h
  simp only [wordless, Array.getElem?_map] at hmodes
  unfold mode
  cases hs : s.modes[key]? <;> cases hs' : s'.modes[key]? <;> simp_all

section Shelf

variable {s s' : Shelf} (h : s.wordless = s'.wordless)

include h

theorem Shelf.inSlot?_of_wordless (slot : Nat) : s.inSlot? slot = s'.inSlot? slot :=
  congrArg (·.inSlot? slot) h

theorem Shelf.size_of_wordless : s.modes.size = s'.modes.size := by
  simpa [wordless] using congrArg (fun s : Shelf => s.modes.size) h

theorem Shelf.places_of_wordless : s.places = s'.places := by
  have hvariants : ∀ key, (s.mode key).variants = (s'.mode key).variants := fun key =>
    Mode.congr_of_wordless (Shelf.wordless_mode h key) Mode.variants fun _ => rfl
  simp only [places, Shelf.size_of_wordless h, hvariants]

/-- Keywords say nothing about which ends depend on the mode around. -/
theorem Shelf.dependsOnParentWithin_of_wordless : ∀ (steps : Nat) {m m' : Mode},
    m.wordless = m'.wordless → s.dependsOnParentWithin steps m = s'.dependsOnParentWithin steps m'
  | 0, _, _, _ => rfl
  | steps + 1, m, m', hm => by
    have hends : m.endsWithParent = m'.endsWithParent := Mode.congr_of_wordless hm Mode.endsWithParent fun _ => rfl
    have hstarts : m.starts = m'.starts := Mode.congr_of_wordless hm Mode.starts fun _ => rfl
    rw [dependsOnParentWithin_succ, dependsOnParentWithin_succ, hends, hstarts]
    have hnext := fun key =>
      Shelf.dependsOnParentWithin_of_wordless steps (Shelf.wordless_mode h key)
    simp only [hnext]

theorem Shelf.dependsOnParent_of_wordless {m m' : Mode} (hm : m.wordless = m'.wordless) :
    s.dependsOnParent m = s'.dependsOnParent m' := by
  rw [dependsOnParent, dependsOnParent, Shelf.size_of_wordless h,
    Shelf.dependsOnParentWithin_of_wordless h _ hm]

end Shelf

theorem Shelf.wordless_wordless (s : Shelf) : s.wordless.wordless = s.wordless := by
  simp [wordless, Function.comp_def, Mode.wordless_wordless]

theorem Grammar.wordless_wordless (g : Grammar) : g.wordless.wordless = g.wordless := by
  rw [wordless, wordless, Shelf.wordless_wordless, Mode.wordless_wordless]

theorem Grammar.Worded.wordless {g : Grammar} (h : g.Worded) : g.wordless.Worded where
  root := h.root.wordless
  shelf m hm := by
    obtain ⟨written, hwritten, rfl⟩ := Array.mem_map.mp hm
    exact (h.shelf written hwritten).wordless

namespace Language

variable {ρ σ : Type} [Engine ρ] [Engine σ]

/-! ### The fields of one mode -/

/-- A result that comes out wherever another one does, and is related to it. -/
def Follows {ε α β : Type} (V : α → β → Prop) (x : Except ε α) (y : Except ε β) : Prop :=
  ∀ v, x = .ok v → ∃ w, y = .ok w ∧ V v w

namespace Follows

variable {ε α β γ δ : Type} {V : α → β → Prop} {W : γ → δ → Prop} {x : Except ε α} {y : Except ε β}

theorem pure {v : α} {w : β} (h : V v w) : Follows (ε := ε) V (.ok v) (.ok w) := fun _ hv => by
  cases hv
  exact ⟨w, rfl, h⟩

theorem bind {f : α → Except ε γ} {g : β → Except ε δ} (h : Follows V x y)
    (hf : ∀ v w, V v w → Follows W (f v) (g w)) : Follows W (x >>= f) (y >>= g) := fun r hr => by
  obtain ⟨v, hv, hr⟩ := of_bind_ok hr
  obtain ⟨w, rfl, hvw⟩ := h v hv
  exact hf v w hvw r hr

/-- What comes out anyway comes out wherever something else does. -/
theorem of_ok (h : ∃ w, y = .ok w) : Follows (fun _ _ => True) x y := fun _ _ =>
  h.imp fun _ hw => ⟨hw, trivial⟩

end Follows

theorem exists_prepare (hσ : Engine.TakesAll σ) (foldCase : Bool) (source : String) :
    ∃ re : Prepared σ, prepare foldCase source = .ok re := by
  obtain ⟨re, hre⟩ := hσ (Pattern.flagged source foldCase)
  unfold prepare Prepared.compile
  rw [hre]
  exact ⟨_, rfl⟩

theorem exists_mapM_prepare (hσ : Engine.TakesAll σ) (foldCase : Bool) :
    ∀ pattern : Option String, ∃ re : Option (Prepared σ), pattern.mapM (prepare foldCase) = .ok re
  | none => ⟨none, rfl⟩
  | some source => by
    obtain ⟨re, hre⟩ := exists_prepare hσ foldCase source
    exact ⟨some re, by rw [Option.mapM_some, hre]; rfl⟩

theorem beginWords_of_none {m : Mode} (h : m.beginKeywords = none) (begin? : Option String)
    (isRoot : Bool) : beginWords m begin? isRoot = ⟨begin?, m.keywords, m.relevance, false⟩ := by
  simp [beginWords, h]

/-- The fields of a mode are the same over every engine and with all keywords. -/
theorem follows_ownFields (hσ : Engine.TakesAll σ) {foldCase : Bool} {m m' : Mode}
    (hm : m.wordless = m'.wordless) (hwords : m'.Worded foldCase) (terminator : Option String) :
    Follows (fun (own : CompiledMode ρ) (own' : CompiledMode σ) =>
        own.outline = own'.outline ∧ own.matcher = .empty)
      (ownFields foldCase m terminator) (ownFields foldCase m' terminator) := by
  have hbegins : m.beginKeywords = none := (congrArg Mode.beginKeywords hm).trans hwords.begins
  have hwritten : writtenBegin m = writtenBegin m' := by
    rw [Mode.eq_of_wordless hm]
    rfl
  obtain ⟨source, hsource, htable⟩ := hwords.exists_words
  unfold ownFields
  refine .bind (V := Eq) (fun v hv => ⟨v, hwritten ▸ hv, rfl⟩) fun written _ he => ?_
  subst he
  rw [beginWords_of_none hbegins, beginWords_of_none hwords.begins]
  refine .bind (.of_ok ⟨source, hsource⟩) fun _ _ _ => ?_
  refine .bind (.of_ok (exists_prepare hσ ..)) fun _ _ _ => ?_
  refine .bind (.of_ok htable) fun _ _ _ => ?_
  refine .bind (.of_ok (exists_mapM_prepare hσ ..)) fun _ _ _ => .pure ⟨?_, rfl⟩
  rw [Mode.eq_of_wordless hm]
  rfl

/-! ### Rules -/

theorem exists_check (hσ : Engine.TakesAll σ) (kind : RuleKind) (source : String) :
    ∃ r, Matcher.check σ kind source = .ok r := by
  obtain ⟨re, hre⟩ := hσ source
  unfold Matcher.check
  rw [hre]
  exact ⟨_, rfl⟩

theorem exists_mapM_check (hσ : Engine.TakesAll σ) : ∀ rules : List (RuleKind × String),
    ∃ checked, rules.mapM (fun (kind, source) => Matcher.check σ kind source) = .ok checked
  | [] => ⟨[], rfl⟩
  | (kind, source) :: rules => by
    obtain ⟨r, hr⟩ := exists_check hσ kind source
    obtain ⟨rs, hrs⟩ := exists_mapM_check hσ rules
    refine ⟨r :: rs, ?_⟩
    rw [List.mapM_cons]
    dsimp only
    rw [hr, hrs]
    rfl

theorem exists_ofRules_choice (hσ : Engine.TakesAll σ) (all : List Rule) (foldCase : Bool)
    (first : Nat) : ∃ ch : Choice σ, Choice.ofRules all foldCase first = .ok ch := by
  unfold Choice.ofRules
  dsimp only
  split
  · exact ⟨_, rfl⟩
  · obtain ⟨re, hre⟩ := hσ (Pattern.flagged
      (Pattern.join ((all.drop first).map Rule.source) "|") foldCase)
    rw [hre]
    exact ⟨_, rfl⟩

/-- Where all patterns are taken every row of rules has a matcher. -/
theorem exists_ofRules (hσ : Engine.TakesAll σ) (rules : List (RuleKind × String))
    (foldCase : Bool) : ∃ m : Matcher σ, Matcher.ofRules rules foldCase = .ok m := by
  obtain ⟨checked, hchecked⟩ := exists_mapM_check hσ rules
  obtain ⟨ch, hch⟩ := exists_ofRules_choice hσ checked foldCase 0
  refine ⟨.ofChecked checked foldCase, ?_⟩
  unfold Matcher.ofRules
  rw [hchecked]
  dsimp only [bind, Except.bind]
  split
  · rfl
  · next lazy hlazy =>
    rw [Matcher.getElem?_choices, if_pos (Nat.lt_of_lt_of_le Nat.one_pos (Nat.le_max_right _ _))]
      at hlazy
    cases hlazy
    simp only [Thunk.get, Matcher.ofChecked, hch]
    rfl

theorem checked_of_check : ∀ {rules : List (RuleKind × String)} {checked : List Rule},
    rules.mapM (fun (kind, source) => Matcher.check ρ kind source) = .ok checked →
      ∀ r ∈ checked, Matcher.check ρ r.kind r.source = .ok r
  | [], checked, h => by
    cases h
    nofun
  | (kind, source) :: rules, checked, h => by
    rw [List.mapM_cons] at h
    obtain ⟨r, hr, h⟩ := of_bind_ok h
    obtain ⟨rs, hrs, h⟩ := of_bind_ok h
    cases h
    refine List.forall_mem_cons.mpr ⟨?_, checked_of_check hrs⟩
    have hr' := hr
    dsimp only at hr'
    unfold Matcher.check at hr'
    split at hr'
    · cases hr'
      exact hr
    · cases hr'

/-- The rules of a mode get the same matcher over every engine, groups aside. -/
theorem follows_ofRules (hσ : Engine.TakesAll σ) (rules : List (RuleKind × String))
    (foldCase : Bool) :
    Follows (fun (m : Matcher ρ) (m' : Matcher σ) => m.outline = m'.outline ∧
        ∀ r ∈ m.rules, Matcher.check ρ r.kind r.source = .ok r)
      (Matcher.ofRules rules foldCase) (Matcher.ofRules rules foldCase) := by
  intro m hm
  obtain ⟨m', hm'⟩ := exists_ofRules hσ rules foldCase
  obtain ⟨checked, hchecked, rfl⟩ := exists_checked_of_ofRules hm
  obtain ⟨checked', hchecked', rfl⟩ := exists_checked_of_ofRules hm'
  refine ⟨_, hm', ?_, checked_of_check hchecked⟩
  rw [Matcher.outline_ofChecked (sources_of_check hchecked),
    Matcher.outline_ofChecked (sources_of_check hchecked')]

/-! ### Arenas -/

/-- Arenas over two engines that know the same modes, which have the same outlines; the rules of the
first one have been looked over. -/
structure Arena.Resembles (a : Arena ρ) (a' : Arena σ) : Prop where
  known : a.known = a'.known
  outlines : a.modes.map CompiledMode.outline = a'.modes.map CompiledMode.outline
  checked : ∀ m ∈ a.modes, ∀ r ∈ m.matcher.rules, Matcher.check ρ r.kind r.source = .ok r

namespace Arena.Resembles

theorem empty : ({} : Arena ρ).Resembles ({} : Arena σ) where
  known := rfl
  outlines := by simp
  checked m hm := by simp at hm

variable {a : Arena ρ} {a' : Arena σ} (h : a.Resembles a')

include h

theorem outline (id : Nat) :
    a.modes[id]?.map CompiledMode.outline = a'.modes[id]?.map CompiledMode.outline := by
  have h := congrArg (·[id]?) h.outlines
  simpa only [Array.getElem?_map] using h

theorem size : a.modes.size = a'.modes.size := by
  simpa using congrArg Array.size h.outlines

/-- What is said of the outline of a mode is the same in both arenas. -/
theorem map_outline {α : Type} (f : CompiledMode Unread → α) (id : Nat) :
    a.modes[id]?.map (fun m => f m.outline) = a'.modes[id]?.map fun m => f m.outline := by
  have h := congrArg (Option.map f) (h.outline id)
  rwa [Option.map_map, Option.map_map] at h

theorem terminator (id : Nat) : a.terminator id = a'.terminator id :=
  congrArg (Option.getD · "") (h.map_outline (·.terminator) id)

theorem rules (id : Nat) (children : List Nat) : a.rules id children = a'.rules id children := by
  have hbegin : ∀ c : Nat, a.modes[c]?.map (·.beginPattern) = a'.modes[c]?.map (·.beginPattern) :=
    h.map_outline (·.beginPattern)
  have hown := h.map_outline (fun m => (m.terminator, m.illegal)) id
  unfold Arena.rules
  simp only [hbegin]
  revert hown
  cases a.modes[id]? <;> cases a'.modes[id]? <;> intro hown
  · rfl
  · cases hown
  · cases hown
  · next m m' =>
    obtain ⟨hterminator, hillegal⟩ := Prod.mk.inj (Option.some.inj hown)
    change m.terminator = m'.terminator at hterminator
    change m.illegal = m'.illegal at hillegal
    dsimp only
    rw [hterminator, hillegal]

theorem add {own : CompiledMode ρ} {own' : CompiledMode σ} (hown : own.outline = own'.outline)
    (hempty : own.matcher = .empty) (i : Option Identity) : (a.add own i).Resembles (a'.add own' i) where
  known := by rw [Arena.add, Arena.add, h.known, h.size]
  outlines := by rw [Arena.add, Arena.add, Array.map_push, Array.map_push, h.outlines, hown]
  checked m hm r hr := by
    rcases Array.mem_push.mp hm with hm | rfl
    · exact h.checked m hm r hr
    · rw [hempty] at hr
      cases hr

theorem link {matcher : Matcher ρ} {matcher' : Matcher σ} (hmatcher : matcher.outline = matcher'.outline)
    (hchecked : ∀ r ∈ matcher.rules, Matcher.check ρ r.kind r.source = .ok r) (id : Nat)
    (children : List Nat) (starts : Option Nat) :
    (a.link id children starts matcher).Resembles (a'.link id children starts matcher') where
  known := h.known
  outlines := by
    refine Array.ext_getElem? fun k => ?_
    rw [Array.getElem?_map, Array.getElem?_map]
    by_cases hk : k = id
    · subst hk
      rw [getElem?_link_self, getElem?_link_self, Option.map_map, Option.map_map]
      have hown := h.map_outline
        (fun m : CompiledMode Unread => { m with children, starts, matcher := matcher.outline }) k
      refine hown.trans ?_
      rw [hmatcher]
      rfl
    · rw [getElem?_link_ne a hk, getElem?_link_ne a' hk]
      exact h.outline k
  checked m hm r hr := by
    obtain ⟨k, hk⟩ := Array.mem_iff_getElem?.mp hm
    by_cases hid : k = id
    · subst hid
      rw [getElem?_link_self] at hk
      obtain ⟨m, -, rfl⟩ := Option.map_eq_some_iff.mp hk
      exact hchecked r hr
    · rw [getElem?_link_ne a hid] at hk
      exact h.checked m (Array.mem_of_getElem? hk) r hr

end Arena.Resembles

/-! ### Runs -/

/-- A run that comes out wherever another one does over another engine, with a related result, and
leads from arenas that resemble each other to such arenas. -/
def Simulates {α β : Type} (V : α → β → Prop) (x : Compiling ρ α) (y : Compiling σ β) : Prop :=
  ∀ a a', a.Resembles a' → Follows (fun p q => V p.1 q.1 ∧ p.2.Resembles q.2) (x a) (y a')

namespace Simulates

variable {α β γ δ : Type} {V : α → β → Prop} {W : γ → δ → Prop} {x : Compiling ρ α}
  {y : Compiling σ β}

theorem pure {v : α} {w : β} (h : V v w) :
    Simulates V (Pure.pure v : Compiling ρ α) (Pure.pure w : Compiling σ β) :=
  fun _ _ ha => Follows.pure ⟨h, ha⟩

theorem bind {f : α → Compiling ρ γ} {g : β → Compiling σ δ} (h : Simulates V x y)
    (hf : ∀ v w, V v w → Simulates W (f v) (g w)) : Simulates W (x >>= f) (y >>= g) :=
  fun a a' ha => (h a a' ha).bind fun p q hpq => hf p.1 q.1 hpq.1 p.2 q.2 hpq.2

theorem lift {x : Except GrammarProblem α} {y : Except GrammarProblem β} (h : Follows V x y) :
    Simulates V (liftM x : Compiling ρ α) (liftM y : Compiling σ β) := fun _ _ ha =>
  h.bind fun _ _ hvw => Follows.pure ⟨hvw, ha⟩

theorem get : Simulates Arena.Resembles (MonadState.get : Compiling ρ (Arena ρ))
    (MonadState.get : Compiling σ (Arena σ)) := fun _ _ ha => Follows.pure ⟨ha, ha⟩

theorem set {a : Arena ρ} {a' : Arena σ} (ha : a.Resembles a') :
    Simulates (fun _ _ => True) (MonadState.set a : Compiling ρ PUnit)
      (MonadState.set a' : Compiling σ PUnit) := fun _ _ _ => Follows.pure ⟨trivial, ha⟩

theorem modify {f : Arena ρ → Arena ρ} {g : Arena σ → Arena σ}
    (h : ∀ {a a'}, a.Resembles a' → (f a).Resembles (g a')) :
    Simulates (fun _ _ => True) (modify f : Compiling ρ PUnit) (modify g : Compiling σ PUnit) :=
  fun _ _ ha => Follows.pure ⟨trivial, h ha⟩

end Simulates

/-- Two ways to number modes that do the same over two engines and with other keywords. -/
def SimulatesNumbering (foldCase : Bool)
    (compile : Mode → Option Identity → Option Nat → Compiling ρ Nat)
    (compile' : Mode → Option Identity → Option Nat → Compiling σ Nat) : Prop :=
  ∀ m m', m.wordless = m'.wordless → m'.Worded foldCase → ∀ i parent,
    Simulates Eq (compile m i parent) (compile' m' i parent)

section Runs

variable {shelf shelf' : Shelf} {foldCase : Bool}
  {compile : Mode → Option Identity → Option Nat → Compiling ρ Nat}
  {compile' : Mode → Option Identity → Option Nat → Compiling σ Nat}
  (hshelf : shelf.wordless = shelf'.wordless)
  (hwords : ∀ key, (shelf'.mode key).Worded foldCase)
  (hcompile : SimulatesNumbering foldCase compile compile')

include hshelf

theorem identity_of_wordless {m m' : Mode} (hm : m.wordless = m'.wordless) (key : Key)
    (variant parent : Option Nat) :
    identity shelf key variant m parent = identity shelf' key variant m' parent := by
  rw [identity, identity, Shelf.dependsOnParent_of_wordless hshelf hm]

include hwords hcompile

theorem simulates_variantIds (key : Key) {m m' : Mode} (hm : m.wordless = m'.wordless)
    (hworded : m'.Worded foldCase) (parent : Nat) : ∀ (n : Nat) (vs : List Key),
      Simulates Eq (variantIds shelf compile key m parent n vs)
        (variantIds shelf' compile' key m' parent n vs)
  | _, [] => .pure rfl
  | n, v :: vs => by
    have hv := Shelf.wordless_mode hshelf v
    have hvariants : (shelf.mode v).variants = (shelf'.mode v).variants :=
      Mode.congr_of_wordless hv Mode.variants fun _ => rfl
    have hmerge : (m.merge (shelf.mode v)).wordless = (m'.merge (shelf'.mode v)).wordless := by
      rw [Mode.wordless_merge, Mode.wordless_merge, hm, hv]
    rw [variantIds, variantIds, hvariants]
    by_cases hnested : (shelf'.mode v).variants.any (!·.isEmpty)
    · simp only [hnested, if_true]
      exact fun _ _ _ _ h => by cases h
    · simp only [hnested]
      rw [identity_of_wordless hshelf hmerge]
      refine .bind (hcompile _ _ hmerge (hworded.merge (hwords v)) _ _) fun id _ he => he ▸ ?_
      exact .bind (simulates_variantIds key hm hworded parent (n + 1) vs)
        fun ids _ he => he ▸ .pure rfl

theorem simulates_expand (key : Key) (parent : Nat) :
    Simulates Eq (expand shelf compile key parent) (expand shelf' compile' key parent) := by
  have hm := Shelf.wordless_mode hshelf key
  have hvariants : (shelf.mode key).variants = (shelf'.mode key).variants :=
    Mode.congr_of_wordless hm Mode.variants fun _ => rfl
  unfold expand
  simp only [hvariants]
  split
  · exact simulates_variantIds hshelf hwords hcompile key hm (hwords key) parent 0 _
  · rw [identity_of_wordless hshelf hm]
    exact .bind (hcompile _ _ hm (hwords key) _ _) fun id _ he => he ▸ .pure rfl

theorem simulates_childIds (id : Nat) : ∀ cs : List Child,
    Simulates Eq (childIds shelf compile id cs) (childIds shelf' compile' id cs)
  | [] => .pure rfl
  | .self :: cs => by
    rw [childIds, childIds]
    exact .bind (simulates_childIds id cs) fun ids _ he => he ▸ .pure rfl
  | .mode key :: cs => by
    rw [childIds, childIds]
    refine .bind (simulates_expand hshelf hwords hcompile key id) fun ids _ he => he ▸ ?_
    exact .bind (simulates_childIds id cs) fun ids _ he => he ▸ .pure rfl
  | .late slot :: cs => by
    rw [childIds, childIds, Shelf.inSlot?_of_wordless hshelf]
    cases shelf'.inSlot? slot with
    | none => exact fun _ _ _ _ h => by cases h
    | some key =>
      refine .bind (simulates_expand hshelf hwords hcompile key id) fun ids _ he => he ▸ ?_
      exact .bind (simulates_childIds id cs) fun ids _ he => he ▸ .pure rfl

theorem simulates_followIds (parent : Option Nat) : ∀ key : Option Key,
    Simulates Eq (followIds shelf compile parent key) (followIds shelf' compile' parent key)
  | none => .pure rfl
  | some key => by
    have hm := Shelf.wordless_mode hshelf key
    rw [followIds, followIds, identity_of_wordless hshelf hm, map_eq_pure_bind, map_eq_pure_bind]
    exact .bind (hcompile _ _ hm (hwords key) _ _) fun id _ he => he ▸ .pure rfl

/-- A new mode is numbered in the same way over another engine. -/
theorem simulates_numberNew (hσ : Engine.TakesAll σ) {m m' : Mode} (hm : m.wordless = m'.wordless)
    (hworded : m'.Worded foldCase) (i : Option Identity) (parent : Option Nat) :
    Simulates Eq (numberNew shelf compile foldCase m i parent)
      (numberNew shelf' compile' foldCase m' i parent) := by
  have hcontains : m.contains = m'.contains := Mode.congr_of_wordless hm Mode.contains fun _ => rfl
  have hstarts : m.starts = m'.starts := Mode.congr_of_wordless hm Mode.starts fun _ => rfl
  unfold numberNew
  refine .bind .get fun a a' ha => ?_
  have hterminator : parent.map a.terminator = parent.map a'.terminator :=
    congrArg (parent.map ·) (funext ha.terminator)
  rw [hterminator, hcontains, hstarts, ha.size]
  refine .bind (.lift (follows_ownFields hσ hm hworded _)) fun own own' hown => ?_
  refine .bind (.set (ha.add hown.1 hown.2 i)) fun _ _ _ => ?_
  refine .bind (simulates_childIds hshelf hwords hcompile _ _) fun children _ he => he ▸ ?_
  refine .bind (simulates_followIds hshelf hwords hcompile _ _) fun starts _ he => he ▸ ?_
  refine .bind .get fun b b' hb => ?_
  rw [hb.rules]
  refine .bind (.lift (follows_ofRules hσ _ _)) fun matcher matcher' hmatcher => ?_
  exact .bind (.modify fun hc => hc.link hmatcher.1 hmatcher.2 _ _ _) fun _ _ _ => .pure rfl

end Runs

/-- Modes are numbered in the same way over another engine, however deep they are followed. -/
theorem simulates_compileMode (hσ : Engine.TakesAll σ) {shelf shelf' : Shelf} {foldCase : Bool}
    (hshelf : shelf.wordless = shelf'.wordless) (hwords : ∀ key, (shelf'.mode key).Worded foldCase) :
    ∀ depth, SimulatesNumbering (ρ := ρ) (σ := σ) foldCase (compileMode shelf foldCase depth)
      (compileMode shelf' foldCase depth)
  | 0 => by
    intro _ _ _ _ _ _ _ _ _ _ h
    cases h
  | depth + 1 => by
    intro m m' hm hworded i parent a a' ha
    have hknown : i.bind a.number? = i.bind a'.number? := by
      unfold Arena.number?
      rw [ha.known]
    rw [compileMode_succ, compileMode_succ, hknown]
    cases i.bind a'.number? with
    | some id => exact .pure ⟨rfl, ha⟩
    | none =>
      exact simulates_numberNew hshelf hwords (simulates_compileMode hσ hshelf hwords depth) hσ hm
        hworded i parent a a' ha

/-! ### Grammars -/

/-- Languages over two engines whose modes have the same outlines, the rules of the first one having
been looked over. -/
structure Resembles (l : Language ρ) (l' : Language σ) : Prop where
  outlines : l.modes.map CompiledMode.outline = l'.modes.map CompiledMode.outline
  checked : ∀ m ∈ l.modes, ∀ r ∈ m.matcher.rules, Matcher.check ρ r.kind r.source = .ok r

theorem simulates_compileRoot (hσ : Engine.TakesAll σ) {g g' : Grammar}
    (hg : g.wordless = g'.wordless) (hwords : g'.Worded) :
    Simulates Eq (compileRoot g : Compiling ρ Nat) (compileRoot g' : Compiling σ Nat) := by
  have hroot : g.root.wordless = g'.root.wordless := congrArg Grammar.root hg
  have hshelf : g.shelf.wordless = g'.shelf.wordless := congrArg Grammar.shelf hg
  have hcontains : g.root.contains = g'.root.contains :=
    Mode.congr_of_wordless hroot Mode.contains fun _ => rfl
  have hbound : depthBound g.shelf = depthBound g'.shelf := by
    rw [depthBound, depthBound, Shelf.places_of_wordless hshelf]
  have hfold : g.wordless.caseInsensitive = g'.wordless.caseInsensitive :=
    congrArg Grammar.caseInsensitive hg
  change g.caseInsensitive = g'.caseInsensitive at hfold
  unfold compileRoot
  rw [hcontains, hbound, hfold]
  by_cases hself : (g'.root.contains.getD []).contains .self
  · simp only [hself, if_true]
    exact fun _ _ _ _ h => by cases h
  · simp only [hself]
    exact simulates_compileMode hσ hshelf hwords.mode _ _ _ hroot hwords.root none none

/-- **A grammar that compiles over one engine compiles over every engine that takes all patterns**,
also with other keywords, and its modes have the same outlines there. -/
theorem exists_compile_resembles (hσ : Engine.TakesAll σ) {g g' : Grammar}
    (hg : g.wordless = g'.wordless) (hwords : g'.Worded) {name : String} {l : Language ρ}
    (h : compile g name = .ok l) :
    ∃ l' : Language σ, compile g' name = .ok l' ∧ l.Resembles l' := by
  obtain ⟨id, b, hroot, hmodes⟩ := exists_compileRoot h
  obtain ⟨⟨id', b'⟩, hroot', -, hb⟩ := simulates_compileRoot hσ hg hwords _ _ .empty _ hroot
  obtain ⟨l', hl', hmodes'⟩ := exists_compile_of_root hroot' (hb.size ▸ hmodes ▸ l.size_pos) name
  exact ⟨l', hl', by rw [hmodes, hmodes', hb.outlines], hmodes ▸ hb.checked⟩

end Language

end CodeMarkup
