import CodeMarkup.Proofs.Grammar.Thinned
import CodeMarkup.Proofs.Language.Ahead
import CodeMarkup.Proofs.Language.Mirrored
import Mathlib.Data.Option.Basic

/-! # Languages without some children

When a grammar has lost children, its modes are numbered in another way. The modes of both languages
that stand for the same in the same place are twins (`Language.Twins`): they have the same fields,
and the rules of the one are those of the other but for the begins of what is gone. So the matches
that are ahead are the same in both, but for those of modes that are gone
(`Language.ThinsTo.thinning`). -/

namespace CodeMarkup

/-! ### Twins -/

/-- Rules that do the same, modes being called by other numbers. -/
inductive RuleKind.Twin (twin : Nat → Nat → Prop) : RuleKind → RuleKind → Prop
  | begins {a b : Nat} : twin a b → Twin twin (.begins a) (.begins b)
  | ends : Twin twin .ends .ends
  | illegal : Twin twin .illegal .illegal

/-- The same match of rules that do the same. -/
structure Found.Twin (twin : Nat → Nat → Prop) (f f' : Found) : Prop where
  index : f'.index = f.index
  groups : f'.groups = f.groups
  kind : f.kind.Twin twin f'.kind

theorem Found.Twin.lexeme {twin : Nat → Nat → Prop} {f f' : Found} (h : f.Twin twin f') :
    f'.lexeme = f.lexeme := by
  unfold Found.lexeme Found.group?
  rw [h.groups]

theorem Found.Twin.blind {twin : Nat → Nat → Prop} {f f' : Found} (h : f.Twin twin f') :
    f.Twin (fun _ _ => True) f' := by
  refine ⟨h.index, h.groups, ?_⟩
  have hkind := h.kind
  generalize f.kind = kind at hkind ⊢
  generalize f'.kind = kind' at hkind ⊢
  cases hkind with
  | begins => exact .begins trivial
  | ends => exact .ends
  | illegal => exact .illegal

theorem Found.Twin.kind_begins {twin : Nat → Nat → Prop} {f f' : Found} (h : f.Twin twin f')
    {id : Nat} (hid : f.kind = .begins id) : ∃ id', twin id id' ∧ f'.kind = .begins id' := by
  have hkind := h.kind
  rw [hid] at hkind
  generalize f'.kind = kind' at hkind ⊢
  cases hkind with
  | begins hid => exact ⟨_, hid, rfl⟩

theorem Found.Twin.kind_ends {twin : Nat → Nat → Prop} {f f' : Found} (h : f.Twin twin f') :
    f'.kind = .ends ↔ f.kind = .ends := by
  have hkind := h.kind
  generalize f.kind = kind at hkind
  generalize f'.kind = kind' at hkind
  cases hkind <;> simp

/-- A guard that does not look at the numbers of modes and rules. -/
def Guard.Blind (guard : Guard) : Prop :=
  ∀ f f' memory, f.Twin (fun _ _ => True) f' → guard f' memory = guard f memory

/-- The guards of a mode do not look at the numbers of modes and rules. -/
def Mode.Blind (m : Mode) : Prop :=
  ∀ guard, m.onBegin = some guard ∨ m.onEnd = some guard → guard.Blind

/-- No guard of a grammar looks at the numbers of modes and rules. -/
def Grammar.Blind (g : Grammar) : Prop := g.root.Blind ∧ ∀ key, (g.shelf.mode key).Blind

variable {ρ : Type} [Engine ρ]

/-- A guard of a compiled mode. -/
def CompiledMode.HasGuard (m : CompiledMode ρ) (guard : Guard) : Prop :=
  m.onBegin = some guard ∨ m.onEnd = some guard

/-- The guard of a compiled mode refuses every begin. -/
def CompiledMode.Rejects (m : CompiledMode ρ) : Prop :=
  ∃ guard, m.onBegin = some guard ∧ ∀ found memory, (guard found memory).1 = false

namespace Language

/-- Two languages whose related modes have the same fields and are followed by related modes. The
roots have the same fields too. -/
structure Paired (l l' : Language ρ) (twin : Nat → Nat → Prop) : Prop where
  caseInsensitive : l'.caseInsensitive = l.caseInsensitive
  classNameAliases : l'.classNameAliases = l.classNameAliases
  bare : ∀ {a b}, twin a b → (l'.mode b).bare = (l.mode a).bare
  root : (l'.mode 0).bare = (l.mode 0).bare
  starts : ∀ {a b}, twin a b → Option.Rel twin (l.mode a).starts (l'.mode b).starts
  isSome : ∀ {a b}, twin a b → (l'.mode? b).isSome = (l.mode? a).isSome

/-- Modes that may be on top of the open modes: related ones, or the roots. -/
def OnTop (twin : Nat → Nat → Prop) (a b : Nat) : Prop := twin a b ∨ a = 0 ∧ b = 0

theorem Paired.bare_onTop {l l' : Language ρ} {twin : Nat → Nat → Prop} (h : Paired l l' twin)
    {a b : Nat} (hab : OnTop twin a b) : (l'.mode b).bare = (l.mode a).bare := by
  rcases hab with hab | ⟨rfl, rfl⟩
  · exact h.bare hab
  · exact h.root

/-- A match begins a mode whose guard refuses it, and no end that was looked for with it matches
empty text there. -/
def Passes (l : Language ρ) (m : Matcher ρ) (text : List Char) (found : Found) : Prop :=
  ∃ c, found.kind = .begins c ∧ (l.mode c).Rejects ∧
    ∀ r ∈ m.rules, r.kind = .ends → ∀ position ending,
      r.matchAt? ρ m.foldCase text found.index position = some ending → ending.lexeme ≠ ""

/-- Two languages of which the second comes upon the same matches as the first one but for begins
that are refused anyway. -/
structure Thinning (l l' : Language ρ) (twin : Nat → Nat → Prop) : Prop
    extends Paired l l' twin where
  joins : ∀ {a b}, OnTop twin a b → (l.mode a).matcher.Joins ∧ (l'.mode b).matcher.Joins
  blind : ∀ {a b}, OnTop twin a b → ∀ guard, (l.mode a).HasGuard guard → guard.Blind
  ahead : ∀ {a b}, OnTop twin a b → ∀ (text : List Char) (offset : Nat),
    Thinned (Found.Twin twin) (l.Passes (l.mode a).matcher text)
      ((l.mode a).matcher.ahead text offset 0) ((l'.mode b).matcher.ahead text offset 0)

end Language

/-! ### What is ahead in both -/

section Ahead

variable {twin : Nat → Nat → Prop} {foldCase : Bool} {text : List Char} {lost : Found → Prop}

/-- Rules that look for the same and do the same. -/
def Rule.Twin (twin : Nat → Nat → Prop) (r r' : Rule) : Prop :=
  r.kind.Twin twin r'.kind ∧ r'.source = r.source

theorem Rule.Accepted.groups_eq {r r' : Rule} (hr : r.Accepted ρ foldCase)
    (hr' : r'.Accepted ρ foldCase) (hsource : r'.source = r.source) : r'.groups = r.groups := by
  have hc := hr.checked
  have hc' := hr'.checked
  unfold Matcher.check at hc hc'
  rw [hsource] at hc'
  split at hc
  · next re hre =>
    rw [hre] at hc'
    rw [← Except.ok.inj hc, ← Except.ok.inj hc']
  · cases hc

theorem Rule.Twin.matchAt? {r r' : Rule} (h : r.Twin twin r') (hr : r.Accepted ρ foldCase)
    (hr' : r'.Accepted ρ foldCase) (offset position position' : Nat) :
    Option.Rel (Found.Twin twin) (r.matchAt? ρ foldCase text offset position)
      (r'.matchAt? ρ foldCase text offset position') := by
  unfold Rule.matchAt?
  rw [h.2, hr.groups_eq hr' h.2]
  cases (Engine.compile (Pattern.flagged r.source foldCase) : Except Regex.Fault ρ) with
  | error fault => exact .none
  | ok re =>
    dsimp only
    cases Engine.search re text offset with
    | error e => exact .none
    | ok found =>
      cases found with
      | none => exact .none
      | some c =>
        dsimp only
        split
        · exact .some ⟨rfl, rfl, h.1⟩
        · exact .none

/-- Rules of which some are gone match the same, but for what these match. -/
theorem Rule.thinned_allAt {gone : Rule → Prop} {rs rs' : List Rule} {offset : Nat}
    (h : Thinned (Rule.Twin twin) gone rs rs') (hrs : ∀ r ∈ rs, r.Accepted ρ foldCase)
    (hrs' : ∀ r ∈ rs', r.Accepted ρ foldCase)
    (hlost : ∀ r, gone r → ∀ position found,
      r.matchAt? ρ foldCase text offset position = some found → lost found) :
    ∀ position position' : Nat, Thinned (Found.Twin twin) lost
      (Rule.allAt ρ foldCase text offset position rs)
      (Rule.allAt ρ foldCase text offset position' rs') := by
  induction h with
  | nil => exact fun _ _ => .nil
  | keep hab _ ih =>
    intro position position'
    obtain ⟨hr, hrs⟩ := List.forall_mem_cons.mp hrs
    obtain ⟨hr', hrs'⟩ := List.forall_mem_cons.mp hrs'
    have hmatch : Option.Rel (Found.Twin twin)
        (Rule.matchAt? ρ foldCase text offset position _)
        (Rule.matchAt? ρ foldCase text offset position' _) :=
      hab.matchAt? hr hr' offset position position'
    have hrest := ih hrs hrs' (position + 1) (position' + 1)
    rw [Rule.allAt, Rule.allAt]
    generalize Rule.matchAt? ρ foldCase text offset position _ = found at hmatch
    generalize Rule.matchAt? ρ foldCase text offset position' _ = found' at hmatch
    cases hmatch with
    | none => exact hrest
    | some hfound => exact .keep hfound hrest
  | drop ha _ ih =>
    intro position position'
    have hrest := ih (List.forall_mem_cons.mp hrs).2 hrs' (position + 1) position'
    rw [Rule.allAt]
    cases hf : Rule.matchAt? ρ foldCase text offset position _ with
    | none => exact hrest
    | some found => exact .drop (hlost _ ha position found hf) hrest

/-- Matchers of which one has lost rules come upon the same, but for what these match. -/
theorem Matcher.thinned_ahead {gone : Rule → Prop} {m m' : Matcher ρ} (hm : m.Joins)
    (hm' : m'.Joins) (hfold : m'.foldCase = m.foldCase)
    (h : Thinned (Rule.Twin twin) gone m.rules m'.rules)
    (hlost : ∀ r, gone r → ∀ offset position found,
      r.matchAt? ρ m.foldCase text offset position = some found → lost found) (offset : Nat) :
    Thinned (Found.Twin twin) lost (m.ahead text offset 0) (m'.ahead text offset 0) := by
  have haccepted := hm'.accepted
  rw [hfold] at haccepted
  have hat : ∀ o, Thinned (Found.Twin twin) lost (Rule.allAt ρ m.foldCase text o 0 m.rules)
      (Rule.allAt ρ m.foldCase text o 0 m'.rules) := fun o =>
    Rule.thinned_allAt h hm.accepted haccepted (fun r hr => hlost r hr o) 0 0
  unfold Matcher.ahead
  rw [hfold, List.drop_zero, List.drop_zero]
  cases Text.splitAt? text offset with
  | none => exact .nil
  | some parts =>
    have hplaces : Thinned Eq (fun _ => False) (placesFrom offset parts.2).tail
        (placesFrom offset parts.2).tail := .refl _
    refine (hat offset).append (hplaces.flatMap (fun o o' he => ?_) fun _ h => h.elim)
    rw [← he]
    exact hat o

end Ahead

/-! ### Modes that stand for the same -/

namespace Language

section Twins

variable (gone : Mode → Prop) (g g' : Grammar) (l l' : Language ρ)

/-- Modes that stand for the same mode of the grammar in the same place. -/
def TwinsIn (a b : Nat) (around around' : Option Nat) : Prop :=
  ∃ m m', Stands g l a m around ∧ Stands g' l' b m' around' ∧ m.Stripped g.shelf gone m' ∧
    around'.map (fun p => (l'.mode p).terminator) = around.map fun p => (l.mode p).terminator

/-- Modes that stand for the same mode of the grammar in the same place inside another mode. -/
def Twins (a b : Nat) : Prop := ∃ p p', TwinsIn gone g g' l l' a b (some p) (some p')

/-- A mode that stands for one that is gone. -/
def IsGone (c : Nat) : Prop := ∃ m p, Stands g l c m (some p) ∧ gone m

variable {gone g g' l l'} {c b c' b' : Arena ρ} (h : g.Thins gone g') (hr : Rooted g l c b)
  (hr' : Rooted g' l' c' b')

include hr in
theorem Rooted.guards {id : Nat} {m : Mode} {around : Option Nat} (hm : Stands g l id m around) :
    (l.mode id).onBegin = m.onBegin ∧ (l.mode id).onEnd = m.onEnd := by
  obtain ⟨cm, hmirror⟩ := hr.mirrors hm
  have hfields := of_ownFields hmirror.own
  rw [hmirror.mode_eq]
  exact ⟨hfields.onBegin, hfields.onEnd⟩

include h hr hr'

/-- Twins have the same fields. -/
theorem TwinsIn.bare {a b : Nat} {around around' : Option Nat}
    (hab : TwinsIn gone g g' l l' a b around around') : (l'.mode b).bare = (l.mode a).bare := by
  obtain ⟨m, m', hm, hm', hstripped, haround⟩ := hab
  obtain ⟨cm, hmirror⟩ := hr.mirrors hm
  obtain ⟨cm', hmirror'⟩ := hr'.mirrors hm'
  have hown := hmirror'.own
  rw [haround, hstripped.fields, h.fields] at hown
  rw [hmirror.mode_eq, hmirror'.mode_eq]
  exact Except.ok.inj (hown.symm.trans hmirror.own)

omit hr hr' in
theorem twinsIn_root : TwinsIn gone g g' l l' 0 0 none none :=
  ⟨g.root, g'.root, .root, .root, h.root.stripped, rfl⟩

/-- The children of twins are twins, but for those that are gone. -/
theorem TwinsIn.children (hroot : .self ∉ g.root.contains.getD []) {a b : Nat}
    {around around' : Option Nat} (hab : TwinsIn gone g g' l l' a b around around') :
    Thinned (Twins gone g g' l l') (IsGone gone g l) (l.mode a).children (l'.mode b).children := by
  have hbare := hab.bare h hr hr'
  obtain ⟨m, m', hm, hm', hstripped, haround⟩ := hab
  obtain ⟨cm, hmirror⟩ := hr.mirrors hm
  obtain ⟨cm', hmirror'⟩ := hr'.mirrors hm'
  -- a mode contains itself only if it is inside another one
  have hinside : ∀ source ∈ g.shelf.expansion (m.contains.getD []), source = none →
      ∃ p, around = some p := by
    rintro source hsource rfl
    obtain ⟨n, hn⟩ := List.getElem?_of_mem hsource
    cases around with
    | some p => exact ⟨p, rfl⟩
    | none =>
      obtain ⟨-, rfl⟩ := hr.standsIn hm
      exact absurd (Shelf.self_mem_of_expansion hn) hroot
  rw [hmirror.mode_eq, hmirror'.mode_eq] at hbare ⊢
  refine (h.expansion hstripped).transport
    ((List.forall₂_and_left _ _).mpr ⟨hinside, hmirror.children⟩) hmirror'.children ?_ ?_
  · rintro source source' n n' hsource ⟨hin, hn⟩ hn'
    cases hsource with
    | none =>
      obtain ⟨p, rfl⟩ := hin rfl
      obtain ⟨p', rfl⟩ : ∃ p', around' = some p' := by
        cases around' with
        | none => cases haround
        | some p' => exact ⟨p', rfl⟩
      obtain rfl : n = a := hn
      obtain rfl : n' = b := hn'
      exact ⟨p, p', m, m', hm, hm', hstripped, haround⟩
    | some hsource =>
      refine ⟨a, b, _, _, hn, hn', hsource, ?_⟩
      rw [Option.map_some, Option.map_some, hmirror.mode_eq, hmirror'.mode_eq]
      exact congrArg some (CompiledMode.congr_of_bare hbare CompiledMode.terminator fun _ => rfl)
  · rintro source n hgone ⟨hin, hn⟩
    cases source with
    | none =>
      obtain ⟨p, rfl⟩ := hin rfl
      obtain rfl : n = a := hn
      exact ⟨m, p, hm, hgone⟩
    | some source => exact ⟨source, a, hn, hgone⟩

/-- Twins are followed by twins. -/
theorem Twins.starts {a b : Nat} (hab : Twins gone g g' l l' a b) :
    Option.Rel (Twins gone g g' l l') (l.mode a).starts (l'.mode b).starts := by
  obtain ⟨p, p', m, m', hm, hm', hstripped, haround⟩ := hab
  obtain ⟨cm, hmirror⟩ := hr.mirrors hm
  obtain ⟨cm', hmirror'⟩ := hr'.mirrors hm'
  have hkeys : m'.starts = m.starts := by rw [hstripped.fields]
  have hstarts := hmirror.starts
  have hstarts' := hmirror'.starts
  rw [hkeys] at hstarts'
  rw [hmirror.mode_eq, hmirror'.mode_eq]
  cases hkey : m.starts with
  | none =>
    rw [hkey, Option.isSome_none, Option.isSome_eq_false_iff,
      Option.isNone_iff_eq_none] at hstarts hstarts'
    rw [hstarts, hstarts']
    exact .none
  | some key =>
    rw [hkey, Option.isSome_some] at hstarts hstarts'
    obtain ⟨n, hn⟩ := Option.isSome_iff_exists.mp hstarts
    obtain ⟨n', hn'⟩ := Option.isSome_iff_exists.mp hstarts'
    rw [hn, hn']
    exact .some ⟨p, p', _, _, .next hm hmirror.found hkey hn,
      .next hm' hmirror'.found (hkeys.trans hkey) hn', (h.modes key).stripped, haround⟩

theorem Twins.bare {a b : Nat} (hab : Twins gone g g' l l' a b) :
    (l'.mode b).bare = (l.mode a).bare := by
  obtain ⟨p, p', hin⟩ := hab
  exact hin.bare h hr hr'

/-- The rules of twins are the same, but for the begins of what is gone. -/
theorem TwinsIn.rules (hroot : .self ∉ g.root.contains.getD []) {a b : Nat}
    {around around' : Option Nat} (hab : TwinsIn gone g g' l l' a b around around') :
    Thinned (Rule.Twin (Twins gone g g' l l'))
      (fun r => ∃ c ∈ (l.mode a).children, IsGone gone g l c ∧
        r.kind = .begins c ∧ r.source = (l.mode c).beginPattern)
      (l.mode a).matcher.rules (l'.mode b).matcher.rules := by
  have hbare := hab.bare h hr hr'
  have hchildren := hab.children h hr hr' hroot
  obtain ⟨m, m', hm, hm', -, -⟩ := hab
  obtain ⟨cm, hmirror⟩ := hr.mirrors hm
  obtain ⟨cm', hmirror'⟩ := hr'.mirrors hm'
  rw [hmirror.mode_eq, hmirror'.mode_eq] at hbare hchildren ⊢
  have hterminator := CompiledMode.congr_of_bare hbare CompiledMode.terminator fun _ => rfl
  have hillegal := CompiledMode.congr_of_bare hbare CompiledMode.illegal fun _ => rfl
  -- The rules stand behind what they look for and what they do.
  have hsources : Thinned
      (fun s s' : RuleKind × String => s.1.Twin (Twins gone g g' l l') s'.1 ∧ s'.2 = s.2)
      (fun s => ∃ c ∈ cm.children, IsGone gone g l c ∧
        s.1 = .begins c ∧ s.2 = (l.mode c).beginPattern)
      cm.matcher.sources cm'.matcher.sources := by
    rw [hmirror.rules, hmirror'.rules, rulesOf, rulesOf, hterminator, hillegal]
    refine ((hchildren.mem.map (fun c c' hc => ?_) fun c hc => ?_).append (.of_forall₂ ?_)).append
      (.of_forall₂ ?_)
    · exact ⟨.begins hc, CompiledMode.congr_of_bare (hc.bare h hr hr') CompiledMode.beginPattern
        fun _ => rfl⟩
    · exact ⟨c, hc.1, hc.2, rfl, rfl⟩
    · split
      · exact .nil
      · exact .cons ⟨.ends, rfl⟩ .nil
    · cases cm.illegal with
      | none => exact .nil
      | some pattern => exact .cons ⟨.illegal, rfl⟩ .nil
  exact hsources.of_map

end Twins

/-! ### Thinned grammars -/

/-- Where the begin of a mode matches, the end of the mode around it matches no empty text. -/
def Aside (l : Language ρ) (id c : Nat) : Prop :=
  ∀ text offset s, (l.mode id).terminator ≠ "" →
    (Pattern.spanAlone? ρ (l.mode id).matcher.foldCase text offset (l.mode c).beginPattern).isSome →
    Pattern.spanAlone? ρ (l.mode id).matcher.foldCase text offset (l.mode id).terminator = some s →
      (Text.slice? text s.start s.stop).getD [] ≠ []

/-- A grammar that is compiled with and without some children. All modes that are gone refuse every
begin, and where they would begin nothing else ends with empty text. -/
structure ThinsTo (gone : Mode → Prop) (g g' : Grammar) (name : String) (l l' : Language ρ) :
    Prop where
  thins : g.Thins gone g'
  compiled : compile g name = .ok l
  compiled' : compile g' name = .ok l'
  rejects : ∀ m, gone m → m.Rejects
  aside : ∀ {id c p m}, Stands g l c m (some p) → gone m → c ∈ (l.mode id).children → l.Aside id c
  blind : g.Blind
  joins : ∀ id, (l.mode id).matcher.Joins
  joins' : ∀ id, (l'.mode id).matcher.Joins

theorem labels_of_compile {g : Grammar} {name : String} {l : Language ρ}
    (h : compile g name = .ok l) : ∃ modes size_pos, l =
      ⟨g.name.getD name, g.aliases, g.caseInsensitive, g.disableAutodetect, g.supersetOf,
        g.classNameAliases, modes, size_pos⟩ := by
  unfold compile at h
  dsimp only at h
  split at h
  · cases h
  · split at h
    · cases h
      exact ⟨_, _, rfl⟩
    · cases h

section ThinsTo

variable {gone : Mode → Prop} {g g' : Grammar} {name : String} {l l' : Language ρ}

theorem OnTop.exists_twinsIn (h : g.Thins gone g') {i j : Nat}
    (hij : OnTop (Twins gone g g' l l') i j) :
    ∃ around around', TwinsIn gone g g' l l' i j around around' := by
  rcases hij with ⟨p, p', hin⟩ | ⟨rfl, rfl⟩
  · exact ⟨_, _, hin⟩
  · exact ⟨_, _, twinsIn_root h⟩

/-- The guards of all modes that are stood for are blind if all that is written is. -/
theorem ThinsTo.blind_of_stands (h : ThinsTo gone g g' name l l') {id : Nat} {m : Mode}
    {around : Option Nat} (hm : Stands g l id m around) : m.Blind := by
  refine hm.of_written (P := Mode.Blind) h.blind.1 h.blind.2 fun base overlay hbase hoverlay => ?_
  rintro guard (hguard | hguard)
  · rcases (Option.orElse_eq_some _ _ _).mp hguard with hguard | ⟨-, hguard⟩
    · exact hoverlay guard (Or.inl hguard)
    · exact hbase guard (Or.inl hguard)
  · rcases (Option.orElse_eq_some _ _ _).mp hguard with hguard | ⟨-, hguard⟩
    · exact hoverlay guard (Or.inr hguard)
    · exact hbase guard (Or.inr hguard)

/-- A match of the begin of a mode that is gone passes. -/
theorem ThinsTo.passes (h : ThinsTo gone g g' name l l') {id c : Nat} {m : Mode}
    {around : Option Nat} {cm : CompiledMode ρ} (hmirror : Mirrors g l id m around cm)
    (hc : c ∈ (l.mode id).children) (hgone : IsGone gone g l c) {r : Rule}
    (hkind : r.kind = .begins c) (hsource : r.source = (l.mode c).beginPattern) {text : List Char}
    {offset position : Nat} {found : Found}
    (hfound : r.matchAt? ρ (l.mode id).matcher.foldCase text offset position = some found) :
    l.Passes (l.mode id).matcher text found := by
  obtain ⟨arena, b, hr⟩ := exists_rooted h.compiled
  obtain ⟨hindex, -, hfoundKind⟩ := Rule.of_matchAt? hfound
  obtain ⟨source, p, hstands, hgone⟩ := hgone
  obtain ⟨guard, hguard, hrejects⟩ := h.rejects source hgone
  have hbegins : (r.matchAt? ρ (l.mode id).matcher.foldCase text offset position).isSome := by
    rw [hfound]
    rfl
  rw [r.isSome_matchAt?, hsource] at hbegins
  refine ⟨c, hfoundKind.trans hkind, ⟨guard, (hr.guards hstands).1.trans hguard, hrejects⟩, ?_⟩
  intro rule hrule hends position' ending hending hempty
  have hrule' := hrule
  rw [hmirror.mode_eq] at hrule'
  obtain ⟨hne, hterminator⟩ := hmirror.source_of_ends hrule' hends
  rw [← hmirror.mode_eq] at hne hterminator
  have hlexeme := @rule.lexeme_matchAt? ρ _ (l.mode id).matcher.foldCase text found.index position'
  rw [hending, Option.map_some, hempty, hterminator] at hlexeme
  obtain ⟨s, hs, he⟩ := Option.map_eq_some_iff.mp hlexeme.symm
  rw [hindex] at hs
  exact h.aside hstands hgone hc text offset s hne hbegins hs (by simpa using he)

/-- **Of a grammar that is compiled with and without some children, both languages come upon the
same matches but for begins that are refused anyway.** -/
theorem ThinsTo.thinning (h : ThinsTo gone g g' name l l') :
    Thinning l l' (Twins gone g g' l l') := by
  obtain ⟨c, b, hr⟩ := exists_rooted h.compiled
  obtain ⟨c', b', hr'⟩ := exists_rooted h.compiled'
  have hroot := not_self_mem_root h.compiled
  obtain ⟨modes, hpos, hl⟩ := labels_of_compile h.compiled
  obtain ⟨modes', hpos', hl'⟩ := labels_of_compile h.compiled'
  have hfields := h.thins.fields
  exact {
    caseInsensitive := by rw [hl, hl', hfields]
    classNameAliases := by rw [hl, hl', hfields]
    bare := fun hab => hab.bare h.thins hr hr'
    root := (twinsIn_root h.thins).bare h.thins hr hr'
    starts := fun hab => hab.starts h.thins hr hr'
    isSome := by
      rintro a b ⟨p, p', m, m', hm, hm', -⟩
      obtain ⟨cm, hmirror⟩ := hr.mirrors hm
      obtain ⟨cm', hmirror'⟩ := hr'.mirrors hm'
      rw [hmirror.found, hmirror'.found]
      rfl
    joins := fun _ => ⟨h.joins _, h.joins' _⟩
    blind := by
      intro a b hab guard hguard
      obtain ⟨around, around', m, m', hm, -⟩ := hab.exists_twinsIn h.thins
      obtain ⟨hbegin, hend⟩ := hr.guards hm
      refine h.blind_of_stands hm guard ?_
      rwa [← hbegin, ← hend]
    ahead := by
      intro i j hij text offset
      obtain ⟨around, around', hin⟩ := hij.exists_twinsIn h.thins
      have hrules := hin.rules h.thins hr hr' hroot
      obtain ⟨m, m', hm, hm', -⟩ := hin
      obtain ⟨cm, hmirror⟩ := hr.mirrors hm
      obtain ⟨cm', hmirror'⟩ := hr'.mirrors hm'
      refine Matcher.thinned_ahead (h.joins i) (h.joins' j) ?_ hrules ?_ _
      · rw [hmirror.mode_eq, hmirror'.mode_eq, hmirror.foldCase, hmirror'.foldCase, hfields]
      · rintro r ⟨c, hc, hgone, hkind, hsource⟩ offset position found hfound
        exact h.passes hmirror hc hgone hkind hsource hfound }

end ThinsTo

end Language

end CodeMarkup
