import CodeMarkup.Proofs.Registry.Lookup
import Mathlib.Data.List.Induction
import Mathlib.Order.Nat

/-! # The history of a registry

A registry is made by a row of changes, some of which may be refused. The names of its languages
stand in the order of the registrations that followed their last removal, whatever has been refused,
registered again or added as an alias in between (`Registry.orderly_run`). -/

namespace CodeMarkup

variable {ρ : Type} [Engine ρ]

namespace Registry

/-! ### Changes -/

/-- What may be asked of a registry. -/
inductive Change where
  | register (name : String) (g : Grammar)
  | unregister (name : String)
  | registerAliases (aliases : List String) (name : String)

/-- What a change does to the names of languages. -/
inductive Mark where
  | registered (key : String)
  | removed (key : String)
  deriving DecidableEq, Repr

/-- The registry after a change, which is as before when the change is refused. -/
def after (r : Registry ρ) : Change → Registry ρ
  | .register name g =>
    match r.register name g with
    | .ok r' => r'
    | .error _ => r
  | .unregister name => (r.unregister name).getD r
  | .registerAliases aliases name => r.registerAliases aliases name

/-- What a change does to the names, unless it is refused. -/
def mark? (r : Registry ρ) : Change → Option Mark
  | .register name g => if (r.register name g).isOk then some (.registered (fold name)) else none
  | .unregister name => if (r.unregister name).isSome then some (.removed (fold name)) else none
  | .registerAliases .. => none

/-- Whether a grammar is refused that is to be registered, or a language is not there that is to be
dropped. -/
def Refuses (r : Registry ρ) : Change → Prop
  | .register name g => ∃ p, r.register name g = .error p
  | .unregister name => r.unregister name = none
  | .registerAliases .. => False

variable (ρ) in
/-- The registry that a row of changes makes. -/
def run (changes : List Change) : Registry ρ := changes.foldl after empty

/-- What a row of changes does to the names. -/
def marksFrom (r : Registry ρ) : List Change → List Mark
  | [] => []
  | c :: cs => (r.mark? c).toList ++ (r.after c).marksFrom cs

variable (ρ) in
/-- The history of the names. -/
def history (changes : List Change) : List Mark := marksFrom (empty : Registry ρ) changes

/-- A registration in a history that is not followed by a removal of the name. -/
structure Standing (marks : List Mark) (key : String) (place : Nat) : Prop where
  registered : marks[place]? = some (.registered key)
  kept : ∀ later, place < later → marks[later]? ≠ some (.removed key)

/-- The place of the registration that followed the last removal of a name. -/
def IsPlace (marks : List Mark) (key : String) (place : Nat) : Prop :=
  IsLeast {p | Standing marks key p} place

theorem run_append (changes : List Change) (c : Change) :
    run ρ (changes ++ [c]) = (run ρ changes).after c := by
  rw [run, List.foldl_append]
  rfl

theorem marksFrom_append : ∀ (changes : List Change) (r : Registry ρ) (c : Change),
    r.marksFrom (changes ++ [c]) =
      r.marksFrom changes ++ ((changes.foldl after r).mark? c).toList
  | [], r, c => List.append_nil _
  | d :: changes, r, c => by
    rw [List.cons_append, marksFrom, marksFrom_append changes, marksFrom, List.append_assoc]
    rfl

theorem history_append (changes : List Change) (c : Change) :
    history ρ (changes ++ [c]) = history ρ changes ++ ((run ρ changes).mark? c).toList :=
  marksFrom_append changes empty c

theorem after_of_refuses {r : Registry ρ} {c : Change} (h : r.Refuses c) : r.after c = r := by
  cases c with
  | register name g =>
    obtain ⟨p, hp⟩ := h
    rw [after, hp]
  | unregister name => rw [after, show r.unregister name = none from h, Option.getD_none]
  | registerAliases aliases name => cases h

/-! ### Histories -/

theorem Standing.lt {marks : List Mark} {key : String} {place : Nat}
    (h : Standing marks key place) : place < marks.length :=
  (List.getElem?_eq_some_iff.mp h.registered).1

/-- What stands after one more mark. -/
theorem standing_append {marks : List Mark} {m : Mark} {key : String} {place : Nat} :
    Standing (marks ++ [m]) key place ↔
      (Standing marks key place ∧ m ≠ .removed key) ∨
        (place = marks.length ∧ m = .registered key) := by
  have hlast : (marks ++ [m])[marks.length]? = some m := by simp
  have hbefore : ∀ {p}, p < marks.length → (marks ++ [m])[p]? = marks[p]? := fun hp =>
    List.getElem?_append_left hp
  constructor
  · intro h
    have hlt := h.lt
    rw [List.length_append, List.length_singleton] at hlt
    rcases Nat.lt_succ_iff_lt_or_eq.mp hlt with hp | rfl
    · refine Or.inl ⟨⟨(hbefore hp).symm.trans h.registered, fun later hlater hremoved => ?_⟩, ?_⟩
      · have hl := (List.getElem?_eq_some_iff.mp hremoved).1
        exact h.kept later hlater ((hbefore hl).trans hremoved)
      · rintro rfl
        exact h.kept _ hp hlast
    · exact Or.inr ⟨rfl, Option.some.inj (hlast.symm.trans h.registered)⟩
  · rintro (⟨h, hm⟩ | ⟨rfl, rfl⟩)
    · refine ⟨(hbefore h.lt).trans h.registered, fun later hlater hremoved => ?_⟩
      have hl := (List.getElem?_eq_some_iff.mp hremoved).1
      rw [List.length_append, List.length_singleton] at hl
      rcases Nat.lt_succ_iff_lt_or_eq.mp hl with hl | rfl
      · exact h.kept later hlater ((hbefore hl).symm.trans hremoved)
      · exact hm (Option.some.inj (hlast.symm.trans hremoved))
    · refine ⟨hlast, fun later hlater hremoved => ?_⟩
      have hl := (List.getElem?_eq_some_iff.mp hremoved).1
      rw [List.length_append, List.length_singleton] at hl
      omega

/-- A name that stands has a place. -/
theorem exists_isPlace {marks : List Mark} {key : String} :
    (∃ place, IsPlace marks key place) ↔ ∃ place, Standing marks key place :=
  open Classical in ⟨fun ⟨place, h⟩ => ⟨place, h.1⟩, fun h => ⟨_, Nat.isLeast_find h⟩⟩

/-- Names in the order of their places in a history. -/
structure Orderly (marks : List Mark) (names : List String) : Prop where
  mem_iff_isPlace : ∀ key, key ∈ names ↔ ∃ place, IsPlace marks key place
  ordered : names.Pairwise fun key key' =>
    ∀ place place', IsPlace marks key place → IsPlace marks key' place' → place < place'

theorem orderly_nil : Orderly [] [] where
  mem_iff_isPlace _ := ⟨nofun, fun ⟨_, h⟩ => nomatch h.1.registered⟩
  ordered := .nil

theorem Orderly.mem {marks : List Mark} {names : List String} (h : Orderly marks names)
    (key : String) : key ∈ names ↔ ∃ place, Standing marks key place :=
  (h.mem_iff_isPlace key).trans exists_isPlace

/-- A name keeps its place when another name is marked, or it is registered once more. -/
theorem isPlace_append {marks : List Mark} {m : Mark} {key : String} {place : Nat}
    (h : ∃ p, Standing marks key p) (hm : m ≠ .removed key)
    (hplace : IsPlace (marks ++ [m]) key place) : IsPlace marks key place := by
  obtain ⟨p, hp⟩ := h
  refine ⟨?_, fun q hq => hplace.2 (standing_append.mpr (Or.inl ⟨hq, hm⟩))⟩
  rcases standing_append.mp hplace.1 with ⟨hs, -⟩ | ⟨rfl, -⟩
  · exact hs
  · have hle : marks.length ≤ p := hplace.2 (standing_append.mpr (Or.inl ⟨hp, hm⟩))
    exact absurd hp.lt (Nat.not_lt_of_le hle)

theorem Orderly.registered {marks : List Mark} {names : List String} (h : Orderly marks names)
    (key : String) : Orderly (marks ++ [.registered key])
      (if key ∈ names then names else names ++ [key]) := by
  have hkeep : ∀ k, Mark.registered key ≠ .removed k := fun k hk => nomatch hk
  have hold : names.Pairwise fun k k' => ∀ place place',
      IsPlace (marks ++ [.registered key]) k place →
        IsPlace (marks ++ [.registered key]) k' place' → place < place' :=
    h.ordered.imp_of_mem fun {k k'} hk hk' hlt place place' hplace hplace' =>
      hlt place place' (isPlace_append ((h.mem k).mp hk) (hkeep k) hplace)
        (isPlace_append ((h.mem k').mp hk') (hkeep k') hplace')
  have hmem : ∀ k,
      (∃ place, Standing (marks ++ [.registered key]) k place) ↔ k ∈ names ∨ k = key := by
    intro k
    rw [h.mem]
    constructor
    · rintro ⟨place, hplace⟩
      rcases standing_append.mp hplace with ⟨hs, -⟩ | ⟨-, he⟩
      · exact Or.inl ⟨place, hs⟩
      · exact Or.inr (Mark.registered.inj he).symm
    · rintro (⟨place, hs⟩ | rfl)
      · exact ⟨place, standing_append.mpr (Or.inl ⟨hs, hkeep k⟩)⟩
      · exact ⟨marks.length, standing_append.mpr (Or.inr ⟨rfl, rfl⟩)⟩
  by_cases hkey : key ∈ names
  · rw [if_pos hkey]
    refine ⟨fun k => ?_, hold⟩
    rw [exists_isPlace, hmem]
    exact ⟨Or.inl, fun hk => hk.elim id fun he => he ▸ hkey⟩
  · rw [if_neg hkey]
    refine ⟨fun k => by rw [exists_isPlace, hmem, List.mem_append, List.mem_singleton], ?_⟩
    refine List.pairwise_append.mpr ⟨hold, List.pairwise_singleton _ _, ?_⟩
    -- the new name has its place behind all others
    intro k hk k' hk' place place' hplace hplace'
    obtain rfl := List.mem_singleton.mp hk'
    have hlt := (isPlace_append ((h.mem k).mp hk) (hkeep k) hplace).1.lt
    rcases standing_append.mp hplace'.1 with ⟨hs, -⟩ | ⟨rfl, -⟩
    · exact absurd ((h.mem k').mpr ⟨place', hs⟩) hkey
    · exact hlt

theorem Orderly.removed {marks : List Mark} {names : List String} (h : Orderly marks names)
    (key : String) : Orderly (marks ++ [.removed key]) (names.filter (· != key)) := by
  have hother : ∀ {k}, k ∈ names.filter (· != key) → k ∈ names ∧ Mark.removed key ≠ .removed k := by
    intro k hk
    obtain ⟨hmem, hne⟩ := List.mem_filter.mp hk
    exact ⟨hmem, fun he => bne_iff_ne.mp hne (Mark.removed.inj he).symm⟩
  refine ⟨fun k => ?_, ?_⟩
  · rw [List.mem_filter, h.mem, bne_iff_ne, exists_isPlace]
    constructor
    · rintro ⟨⟨place, hs⟩, hne⟩
      exact ⟨place, standing_append.mpr (Or.inl ⟨hs, fun he => hne (Mark.removed.inj he).symm⟩)⟩
    · rintro ⟨place, hplace⟩
      rcases standing_append.mp hplace with ⟨hs, hne⟩ | ⟨-, he⟩
      · exact ⟨⟨place, hs⟩, fun he => hne (he ▸ rfl)⟩
      · cases he
  · exact (h.ordered.filter _).imp_of_mem fun {k k'} hk hk' hlt place place' hplace hplace' =>
      hlt place place'
        (isPlace_append ((h.mem k).mp (hother hk).1) (hother hk).2 hplace)
        (isPlace_append ((h.mem k').mp (hother hk').1) (hother hk').2 hplace')

/-! ### Runs -/

theorem names_unregister {r r' : Registry ρ} {name : String} (h : r.unregister name = some r') :
    r'.names = r.names.filter (· != fold name) := by
  obtain rfl := dropped_of_unregister h
  exact Dictionary.keys_erase r.languages (fold name)

/-- **One change keeps the names in the order of the history.** -/
theorem Orderly.after {marks : List Mark} {r : Registry ρ} (h : Orderly marks r.names)
    (c : Change) : Orderly (marks ++ (r.mark? c).toList) (r.after c).names := by
  have hsame : Orderly (marks ++ []) r.names := (List.append_nil marks).symm ▸ h
  cases c with
  | register name g =>
    rw [mark?, Registry.after]
    cases hr : r.register name g with
    | error p => exact hsame
    | ok r' =>
      obtain ⟨l, -, rfl⟩ := put_of_register hr
      have hnames : (r.put name l).names =
          if fold name ∈ r.names then r.names else r.names ++ [fold name] := by
        rw [names, languages_put]
        exact Dictionary.keys_insert r.languages (fold name) l
      change Orderly (marks ++ [.registered (fold name)]) (r.put name l).names
      rw [hnames]
      exact h.registered (fold name)
  | unregister name =>
    rw [mark?, Registry.after]
    cases hr : r.unregister name with
    | none => exact hsame
    | some r' =>
      change Orderly (marks ++ [.removed (fold name)]) r'.names
      rw [names_unregister hr]
      exact h.removed (fold name)
  | registerAliases aliases name =>
    have hnames : (r.registerAliases aliases name).names = r.names :=
      congrArg Dictionary.keys (languages_addAliases (fold name) aliases r)
    exact hnames ▸ hsame

/-- What a registry becomes by a change can be made, too. -/
theorem Built.after {r : Registry ρ} (h : r.Built) (c : Change) : (r.after c).Built := by
  cases c with
  | register name g =>
    rw [Registry.after]
    cases hr : r.register name g with
    | error p => exact h
    | ok r' => exact .register h hr
  | unregister name =>
    rw [Registry.after]
    cases hr : r.unregister name with
    | none => exact h
    | some r' => exact .unregister h hr
  | registerAliases aliases name => exact .registerAliases aliases name h

/-- Aliases are in small letters. -/
def AliasesFolded (r : Registry ρ) : Prop := ∀ key ∈ r.aliases.keys, fold key = key

theorem AliasesFolded.addAliases (target : String) : ∀ (names : List String) {r : Registry ρ},
    r.AliasesFolded → (names.foldl (·.addAlias target) r).AliasesFolded
  | [], _, h => h
  | name :: names, r, h => by
    refine AliasesFolded.addAliases target names fun key hkey => ?_
    rcases Dictionary.mem_keys_insert hkey with rfl | hkey
    · exact Text.lowercase_lowercase name
    · exact h key hkey

theorem AliasesFolded.dropAliases {r : Registry ρ} (h : r.AliasesFolded) (target : String) :
    (r.dropAliases target).AliasesFolded :=
  fun key hkey => h key (Dictionary.mem_keys_of_retain hkey)

theorem AliasesFolded.after {r : Registry ρ} (h : r.AliasesFolded) (c : Change) :
    (r.after c).AliasesFolded := by
  cases c with
  | register name g =>
    rw [Registry.after]
    cases hr : r.register name g with
    | error p => exact h
    | ok r' =>
      obtain ⟨l, -, rfl⟩ := put_of_register hr
      exact (h.dropAliases (fold name)).addAliases (fold name) l.aliases
  | unregister name =>
    rw [Registry.after]
    cases hr : r.unregister name with
    | none => exact h
    | some r' =>
      obtain rfl := dropped_of_unregister hr
      exact h.dropAliases (fold name)
  | registerAliases aliases name => exact h.addAliases (fold name) aliases

/-- What every row of changes keeps up. -/
theorem run_spec (changes : List Change) : Orderly (history ρ changes) (run ρ changes).names ∧
    (run ρ changes).Built ∧ (run ρ changes).AliasesFolded := by
  induction changes using List.reverseRecOn with
  | nil => exact ⟨orderly_nil, .empty, fun key hkey => nomatch hkey⟩
  | append_singleton changes c ih =>
    obtain ⟨horderly, hbuilt, hfolded⟩ := ih
    rw [run_append, history_append]
    exact ⟨horderly.after c, hbuilt.after c, hfolded.after c⟩

theorem contains_iff_mem_names {r : Registry ρ} {key : String} :
    r.languages.contains key ↔ key ∈ r.names := by
  constructor
  · intro h
    obtain ⟨l, hl⟩ := isSome_of_contains h
    exact Dictionary.mem_keys_of_find? hl
  · exact Dictionary.contains_of_mem_keys

/-- A language that is removed and registered again, another one that is registered twice. -/
def again : List Change :=
  [.register "A" {}, .register "b" {}, .unregister "a", .register "B" {},
    .register "A" { aliases := ["X"] }, .registerAliases ["B", "Y"] "none"]

end Registry

end CodeMarkup
