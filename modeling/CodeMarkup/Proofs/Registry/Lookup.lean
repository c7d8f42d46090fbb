import CodeMarkup.Proofs.Language.Registered

/-! # Looking up after a change

What a name means after a language has been registered or dropped, or aliases have been added, can
be told from what it meant before (`Registry.resolve_changes`). Names of languages go before
aliases, so an alias that is the name of a language is only seen when that language is dropped. -/

namespace CodeMarkup

variable {ρ : Type} [Engine ρ]

theorem Language.aliases_of_compile {g : Grammar} {name : String} {l : Language ρ}
    (h : Language.compile g name = .ok l) : l.aliases = g.aliases := by
  unfold Language.compile at h
  dsimp only at h
  split at h
  · cases h
  · split at h
    · cases h
      rfl
    · cases h

namespace Registry

/-! ### Names and aliases -/

theorem resolve_of_language {r : Registry ρ} {x : String} {l : Language ρ}
    (h : r.languages.find? (fold x) = some l) : r.resolve x = some (fold x, l) := by
  rw [resolve, h]

/-- What is no name of a language means what it is an alias of. -/
theorem resolve_of_alias {r : Registry ρ} {x : String} (h : r.languages.find? (fold x) = none) :
    r.resolve x =
      (r.aliases.find? (fold x)).bind fun target => (r.languages.find? target).map (target, ·) := by
  rw [resolve, h]
  cases r.aliases.find? (fold x) <;> rfl

theorem isSome_of_contains {r : Registry ρ} {key : String} (h : r.languages.contains key) :
    ∃ l, r.languages.find? key = some l := Option.isSome_iff_exists.mp h

theorem find?_of_not_contains {r : Registry ρ} {key : String} (h : ¬ r.languages.contains key) :
    r.languages.find? key = none := Option.not_isSome_iff_eq_none.mp h

/-- An alias that is added means its name from then on, other aliases what they meant. -/
theorem find?_addAliases (target key : String) : ∀ (names : List String) (r : Registry ρ),
    (names.foldl (·.addAlias target) r).aliases.find? key =
      if key ∈ names.map fold then some target else r.aliases.find? key
  | [], _ => rfl
  | name :: names, r => by
    rw [List.foldl_cons, find?_addAliases target key names, addAlias, Dictionary.find?_insert,
      List.map_cons]
    by_cases hnames : key ∈ names.map fold
    · rw [if_pos hnames, if_pos (List.mem_cons_of_mem _ hnames)]
    · rw [if_neg hnames]
      by_cases hkey : key = fold name
      · rw [if_pos hkey, if_pos (List.mem_cons.mpr (Or.inl hkey))]
      · rw [if_neg hkey, if_neg fun h => (List.mem_cons.mp h).elim hkey hnames]

theorem find?_dropAliases (r : Registry ρ) (target key : String) :
    (r.dropAliases target).aliases.find? key =
      if r.aliases.find? key = some target then none else r.aliases.find? key := by
  rw [dropAliases, Dictionary.find?_retain]
  cases r.aliases.find? key with
  | none => rfl
  | some t => by_cases h : t = target <;> simp [h]

theorem aliases_put (r : Registry ρ) (name : String) (l : Language ρ) (key : String) :
    (r.put name l).aliases.find? key =
      if key ∈ l.aliases.map fold then some (fold name)
      else if r.aliases.find? key = some (fold name) then none else r.aliases.find? key := by
  rw [← find?_dropAliases, ← find?_addAliases]
  rfl

/-! ### Registering -/

/-- What a name means after a language has been put into a registry. -/
theorem resolve_put (r : Registry ρ) (name : String) (l : Language ρ) (x : String) :
    (r.put name l).resolve x =
      if fold x = fold name then some (fold name, l)
      else if r.languages.contains (fold x) then r.resolve x
      else if fold x ∈ l.aliases.map fold then some (fold name, l)
      else if r.aliases.find? (fold x) = some (fold name) then none
      else r.resolve x := by
  have hlanguages : ∀ key, (r.put name l).languages.find? key =
      if key = fold name then some l else r.languages.find? key := fun key => by
    rw [languages_put, Dictionary.find?_insert]
  by_cases hname : fold x = fold name
  · rw [if_pos hname, resolve_of_language (by rw [hlanguages, if_pos hname]), hname]
  · rw [if_neg hname]
    by_cases hlanguage : r.languages.contains (fold x)
    · obtain ⟨l', hl'⟩ := isSome_of_contains hlanguage
      rw [if_pos hlanguage, resolve_of_language (by rw [hlanguages, if_neg hname, hl']),
        resolve_of_language hl']
    · have hnone := find?_of_not_contains hlanguage
      rw [if_neg hlanguage, resolve_of_alias (by rw [hlanguages, if_neg hname, hnone]), aliases_put,
        resolve_of_alias hnone]
      by_cases halias : fold x ∈ l.aliases.map fold
      · rw [if_pos halias, if_pos halias, Option.bind_some, hlanguages, if_pos rfl, Option.map_some]
      · rw [if_neg halias, if_neg halias]
        by_cases hold : r.aliases.find? (fold x) = some (fold name)
        · rw [if_pos hold, if_pos hold, Option.bind_none]
        · rw [if_neg hold, if_neg hold]
          cases htarget : r.aliases.find? (fold x) with
          | none => rfl
          | some target =>
            have hne : target ≠ fold name := fun he => hold (he ▸ htarget)
            rw [Option.bind_some, Option.bind_some, hlanguages, if_neg hne]

/-! ### Dropping and adding aliases -/

theorem of_unregister {r r' : Registry ρ} {name : String} (h : r.unregister name = some r') :
    (∀ key, r'.languages.find? key =
      if key = fold name then none else r.languages.find? key) ∧
    ∀ key, r'.aliases.find? key =
      if r.aliases.find? key = some (fold name) then none else r.aliases.find? key := by
  obtain rfl := dropped_of_unregister h
  exact ⟨Dictionary.find?_erase r.languages (fold name), find?_dropAliases r (fold name)⟩

/-- No name means a language that has been dropped. -/
theorem resolve_ne_of_unregister {r r' : Registry ρ} {name : String}
    (h : r.unregister name = some r') (x : String) (l : Language ρ) :
    r'.resolve x ≠ some (fold name, l) := fun hx => by
  have hl := find?_of_resolve hx
  rw [(of_unregister h).1, if_pos rfl] at hl
  cases hl

/-- The name of another language means it still. -/
theorem resolve_language_of_unregister {r r' : Registry ρ} {name x : String}
    (h : r.unregister name = some r') (hx : fold x ≠ fold name)
    (hlanguage : r.languages.contains (fold x)) : r'.resolve x = r.resolve x := by
  obtain ⟨l, hl⟩ := isSome_of_contains hlanguage
  rw [resolve_of_language hl, resolve_of_language (by rw [(of_unregister h).1, if_neg hx, hl])]

/-- What is no name of another language means the other language that it is an alias of, if any. -/
theorem resolve_alias_of_unregister {r r' : Registry ρ} {name x : String}
    (h : r.unregister name = some r')
    (hx : fold x = fold name ∨ r.languages.find? (fold x) = none) (target : String)
    (l : Language ρ) : r'.resolve x = some (target, l) ↔
      target ≠ fold name ∧ r.aliases.find? (fold x) = some target ∧
        r.languages.find? target = some l := by
  obtain ⟨hlanguages, haliases⟩ := of_unregister h
  have hnone : r'.languages.find? (fold x) = none := by
    rw [hlanguages]
    split
    · rfl
    · next hne => exact hx.resolve_left hne
  rw [resolve_of_alias hnone, haliases]
  by_cases hold : r.aliases.find? (fold x) = some (fold name)
  · rw [if_pos hold, hold]
    simp only [Option.bind_none, reduceCtorEq, Option.some.injEq, false_iff]
    exact fun ⟨hne, he, _⟩ => hne he.symm
  · rw [if_neg hold]
    cases htarget : r.aliases.find? (fold x) with
    | none => simp
    | some t =>
      have hne : t ≠ fold name := fun he => hold (he ▸ htarget)
      rw [Option.bind_some, hlanguages, if_neg hne, Option.map_eq_some_iff]
      constructor
      · rintro ⟨l', hl', he⟩
        cases he
        exact ⟨hne, rfl, hl'⟩
      · rintro ⟨-, he, hl⟩
        cases he
        exact ⟨l, hl, rfl⟩

theorem resolve_registerAliases (r : Registry ρ) (aliases : List String) (name x : String) :
    (r.registerAliases aliases name).resolve x =
      if fold x ∈ aliases.map fold ∧ ¬ r.languages.contains (fold x) then
        (r.languages.find? (fold name)).map (fold name, ·)
      else r.resolve x := by
  have hlanguages : (r.registerAliases aliases name).languages = r.languages :=
    languages_addAliases (fold name) aliases r
  have haliases : (r.registerAliases aliases name).aliases.find? (fold x) =
      if fold x ∈ aliases.map fold then some (fold name) else r.aliases.find? (fold x) :=
    find?_addAliases (fold name) (fold x) aliases r
  by_cases hlanguage : r.languages.contains (fold x)
  · obtain ⟨l, hl⟩ := isSome_of_contains hlanguage
    rw [if_neg fun h => h.2 hlanguage, resolve_of_language hl,
      resolve_of_language (by rw [hlanguages, hl])]
  · have hnone := find?_of_not_contains hlanguage
    rw [resolve_of_alias (by rw [hlanguages, hnone]), haliases, hlanguages, resolve_of_alias hnone]
    by_cases halias : fold x ∈ aliases.map fold
    · rw [if_pos halias, if_pos ⟨halias, hlanguage⟩, Option.bind_some]
    · rw [if_neg halias, if_neg fun h => halias h.1]

/-- **What a name means after a change.** When a language is registered, its name means it, the
names of other languages mean what they meant, its aliases mean it, those aliases of its name that
it does not declare mean nothing, and all else means what it meant. When one is dropped, no name
means it, other languages are meant by their names and aliases as before, and its own name means
another language just if it is an alias of that one. Aliases that are added mean the language, if
there is one, unless they are names of languages. -/
theorem resolve_changes (r : Registry ρ) :
    (∀ name g r', r.register name g = .ok r' →
      ∃ l, Language.compile g name = .ok l ∧ ∀ x, r'.resolve x =
        if fold x = fold name then some (fold name, l)
        else if r.languages.contains (fold x) then r.resolve x
        else if fold x ∈ g.aliases.map fold then some (fold name, l)
        else if r.aliases.find? (fold x) = some (fold name) then none
        else r.resolve x) ∧
    (∀ name r', r.unregister name = some r' →
      (∀ x l, r'.resolve x ≠ some (fold name, l)) ∧
      (∀ x, fold x ≠ fold name → r.languages.contains (fold x) → r'.resolve x = r.resolve x) ∧
      (∀ x target, fold x ≠ fold name → r.aliases.find? (fold x) = some target →
        target ≠ fold name → r.languages.contains target → r'.resolve x = r.resolve x) ∧
      ∀ x, fold x = fold name → ∀ target l, r'.resolve x = some (target, l) ↔
        target ≠ fold name ∧ r.aliases.find? (fold name) = some target ∧
          r.languages.find? target = some l) ∧
    ∀ aliases name x, (r.registerAliases aliases name).resolve x =
      if fold x ∈ aliases.map fold ∧ ¬ r.languages.contains (fold x) then
        (r.languages.find? (fold name)).map (fold name, ·)
      else r.resolve x := by
  refine ⟨fun name g r' h => ?_, fun name r' h => ⟨?_, ?_, ?_, ?_⟩, ?_⟩
  · obtain ⟨l, hl, rfl⟩ := put_of_register h
    exact ⟨l, hl, fun x => Language.aliases_of_compile hl ▸ resolve_put r name l x⟩
  · exact resolve_ne_of_unregister h
  · exact fun x => resolve_language_of_unregister h
  · intro x target hx htarget hne hlanguage
    by_cases hname : r.languages.contains (fold x)
    · exact resolve_language_of_unregister h hx hname
    · have hnone := find?_of_not_contains hname
      obtain ⟨l, hl⟩ := isSome_of_contains hlanguage
      rw [resolve_of_alias hnone, htarget, Option.bind_some, hl, Option.map_some]
      exact (resolve_alias_of_unregister h (Or.inr hnone) target l).mpr ⟨hne, htarget, hl⟩
  · intro x hx target l
    rw [resolve_alias_of_unregister h (Or.inl hx), hx]
  · exact resolve_registerAliases r

/-- Two languages; an alias of the first one is the name of the second one. -/
def shadowing : Except Problem (Registry Regex.Tried) := do
  (← empty.register "B" { aliases := ["A", "z"] }).register "A" { aliases := ["X", "y"] }

/-- When the second language is registered again it loses an alias, and when it is dropped its name
means the first one. -/
theorem resolve_changes_shadowing : ∃ r, shadowing = .ok r ∧
    (∃ r' l, r.register "A" { aliases := ["X"] } = .ok r' ∧ r'.resolve "x" = some (fold "A", l) ∧
      r'.resolve "Y" = none ∧ r'.resolve "b" = r.resolve "b") ∧
    (∃ r' l, r.unregister "A" = some r' ∧ r'.resolve "a" = some ("b", l) ∧
      r'.resolve "Z" = r.resolve "Z") ∧
    ((r.registerAliases ["Z", "B"] "A").resolve "z").map Prod.fst = some (fold "A") := by
  obtain ⟨r, hr, hfacts⟩ : ∃ r, shadowing = .ok r ∧ decide (
      (r.register "A" { aliases := ["X"] }).isOk ∧ (r.unregister "A").isSome ∧
      (∀ x ∈ ["b", "A"], r.languages.contains (fold x)) ∧
      (∀ x ∈ ["x", "Y", "z"], ¬ r.languages.contains (fold x)) ∧
      ∀ e ∈ [("Y", "a"), ("a", "b"), ("Z", "b")], r.aliases.find? (fold e.1) = some e.2) :=
    exists_of_any (by decide +kernel)
  obtain ⟨hregister, hdrop, hthere, hnot, haliases⟩ := of_decide_eq_true hfacts
  obtain ⟨hregistered, hdropped, hadded⟩ := resolve_changes r
  have hfold : fold "A" = "a" ∧ fold "b" = "b" := by decide +kernel
  refine ⟨r, hr, ?_, ?_, ?_⟩
  · obtain ⟨r', hr'⟩ := exists_of_isOk hregister
    obtain ⟨l, -, hl⟩ := hregistered "A" _ r' hr'
    refine ⟨r', l, hr', ?_, ?_, ?_⟩
    · rw [hl, if_neg (by decide +kernel), if_neg (hnot "x" (by decide)), if_pos (by decide +kernel)]
    · rw [hl, if_neg (by decide +kernel), if_neg (hnot "Y" (by decide)), if_neg (by decide +kernel),
        haliases ("Y", "a") (by decide), if_pos (congrArg some hfold.1.symm)]
    · rw [hl, if_neg (by decide +kernel), if_pos (hthere "b" (by decide))]
  · obtain ⟨r', hr'⟩ := Option.isSome_iff_exists.mp hdrop
    obtain ⟨-, -, hother, hitself⟩ := hdropped "A" r' hr'
    have hb : r.languages.contains "b" := hfold.2 ▸ hthere "b" (by decide)
    obtain ⟨l, hl⟩ := isSome_of_contains hb
    have hne : "b" ≠ fold "A" := by decide +kernel
    refine ⟨r', l, hr', ?_, ?_⟩
    · exact (hitself "a" (by decide +kernel) "b" l).mpr
        ⟨hne, (congrArg r.aliases.find? (by decide +kernel)).trans
          (haliases ("a", "b") (by decide)), hl⟩
    · exact hother "Z" "b" (by decide +kernel) (haliases ("Z", "b") (by decide)) hne hb
  · obtain ⟨l, hl⟩ := isSome_of_contains (hthere "A" (by decide))
    rw [hadded, if_pos ⟨by decide +kernel, hnot "z" (by decide)⟩, hl]
    rfl

end Registry

end CodeMarkup
