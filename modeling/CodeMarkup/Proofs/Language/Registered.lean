import CodeMarkup.Proofs.Regex.Ways
import CodeMarkup.Proofs.Text.Small
import CodeMarkup.Registry

/-! # Registered names

A registry is made by registering and dropping languages and by adding aliases (`Registry.Built`).
All of this keeps the names of the languages in small letters, so the name that a name or an alias
means can be looked up in its turn and means itself (`Registry.Built.resolve_key`). -/

namespace CodeMarkup

variable {ρ : Type} [Engine ρ]

/-! ### Keys -/

namespace Dictionary

variable {α : Type}

theorem mem_keys_of_find? {d : Dictionary α} {key : String} {value : α}
    (h : d.find? key = some value) : key ∈ d.keys := by
  refine Decidable.byContradiction fun hkey => ?_
  rw [find?, findIn_eq_none hkey] at h
  cases h

theorem contains_of_mem_keys {d : Dictionary α} {key : String} (h : key ∈ d.keys) :
    d.contains key := by
  have hin : ∀ {es : List (String × α)}, key ∈ es.map Prod.fst → (findIn key es).isSome := by
    intro es hes
    induction es with
    | nil => cases hes
    | cons e es ih =>
      obtain ⟨k, v⟩ := e
      unfold findIn
      split
      · rfl
      · next hne => exact ih ((List.mem_cons.mp hes).resolve_left fun he => hne he.symm)
  exact hin h

theorem mem_keys_insert {d : Dictionary α} {key other : String} {value : α}
    (h : other ∈ (d.insert key value).keys) : other = key ∨ other ∈ d.keys := by
  rw [keys_insert] at h
  split at h
  · exact Or.inr h
  · rcases List.mem_append.mp h with h | h
    · exact Or.inr h
    · exact Or.inl (List.mem_singleton.mp h)

theorem mem_insertInto {key : String} {value : α} {e : String × α} : ∀ {es : List (String × α)},
    e ∈ insertInto key value es → e = (key, value) ∨ e ∈ es
  | [], h => Or.inl (List.mem_singleton.mp h)
  | (k, v) :: es, h => by
    unfold insertInto at h
    split at h
    · exact (List.mem_cons.mp h).imp_right (List.mem_cons_of_mem _)
    · rcases List.mem_cons.mp h with rfl | h
      · exact Or.inr List.mem_cons_self
      · exact (mem_insertInto h).imp_right (List.mem_cons_of_mem _)

theorem mem_keys_of_retain {d : Dictionary α} {keep : String → α → Bool} {key : String}
    (h : key ∈ (d.retain keep).keys) : key ∈ d.keys :=
  (List.filter_sublist.map Prod.fst).subset h

end Dictionary

/-! ### Results -/

theorem exists_of_isOk {ε α : Type} {x : Except ε α} (h : x.isOk) : ∃ a, x = .ok a := by
  cases x with
  | error e => cases h
  | ok a => exact ⟨a, rfl⟩

theorem exists_of_any {ε α : Type} {x : Except ε α} {p : α → Bool} (h : x.toOption.any p) :
    ∃ a, x = .ok a ∧ p a := by
  cases x with
  | error e => cases h
  | ok a => exact ⟨a, rfl, h⟩

/-! ### Registries that are made -/

namespace Registry

/-- The registries that can be made. -/
inductive Built : Registry ρ → Prop where
  | empty : Built .empty
  | register {r r' : Registry ρ} {name : String} {g : Grammar} :
      Built r → r.register name g = .ok r' → Built r'
  | unregister {r r' : Registry ρ} {name : String} :
      Built r → r.unregister name = some r' → Built r'
  | registerAliases {r : Registry ρ} (aliases : List String) (name : String) :
      Built r → Built (r.registerAliases aliases name)

theorem languages_addAliases (target : String) : ∀ (names : List String) (r : Registry ρ),
    (names.foldl (·.addAlias target) r).languages = r.languages
  | [], _ => rfl
  | name :: names, r => languages_addAliases target names (r.addAlias target name)

theorem languages_put (r : Registry ρ) (name : String) (l : Language ρ) :
    (r.put name l).languages = r.languages.insert (fold name) l := by
  rw [put, languages_addAliases]
  rfl

/-- What is registered has been compiled and is put under the name. -/
theorem put_of_register {r r' : Registry ρ} {name : String} {g : Grammar}
    (h : r.register name g = .ok r') :
    ∃ l, Language.compile g name = .ok l ∧ r' = r.put name l := by
  unfold register at h
  split at h
  · next l hl =>
    cases h
    exact ⟨l, hl, rfl⟩
  · cases h

/-- What is dropped goes with its aliases. -/
theorem dropped_of_unregister {r r' : Registry ρ} {name : String}
    (h : r.unregister name = some r') :
    r' = { r.dropAliases (fold name) with languages := r.languages.erase (fold name) } := by
  unfold unregister at h
  dsimp only at h
  split at h
  · exact (Option.some.inj h).symm
  · cases h

/-- The names of the languages are in small letters. -/
theorem Built.fold_key {r : Registry ρ} (h : r.Built) : ∀ key ∈ r.names, fold key = key := by
  induction h with
  | empty => intro key hkey; cases hkey
  | @register r r' name g _ hput ih =>
    obtain ⟨l, -, rfl⟩ := put_of_register hput
    intro key hkey
    rw [names, languages_put] at hkey
    rcases Dictionary.mem_keys_insert hkey with rfl | hkey
    · exact Text.lowercase_lowercase name
    · exact ih key hkey
  | @unregister r r' name _ hdrop ih =>
    obtain rfl := dropped_of_unregister hdrop
    exact fun key hkey => ih key (Dictionary.mem_keys_of_retain hkey)
  | @registerAliases r aliases name _ ih =>
    intro key hkey
    rw [names, Registry.registerAliases, languages_addAliases] at hkey
    exact ih key hkey

/-- The languages have been compiled. -/
theorem Built.compiled {r : Registry ρ} (h : r.Built) : ∀ {key : String} {l : Language ρ},
    r.languages.find? key = some l → ∃ g name, Language.compile g name = .ok l := by
  induction h with
  | empty => intro key l hl; cases hl
  | @register r r' name g _ hput ih =>
    intro key l hl
    obtain ⟨l', hl', rfl⟩ := put_of_register hput
    rw [languages_put, Dictionary.find?_insert] at hl
    split at hl
    · cases hl
      exact ⟨g, name, hl'⟩
    · exact ih hl
  | @unregister r r' name _ hdrop ih =>
    intro key l hl
    obtain rfl := dropped_of_unregister hdrop
    rw [Dictionary.find?_erase] at hl
    split at hl
    · cases hl
    · exact ih hl
  | @registerAliases r aliases name _ ih =>
    intro key l hl
    rw [Registry.registerAliases, languages_addAliases] at hl
    exact ih hl

/-- A name or an alias means the name of a language that is there. -/
theorem find?_of_resolve {r : Registry ρ} {name key : String} {l : Language ρ}
    (h : r.resolve name = some (key, l)) : r.languages.find? key = some l := by
  unfold resolve at h
  dsimp only at h
  split at h
  · next hl =>
    cases h
    exact hl
  · split at h
    · obtain ⟨l', hl', he⟩ := Option.map_eq_some_iff.mp h
      cases he
      exact hl'
    · cases h

/-- **The name of a language means that language.** -/
theorem Built.resolve_key {r : Registry ρ} (hr : r.Built) {name key : String} {l : Language ρ}
    (h : r.resolve name = some (key, l)) : r.resolve key = some (key, l) := by
  have hl := find?_of_resolve h
  have hkey : fold key = key := hr.fold_key key (Dictionary.mem_keys_of_find? hl)
  rw [resolve, hkey, hl]

/-- A language can be looked up under the name under which it has been registered. -/
theorem resolve_of_register {r r' : Registry ρ} {name : String} {g : Grammar}
    (h : r.register name g = .ok r') :
    ∃ l, Language.compile g name = .ok l ∧ r'.resolve name = some (fold name, l) := by
  obtain ⟨l, hl, rfl⟩ := put_of_register h
  exact ⟨l, hl, by rw [resolve, languages_put, Dictionary.find?_insert, if_pos rfl]⟩

/-- What holds of all languages and of the one that is registered holds of all languages then. -/
theorem forall_register {P : Language ρ → Prop} {r r' : Registry ρ} {name : String} {g : Grammar}
    (h : r.register name g = .ok r') (hold : ∀ e ∈ r.languages.entries, P e.2)
    (hnew : ∀ l, Language.compile g name = .ok l → P l) : ∀ e ∈ r'.languages.entries, P e.2 := by
  obtain ⟨l, hl, rfl⟩ := put_of_register h
  rw [languages_put]
  intro e he
  rcases Dictionary.mem_insertInto he with rfl | he
  · exact hnew l hl
  · exact hold e he

/-- Names that are registered stay so. -/
theorem contains_register {r r' : Registry ρ} {name : String} {g : Grammar}
    (h : r.register name g = .ok r') {key : String} (hkey : r.languages.contains key) :
    r'.languages.contains key := by
  obtain ⟨l, -, rfl⟩ := put_of_register h
  rw [languages_put, Dictionary.contains, Dictionary.find?_insert]
  split
  · rfl
  · exact hkey

theorem isSome_resolve_of_contains {r : Registry ρ} {name : String}
    (h : r.languages.contains (fold name)) : (r.resolve name).isSome := by
  obtain ⟨l, hl⟩ := Option.isSome_iff_exists.mp h
  rw [resolve, hl]
  rfl

/-- Strings in quotes, with escapes in them. -/
def quoted : Grammar where
  root := { contains := some [.mode 0] }
  shelf := { modes := #[
    { className := some "string", beginPattern := some "\"", endPattern := some "\"",
      contains := some [.mode 1] },
    { beginPattern := some "\\\\.", relevance := some 0 }] }

theorem exists_compile_quoted :
    ∃ l : Language Regex.Tried, Language.compile quoted "Quoted" = .ok l :=
  exists_of_isOk (by decide +kernel)

/-- A registry with just one language. -/
theorem built_put {g : Grammar} {name : String} {l : Language ρ}
    (h : Language.compile g name = .ok l) :
    (empty.put name l).Built ∧ (empty.put name l).resolve name = some (fold name, l) := by
  have hr : empty.register name g = .ok (empty.put name l) := by rw [register, h]
  obtain ⟨l', hl', hresolve⟩ := resolve_of_register hr
  obtain rfl := Except.ok.inj (h.symm.trans hl')
  exact ⟨.register .empty hr, hresolve⟩

theorem exists_register {g : Grammar} {name : String} {l : Language ρ}
    (h : Language.compile g name = .ok l) :
    ∃ r : Registry ρ, r.Built ∧ r.resolve name = some (fold name, l) := ⟨_, built_put h⟩

end Registry

end CodeMarkup
