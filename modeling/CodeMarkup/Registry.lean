import CodeMarkup.Language.Compile

/-! # Registries

A registry holds languages under names, in the order in which they were registered, and aliases of
these names. The case of names and aliases does not matter. A grammar is compiled when it is
registered, so that only languages that are ready for code get in. -/

namespace CodeMarkup

/-- Languages under their names, and aliases of the names. -/
structure Registry (ρ : Type) [Engine ρ] where
  languages : Dictionary (Language ρ)
  aliases : Dictionary String

namespace Registry

variable {ρ : Type} [Engine ρ]

/-- The registry without languages. -/
def empty : Registry ρ := ⟨.empty, .empty⟩

instance : Inhabited (Registry ρ) := ⟨empty⟩

/-- The form of a name in which its case does not matter. -/
def fold (name : String) : String := Text.lowercase name

/-! ### Looking up -/

/-- The registered name and the language that a name or alias means. -/
def resolve (r : Registry ρ) (name : String) : Option (String × Language ρ) :=
  let key := fold name
  match r.languages.find? key with
  | some l => some (key, l)
  | none =>
    match r.aliases.find? key with
    | some target => (r.languages.find? target).map (target, ·)
    | none => none

/-- The language that a name or alias means. -/
def get? (r : Registry ρ) (name : String) : Option (Language ρ) :=
  let key := fold name
  r.languages.find? key <|> (r.aliases.find? key).bind r.languages.find?

theorem get?_eq (r : Registry ρ) (name : String) : r.get? name = (r.resolve name).map Prod.snd := by
  unfold get? resolve
  dsimp only
  cases r.languages.find? (fold name) with
  | some l => rfl
  | none =>
    cases r.aliases.find? (fold name) with
    | none => rfl
    | some target =>
      exact ((Option.map_map ..).trans Option.map_id').symm

/-- The registered name that a name or alias means. -/
def canonicalName (r : Registry ρ) (name : String) : Option String :=
  (r.resolve name).map Prod.fst

/-- Whether a name means a language that takes part when languages are guessed. -/
def autoDetection (r : Registry ρ) (name : String) : Bool :=
  (r.get? name).any (!·.disableAutodetect)

/-- The registered names in order. -/
def names (r : Registry ρ) : List String := r.languages.keys

/-- The number of languages. -/
def size (r : Registry ρ) : Nat := r.languages.size

/-! ### Changing -/

/-- Lets an alias mean a name. -/
def addAlias (r : Registry ρ) (target name : String) : Registry ρ :=
  { r with aliases := r.aliases.insert (fold name) target }

/-- Drops the aliases of a registered name. -/
def dropAliases (r : Registry ρ) (target : String) : Registry ρ :=
  { r with aliases := r.aliases.retain fun _ t => t != target }

/-- Puts a language under a name and its own aliases, in place of the one that was there. -/
def put (r : Registry ρ) (name : String) (l : Language ρ) : Registry ρ :=
  let key := fold name
  let r := l.aliases.foldl (·.addAlias key) (r.dropAliases key)
  { r with languages := r.languages.insert key l }

/-- Compiles a grammar and puts it under a name. -/
def register (r : Registry ρ) (name : String) (g : Grammar) : Except Problem (Registry ρ) :=
  match Language.compile g name with
  | .ok l => .ok (r.put name l)
  | .error p => .error p

/-- Drops the language under a name, if there is one, together with its aliases. -/
def unregister (r : Registry ρ) (name : String) : Option (Registry ρ) :=
  let key := fold name
  if r.languages.contains key then
    some { r.dropAliases key with languages := r.languages.erase key }
  else none

/-- Lets more aliases mean a name. -/
def registerAliases (r : Registry ρ) (aliases : List String) (name : String) : Registry ρ :=
  aliases.foldl (·.addAlias (fold name)) r

end Registry

end CodeMarkup
