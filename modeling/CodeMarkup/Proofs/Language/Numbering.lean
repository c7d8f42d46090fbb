import CodeMarkup.Proofs.Language.Origin

/-! # How numbering runs

A run that numbers modes is taken apart into the runs it is made of: `numberNew` is what is done
with a mode that has not been met before, `followIds` what is done with the mode that follows it.
Between the arenas before and after a run there are two relations. In an arena that `Extends`
another one the modes of that are what they were; in one that `Preserves` it some of them may have
got their links. -/

namespace CodeMarkup

variable {ρ : Type} [Engine ρ]

namespace Language

/-! ### Arenas -/

namespace Arena

variable {a b c : Arena ρ}

/-- The modes of an arena are modes of another one with the same numbers, and are known there. -/
structure Extends (a b : Arena ρ) : Prop where
  modes : ∀ {id : Nat} {cm : CompiledMode ρ}, a.modes[id]? = some cm → b.modes[id]? = some cm
  known : ∀ {i : Identity} {n : Nat}, a.number? i = some n → b.number? i = some n

/-- The modes of an arena are modes of another one with the same numbers, links aside, and are known
there. -/
structure Preserves (a b : Arena ρ) : Prop where
  modes : ∀ {id : Nat} {cm : CompiledMode ρ}, a.modes[id]? = some cm →
    ∃ cm', b.modes[id]? = some cm' ∧ cm'.bare = cm.bare
  known : ∀ {i : Identity} {n : Nat}, a.number? i = some n → b.number? i = some n

theorem Extends.refl (a : Arena ρ) : a.Extends a := ⟨id, id⟩

theorem Extends.trans (hab : a.Extends b) (hbc : b.Extends c) : a.Extends c :=
  ⟨fun h => hbc.modes (hab.modes h), fun h => hbc.known (hab.known h)⟩

theorem Extends.preserves (h : a.Extends b) : a.Preserves b :=
  ⟨fun ha => ⟨_, h.modes ha, rfl⟩, h.known⟩

theorem Preserves.trans (hab : a.Preserves b) (hbc : b.Preserves c) : a.Preserves c where
  modes ha := by
    obtain ⟨cm, hb, he⟩ := hab.modes ha
    obtain ⟨cm', hc, he'⟩ := hbc.modes hb
    exact ⟨cm', hc, he'.trans he⟩
  known h := hbc.known (hab.known h)

theorem exists_getElem? {a : Arena ρ} {id : Nat} (h : id < a.modes.size) :
    ∃ cm, a.modes[id]? = some cm := ⟨_, Array.getElem?_eq_getElem h⟩

theorem lt_size {a : Arena ρ} {id : Nat} {cm : CompiledMode ρ} (h : a.modes[id]? = some cm) :
    id < a.modes.size := (Array.getElem?_eq_some_iff.mp h).1

theorem Preserves.size_le (h : a.Preserves b) : a.modes.size ≤ b.modes.size := by
  by_contra hlt
  obtain ⟨cm, ha⟩ := exists_getElem? (Nat.lt_of_not_le hlt)
  obtain ⟨cm', hb, -⟩ := h.modes ha
  exact Nat.lt_irrefl _ (lt_size hb)

theorem Preserves.terminator (h : a.Preserves b) {id : Nat} (hid : id < a.modes.size) :
    b.terminator id = a.terminator id := by
  obtain ⟨cm, ha⟩ := exists_getElem? hid
  obtain ⟨cm', hb, he⟩ := h.modes ha
  have ht := congrArg CompiledMode.terminator he
  rw [Arena.terminator, Arena.terminator, ha, hb]
  exact ht

theorem Preserves.beginPattern (h : a.Preserves b) {id : Nat} (hid : id < a.modes.size) :
    (b.modes[id]?.map (·.beginPattern)).getD "" = (a.modes[id]?.map (·.beginPattern)).getD "" := by
  obtain ⟨cm, ha⟩ := exists_getElem? hid
  obtain ⟨cm', hb, he⟩ := h.modes ha
  have hp := congrArg CompiledMode.beginPattern he
  rw [ha, hb]
  exact hp

/-- The rules of a mode are the same in an arena that preserves its children. -/
theorem Preserves.rules (h : a.Preserves b) {id : Nat} (hid : id < a.modes.size)
    {children : List Nat} (hc : ∀ c ∈ children, c < a.modes.size) :
    b.rules id children = a.rules id children := by
  obtain ⟨cm, ha⟩ := exists_getElem? hid
  obtain ⟨cm', hb, he⟩ := h.modes ha
  have ht := congrArg CompiledMode.terminator he
  have hi := congrArg CompiledMode.illegal he
  change cm'.terminator = cm.terminator at ht
  change cm'.illegal = cm.illegal at hi
  have hchildren : children.map (fun c => (RuleKind.begins c, (b.modes[c]?.map (·.beginPattern)).getD ""))
      = children.map fun c => (RuleKind.begins c, (a.modes[c]?.map (·.beginPattern)).getD "") :=
    List.map_congr_left fun c hmem => by rw [h.beginPattern (hc c hmem)]
  simp only [Arena.rules, ha, hb, ht, hi, hchildren]

/-! ### Adding and linking -/

theorem getElem?_add_size (a : Arena ρ) (own : CompiledMode ρ) (i : Option Identity) :
    (a.add own i).modes[a.modes.size]? = some own := Array.getElem?_push_size

theorem size_add (a : Arena ρ) (own : CompiledMode ρ) (i : Option Identity) :
    (a.add own i).modes.size = a.modes.size + 1 := Array.size_push _

theorem number?_add (a : Arena ρ) (own : CompiledMode ρ) (i : Option Identity) (j : Identity) :
    (a.add own i).number? j = if i = some j then some a.modes.size else a.number? j := by
  cases i with
  | none => rfl
  | some i =>
    simp only [number?, add, Option.map_some, Option.toList_some, List.singleton_append,
      List.lookup_cons, Option.some.injEq]
    by_cases h : j = i
    · rw [if_pos h.symm, beq_iff_eq.mpr h]
    · rw [if_neg fun he => h he.symm, beq_eq_false_iff_ne.mpr h]

theorem extends_add {a : Arena ρ} (own : CompiledMode ρ) {i : Option Identity}
    (hi : i.bind a.number? = none) : a.Extends (a.add own i) where
  modes {id _} h := by
    have hlt := lt_size h
    rw [add, Array.getElem?_push_lt hlt, ← h, Array.getElem?_eq_getElem hlt]
  known {j n} h := by
    rw [number?_add, if_neg, h]
    rintro rfl
    rw [Option.bind_some, h] at hi
    cases hi

theorem size_link (a : Arena ρ) (id : Nat) (children : List Nat) (starts : Option Nat)
    (matcher : Matcher ρ) : (a.link id children starts matcher).modes.size = a.modes.size :=
  Array.size_modify ..

theorem getElem?_link_ne (a : Arena ρ) {id k : Nat} (hk : k ≠ id) (children : List Nat)
    (starts : Option Nat) (matcher : Matcher ρ) :
    (a.link id children starts matcher).modes[k]? = a.modes[k]? := by
  rw [link, Array.getElem?_modify, if_neg (Ne.symm hk)]

theorem getElem?_link_self (a : Arena ρ) (id : Nat) (children : List Nat) (starts : Option Nat)
    (matcher : Matcher ρ) : (a.link id children starts matcher).modes[id]? =
      a.modes[id]?.map fun m => { m with children, starts, matcher } := by
  rw [link, Array.getElem?_modify, if_pos rfl]

theorem preserves_link (a : Arena ρ) (id : Nat) (children : List Nat) (starts : Option Nat)
    (matcher : Matcher ρ) : a.Preserves (a.link id children starts matcher) where
  modes {k cm} h := by
    by_cases hk : k = id
    · subst hk
      exact ⟨{ cm with children, starts, matcher },
        by rw [getElem?_link_self, h, Option.map_some], rfl⟩
    · exact ⟨cm, by rw [getElem?_link_ne a hk, h], rfl⟩
  known h := h

/-- An arena that has only been added to, and linked where something was added. -/
theorem Extends.link (h : a.Extends b) (children : List Nat) (starts : Option Nat)
    (matcher : Matcher ρ) : a.Extends (b.link a.modes.size children starts matcher) where
  modes {id _} ha := by
    rw [getElem?_link_ne b (Nat.ne_of_lt (lt_size ha)), h.modes ha]
  known := h.known

end Arena

/-! ### Runs -/

theorem of_bind_ok {ε α β : Type} {x : Except ε α} {f : α → Except ε β} {r : β}
    (h : (x >>= f) = .ok r) : ∃ v, x = .ok v ∧ f v = .ok r := by
  cases x with
  | error e => cases h
  | ok v => exact ⟨v, rfl, h⟩

theorem Compiling.of_bind_ok {α β : Type} {x : Compiling ρ α} {f : α → Compiling ρ β}
    {a b : Arena ρ} {r : β} (h : (x >>= f) a = .ok (r, b)) :
    ∃ v c, x a = .ok (v, c) ∧ f v c = .ok (r, b) := by
  change (x a >>= fun p => f p.1 p.2) = _ at h
  cases hx : x a with
  | error e => rw [hx] at h; cases h
  | ok p => rw [hx] at h; exact ⟨p.1, p.2, rfl, h⟩

theorem Compiling.of_lift_ok {α : Type} {x : Except GrammarProblem α} {a b : Arena ρ} {v : α}
    (h : (liftM x : Compiling ρ α) a = .ok (v, b)) : x = .ok v ∧ b = a := by
  cases x with
  | error e => cases h
  | ok w => cases h; exact ⟨rfl, rfl⟩

section Runs

variable {shelf : Shelf} {compile : Mode → Option Identity → Option Nat → Compiling ρ Nat}
  {a b : Arena ρ} {ids : List Nat} {parent : Nat}

theorem of_variantIds_cons {key : Key} {m : Mode} {n : Nat} {v : Key} {vs : List Key}
    (h : variantIds shelf compile key m parent n (v :: vs) a = .ok (ids, b)) :
    ∃ id c rest, compile (m.merge (shelf.mode v))
        (some (identity shelf key (some n) (m.merge (shelf.mode v)) (some parent)))
        (some parent) a = .ok (id, c) ∧
      variantIds shelf compile key m parent (n + 1) vs c = .ok (rest, b) ∧ ids = id :: rest := by
  rw [variantIds] at h
  by_cases hv : (shelf.mode v).variants.any (!·.isEmpty)
  · simp only [hv, if_true] at h
    cases h
  · simp only [hv] at h
    obtain ⟨id, c, hid, h⟩ := Compiling.of_bind_ok h
    obtain ⟨rest, d, hrest, h⟩ := Compiling.of_bind_ok h
    cases h
    exact ⟨id, c, rest, hid, hrest, rfl⟩

theorem of_expand {key : Key} (h : expand shelf compile key parent a = .ok (ids, b)) :
    (∃ v vs, (shelf.mode key).variants = some (v :: vs) ∧
      variantIds shelf compile key (shelf.mode key) parent 0 (v :: vs) a = .ok (ids, b)) ∨
    (shelf.alternatives key = [shelf.mode key] ∧
      ∃ id, compile (shelf.mode key) (some (identity shelf key none (shelf.mode key) (some parent)))
        (some parent) a = .ok (id, b) ∧ ids = [id]) := by
  unfold expand at h
  unfold Shelf.alternatives
  match hv : (shelf.mode key).variants with
  | some (v :: vs) =>
    simp only [hv] at h
    exact Or.inl ⟨v, vs, rfl, h⟩
  | some [] | none =>
    simp only [hv] at h
    obtain ⟨id, c, hid, h⟩ := Compiling.of_bind_ok h
    cases h
    exact Or.inr ⟨rfl, id, hid, rfl⟩

/-- The key that a child stands for; none for the mode itself. -/
def keyOf (shelf : Shelf) : Child → Option Key
  | .self => none
  | .mode key => some key
  | .late slot => shelf.inSlot? slot

theorem of_childIds_cons {id : Nat} {c : Child} {cs : List Child}
    (h : childIds shelf compile id (c :: cs) a = .ok (ids, b)) :
    (c = .self ∧ ∃ rest, childIds shelf compile id cs a = .ok (rest, b) ∧ ids = id :: rest) ∨
    (∃ key first d rest, keyOf shelf c = some key ∧ expand shelf compile key id a = .ok (first, d) ∧
      childIds shelf compile id cs d = .ok (rest, b) ∧ ids = first ++ rest) := by
  cases c with
  | self =>
    rw [childIds] at h
    obtain ⟨rest, d, hrest, h⟩ := Compiling.of_bind_ok h
    cases h
    exact Or.inl ⟨rfl, rest, hrest, rfl⟩
  | mode key =>
    rw [childIds] at h
    obtain ⟨first, d, hfirst, h⟩ := Compiling.of_bind_ok h
    obtain ⟨rest, e, hrest, h⟩ := Compiling.of_bind_ok h
    cases h
    exact Or.inr ⟨key, first, d, rest, rfl, hfirst, hrest, rfl⟩
  | late slot =>
    rw [childIds] at h
    cases hs : shelf.inSlot? slot with
    | none => rw [hs] at h; cases h
    | some key =>
      rw [hs] at h
      obtain ⟨first, d, hfirst, h⟩ := Compiling.of_bind_ok h
      obtain ⟨rest, e, hrest, h⟩ := Compiling.of_bind_ok h
      cases h
      exact Or.inr ⟨key, first, d, rest, hs, hfirst, hrest, rfl⟩

variable (shelf compile) in
/-- The number of the mode that follows, if there is one. -/
def followIds (parent : Option Nat) : Option Key → Compiling ρ (Option Nat)
  | none => pure none
  | some key => some <$> compile (shelf.mode key)
      (some (identity shelf key none (shelf.mode key) parent)) parent

theorem of_followIds_some {key : Key} {parent starts : Option Nat}
    (h : followIds shelf compile parent (some key) a = .ok (starts, b)) :
    ∃ n, compile (shelf.mode key) (some (identity shelf key none (shelf.mode key) parent)) parent a =
      .ok (n, b) ∧ starts = some n := by
  rw [followIds, map_eq_pure_bind] at h
  obtain ⟨n, c, hn, h⟩ := Compiling.of_bind_ok h
  cases h
  exact ⟨n, hn, rfl⟩

variable (shelf compile) in
/-- Numbers a mode that has not been met before. -/
def numberNew (foldCase : Bool) (m : Mode) (i : Option Identity) (parent : Option Nat) :
    Compiling ρ Nat := do
  let arena ← get
  let own ← ownFields foldCase m (parent.map arena.terminator)
  let id := arena.modes.size
  set (arena.add own i)
  let children ← childIds shelf compile id (m.contains.getD [])
  let starts ← followIds shelf compile parent m.starts
  let matcher ← Matcher.ofRules ((← get).rules id children) foldCase
  modify (·.link id children starts matcher)
  return id

/-- A mode that has been met before has its number, any other is numbered. -/
theorem compileMode_succ (foldCase : Bool) (depth : Nat) (m : Mode) (i : Option Identity)
    (parent : Option Nat) (a : Arena ρ) : compileMode shelf foldCase (depth + 1) m i parent a =
      match i.bind a.number? with
      | some id => .ok (id, a)
      | none => numberNew shelf (compileMode shelf foldCase depth) foldCase m i parent a := by
  rw [compileMode]
  change (match i.bind a.number? with | some id => pure id | none => _ : Compiling ρ Nat) a = _
  cases i.bind a.number? with
  | some n => rfl
  | none =>
    rw [numberNew]
    cases m.starts <;> rfl

/-- What numbering a mode does: it makes a mode and then its children, what follows it, and its
links. -/
theorem of_numberNew {foldCase : Bool} {m : Mode} {i : Option Identity} {parent : Option Nat}
    {id : Nat} (h : numberNew shelf compile foldCase m i parent a = .ok (id, b)) :
    ∃ own children c starts d matcher, id = a.modes.size ∧
      ownFields foldCase m (parent.map a.terminator) = .ok own ∧
      childIds shelf compile id (m.contains.getD []) (a.add own i) = .ok (children, c) ∧
      followIds shelf compile parent m.starts c = .ok (starts, d) ∧
      Matcher.ofRules (d.rules id children) foldCase = .ok matcher ∧
      b = d.link id children starts matcher := by
  obtain ⟨_, _, hget, h⟩ := Compiling.of_bind_ok h
  cases hget
  obtain ⟨own, _, hown, h⟩ := Compiling.of_bind_ok h
  obtain ⟨hown, rfl⟩ := Compiling.of_lift_ok hown
  obtain ⟨_, _, hset, h⟩ := Compiling.of_bind_ok h
  cases hset
  obtain ⟨children, c, hchildren, h⟩ := Compiling.of_bind_ok h
  obtain ⟨starts, d, hstarts, h⟩ := Compiling.of_bind_ok h
  obtain ⟨_, _, hget, h⟩ := Compiling.of_bind_ok h
  cases hget
  obtain ⟨matcher, e, hrules, hlink⟩ := Compiling.of_bind_ok h
  obtain ⟨hmatcher, he⟩ := Compiling.of_lift_ok hrules
  subst he
  cases hlink
  exact ⟨own, children, c, starts, e, matcher, rfl, hown, hchildren, hstarts, hmatcher, rfl⟩

end Runs

end Language

end CodeMarkup
