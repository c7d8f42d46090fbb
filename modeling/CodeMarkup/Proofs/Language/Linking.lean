import CodeMarkup.Proofs.Grammar.Dependence
import CodeMarkup.Proofs.Language.Numbering

/-! # What modes are linked to

The links of a compiled mode are right if its children and the mode that follows it have the numbers
under which the arena knows them, and its rules are theirs (`Arena.Linked`). A run leaves alone what
was there before it and links all modes that it adds (`Ran`), by induction on how deep modes are
followed. Inside of a parent it also gives every mode the fields that it has there
(`Arena.Owned`). -/

namespace CodeMarkup

variable {ρ : Type} [Engine ρ]

/-! ### Identities -/

namespace Shelf

variable (s : Shelf)

/-- The mode with a key, or with one of its variants laid over it. -/
def variant? (key : Key) : Option Nat → Option Mode
  | none => some (s.mode key)
  | some n => (s.alternatives key)[n]?

end Shelf

namespace Language

/-- A mode on the shelf and what makes it one and the same inside a parent. -/
def Identifies (shelf : Shelf) (m : Mode) (parent : Option Nat) (i : Identity) : Prop :=
  ∃ key variant, shelf.variant? key variant = some m ∧ i = identity shelf key variant m parent

section Identity

variable {shelf : Shelf} {m m' : Mode} {parent parent' : Option Nat} {i : Identity}

theorem identifies_none (shelf : Shelf) (key : Key) (parent : Option Nat) :
    Identifies shelf (shelf.mode key) parent (identity shelf key none (shelf.mode key) parent) :=
  ⟨key, none, rfl, rfl⟩

theorem Identifies.mode_eq (h : Identifies shelf m parent i) (h' : Identifies shelf m' parent' i) :
    m = m' := by
  obtain ⟨key, variant, hm, rfl⟩ := h
  obtain ⟨key', variant', hm', he⟩ := h'
  simp only [identity, Identity.mk.injEq] at he
  obtain ⟨rfl, rfl, -⟩ := he
  exact Option.some.inj (hm.symm.trans hm')

theorem Identifies.parent_eq (h : Identifies shelf m parent i)
    (hd : shelf.dependsOnParent m = true) : i.parent = parent := by
  obtain ⟨key, variant, -, rfl⟩ := h
  exact if_pos hd

/-- What follows a mode is the same mode inside all parents inside which the mode is the same. -/
theorem Identifies.identity_starts (h : Identifies shelf m parent i)
    (h' : Identifies shelf m parent' i) {key : Key} (hs : m.starts = some key) :
    identity shelf key none (shelf.mode key) parent =
      identity shelf key none (shelf.mode key) parent' := by
  unfold identity
  cases hd : shelf.dependsOnParent m with
  | true => rw [← h.parent_eq hd, ← h'.parent_eq hd]
  | false => simp only [Shelf.dependsOnParent_starts hd hs]; rfl

end Identity

/-- The terminator around a mode that does not end with its parent says nothing about the mode. -/
theorem ownFields_congr {foldCase : Bool} {m : Mode} {s t : String}
    (h : (m.endsWithParent == some true) = false) :
    (ownFields foldCase m (some s) : Except GrammarProblem (CompiledMode ρ)) =
      ownFields foldCase m (some t) := by
  have hb : ∀ begin?, boundaries m begin? (some s) = boundaries m begin? (some t) := by
    intro begin?
    simp only [boundaries, terminatorOf, h, Bool.false_and, Bool.false_eq_true, if_false]
  unfold ownFields
  simp only [hb, Option.isNone_some]

/-- What compiling makes of the fields of a mode inside one with a terminator, or of the root. -/
structure FieldsOf (foldCase : Bool) (m : Mode) (terminator : Option String)
    (own : CompiledMode ρ) : Prop where
  /-- The fields are without links. -/
  bare : own.bare = own
  illegal : own.illegal = illegalPattern m.illegal
  endsWithParent : own.endsWithParent = m.endsWithParent.getD false
  onBegin : own.onBegin = m.onBegin
  onEnd : own.onEnd = m.onEnd
  boundaries : ∃ begin?,
    (own.beginPattern, own.endPattern, own.terminator) = boundaries m begin? terminator
  endRegex : own.endPattern.mapM (prepare foldCase) = .ok own.endRegex

theorem of_ownFields {foldCase : Bool} {m : Mode} {terminator : Option String}
    {own : CompiledMode ρ} (h : ownFields foldCase m terminator = .ok own) :
    FieldsOf foldCase m terminator own := by
  unfold ownFields at h
  obtain ⟨_, -, h⟩ := of_bind_ok h
  obtain ⟨_, -, h⟩ := of_bind_ok h
  obtain ⟨_, -, h⟩ := of_bind_ok h
  obtain ⟨_, -, h⟩ := of_bind_ok h
  obtain ⟨_, hend, h⟩ := of_bind_ok h
  cases h
  exact ⟨rfl, rfl, rfl, rfl, rfl, ⟨_, rfl⟩, hend⟩

/-- The root has no end. -/
theorem FieldsOf.root {foldCase : Bool} {m : Mode} {own : CompiledMode ρ}
    (h : FieldsOf foldCase m none own) :
    own.terminator = "" ∧ own.endPattern = none ∧ own.endRegex = none := by
  obtain ⟨begin?, hboundaries⟩ := h.boundaries
  obtain ⟨-, hpair⟩ := Prod.mk.inj hboundaries
  obtain ⟨hpattern, hterminator⟩ := Prod.mk.inj hpair
  have hend := h.endRegex
  rw [hpattern] at hend
  exact ⟨hterminator, hpattern, (Except.ok.inj hend).symm⟩

/-! ### Numbers and links -/

namespace Arena

variable (shelf : Shelf) (foldCase : Bool)

/-- Numbers are those of modes that are there, different ones for what is different, and a parent
has been numbered before. The root has no identity. -/
structure Tidy (a : Arena ρ) : Prop where
  lt : ∀ {i : Identity} {n : Nat}, a.number? i = some n → n < a.modes.size
  pos : ∀ {i : Identity} {n : Nat}, a.number? i = some n → 0 < n
  inj : ∀ {i j : Identity} {n : Nat}, a.number? i = some n → a.number? j = some n → i = j
  parent : ∀ {i : Identity} {n p : Nat}, a.number? i = some n → i.parent = some p → p < n

/-- The number of a mode inside a parent. -/
def HasNumber (a : Arena ρ) (m : Mode) (parent : Option Nat) (n : Nat) : Prop :=
  ∃ i, Identifies shelf m parent i ∧ a.number? i = some n

/-- A mode with its links to its children and to what follows it inside a parent. -/
structure Linked (a : Arena ρ) (id : Nat) (m : Mode) (parent : Option Nat)
    (cm : CompiledMode ρ) : Prop where
  found : a.modes[id]? = some cm
  filled : shelf.Filled (m.contains.getD [])
  children : List.Forall₂ (Shelf.FitsIn id fun source c => a.HasNumber shelf source (some id) c)
    (shelf.expansion (m.contains.getD [])) cm.children
  starts : Option.Rel (fun key n =>
    a.number? (identity shelf key none (shelf.mode key) parent) = some n) m.starts cm.starts
  rules : cm.matcher.sources = a.rules id cm.children
  foldCase : cm.matcher.foldCase = foldCase

/-- Every mode that is known has the fields that it has inside each of its parents. -/
def Owned (a : Arena ρ) : Prop := ∀ (i : Identity) (n : Nat), a.number? i = some n →
  ∃ cm, a.modes[n]? = some cm ∧ ∀ m, shelf.variant? i.key i.variant = some m → ∀ t,
    (shelf.dependsOnParent m = true → ∃ p, i.parent = some p ∧ t = a.terminator p) →
      ownFields foldCase m (some t) = .ok cm.bare

variable {shelf foldCase} {a b : Arena ρ}

theorem HasNumber.mono (hk : ∀ {i n}, a.number? i = some n → b.number? i = some n) {m : Mode}
    {parent : Option Nat} {n : Nat} (h : a.HasNumber shelf m parent n) :
    b.HasNumber shelf m parent n := by
  obtain ⟨i, hi, hn⟩ := h
  exact ⟨i, hi, hk hn⟩

theorem HasNumber.lt (ha : a.Tidy) {m : Mode} {parent : Option Nat} {n : Nat}
    (h : a.HasNumber shelf m parent n) : n < a.modes.size := by
  obtain ⟨i, -, hn⟩ := h
  exact ha.lt hn

/-- Children that have been expanded are modes of the arena. -/
theorem lt_of_fits (ha : a.Tidy) {id : Nat} (hid : id < a.modes.size)
    {sources : List (Option Mode)} {children : List Nat}
    (h : List.Forall₂ (Shelf.FitsIn id fun source c => a.HasNumber shelf source (some id) c)
      sources children) : ∀ c ∈ children, c < a.modes.size := by
  induction h with
  | nil => simp
  | @cons source c _ _ hc _ ih =>
    refine List.forall_mem_cons.mpr ⟨?_, ih⟩
    cases source with
    | none => exact (show c = id from hc) ▸ hid
    | some m => exact HasNumber.lt ha hc

theorem fits_mono (hk : ∀ {i n}, a.number? i = some n → b.number? i = some n) {id : Nat}
    {sources : List (Option Mode)} {children : List Nat}
    (h : List.Forall₂ (Shelf.FitsIn id fun source c => a.HasNumber shelf source (some id) c)
      sources children) :
    List.Forall₂ (Shelf.FitsIn id fun source c => b.HasNumber shelf source (some id) c)
      sources children := by
  refine h.imp fun source c hc => ?_
  cases source with
  | none => exact hc
  | some m => exact HasNumber.mono hk hc

theorem Linked.lt (ha : a.Tidy) {id : Nat} {m : Mode} {parent : Option Nat}
    {cm : CompiledMode ρ} (h : a.Linked shelf foldCase id m parent cm) :
    ∀ c ∈ cm.children, c < a.modes.size :=
  lt_of_fits ha (lt_size h.found) h.children

theorem Linked.isSome_starts {id : Nat} {m : Mode} {parent : Option Nat} {cm : CompiledMode ρ}
    (h : a.Linked shelf foldCase id m parent cm) : cm.starts.isSome = m.starts.isSome := by
  have hs := h.starts
  generalize m.starts = key at hs ⊢
  generalize cm.starts = n at hs ⊢
  cases hs <;> rfl

/-- Links stay right when only other modes get theirs. -/
theorem Linked.mono (ha : a.Tidy) (hab : a.Preserves b) {id : Nat} {m : Mode}
    {parent : Option Nat} {cm : CompiledMode ρ} (h : a.Linked shelf foldCase id m parent cm)
    (hid : b.modes[id]? = some cm) : b.Linked shelf foldCase id m parent cm where
  found := hid
  filled := h.filled
  children := fits_mono hab.known h.children
  starts := by
    have hs := h.starts
    generalize m.starts = key at hs ⊢
    generalize cm.starts = n at hs ⊢
    cases hs with
    | none => exact .none
    | some hn => exact .some (hab.known hn)
  rules := by rw [h.rules, hab.rules (lt_size h.found) (h.lt ha)]
  foldCase := h.foldCase

/-! ### Adding a mode -/

theorem Tidy.add (ha : a.Tidy) (own : CompiledMode ρ) {i : Option Identity}
    (hpos : i ≠ none → 0 < a.modes.size)
    (hp : ∀ j p, i = some j → j.parent = some p → p < a.modes.size) : (a.add own i).Tidy where
  lt {j n} h := by
    rw [number?_add] at h
    rw [size_add]
    split at h
    · cases h
      exact Nat.lt_succ_self _
    · exact Nat.lt_succ_of_lt (ha.lt h)
  pos {j n} h := by
    rw [number?_add] at h
    split at h
    · next he =>
      cases h
      exact hpos (he ▸ Option.some_ne_none _)
    · exact ha.pos h
  inj {j k n} hj hk := by
    rw [number?_add] at hj hk
    split at hj <;> split at hk
    · next h h' => exact Option.some.inj (h.symm.trans h')
    · cases hj
      exact absurd (ha.lt hk) (Nat.lt_irrefl _)
    · cases hk
      exact absurd (ha.lt hj) (Nat.lt_irrefl _)
    · exact ha.inj hj hk
  parent {j n p} h hj := by
    rw [number?_add] at h
    split at h
    · next he =>
      cases h
      exact hp j p he hj
    · exact ha.parent h hj

theorem Tidy.link (ha : a.Tidy) (id : Nat) (children : List Nat) (starts : Option Nat)
    (matcher : Matcher ρ) : (a.link id children starts matcher).Tidy where
  lt h := by
    rw [size_link]
    exact ha.lt h
  pos := ha.pos
  inj := ha.inj
  parent := ha.parent

/-- Nothing is owned when nothing is known. -/
theorem owned_of_unknown (h : ∀ i, a.number? i = none) : a.Owned shelf foldCase :=
  fun i n hn => by rw [h i] at hn; cases hn

/-- What is kept of an arena keeps the fields that a known mode has inside each of its parents. -/
theorem Owned.preserved (ha : a.Owned shelf foldCase) (ht : a.Tidy) (hext : a.Preserves b)
    {i : Identity} {n : Nat} (hn : a.number? i = some n) : ∃ cm, b.modes[n]? = some cm ∧
      ∀ m, shelf.variant? i.key i.variant = some m → ∀ t,
        (shelf.dependsOnParent m = true → ∃ p, i.parent = some p ∧ t = b.terminator p) →
          ownFields foldCase m (some t) = .ok cm.bare := by
  obtain ⟨cm, hcm, hfields⟩ := ha i n hn
  obtain ⟨cm', hcm', he⟩ := hext.modes hcm
  refine ⟨cm', hcm', fun m hm t hdep => ?_⟩
  rw [he]
  refine hfields m hm t fun hd => ?_
  obtain ⟨q, hq, rfl⟩ := hdep hd
  have hlt := ht.parent hn hq
  exact ⟨q, hq, hext.terminator (Nat.lt_trans hlt (ht.lt hn))⟩

theorem Owned.add (ha : a.Owned shelf foldCase) (ht : a.Tidy) {own : CompiledMode ρ}
    {i : Identity} (hi : a.number? i = none) {m : Mode} {p : Nat}
    (hm : Identifies shelf m (some p) i) (hp : p < a.modes.size)
    (hown : ownFields foldCase m (some (a.terminator p)) = .ok own) (hbare : own.bare = own) :
    (a.add own (some i)).Owned shelf foldCase := by
  have hext := (extends_add own (a := a) (i := some i) (by rw [Option.bind_some, hi])).preserves
  intro j n hn
  rw [number?_add] at hn
  split at hn
  · next he =>
    cases hn
    cases he
    refine ⟨own, getElem?_add_size a own _, fun m' hm' t hdep => ?_⟩
    obtain ⟨key, variant, hv, rfl⟩ := hm
    obtain rfl : m = m' := Option.some.inj (hv.symm.trans hm')
    rw [hbare, ← hown]
    cases hd : shelf.dependsOnParent m with
    | true =>
      obtain ⟨q, hq, rfl⟩ := hdep hd
      rw [Identifies.parent_eq ⟨key, variant, hv, rfl⟩ hd] at hq
      cases hq
      rw [hext.terminator hp]
    | false => exact ownFields_congr (Shelf.endsWithParent_of_dependsOnParent hd)
  · exact ha.preserved ht hext hn

theorem Owned.link (ha : a.Owned shelf foldCase) (ht : a.Tidy) (id : Nat) (children : List Nat)
    (starts : Option Nat) (matcher : Matcher ρ) :
    (a.link id children starts matcher).Owned shelf foldCase :=
  fun _ _ hn => ha.preserved ht (preserves_link a id children starts matcher) hn

end Arena

/-! ### Runs -/

/-- What a run leaves alone, and that the modes that it adds are linked. -/
structure Ran (shelf : Shelf) (foldCase : Bool) (a b : Arena ρ) : Prop where
  extends_ : a.Extends b
  tidy : b.Tidy
  linked : ∀ k, a.modes.size ≤ k → k < b.modes.size → ∃ m parent cm,
    b.HasNumber shelf m parent k ∧ b.Linked shelf foldCase k m parent cm

/-- A way to number modes that leaves alone what was there before, links what it adds and knows the
mode from then on. -/
def Numbers (shelf : Shelf) (foldCase : Bool)
    (compile : Mode → Option Identity → Option Nat → Compiling ρ Nat) : Prop :=
  ∀ (m : Mode) (i : Identity) (parent : Option Nat) (a b : Arena ρ) (id : Nat),
    compile m (some i) parent a = .ok (id, b) → Identifies shelf m parent i → a.Tidy →
    0 < a.modes.size → (∀ p, parent = some p → p < a.modes.size) →
    Ran shelf foldCase a b ∧ b.number? i = some id ∧
      (parent ≠ none → a.Owned shelf foldCase → b.Owned shelf foldCase)

section Runs

variable {shelf : Shelf} {foldCase : Bool} {a b c : Arena ρ}

namespace Ran

theorem refl (ha : a.Tidy) : Ran shelf foldCase a a :=
  ⟨.refl a, ha, fun _ hle hlt => absurd hlt (Nat.not_lt_of_le hle)⟩

theorem trans (hab : Ran shelf foldCase a b) (hbc : Ran shelf foldCase b c) :
    Ran shelf foldCase a c where
  extends_ := hab.extends_.trans hbc.extends_
  tidy := hbc.tidy
  linked k hle hlt := by
    rcases Nat.lt_or_ge k b.modes.size with hk | hk
    · obtain ⟨m, parent, cm, hn, hl⟩ := hab.linked k hle hk
      exact ⟨m, parent, cm, hn.mono hbc.extends_.known,
        hl.mono hab.tidy hbc.extends_.preserves (hbc.extends_.modes hl.found)⟩
    · exact hbc.linked k hk hlt

end Ran

variable {compile : Mode → Option Identity → Option Nat → Compiling ρ Nat}
  (hcompile : Numbers shelf foldCase compile) {ids : List Nat} {id : Nat}

include hcompile

theorem ran_variantIds {key : Key} : ∀ {vs : List Key} {n : Nat} {a : Arena ρ} {ids : List Nat},
    (∀ k, (shelf.alternatives key)[n + k]? = (vs.map fun v =>
      (shelf.mode key).merge (shelf.mode v))[k]?) →
    variantIds shelf compile key (shelf.mode key) id n vs a = .ok (ids, b) → a.Tidy →
    id < a.modes.size →
    Ran shelf foldCase a b ∧ List.Forall₂ (fun source c => b.HasNumber shelf source (some id) c)
        (vs.map fun v => (shelf.mode key).merge (shelf.mode v)) ids ∧
      (a.Owned shelf foldCase → b.Owned shelf foldCase)
  | [], n, a, ids, _, h, ha, _ => by
    cases h
    exact ⟨.refl ha, .nil, fun ho => ho⟩
  | v :: vs, n, a, ids, halt, h, ha, hid => by
    obtain ⟨c, d, rest, hc, hrest, rfl⟩ := of_variantIds_cons h
    have hi : Identifies shelf ((shelf.mode key).merge (shelf.mode v)) (some id)
        (identity shelf key (some n) ((shelf.mode key).merge (shelf.mode v)) (some id)) :=
      ⟨key, some n, by simpa [Shelf.variant?] using halt 0, rfl⟩
    obtain ⟨hran, hn, hown⟩ := hcompile _ _ _ _ _ _ hc hi ha (Nat.zero_lt_of_lt hid) (by
      rintro p hp
      cases hp
      exact hid)
    have hid' := Nat.lt_of_lt_of_le hid hran.extends_.preserves.size_le
    obtain ⟨hran', hfits, hown'⟩ := ran_variantIds (n := n + 1) (fun k => by
      have := halt (k + 1)
      rwa [List.map_cons, List.getElem?_cons_succ, ← Nat.add_assoc, Nat.add_right_comm] at this)
      hrest hran.tidy hid'
    exact ⟨hran.trans hran', .cons ⟨_, hi, hran'.extends_.known hn⟩ hfits,
      fun ho => hown' (hown (by simp) ho)⟩

theorem ran_expand {key : Key} (h : expand shelf compile key id a = .ok (ids, b)) (ha : a.Tidy)
    (hid : id < a.modes.size) :
    Ran shelf foldCase a b ∧ List.Forall₂ (fun source c => b.HasNumber shelf source (some id) c)
        (shelf.alternatives key) ids ∧
      (a.Owned shelf foldCase → b.Owned shelf foldCase) := by
  rcases of_expand h with ⟨v, vs, hv, h⟩ | ⟨halt, c, hc, rfl⟩
  · have halt : shelf.alternatives key = (v :: vs).map fun v =>
        (shelf.mode key).merge (shelf.mode v) := by rw [Shelf.alternatives, hv]
    have hran := ran_variantIds hcompile (n := 0) (fun k => by rw [halt, Nat.zero_add]) h ha hid
    rwa [← halt] at hran
  · have hi := identifies_none shelf key (some id)
    obtain ⟨hran, hn, hown⟩ := hcompile _ _ _ _ _ _ hc hi ha (Nat.zero_lt_of_lt hid) (by
      rintro p hp
      cases hp
      exact hid)
    rw [halt]
    exact ⟨hran, .cons ⟨_, hi, hn⟩ .nil, hown (by simp)⟩

theorem ran_childIds : ∀ {cs : List Child} {a : Arena ρ} {ids : List Nat},
    childIds shelf compile id cs a = .ok (ids, b) → a.Tidy → id < a.modes.size →
    Ran shelf foldCase a b ∧ shelf.Filled cs ∧
      List.Forall₂ (Shelf.FitsIn id fun source c => b.HasNumber shelf source (some id) c)
        (shelf.expansion cs) ids ∧ (a.Owned shelf foldCase → b.Owned shelf foldCase)
  | [], a, ids, h, ha, _ => by
    cases h
    exact ⟨.refl ha, fun slot hs => by simp at hs, .nil, fun ho => ho⟩
  | c :: cs, a, ids, h, ha, hid => by
    rcases of_childIds_cons h with ⟨rfl, rest, hrest, rfl⟩ | ⟨key, first, d, rest, hk, hfirst, hrest, rfl⟩
    · obtain ⟨hran, hfilled, hfits, hown⟩ := ran_childIds hrest ha hid
      exact ⟨hran, fun slot hs => hfilled slot (by simpa using hs), .cons rfl hfits, hown⟩
    · obtain ⟨hran, hfirst, hown⟩ := ran_expand hcompile hfirst ha hid
      have hid' := Nat.lt_of_lt_of_le hid hran.extends_.preserves.size_le
      obtain ⟨hran', hfilled, hfits, hown'⟩ := ran_childIds hrest hran.tidy hid'
      have hsources : shelf.sources c = (shelf.alternatives key).map some := by
        cases c with
        | self => cases hk
        | mode k => cases hk; rfl
        | late slot => rw [Shelf.sources, show shelf.inSlot? slot = some key from hk]
      refine ⟨hran.trans hran', fun slot hs => ?_, ?_, fun ho => hown' (hown ho)⟩
      · rcases List.mem_cons.mp hs with rfl | hs
        · rw [show shelf.inSlot? slot = some key from hk]
          rfl
        · exact hfilled slot hs
      · rw [Shelf.expansion_cons, hsources]
        refine List.rel_append (List.forall₂_map_left_iff.mpr (hfirst.imp fun _ _ hn => ?_)) hfits
        exact Arena.HasNumber.mono hran'.extends_.known hn

theorem ran_followIds {parent : Option Nat} {next : Option Key} {starts : Option Nat}
    (h : followIds shelf compile parent next a = .ok (starts, b)) (ha : a.Tidy)
    (hpos : 0 < a.modes.size) (hp : ∀ p, parent = some p → p < a.modes.size) :
    Ran shelf foldCase a b ∧ Option.Rel (fun key n =>
        b.number? (identity shelf key none (shelf.mode key) parent) = some n) next starts ∧
      (parent ≠ none → a.Owned shelf foldCase → b.Owned shelf foldCase) := by
  cases next with
  | none =>
    cases h
    exact ⟨.refl ha, .none, fun _ ho => ho⟩
  | some key =>
    obtain ⟨n, hn, rfl⟩ := of_followIds_some h
    obtain ⟨hran, hn, hown⟩ := hcompile _ _ _ _ _ _ hn (identifies_none shelf key parent) ha hpos hp
    exact ⟨hran, .some hn, hown⟩

omit hcompile in
theorem sources_of_check : ∀ {rules : List (RuleKind × String)} {checked : List Rule},
    rules.mapM (fun (kind, source) => Matcher.check ρ kind source) = .ok checked →
      checked.map (fun r => (r.kind, r.source)) = rules
  | [], checked, h => by
    cases h
    rfl
  | (kind, source) :: rules, checked, h => by
    rw [List.mapM_cons] at h
    obtain ⟨r, hr, h⟩ := of_bind_ok h
    obtain ⟨rs, hrs, h⟩ := of_bind_ok h
    cases h
    rw [List.map_cons, sources_of_check hrs]
    dsimp only at hr
    unfold Matcher.check at hr
    split at hr
    · cases hr
      rfl
    · cases hr

omit hcompile in
/-- A matcher has the rules that have been checked one by one. -/
theorem exists_checked_of_ofRules {rules : List (RuleKind × String)} {m : Matcher ρ}
    (h : Matcher.ofRules rules foldCase = .ok m) : ∃ checked : List Rule,
      rules.mapM (fun (kind, source) => Matcher.check ρ kind source) = .ok checked ∧
        m = .ofChecked checked foldCase := by
  obtain ⟨checked, hchecked, h⟩ := of_bind_ok h
  refine ⟨checked, hchecked, ?_⟩
  revert h
  dsimp only
  split
  · exact fun h => (Except.ok.inj h).symm
  · split
    · exact fun h => (Except.ok.inj h).symm
    · exact fun h => nomatch h

omit hcompile in
/-- The rules of a checked matcher are those that it was made of. -/
theorem of_ofRules {rules : List (RuleKind × String)} {m : Matcher ρ}
    (h : Matcher.ofRules rules foldCase = .ok m) : m.sources = rules ∧ m.foldCase = foldCase := by
  obtain ⟨checked, hchecked, rfl⟩ := exists_checked_of_ofRules h
  exact ⟨sources_of_check hchecked, rfl⟩

omit hcompile in
/-- A mode that has its fields is linked when it gets its links. -/
theorem linked_link {m : Mode} {parent : Option Nat} {children : List Nat} {starts : Option Nat}
    {matcher : Matcher ρ} (ha : a.Tidy) (hid : id < a.modes.size)
    (hfilled : shelf.Filled (m.contains.getD []))
    (hfits : List.Forall₂ (Shelf.FitsIn id fun source c => a.HasNumber shelf source (some id) c)
      (shelf.expansion (m.contains.getD [])) children)
    (hstarts : Option.Rel (fun key n =>
      a.number? (identity shelf key none (shelf.mode key) parent) = some n) m.starts starts)
    (hmatcher : Matcher.ofRules (a.rules id children) foldCase = .ok matcher) :
    ∃ cm, (a.link id children starts matcher).Linked shelf foldCase id m parent cm := by
  obtain ⟨cm, hcm⟩ := Arena.exists_getElem? hid
  obtain ⟨hrules, hfold⟩ := of_ofRules hmatcher
  have hext := Arena.preserves_link a id children starts matcher
  exact ⟨{ cm with children, starts, matcher }, {
    found := by rw [Arena.getElem?_link_self, hcm, Option.map_some]
    filled := hfilled
    children := hfits
    starts := hstarts
    rules := hrules.trans (hext.rules hid (Arena.lt_of_fits ha hid hfits)).symm
    foldCase := hfold }⟩

/-- What numbering a new mode does to the arena. -/
theorem ran_numberNew {m : Mode} {i : Identity} {parent : Option Nat}
    (h : numberNew shelf compile foldCase m (some i) parent a = .ok (id, b))
    (hi : Identifies shelf m parent i) (hnew : a.number? i = none) (ha : a.Tidy)
    (hpos : 0 < a.modes.size) (hp : ∀ p, parent = some p → p < a.modes.size) :
    Ran shelf foldCase a b ∧ b.number? i = some id ∧
      (parent ≠ none → a.Owned shelf foldCase → b.Owned shelf foldCase) := by
  obtain ⟨own, children, c, starts, d, matcher, rfl, hown, hchildren, hstarts, hmatcher, rfl⟩ :=
    of_numberNew h
  have hbind : (some i).bind a.number? = none := by rw [Option.bind_some, hnew]
  have hext := Arena.extends_add own hbind
  have hsize := Arena.size_add a own (some i)
  have htidy : (a.add own (some i)).Tidy := ha.add own (fun _ => hpos) fun j p hj hq => by
    cases hj
    obtain ⟨key, variant, -, rfl⟩ := hi
    unfold identity at hq
    dsimp only at hq
    split at hq
    · exact hp p hq
    · cases hq
  obtain ⟨hran, hfilled, hfits, hchildrenOwn⟩ := ran_childIds hcompile hchildren htidy (by omega)
  have hc := hran.extends_.preserves.size_le
  obtain ⟨hran', hrel, hstartsOwn⟩ := ran_followIds hcompile hstarts hran.tidy (by omega)
    fun p hq => by have := hp p hq; omega
  have hd := hran'.extends_.preserves.size_le
  obtain ⟨cm, hlinked⟩ := linked_link hran'.tidy (by omega) hfilled
    (Arena.fits_mono hran'.extends_.known hfits) hrel hmatcher
  have hnumber : d.number? i = some a.modes.size :=
    (hran.trans hran').extends_.known (by rw [Arena.number?_add, if_pos rfl])
  refine ⟨⟨?_, hran'.tidy.link .., fun k hle hlt => ?_⟩, hnumber, fun hparent ho => ?_⟩
  · exact (hext.trans (hran.trans hran').extends_).link ..
  · rw [Arena.size_link] at hlt
    -- the mode itself is linked last; what it leads to has been linked before
    rcases Nat.eq_or_lt_of_le hle with rfl | hlt'
    · exact ⟨m, parent, cm, ⟨i, hi, hnumber⟩, hlinked⟩
    · obtain ⟨m', parent', cm', hn, hl⟩ := (hran.trans hran').linked k (by omega) hlt
      exact ⟨m', parent', cm', hn, hl.mono hran'.tidy (Arena.preserves_link ..) (by
        rw [Arena.getElem?_link_ne d (by omega), hl.found])⟩
  · obtain ⟨p, rfl⟩ := Option.ne_none_iff_exists'.mp hparent
    refine (hstartsOwn hparent (hchildrenOwn ?_)).link hran'.tidy _ _ _ _
    exact ho.add ha hnew hi (hp p rfl) hown (of_ownFields hown).bare

omit hcompile in
/-- **Numbering modes leaves alone what was there before and links what it adds.** -/
theorem numbers_compileMode : ∀ depth : Nat,
    Numbers shelf foldCase (compileMode (ρ := ρ) shelf foldCase depth)
  | 0 => fun _ _ _ _ _ _ h => by cases h
  | depth + 1 => fun m i parent a b id h hi ha hpos hp => by
    rw [compileMode_succ, Option.bind_some] at h
    cases hn : a.number? i with
    | some n =>
      rw [hn] at h
      cases h
      exact ⟨.refl ha, hn, fun _ ho => ho⟩
    | none =>
      rw [hn] at h
      exact ran_numberNew (numbers_compileMode depth) h hi hn ha hpos hp

end Runs

end Language

end CodeMarkup
