import CodeMarkup.Proofs.Language.Mirrored
import Mathlib.Logic.Relation

/-! # Links of a compiled grammar

In a compiled grammar all modes that are linked to are there, and the rules of a mode begin no other
modes than its children (`Language.Linking`). Modes follow each other without end only where they do
in the grammar (`Language.not_transGen_starts`). -/

namespace CodeMarkup

variable {ρ : Type} [Engine ρ]

/-- Modes of the shelf of which none follows itself, at once or after others. -/
def Shelf.Ordered (s : Shelf) : Prop :=
  ∀ key, ¬ Relation.TransGen (fun k n => (s.mode k).starts = some n) key key

namespace Language

/-- A language in which all modes that are linked to are there. -/
structure Linking (l : Language ρ) : Prop where
  begins : ∀ {id n : Nat} {r : Rule}, r ∈ (l.mode id).matcher.rules → r.kind = .begins n →
    n ∈ (l.mode id).children
  children : ∀ {id n : Nat}, n ∈ (l.mode id).children → n < l.size
  starts : ∀ {id n : Nat}, (l.mode id).starts = some n → n < l.size
  /-- The root does not end. -/
  root : ∀ {r : Rule}, r ∈ (l.mode 0).matcher.rules → r.kind ≠ .ends

theorem mode_eq_root {l : Language ρ} {id : Nat} (h : l.size ≤ id) : l.mode id = l.mode 0 := by
  rw [mode_zero, mode, mode?, Array.getElem?_eq_none h, Option.getD_none]

section Rooted

variable {g : Grammar} {l : Language ρ} {c b : Arena ρ}

/-- Every mode of the language is linked, the root as what the grammar says of it. -/
theorem Rooted.exists_linked (hr : Rooted g l c b) (id : Nat) : ∃ k m parent cm,
    b.Linked g.shelf g.caseInsensitive k m parent cm ∧ l.mode id = cm ∧ (id < l.size → k = id) := by
  have hsize : l.size = b.modes.size := by rw [size, hr.modes]
  obtain ⟨root, hroot, -⟩ := hr.root
  have hzero : l.mode 0 = root := hr.mode hroot.found
  rcases Nat.lt_or_ge id l.size with hid | hid
  · rcases Nat.eq_zero_or_pos id with rfl | hpos
    · exact ⟨0, g.root, none, root, hroot, hzero, fun _ => rfl⟩
    · obtain ⟨m, parent, cm, -, hl⟩ := hr.linked id hpos (hsize ▸ hid)
      exact ⟨id, m, parent, cm, hl, hr.mode hl.found, fun _ => rfl⟩
  · exact ⟨0, g.root, none, root, hroot, (mode_eq_root hid).trans hzero,
      fun h => absurd h (Nat.not_lt_of_le hid)⟩

/-- The root has no end. -/
theorem Rooted.root_ends (hr : Rooted g l c b) : (l.mode 0).terminator = "" ∧
    (l.mode 0).endPattern = none ∧ (l.mode 0).endRegex = none := by
  obtain ⟨cm, hmirror⟩ := hr.mirrors .root
  rw [hmirror.mode_eq]
  exact (of_ownFields hmirror.own).root

theorem Rooted.linking (hr : Rooted g l c b) : l.Linking := by
  have hsize : l.size = b.modes.size := by rw [size, hr.modes]
  have hkind : ∀ {id : Nat} {r : Rule}, r ∈ (l.mode id).matcher.rules →
      ∃ source, (r.kind, source) ∈ l.rulesOf (l.mode id) := by
    intro id r hmem
    obtain ⟨k, m, parent, cm, hl, hcm, -⟩ := hr.exists_linked id
    rw [hcm] at hmem ⊢
    rw [← hr.rules hl]
    exact ⟨r.source, List.mem_map.mpr ⟨r, hmem, rfl⟩⟩
  refine ⟨fun {id n r} hmem hn => ?_, fun {id n} hmem => ?_, fun {id n} hn => ?_, fun {r} hmem hends => ?_⟩
  · obtain ⟨source, hsource⟩ := hkind hmem
    rw [hn, rulesOf, List.mem_append, List.mem_append] at hsource
    rcases hsource with (hs | hs) | hs
    · obtain ⟨child, hchild, he⟩ := List.mem_map.mp hs
      cases he
      exact hchild
    · split at hs <;> simp at hs
    · simp at hs
  · obtain ⟨k, m, parent, cm, hl, hcm, -⟩ := hr.exists_linked id
    rw [hcm] at hmem
    rw [hsize]
    exact hl.lt hr.tidy n hmem
  · obtain ⟨k, m, parent, cm, hl, hcm, -⟩ := hr.exists_linked id
    rw [hcm] at hn
    have hs := hl.starts
    rw [hn] at hs
    rw [hsize]
    cases hstarts : m.starts with
    | none => rw [hstarts] at hs; cases hs
    | some key =>
      rw [hstarts] at hs
      cases hs with
      | some hnumber => exact hr.tidy.lt hnumber
  · obtain ⟨source, hsource⟩ := hkind hmem
    rw [hends, rulesOf, hr.root_ends.1, List.mem_append, List.mem_append] at hsource
    rcases hsource with (hs | hs) | hs
    · simp at hs
    · simp at hs
    · simp at hs

/-- **In a compiled grammar all modes that are linked to are there.** -/
theorem linking_of_compile {name : String} (h : compile g name = .ok l) : l.Linking := by
  obtain ⟨c, b, hr⟩ := exists_rooted h
  exact hr.linking

/-- A number of the mode with a key. -/
def IsNumberOf (b : Arena ρ) (key : Key) (id : Nat) : Prop :=
  ∃ i, b.number? i = some id ∧ i.key = key ∧ i.variant = none

theorem Rooted.isNumberOf_of_starts (hr : Rooted g l c b) {id n : Nat} (hid : id < l.size)
    (hn : (l.mode id).starts = some n) :
    ∃ key, IsNumberOf b key n ∧ ∀ k, IsNumberOf b k id → (g.shelf.mode k).starts = some key := by
  have hsize : l.size = b.modes.size := by rw [size, hr.modes]
  have hof : ∀ {k : Nat} {m : Mode} {parent : Option Nat} {cm : CompiledMode ρ},
      b.Linked g.shelf g.caseInsensitive k m parent cm → cm.starts = some n →
        ∃ key, m.starts = some key ∧ IsNumberOf b key n := by
    intro k m parent cm hl hcm
    have hs := hl.starts
    rw [hcm] at hs
    cases hstarts : m.starts with
    | none => rw [hstarts] at hs; cases hs
    | some key =>
      rw [hstarts] at hs
      cases hs with
      | some hnumber => exact ⟨key, rfl, _, hnumber, rfl, rfl⟩
  -- the root has no key, so no key is numbered as it is
  rcases Nat.eq_zero_or_pos id with rfl | hpos
  · obtain ⟨root, hroot, -⟩ := hr.root
    rw [hr.mode hroot.found] at hn
    obtain ⟨key, -, hkey⟩ := hof hroot hn
    refine ⟨key, hkey, fun k ⟨i, hi, _⟩ => ?_⟩
    exact absurd (hr.tidy.pos hi) (Nat.lt_irrefl 0)
  · obtain ⟨m, parent, cm, ⟨i, ⟨key', variant, hm, hi⟩, hnumber⟩, hl⟩ :=
      hr.linked id hpos (hsize ▸ hid)
    rw [hr.mode hl.found] at hn
    obtain ⟨key, hstarts, hkey⟩ := hof hl hn
    refine ⟨key, hkey, fun k ⟨j, hj, hk, hv⟩ => ?_⟩
    obtain rfl := hr.tidy.inj hnumber hj
    rw [hi] at hk hv
    have hmode : g.shelf.mode k = m := by
      change key' = k at hk
      change variant = none at hv
      rw [hv, hk] at hm
      exact Option.some.inj hm
    rw [hmode, hstarts]

/-- **Modes follow each other without end only where they do in the grammar.** -/
theorem not_transGen_starts {name : String} (h : compile g name = .ok l) (hg : g.shelf.Ordered)
    (id : Nat) : ¬ Relation.TransGen (fun k n => (l.mode k).starts = some n) id id := by
  obtain ⟨c, b, hr⟩ := exists_rooted h
  have hlinking := hr.linking
  have hway : ∀ {k n : Nat}, k < l.size →
      Relation.TransGen (fun k n => (l.mode k).starts = some n) k n →
        n < l.size ∧ ∃ key, IsNumberOf b key n ∧ ∀ k', IsNumberOf b k' k →
          Relation.TransGen (fun k n => (g.shelf.mode k).starts = some n) k' key := by
    intro k n hk hkn
    induction hkn with
    | single hs =>
      obtain ⟨key, hkey, hfrom⟩ := hr.isNumberOf_of_starts hk hs
      exact ⟨hlinking.starts hs, key, hkey, fun k' hk' => .single (hfrom k' hk')⟩
    | tail _ hs ih =>
      obtain ⟨hlt, key', hkey', hto⟩ := ih
      obtain ⟨key, hkey, hfrom⟩ := hr.isNumberOf_of_starts hlt hs
      exact ⟨hlinking.starts hs, key, hkey, fun k' hk' => .tail (hto k' hk') (hfrom key' hkey')⟩
  intro hcycle
  have hid : id < l.size := by
    obtain ⟨k, -, hs⟩ := Relation.TransGen.tail'_iff.mp hcycle
    exact hlinking.starts hs
  obtain ⟨-, key, hkey, hto⟩ := hway hid hcycle
  exact hg key (hto key hkey)

end Rooted

end Language

end CodeMarkup
