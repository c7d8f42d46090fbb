import CodeMarkup.Language.Compile
import Mathlib.Data.List.Forall2

/-! # What compiled modes stand for

A mode of a grammar gives a compiled mode in every place where it stands, unless it is the same mode
as one that has been met before. `Language.Stands` says what a compiled mode stands for without
asking how modes are numbered: it goes down the grammar and the compiled modes side by side, from
the root through children and the modes that follow. What follows the root is left aside.
`Language.Mirrors` says that a compiled mode is right for what it stands for. -/

namespace CodeMarkup

variable {ρ : Type} [Engine ρ]

/-! ### The expansion of children -/

namespace Shelf

variable (s : Shelf)

/-- The modes that a key gives among children: one for each variant, or the mode with the key. -/
def alternatives (key : Key) : List Mode :=
  match (s.mode key).variants with
  | some (v :: vs) => (v :: vs).map fun v => (s.mode key).merge (s.mode v)
  | _ => [s.mode key]

/-- The modes that a child gives; none of them stands for the mode that contains it. -/
def sources : Child → List (Option Mode)
  | .self => [none]
  | .mode key => (s.alternatives key).map some
  | .late slot =>
    match s.inSlot? slot with
    | some key => (s.alternatives key).map some
    | none => []

/-- The modes that children give, in order. -/
def expansion (cs : List Child) : List (Option Mode) := cs.flatMap s.sources

@[simp] theorem expansion_cons (c : Child) (cs : List Child) :
    s.expansion (c :: cs) = s.sources c ++ s.expansion cs := rfl

theorem self_mem_of_expansion {s : Shelf} {cs : List Child} {n : Nat}
    (h : (s.expansion cs)[n]? = some none) : .self ∈ cs := by
  obtain ⟨c, hc, hsource⟩ := List.mem_flatMap.mp (List.mem_of_getElem? h)
  cases c with
  | self => exact hc
  | mode key => simp [sources] at hsource
  | late slot =>
    cases hslot : s.inSlot? slot <;> simp [sources, hslot] at hsource

/-- A number among the children of a mode, which is right for what stands there: its own number for
the mode itself, and a number related to it for any other. -/
def FitsIn (id : Nat) (fits : Mode → Nat → Prop) : Option Mode → Nat → Prop
  | none, c => c = id
  | some m, c => fits m c

/-- Whether all slots among children have been filled. -/
def Filled (cs : List Child) : Prop := ∀ slot, .late slot ∈ cs → (s.inSlot? slot).isSome

end Shelf

/-! ### Compiled modes -/

/-- A compiled mode without its links to other modes. -/
def CompiledMode.bare (m : CompiledMode ρ) : CompiledMode ρ :=
  { m with children := [], starts := none, matcher := .empty }

/-- What does not look at the links of a mode is the same for modes that are the same without them.
-/
theorem CompiledMode.congr_of_bare {m m' : CompiledMode ρ} (h : m'.bare = m.bare) {α : Type}
    (f : CompiledMode ρ → α) (hf : ∀ m, f m.bare = f m) : f m' = f m := by
  rw [← hf m', h, hf m]

/-- What the rules of a matcher look for, and what their matches do. -/
def Matcher.sources (m : Matcher ρ) : List (RuleKind × String) :=
  m.rules.map fun r => (r.kind, r.source)

namespace Language

variable (g : Grammar) (l : Language ρ)

/-- The number of a compiled mode, the mode of the grammar that it stands for, and the number of the
compiled mode around it. -/
inductive Stands : Nat → Mode → Option Nat → Prop
  | root : Stands 0 g.root none
  | child {id : Nat} {m : Mode} {around : Option Nat} {cm : CompiledMode ρ} {n : Nat} {source : Mode}
      {c : Nat} : Stands id m around → l.mode? id = some cm →
      (g.shelf.expansion (m.contains.getD []))[n]? = some (some source) →
      cm.children[n]? = some c → Stands c source (some id)
  | next {id : Nat} {m : Mode} {parent : Nat} {cm : CompiledMode ρ} {key : Key} {n : Nat} :
      Stands id m (some parent) → l.mode? id = some cm → m.starts = some key →
      cm.starts = some n → Stands n (g.shelf.mode key) (some parent)

variable {g l} in
/-- What holds of all written modes, and of one laid over another if it holds of both, holds of all
modes that are stood for. -/
theorem Stands.of_written {P : Mode → Prop} (hroot : P g.root) (hmode : ∀ key, P (g.shelf.mode key))
    (hmerge : ∀ base overlay, P base → P overlay → P (base.merge overlay)) {id : Nat} {m : Mode}
    {around : Option Nat} (h : Stands g l id m around) : P m := by
  have halternatives : ∀ key, ∀ source ∈ g.shelf.alternatives key, P source := by
    intro key source hsource
    unfold Shelf.alternatives at hsource
    split at hsource
    · obtain ⟨v, -, rfl⟩ := List.mem_map.mp hsource
      exact hmerge _ _ (hmode key) (hmode v)
    · rw [List.mem_singleton.mp hsource]
      exact hmode key
  cases h with
  | root => exact hroot
  | child _ _ hsource _ =>
    obtain ⟨child, -, hmem⟩ := List.mem_flatMap.mp (List.mem_of_getElem? hsource)
    cases child with
    | self => simp [Shelf.sources] at hmem
    | mode key => exact halternatives key m (by simpa [Shelf.sources] using hmem)
    | late slot =>
      cases hslot : g.shelf.inSlot? slot with
      | none => simp [Shelf.sources, hslot] at hmem
      | some key => exact halternatives key m (by simpa [Shelf.sources, hslot] using hmem)
  | next => exact hmode _

/-- The numbers of the modes that are reached from the root, what follows the root aside. -/
inductive Reached : Nat → Prop
  | root : Reached 0
  | child {id : Nat} {cm : CompiledMode ρ} {c : Nat} : Reached id → l.mode? id = some cm →
      c ∈ cm.children → Reached c
  | next {id : Nat} {cm : CompiledMode ρ} {n : Nat} : Reached id → id ≠ 0 → l.mode? id = some cm →
      cm.starts = some n → Reached n

/-- What the rules of a mode have to be: the begins of its children in order, its end unless that is
empty, and what cannot occur in it. -/
def rulesOf (cm : CompiledMode ρ) : List (RuleKind × String) :=
  (cm.children.map fun c => (.begins c, (l.mode c).beginPattern)) ++
    (if cm.terminator.isEmpty then [] else [(.ends, cm.terminator)]) ++
    (cm.illegal.map fun pattern => (.illegal, pattern)).toList

/-- A compiled mode that is right for a mode of the grammar inside another compiled mode. -/
structure Mirrors (id : Nat) (m : Mode) (around : Option Nat) (cm : CompiledMode ρ) : Prop where
  found : l.mode? id = some cm
  own : ownFields g.caseInsensitive m (around.map fun p => (l.mode p).terminator) = .ok cm.bare
  filled : g.shelf.Filled (m.contains.getD [])
  children : List.Forall₂ (Shelf.FitsIn id fun source c => Stands g l c source (some id))
    (g.shelf.expansion (m.contains.getD [])) cm.children
  starts : cm.starts.isSome = m.starts.isSome
  rules : cm.matcher.sources = l.rulesOf cm
  foldCase : cm.matcher.foldCase = g.caseInsensitive

variable {g l} in
theorem Mirrors.mode_eq {id : Nat} {m : Mode} {around : Option Nat} {cm : CompiledMode ρ}
    (h : Mirrors g l id m around cm) : l.mode id = cm := by
  rw [mode, h.found, Option.getD_some]

variable {g l} in
/-- A rule that ends a mode looks for the terminator of the mode, which is not empty. -/
theorem Mirrors.source_of_ends {id : Nat} {m : Mode} {around : Option Nat} {cm : CompiledMode ρ}
    (h : Mirrors g l id m around cm) {r : Rule} (hr : r ∈ cm.matcher.rules) (hkind : r.kind = .ends) :
    cm.terminator ≠ "" ∧ r.source = cm.terminator := by
  have hsource : (RuleKind.ends, r.source) ∈ cm.matcher.sources := by
    rw [← hkind]
    exact List.mem_map_of_mem hr
  rw [h.rules] at hsource
  unfold rulesOf at hsource
  by_cases ht : cm.terminator = ""
  · simp [ht] at hsource
  · have he : cm.terminator.isEmpty = false := by simpa using ht
    exact ⟨ht, by simpa [he] using hsource⟩

end Language

end CodeMarkup
