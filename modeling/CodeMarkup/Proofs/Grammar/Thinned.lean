import CodeMarkup.Proofs.Language.Origin

/-! # Grammars without some children

A grammar is thinned when children go from the lists of its modes and all else stays
(`Grammar.Thins`). Which children go is said by the modes that they give: all of these have to be
gone. What the modes of both grammars give among their children is the same then, but for what is
gone (`Mode.Thins.expansion`). -/

namespace CodeMarkup

/-! ### Lists without some items -/

/-- A second list is a first one without some items, of which something holds; the items that stay
are related in order. -/
inductive Thinned {α β : Type} (R : α → β → Prop) (gone : α → Prop) : List α → List β → Prop
  | nil : Thinned R gone [] []
  | keep {a : α} {b : β} {as : List α} {bs : List β} :
      R a b → Thinned R gone as bs → Thinned R gone (a :: as) (b :: bs)
  | drop {a : α} {as : List α} {bs : List β} :
      gone a → Thinned R gone as bs → Thinned R gone (a :: as) bs

namespace Thinned

variable {α β γ δ : Type} {R : α → β → Prop} {S : γ → δ → Prop} {gone : α → Prop} {lost : γ → Prop}
  {as as' : List α} {bs bs' : List β} {cs : List γ} {ds : List δ}

theorem of_forall₂ (h : List.Forall₂ R as bs) : Thinned R gone as bs := by
  induction h with
  | nil => exact .nil
  | cons hab _ ih => exact .keep hab ih

theorem refl (as : List α) : Thinned Eq gone as as :=
  .of_forall₂ (List.forall₂_same.mpr fun _ _ => rfl)

theorem of_forall (h : ∀ a ∈ as, gone a) : Thinned R gone as [] := by
  induction as with
  | nil => exact .nil
  | cons a as ih =>
    obtain ⟨ha, has⟩ := List.forall_mem_cons.mp h
    exact .drop ha (ih has)

theorem imp (h : Thinned R gone as bs) {R' : α → β → Prop} {gone' : α → Prop}
    (hkeep : ∀ a b, R a b → R' a b) (hdrop : ∀ a, gone a → gone' a) : Thinned R' gone' as bs := by
  induction h with
  | nil => exact .nil
  | keep hab _ ih => exact .keep (hkeep _ _ hab) ih
  | drop ha _ ih => exact .drop (hdrop _ ha) ih

/-- The items that are gone are items of the first list. -/
theorem mem (h : Thinned R gone as bs) : Thinned R (fun a => a ∈ as ∧ gone a) as bs := by
  induction h with
  | nil => exact .nil
  | keep hab _ ih =>
    exact .keep hab (ih.imp (fun _ _ h => h) fun _ h => ⟨List.mem_cons_of_mem _ h.1, h.2⟩)
  | drop ha _ ih =>
    exact .drop ⟨List.mem_cons_self, ha⟩
      (ih.imp (fun _ _ h => h) fun _ h => ⟨List.mem_cons_of_mem _ h.1, h.2⟩)

theorem append (h : Thinned R gone as bs) (h' : Thinned R gone as' bs') :
    Thinned R gone (as ++ as') (bs ++ bs') := by
  induction h with
  | nil => exact h'
  | keep hab _ ih => exact .keep hab ih
  | drop ha _ ih => exact .drop ha ih

theorem flatMap (h : Thinned R gone as bs) {f : α → List γ} {g : β → List δ}
    (hkeep : ∀ a b, R a b → Thinned S lost (f a) (g b))
    (hdrop : ∀ a, gone a → ∀ c ∈ f a, lost c) : Thinned S lost (as.flatMap f) (bs.flatMap g) := by
  induction h with
  | nil => exact .nil
  | keep hab _ ih => exact (hkeep _ _ hab).append ih
  | drop ha _ ih => exact (of_forall (hdrop _ ha)).append ih

/-- What stands for the items of two lists item by item is thinned as these are. -/
theorem transport (h : Thinned R gone as bs) {F : α → γ → Prop} {G : β → δ → Prop}
    (hcs : List.Forall₂ F as cs) (hds : List.Forall₂ G bs ds)
    (hkeep : ∀ a b c d, R a b → F a c → G b d → S c d) (hdrop : ∀ a c, gone a → F a c → lost c) :
    Thinned S lost cs ds := by
  induction h generalizing cs ds with
  | nil =>
    cases hcs
    cases hds
    exact .nil
  | keep hab _ ih =>
    obtain _ | ⟨hac, hcs⟩ := hcs
    obtain _ | ⟨hbd, hds⟩ := hds
    exact .keep (hkeep _ _ _ _ hab hac hbd) (ih hcs hds)
  | drop ha _ ih =>
    obtain _ | ⟨hac, hcs⟩ := hcs
    exact .drop (hdrop _ _ ha hac) (ih hcs hds)

theorem of_map {f : γ → α} {g : δ → β} : ∀ {cs : List γ} {ds : List δ},
    Thinned R gone (cs.map f) (ds.map g) → Thinned (fun c d => R (f c) (g d)) (gone ∘ f) cs ds
  | [], [], _ => .nil
  | [], _ :: _, h => nomatch h
  | _ :: _, [], .drop ha h => .drop ha (of_map h)
  | _ :: _, _ :: _, h => by
    cases h with
    | keep hab h => exact .keep hab (of_map h)
    | drop ha h => exact .drop ha (of_map h)

theorem map (h : Thinned R gone as bs) {f : α → γ} {g : β → δ}
    (hkeep : ∀ a b, R a b → S (f a) (g b)) (hdrop : ∀ a, gone a → lost (f a)) :
    Thinned S lost (as.map f) (bs.map g) := by
  induction h with
  | nil => exact .nil
  | keep hab _ ih => exact .keep (hkeep _ _ hab) ih
  | drop ha _ ih => exact .drop (hdrop _ ha) ih

end Thinned

/-! ### Modes and grammars -/

/-- The guard of a mode refuses every begin. -/
def Mode.Rejects (m : Mode) : Prop :=
  ∃ guard, m.onBegin = some guard ∧ ∀ found memory, (guard found memory).1 = false

/-- The modes that a mode on a shelf is part of: itself, itself under its variants, and itself as a
variant of another mode. -/
inductive Shelf.PartOf (s : Shelf) (m : Mode) : Mode → Prop
  | itself : PartOf s m m
  | under {v : Key} : v ∈ m.variants.getD [] → PartOf s m (m.merge (s.mode v))
  | over {key v : Key} : v ∈ (s.mode key).variants.getD [] → s.mode v = m →
      PartOf s m ((s.mode key).merge m)

/-- All modes that a child of a mode gives are gone. -/
def Shelf.Drops (s : Shelf) (gone : Mode → Prop) (m : Mode) (child : Child) : Prop :=
  ∀ source ∈ s.sources child, match source with
    | none => ∀ whole, s.PartOf m whole → gone whole
    | some source => gone source

/-- A mode without some children that give only what is gone. -/
structure Mode.Thins (s : Shelf) (gone : Mode → Prop) (m m' : Mode) : Prop where
  fields : m' = { m with contains := m'.contains }
  isSome : m'.contains.isSome = m.contains.isSome
  contains : Thinned Eq (s.Drops gone m) (m.contains.getD []) (m'.contains.getD [])

/-- A grammar whose modes are without some children that give only what is gone. -/
structure Grammar.Thins (gone : Mode → Prop) (g g' : Grammar) : Prop where
  fields : g' = { g with root := g'.root, shelf := g'.shelf }
  slots : g'.shelf.slots = g.shelf.slots
  root : g.root.Thins g.shelf gone g'.root
  modes : ∀ key, (g.shelf.mode key).Thins g.shelf gone (g'.shelf.mode key)

/-- A mode, as it stands in a language, without some children that give only what is gone. -/
structure Mode.Stripped (s : Shelf) (gone : Mode → Prop) (m m' : Mode) : Prop where
  fields : m' = { m with contains := m'.contains }
  contains : Thinned Eq (fun child => ∀ source ∈ s.sources child, gone (source.getD m))
    (m.contains.getD []) (m'.contains.getD [])

variable {gone : Mode → Prop} {g g' : Grammar}

/-- A mode that another one is part of is without the children that that one is without. -/
theorem Shelf.Drops.of_partOf {s : Shelf} {m whole : Mode} {child : Child}
    (h : s.Drops gone m child) (hpart : s.PartOf m whole) :
    ∀ source ∈ s.sources child, gone (source.getD whole) := by
  intro source hsource
  have hgone := h source hsource
  cases source with
  | none => exact hgone whole hpart
  | some source => exact hgone

theorem Mode.Thins.stripped {s : Shelf} {m m' : Mode} (h : m.Thins s gone m') :
    m.Stripped s gone m' where
  fields := h.fields
  contains := h.contains.imp (fun _ _ he => he) fun _ hdrops => hdrops.of_partOf .itself

namespace Grammar.Thins

variable (h : g.Thins gone g')

include h

theorem inSlot? (slot : Nat) : g'.shelf.inSlot? slot = g.shelf.inSlot? slot := by
  unfold Shelf.inSlot?
  rw [h.slots]

theorem variants (key : Key) : (g'.shelf.mode key).variants = (g.shelf.mode key).variants := by
  rw [(h.modes key).fields]

/-- A variant is without the children that it and the mode under it are without. -/
theorem merge {key v : Key} (hv : v ∈ (g.shelf.mode key).variants.getD []) :
    ((g.shelf.mode key).merge (g.shelf.mode v)).Stripped g.shelf gone
      ((g'.shelf.mode key).merge (g'.shelf.mode v)) := by
  have hbase := h.modes key
  have hover := h.modes v
  constructor
  · rw [hbase.fields, hover.fields]
    rfl
  · have hsome := hover.isSome
    cases hc : (g.shelf.mode v).contains with
    | none =>
      rw [hc, Option.isSome_none] at hsome
      have hc' : (g'.shelf.mode v).contains = none := by simpa using hsome
      have hwhole := hbase.contains.imp (fun _ _ he => he)
        fun _ hdrops => hdrops.of_partOf (.under hv)
      simpa [Mode.merge, hc, hc'] using hwhole
    | some cs =>
      rw [hc, Option.isSome_some] at hsome
      obtain ⟨cs', hc'⟩ := Option.isSome_iff_exists.mp hsome
      have hwhole := hover.contains.imp (fun _ _ he => he)
        fun _ hdrops => hdrops.of_partOf (.over hv rfl)
      simpa [Mode.merge, hc, hc'] using hwhole

theorem alternatives (key : Key) : List.Forall₂ (Mode.Stripped g.shelf gone)
    (g.shelf.alternatives key) (g'.shelf.alternatives key) := by
  unfold Shelf.alternatives
  rw [h.variants]
  split
  · next v vs hv =>
    rw [List.forall₂_map_left_iff, List.forall₂_map_right_iff, List.forall₂_same]
    exact fun w hw => h.merge (by rw [hv]; exact hw)
  · exact .cons (h.modes key).stripped .nil

theorem sources (child : Child) : List.Forall₂ (Option.Rel (Mode.Stripped g.shelf gone))
    (g.shelf.sources child) (g'.shelf.sources child) := by
  have hkey : ∀ key, List.Forall₂ (Option.Rel (Mode.Stripped g.shelf gone))
      ((g.shelf.alternatives key).map some) ((g'.shelf.alternatives key).map some) := by
    intro key
    rw [List.forall₂_map_left_iff, List.forall₂_map_right_iff]
    exact (h.alternatives key).imp fun _ _ hm => .some hm
  cases child with
  | self => exact .cons .none .nil
  | mode key => exact hkey key
  | late slot =>
    rw [Shelf.sources, Shelf.sources, h.inSlot?]
    cases g.shelf.inSlot? slot with
    | none => exact .nil
    | some key => exact hkey key

/-- **The children of a mode give the same in both grammars, but for what is gone.** -/
theorem expansion {m m' : Mode} (hm : m.Stripped g.shelf gone m') :
    Thinned (Option.Rel (Mode.Stripped g.shelf gone)) (fun source => gone (source.getD m))
      (g.shelf.expansion (m.contains.getD [])) (g'.shelf.expansion (m'.contains.getD [])) := by
  refine hm.contains.flatMap (fun child child' he => ?_) fun child hdrops => hdrops
  rw [← he]
  exact .of_forall₂ (h.sources child)

end Grammar.Thins

/-! ### Taking a child out -/

/-- A mode of a grammar as it is written: the root, or the mode with a key. -/
def Grammar.written (g : Grammar) : Option Key → Mode
  | none => g.root
  | some key => g.shelf.mode key

/-- A mode without one of its children. -/
def Mode.without (m : Mode) (n : Nat) : Mode :=
  { m with contains := m.contains.map (·.eraseIdx n) }

/-- A grammar without one of the children of a mode. -/
def Grammar.without (g : Grammar) (n : Nat) : Option Key → Grammar
  | none => { g with root := g.root.without n }
  | some key => { g with shelf.modes := g.shelf.modes.modify key (·.without n) }

/-- The modes that a child of a mode gives, wherever that mode stands. -/
def Shelf.Gives (s : Shelf) (m : Mode) (child : Child) (given : Mode) : Prop :=
  ∃ source ∈ s.sources child, match source with
    | none => s.PartOf m given
    | some source => given = source

theorem Shelf.drops_gives (s : Shelf) (m : Mode) (child : Child) :
    s.Drops (s.Gives m child) m child := by
  intro source hsource
  cases source with
  | none => exact fun whole hwhole => ⟨none, hsource, hwhole⟩
  | some source => exact ⟨some source, hsource, rfl⟩

theorem Thinned.eraseIdx {α : Type} {gone : α → Prop} {as : List α} {n : Nat}
    (h : ∀ a, as[n]? = some a → gone a) : Thinned Eq gone as (as.eraseIdx n) := by
  induction as generalizing n with
  | nil => exact .nil
  | cons a as ih =>
    cases n with
    | zero => exact .drop (h a rfl) (.refl as)
    | succ n => exact .keep rfl (ih h)

theorem Mode.thins_refl (s : Shelf) (gone : Mode → Prop) (m : Mode) : m.Thins s gone m :=
  ⟨rfl, rfl, .refl _⟩

theorem Mode.thins_without {s : Shelf} {m : Mode} {n : Nat} {child : Child}
    (h : (m.contains.getD [])[n]? = some child) : m.Thins s (s.Gives m child) (m.without n) where
  fields := rfl
  isSome := Option.isSome_map
  contains := by
    have herase : (m.without n).contains.getD [] = (m.contains.getD []).eraseIdx n := by
      unfold Mode.without
      cases m.contains <;> rfl
    rw [herase]
    refine .eraseIdx fun c hc => ?_
    obtain rfl := Option.some.inj (h.symm.trans hc)
    exact s.drops_gives m child

/-- **A grammar without a child is without what that child gives.** -/
theorem Grammar.thins_without {g : Grammar} {key : Option Key} {n : Nat} {child : Child}
    (h : ((g.written key).contains.getD [])[n]? = some child) :
    g.Thins (g.shelf.Gives (g.written key) child) (g.without n key) := by
  cases key with
  | none => exact ⟨rfl, rfl, Mode.thins_without h, fun _ => Mode.thins_refl ..⟩
  | some key =>
    refine ⟨rfl, rfl, Mode.thins_refl .., fun k => ?_⟩
    have hmode : (g.without n (some key)).shelf.mode k =
        if key = k then (g.shelf.mode k).without n else g.shelf.mode k := by
      unfold Grammar.without Shelf.mode
      rw [Array.getElem?_modify]
      split
      · cases g.shelf.modes[k]? <;> rfl
      · rfl
    rw [hmode]
    split
    · next heq =>
      subst heq
      exact Mode.thins_without h
    · exact Mode.thins_refl ..

end CodeMarkup
