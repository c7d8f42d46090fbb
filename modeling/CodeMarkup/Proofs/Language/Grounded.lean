import CodeMarkup.Proofs.Language.Linking
import Mathlib.Data.Finset.Card
import Mathlib.Data.List.Chain
import Mathlib.Logic.Relation

/-! # Cycles of modes

A mode on the shelf is met at a place: as it is, or with one of its variants laid over it. What the
mode at a place contains and what follows it lead on to other places, through slots also back to
where one came from. Where the mode at a place depends on the mode around it, it is another mode in
each of these, so that a cycle of such places would go on for ever. A shelf is `Shelf.Grounded` if
there is no such cycle. Then places can be ranked so that the rank falls along all ways that depend
on the mode around (`Shelf.Grounded.exists_rank`). -/

namespace CodeMarkup

/-! ### Ranks -/

/-- Where nothing is reached from itself, and only finitely many things are reached at all, they can
be ranked so that the rank falls from each to the next. -/
theorem exists_rank {α : Type} {R : α → α → Prop} {s : Finset α} (hmem : ∀ {a b}, R a b → b ∈ s)
    (hacyclic : ∀ a, ¬ Relation.TransGen R a a) :
    ∃ rank : α → Nat, (∀ a, rank a ≤ s.card) ∧ ∀ {a b}, R a b → rank b < rank a := by
  classical
  refine ⟨fun a => (s.filter (Relation.TransGen R a)).card, fun a => Finset.card_filter_le _ _,
    fun {a b} h => Finset.card_lt_card ?_⟩
  refine Finset.ssubset_iff_of_subset (fun c hc => ?_) |>.mpr ⟨b, ?_, fun hb => ?_⟩
  · obtain ⟨hs, hbc⟩ := Finset.mem_filter.mp hc
    exact Finset.mem_filter.mpr ⟨hs, .head h hbc⟩
  · exact Finset.mem_filter.mpr ⟨hmem h, .single h⟩
  · exact hacyclic b (Finset.mem_filter.mp hb).2

theorem not_transGen_of_lt {α : Type} {R : α → α → Prop} (rank : α → Nat)
    (h : ∀ {a b}, R a b → rank b < rank a) (a : α) : ¬ Relation.TransGen R a a := by
  have hlt : ∀ {b}, Relation.TransGen R a b → rank b < rank a := by
    intro b hab
    induction hab with
    | single hb => exact h hb
    | tail _ hb ih => exact (h hb).trans ih
  exact fun ha => Nat.lt_irrefl _ (hlt ha)

namespace Shelf

/-! ### Places -/

/-- Where a mode is met: under its key as it is, or with the variant that has a number laid over it.
-/
abbrev Place := Key × Option Nat

variable (s : Shelf)

/-- The places at which a mode is met among children. -/
def placesOf (key : Key) : List Place :=
  match (s.mode key).variants with
  | some (v :: vs) => (List.range (v :: vs).length).map fun n => (key, some n)
  | _ => [(key, none)]

/-- The places that a child stands for; a mode that contains itself is met nowhere else. -/
def placesOfChild : Child → List Place
  | .self => []
  | .mode key => s.placesOf key
  | .late slot => ((s.inSlot? slot).map s.placesOf).getD []

/-- The places that a mode leads to. -/
def leadsTo (m : Mode) : List Place :=
  (m.contains.getD []).flatMap s.placesOfChild ++ m.starts.toList.map (·, none)

/-- Whether the mode at a place depends on the mode around it. -/
def dependsAt (p : Place) : Bool := (s.variant? p.1 p.2).any s.dependsOnParent

/-- Whether the mode at a place leads to another place. -/
def Leads (p q : Place) : Prop := ∃ m, s.variant? p.1 p.2 = some m ∧ q ∈ s.leadsTo m

/-- Whether every cycle of places goes through one whose mode does not depend on the mode around it.
-/
def Grounded : Prop :=
  ∀ (p : Place) (ps : List Place), (p :: (ps ++ [p])).IsChain s.Leads →
    ∃ q ∈ p :: ps, s.dependsAt q = false

variable {s}

theorem mem_placesOf {key : Key} {p : Place} (h : p ∈ s.placesOf key) :
    p = (key, none) ∨ ∃ n < ((s.mode key).variants.getD []).length, p = (key, some n) := by
  unfold placesOf at h
  split at h
  · next hv =>
    obtain ⟨n, hn, rfl⟩ := List.mem_map.mp h
    rw [hv]
    exact Or.inr ⟨n, List.mem_range.mp hn, rfl⟩
  · exact Or.inl (List.mem_singleton.mp h)

theorem mem_placesOf_of_mem_leadsTo {m : Mode} {p : Place} (h : p ∈ s.leadsTo m) :
    p = (p.1, none) ∨ p ∈ s.placesOf p.1 := by
  rcases List.mem_append.mp h with h | h
  · obtain ⟨c, -, h⟩ := List.mem_flatMap.mp h
    have hkey : ∀ key, p ∈ s.placesOf key → p ∈ s.placesOf p.1 := by
      intro key hp
      rcases mem_placesOf hp with rfl | ⟨n, -, rfl⟩ <;> exact hp
    refine Or.inr ?_
    cases c with
    | self => cases h
    | mode key => exact hkey key h
    | late slot =>
      rw [placesOfChild] at h
      cases hs : s.inSlot? slot with
      | none => rw [hs] at h; cases h
      | some key => rw [hs] at h; exact hkey key h
  · obtain ⟨key, -, rfl⟩ := List.mem_map.mp h
    exact Or.inl rfl

/-- What a mode leads to is a place of the shelf if its key is one. -/
theorem mem_places_of_mem_leadsTo {m : Mode} {p : Place} (h : p ∈ s.leadsTo m)
    (hkey : p.1 < s.modes.size) : p ∈ s.places := by
  refine List.mem_flatMap.mpr ⟨p.1, List.mem_range.mpr hkey, ?_⟩
  rcases mem_placesOf_of_mem_leadsTo h with hp | hp
  · exact hp ▸ List.mem_cons_self ..
  · rcases mem_placesOf hp with hp | ⟨n, hn, hp⟩
    · exact hp ▸ List.mem_cons_self ..
    · rw [hp]
      exact List.mem_cons_of_mem _ (List.mem_map.mpr ⟨n, List.mem_range.mpr hn, rfl⟩)

/-- Off the shelf there are only modes that say nothing. -/
theorem eq_of_variant?_outside {key : Key} {variant : Option Nat} {m : Mode}
    (h : s.variant? key variant = some m) (hkey : s.modes.size ≤ key) : m = {} := by
  have hmode : s.mode key = {} := by rw [mode, Array.getElem?_eq_none hkey, Option.getD_none]
  cases variant with
  | none => exact (Option.some.inj h).symm.trans hmode
  | some n =>
    rw [variant?, alternatives, hmode] at h
    exact List.mem_singleton.mp (List.mem_of_getElem? h)

theorem lt_size_of_dependsAt {p : Place} (h : s.dependsAt p = true) : p.1 < s.modes.size := by
  by_contra hkey
  obtain ⟨m, hm, hd⟩ := Option.any_eq_true _ _ |>.mp h
  obtain rfl := eq_of_variant?_outside hm (Nat.not_lt.mp hkey)
  cases hd

theorem dependsAt_eq {p : Place} {m : Mode} (h : s.variant? p.1 p.2 = some m) :
    s.dependsAt p = s.dependsOnParent m := by
  rw [dependsAt, h, Option.any_some]

/-! ### Grounded shelves -/

/-- Whether a place leads to another one and the modes at both depend on the mode around them. -/
def LeadsOn (p q : Place) : Prop :=
  s.Leads p q ∧ s.dependsAt p = true ∧ s.dependsAt q = true

theorem Grounded.not_transGen (h : s.Grounded) (p : Place) :
    ¬ Relation.TransGen (LeadsOn (s := s)) p p := by
  intro hp
  obtain ⟨c, hpc, hcp⟩ := Relation.TransGen.tail'_iff.mp hp
  obtain ⟨ps, hchain, hlast⟩ := List.exists_isChain_cons_of_relationReflTransGen hpc
  have hcycle : (p :: (ps ++ [p])).IsChain (LeadsOn (s := s)) :=
    hchain.append (.singleton p) fun x hx y hy => by
      rw [List.getLast?_eq_some_getLast (List.cons_ne_nil p ps), hlast] at hx
      cases hx
      cases hy
      exact hcp
  obtain ⟨q, hq, hfree⟩ := h p ps (hcycle.imp fun _ _ h => h.1)
  have hdep := hchain.induction (s.dependsAt · = true) _ (fun _ _ h _ => h.2.2) fun _ => hcp.2.2
  exact absurd (hdep q hq) (Bool.eq_false_iff.mp hfree)

/-- **On a grounded shelf places can be ranked so that the rank falls wherever the mode at a place
and the mode at the next one depend on the mode around them.** -/
theorem Grounded.exists_rank (h : s.Grounded) : ∃ rank : Place → Nat,
    (∀ p, rank p ≤ s.places.length) ∧ ∀ {p q}, s.Leads p q → s.dependsAt p = true →
      s.dependsAt q = true → rank q < rank p := by
  obtain ⟨rank, hle, hlt⟩ := CodeMarkup.exists_rank (R := LeadsOn (s := s)) (s := s.places.toFinset)
    (fun {_ _} ⟨⟨_, _, hq⟩, _, hdep⟩ =>
      List.mem_toFinset.mpr (mem_places_of_mem_leadsTo hq (lt_size_of_dependsAt hdep)))
    h.not_transGen
  exact ⟨rank, fun p => (hle p).trans (List.toFinset_card_le _), fun hl hp hq => hlt ⟨hl, hp, hq⟩⟩

/-- A shelf is grounded if keys can be ranked so that the rank falls wherever a mode that depends on
the mode around it leads to another one. -/
theorem grounded_of_forall (rank : Key → Nat)
    (h : ∀ key < s.modes.size, ∀ m ∈ s.mode key :: s.alternatives key, s.dependsOnParent m = true →
      ∀ q ∈ s.leadsTo m, s.dependsAt q = true → rank q.1 < rank key) : s.Grounded := by
  intro p ps hchain
  by_contra hdep
  push Not at hdep
  simp only [ne_eq, Bool.not_eq_false] at hdep
  have hall : ∀ q ∈ p :: (ps ++ [p]), s.dependsAt q = true := by
    intro q hq
    rcases List.mem_append.mp (List.cons_append .. ▸ hq : q ∈ (p :: ps) ++ [p]) with hq | hq
    · exact hdep q hq
    · exact List.mem_singleton.mp hq ▸ hdep p (List.mem_cons_self ..)
  have hfalls : (p :: (ps ++ [p])).IsChain fun a b => rank b.1 < rank a.1 := by
    refine hchain.imp_of_mem_imp fun a b ha hb ⟨m, hm, hlead⟩ => ?_
    refine h a.1 (lt_size_of_dependsAt (hall a ha)) m ?_ (dependsAt_eq hm ▸ hall a ha) b hlead
      (hall b hb)
    obtain ⟨key, variant⟩ := a
    cases variant with
    | none => exact Option.some.inj hm ▸ List.mem_cons_self ..
    | some n => exact List.mem_cons_of_mem _ (List.mem_of_getElem? hm)
  have htrans : IsTrans Place fun a b => rank b.1 < rank a.1 := ⟨fun _ _ _ hab hbc => hbc.trans hab⟩
  have hpairs := List.isChain_iff_pairwise.mp hfalls
  exact Nat.lt_irrefl _ (List.rel_of_pairwise_cons hpairs (List.mem_append_right _
    (List.mem_singleton_self p)))

end Shelf

end CodeMarkup
