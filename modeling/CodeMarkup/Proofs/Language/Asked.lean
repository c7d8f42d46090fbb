import CodeMarkup.Proofs.Language.Calls
import CodeMarkup.Proofs.Language.Met

/-! # What is asked for the children of a mode

A child of a mode stands for modes at places, and each of these is asked for in turn. A child is
refused if it is a slot that has not been filled, or if a variant of it has variants
(`RefusesChild`); otherwise what is asked for are the modes at its places (`childRequests_eq`). -/

namespace CodeMarkup

namespace Language

variable {shelf : Shelf}

/-- Whether the variant at a place has variants. -/
def isNested (shelf : Shelf) (p : Shelf.Place) : Bool :=
  p.2.any fun n => ((shelf.mode p.1).variants.getD [])[n]?.any fun v =>
    (shelf.mode v).variants.any (!·.isEmpty)

/-- What is asked for at a place inside a mode. -/
def requestAt (shelf : Shelf) (id : Nat) (p : Shelf.Place) : Request :=
  if isNested shelf p then .refuse .nestedVariants
  else .number p ((shelf.variant? p.1 p.2).getD {}) (some id)

/-- A key has one place without a variant, or one for each. -/
theorem placesOf_cases (shelf : Shelf) (key : Key) :
    ((shelf.mode key).variants.getD [] = [] ∧ shelf.placesOf key = [(key, none)]) ∨
    ∃ v vs, (shelf.mode key).variants = some (v :: vs) ∧
      shelf.placesOf key = (List.range (v :: vs).length).map fun n => (key, some n) := by
  unfold Shelf.placesOf
  cases (shelf.mode key).variants with
  | none => exact Or.inl ⟨rfl, rfl⟩
  | some vs =>
    cases vs with
    | nil => exact Or.inl ⟨rfl, rfl⟩
    | cons v vs => exact Or.inr ⟨v, vs, rfl, rfl⟩

theorem getElem?_alternatives {key v : Key} {vs : List Key}
    (h : (shelf.mode key).variants = some (v :: vs)) {n : Nat} (hn : n < (v :: vs).length) :
    shelf.variant? key (some n) = some ((shelf.mode key).merge (shelf.mode (v :: vs)[n])) := by
  rw [Shelf.variant?, Shelf.alternatives, h]
  dsimp only
  rw [List.getElem?_map, List.getElem?_eq_getElem hn, Option.map_some]

theorem exists_variant? {key : Key} {p : Shelf.Place} (hp : p ∈ shelf.placesOf key) :
    ∃ source, shelf.variant? p.1 p.2 = some source := by
  rcases placesOf_cases shelf key with ⟨-, he⟩ | ⟨v, vs, hv, he⟩
  · rw [he] at hp
    rw [List.mem_singleton.mp hp]
    exact ⟨_, rfl⟩
  · rw [he] at hp
    obtain ⟨n, hn, rfl⟩ := List.mem_map.mp hp
    exact ⟨_, getElem?_alternatives hv (List.mem_range.mp hn)⟩

/-- The requests for a key are those for its places. -/
theorem keyRequests_eq (id : Nat) (key : Key) :
    keyRequests shelf id key = (shelf.placesOf key).map (requestAt shelf id) := by
  rcases placesOf_cases shelf key with ⟨hv, he⟩ | ⟨v, vs, hv, he⟩
  · rw [he]
    unfold keyRequests
    cases hvs : (shelf.mode key).variants with
    | none => rfl
    | some ws =>
      rw [hvs] at hv
      obtain rfl : ws = [] := hv
      rfl
  · rw [he, keyRequests, hv]
    dsimp only
    rw [variantRequests]
    refine List.ext_getElem (by simp) fun n hn _ => ?_
    rw [List.length_map, List.length_zipIdx] at hn
    simp only [List.getElem_map, List.getElem_zipIdx, List.getElem_range, Nat.zero_add, requestAt,
      isNested, hv, Option.getD_some, List.getElem?_eq_getElem hn, Option.any_some,
      getElem?_alternatives hv hn]

theorem hasNested_iff {key : Key} :
    HasNested shelf key ↔ ∃ p ∈ shelf.placesOf key, isNested shelf p := by
  unfold HasNested
  rcases placesOf_cases shelf key with ⟨hv, he⟩ | ⟨v, vs, hv, he⟩
  · rw [hv, he]
    simp [isNested]
  · have hat : ∀ n (hn : n < (v :: vs).length), isNested shelf (key, some n) =
        (shelf.mode (v :: vs)[n]).variants.any (!·.isEmpty) := by
      intro n hn
      rw [isNested, Option.any_some, hv, Option.getD_some, List.getElem?_eq_getElem hn,
        Option.any_some]
    rw [hv, he]
    constructor
    · rintro ⟨w, hw, hnested⟩
      obtain ⟨n, hn, rfl⟩ := List.getElem_of_mem hw
      exact ⟨_, List.mem_map_of_mem (List.mem_range.mpr hn), (hat n hn).trans hnested⟩
    · rintro ⟨p, hp, hnested⟩
      obtain ⟨n, hn, rfl⟩ := List.mem_map.mp hp
      rw [List.mem_range] at hn
      exact ⟨_, List.getElem_mem hn, (hat n hn).symm.trans hnested⟩

/-- Why a child can be refused: its slot has not been filled, or a variant has variants. -/
def RefusesChild (shelf : Shelf) (c : Child) : Prop :=
  (∃ slot, c = .late slot ∧ shelf.inSlot? slot = none) ∨
    ∃ key, keyOf shelf c = some key ∧ HasNested shelf key

/-- What is asked for a child that is not refused: the mode itself, or the modes at its places. -/
theorem childRequests_eq (id : Nat) {c : Child} (h : ¬ RefusesChild shelf c) :
    childRequests shelf id c = (if c = .self then [.own id] else []) ++
      (shelf.placesOfChild c).map fun p =>
        .number p ((shelf.variant? p.1 p.2).getD {}) (some id) := by
  have hkey : ∀ key, keyOf shelf c = some key → keyRequests shelf id key =
      (shelf.placesOf key).map fun p =>
        .number p ((shelf.variant? p.1 p.2).getD {}) (some id) := by
    intro key hk
    rw [keyRequests_eq]
    refine List.map_congr_left fun p hp => if_neg fun hn => h (Or.inr ⟨key, hk, ?_⟩)
    exact hasNested_iff.mpr ⟨p, hp, hn⟩
  cases c with
  | self => rfl
  | mode key => exact hkey key rfl
  | late slot =>
    unfold RefusesChild keyOf at h
    unfold keyOf at hkey
    unfold childRequests Shelf.placesOfChild
    dsimp only at h hkey ⊢
    cases hslot : shelf.inSlot? slot with
    | none => exact absurd (Or.inl ⟨slot, rfl, hslot⟩) h
    | some key => exact hkey key hslot

/-- What is asked for a child: the mode itself, the mode at one of its places, or nothing since the
child is refused. -/
theorem of_mem_childRequests {id : Nat} {c : Child} {r : Request}
    (hr : r ∈ childRequests shelf id c) :
    r = .own id ∨
    (∃ p source, r = .number p source (some id) ∧ p ∈ shelf.placesOfChild c ∧
      shelf.variant? p.1 p.2 = some source) ∨
    ∃ cause, r = .refuse cause ∧ RefusesChild shelf c := by
  have hkey : ∀ key, keyOf shelf c = some key → r ∈ keyRequests shelf id key →
      shelf.placesOfChild c = shelf.placesOf key →
      (∃ p source, r = .number p source (some id) ∧ p ∈ shelf.placesOfChild c ∧
        shelf.variant? p.1 p.2 = some source) ∨
      ∃ cause, r = .refuse cause ∧ RefusesChild shelf c := by
    intro key hk hr hplaces
    rw [keyRequests_eq] at hr
    obtain ⟨p, hp, rfl⟩ := List.mem_map.mp hr
    rw [hplaces]
    obtain ⟨source, hsource⟩ := exists_variant? hp
    unfold requestAt
    split
    · next hn => exact Or.inr ⟨_, rfl, Or.inr ⟨key, hk, hasNested_iff.mpr ⟨p, hp, hn⟩⟩⟩
    · rw [hsource]
      exact Or.inl ⟨p, source, rfl, hp, hsource⟩
  cases c with
  | self => exact Or.inl (List.mem_singleton.mp hr)
  | mode key => exact Or.inr (hkey key rfl hr rfl)
  | late slot =>
    rw [childRequests] at hr
    cases hslot : shelf.inSlot? slot with
    | none =>
      rw [hslot] at hr
      exact Or.inr (Or.inr ⟨_, List.mem_singleton.mp hr, Or.inl ⟨slot, rfl, hslot⟩⟩)
    | some key =>
      rw [hslot] at hr
      refine Or.inr (hkey key hslot hr ?_)
      rw [Shelf.placesOfChild, hslot]
      rfl

/-- A child that is refused is not numbered. -/
theorem exists_refuse {c : Child} (id : Nat) (h : RefusesChild shelf c) :
    ∃ cause, .refuse cause ∈ childRequests shelf id c := by
  rcases h with ⟨slot, rfl, hslot⟩ | ⟨key, hkey, hnested⟩
  · refine ⟨.unsetSlot, ?_⟩
    rw [childRequests, hslot]
    exact List.mem_singleton_self _
  · obtain ⟨p, hp, hn⟩ := hasNested_iff.mp hnested
    have hmem : .refuse .nestedVariants ∈ keyRequests shelf id key := by
      rw [keyRequests_eq]
      exact List.mem_map.mpr ⟨p, hp, if_pos hn⟩
    cases c with
    | self => cases hkey
    | mode k =>
      cases hkey
      exact ⟨_, hmem⟩
    | late slot =>
      have hslot : shelf.inSlot? slot = some key := hkey
      refine ⟨.nestedVariants, ?_⟩
      rw [childRequests, hslot]
      exact hmem

end Language

end CodeMarkup
