import CodeMarkup.Highlight.Ranking

/-! # Ranked outcomes

Ranking outcomes brings them into another order and does nothing else. -/

namespace CodeMarkup

/-! ### Reordering -/

theorem settle_perm {α : Type} (i : Nat) : ∀ (swaps : Nat) (items : Array α) (places : Array Nat)
    (settled : Array α × Array Nat), settle i swaps items places = some settled →
      settled.1.Perm items
  | 0, items, places, settled, h => by cases h
  | swaps + 1, items, places, settled, h => by
    unfold settle at h
    split at h
    · cases h
    · next j _ =>
      split at h
      · cases h
        exact Array.Perm.rfl
      · split at h
        · next hb =>
          exact (settle_perm i swaps _ _ settled h).trans (Array.swap_perm hb.1 hb.2.1)
        · cases h

theorem settleAll_perm {α : Type} (swaps : Nat) : ∀ (is : List Nat) (items : Array α)
    (places : Array Nat) (settled : Array α × Array Nat),
      settleAll swaps is items places = some settled → settled.1.Perm items
  | [], items, places, settled, h => by
    cases h
    exact Array.Perm.rfl
  | i :: is, items, places, settled, h => by
    unfold settleAll at h
    split at h
    · cases h
    · next items' places' hi =>
      exact (settleAll_perm swaps is items' places' settled h).trans
        (settle_perm i swaps items places _ hi)

theorem reorder?_perm {α : Type} {items items' : Array α} {order : List Nat}
    (h : reorder? items order = some items') : items'.Perm items := by
  obtain ⟨settled, hs, rfl⟩ := Option.map_eq_some_iff.mp h
  exact settleAll_perm _ _ _ _ settled hs

/-! ### Ranking -/

variable {ρ : Type} [Engine ρ]

/-- **Ranking keeps the outcomes.** -/
theorem rank_perm (r : Registry ρ) (all : List (Outcome ρ)) : (rank r all).Perm all := by
  unfold rank
  dsimp only
  cases h : reorder? all.toArray _ with
  | none => exact List.Perm.refl all
  | some items => exact Array.perm_iff_toList_perm.mp (reorder?_perm h)

end CodeMarkup
