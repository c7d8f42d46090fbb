import CodeMarkup.Proofs.Highlight.Ranked
import Mathlib.Data.Finset.Card
import Mathlib.Data.Finset.Range
import Mathlib.Data.List.Perm.Subperm

/-! # Reordered items

Bringing items into an order of them succeeds, and at each place then stands the item that the order
names there (`exists_reorder?`). A swap moves an item together with its place, so that the pairs of
both stay the same, and it brings at least one item to its place, so that the swaps suffice. With
more of them nothing changes (`settleAll_of_le`): they end by themselves (`settleAll_placesOf`). -/

namespace CodeMarkup

variable {α : Type}

/-! ### Places -/

/-- Each of the places is meant once. -/
def EachOnce (places : Array Nat) : Prop := places.toList.Perm (List.range places.size)

namespace EachOnce

variable {places : Array Nat} (h : EachOnce places)

include h

theorem lt {i j : Nat} (hi : places[i]? = some j) : j < places.size := by
  have hmem : j ∈ places.toList := Array.mem_toList_iff.mpr (Array.mem_of_getElem? hi)
  exact List.mem_range.mp (h.mem_iff.mp hmem)

theorem inj {i j k : Nat} (hi : places[i]? = some k) (hj : places[j]? = some k) : i = j := by
  have hnodup : places.toList.Nodup := h.nodup_iff.mpr List.nodup_range
  obtain ⟨hlt, -⟩ := Array.getElem?_eq_some_iff.mp hi
  refine (List.getElem?_inj (by simpa using hlt) hnodup).mp ?_
  rw [Array.getElem?_toList, Array.getElem?_toList, hi, hj]

theorem swap {i j : Nat} (hi : i < places.size) (hj : j < places.size) :
    EachOnce (places.swap i j hi hj) := by
  have hperm : (places.swap i j hi hj).toList.Perm places.toList :=
    Array.perm_iff_toList_perm.mp (Array.swap_perm hi hj)
  rw [EachOnce, Array.size_swap]
  exact hperm.trans h

end EachOnce

/-! ### The number of items that are not yet at their places -/

/-- The places where another item stands than the one that belongs there. -/
def unsettled (places : Array Nat) : Finset Nat :=
  (Finset.range places.size).filter fun k => places[k]? ≠ some k

theorem card_unsettled_le (places : Array Nat) : (unsettled places).card ≤ places.size := by
  have hsub : unsettled places ⊆ Finset.range places.size := Finset.filter_subset _ _
  simpa using Finset.card_le_card hsub

section Swap

variable {places : Array Nat} {i j : Nat} (h : EachOnce places) (hij : places[i]? = some j)
  (hne : j ≠ i) (hi : i < places.size) (hj : j < places.size)

include h hij

omit h in
/-- The item that is swapped away comes to its place. -/
theorem getElem?_swap_target : (places.swap i j hi hj)[j]? = some j := by
  have hval : places[i] = j := by
    rw [Array.getElem?_eq_getElem hi] at hij
    exact Option.some.inj hij
  rw [Array.getElem?_swap, if_pos rfl, hval]

include hne

/-- What is at its place stays there. -/
theorem getElem?_swap_settled {k : Nat} (hk : places[k]? = some k) :
    (places.swap i j hi hj)[k]? = some k := by
  have hjk : j ≠ k := by
    rintro rfl
    exact hne (h.inj hij hk).symm
  have hik : i ≠ k := by
    rintro rfl
    rw [hij] at hk
    exact hne (Option.some.inj hk)
  rw [Array.getElem?_swap, if_neg hjk, if_neg hik, hk]

theorem card_unsettled_swap_lt :
    (unsettled (places.swap i j hi hj)).card < (unsettled places).card := by
  have hjj : places[j]? ≠ some j := fun hjj => hne (h.inj hij hjj).symm
  refine Finset.card_lt_card (Finset.ssubset_iff_of_subset ?_ |>.mpr ⟨j, ?_, ?_⟩)
  · intro k hk
    obtain ⟨hlt, hunsettled⟩ := Finset.mem_filter.mp hk
    rw [Array.size_swap] at hlt
    refine Finset.mem_filter.mpr ⟨hlt, fun hsettled => hunsettled ?_⟩
    exact getElem?_swap_settled h hij hne hi hj hsettled
  · exact Finset.mem_filter.mpr ⟨Finset.mem_range.mpr hj, hjj⟩
  · intro hmem
    exact (Finset.mem_filter.mp hmem).2 (getElem?_swap_target hij hi hj)

end Swap

/-! ### Settling -/

/-- Items have been moved together with their places. -/
structure MovedTogether (items₀ : Array α) (places₀ : Array Nat) (items : Array α)
    (places : Array Nat) : Prop where
  size : places.size = items.size
  once : EachOnce places
  pairs : (items.zip places).Perm (items₀.zip places₀)

namespace MovedTogether

variable {items₀ items : Array α} {places₀ places : Array Nat}

theorem zip_swap {i j : Nat} (hi : i < items.size) (hj : j < items.size) (hi' : i < places.size)
    (hj' : j < places.size) (hi'' : i < (items.zip places).size)
    (hj'' : j < (items.zip places).size) :
    (items.swap i j hi hj).zip (places.swap i j hi' hj') =
      (items.zip places).swap i j hi'' hj'' := by
  refine Array.ext (by simp) fun k hk hk' => ?_
  rw [Array.getElem_zip, Array.getElem_swap, Array.getElem_swap, Array.getElem_swap]
  split
  · rw [Array.getElem_zip]
  · split <;> rw [Array.getElem_zip]

theorem swap (h : MovedTogether items₀ places₀ items places) {i j : Nat} (hi : i < items.size)
    (hj : j < items.size) (hi' : i < places.size) (hj' : j < places.size) :
    MovedTogether items₀ places₀ (items.swap i j hi hj) (places.swap i j hi' hj') where
  size := by rw [Array.size_swap, Array.size_swap, h.size]
  once := h.once.swap hi' hj'
  pairs := by
    have hzip : (items.zip places).size = items.size := by
      rw [Array.size_zip, h.size, Nat.min_self]
    rw [zip_swap hi hj hi' hj' (by omega) (by omega)]
    exact (Array.swap_perm _ _).trans h.pairs

/-- An item that has come to its place is one whose place that is. -/
theorem exists_of_settled (h : MovedTogether items₀ places₀ items places) {t : Nat}
    (ht : places[t]? = some t) :
    ∃ s : Nat, places₀[s]? = some t ∧ items₀[s]? = items[t]? := by
  obtain ⟨hlt, hval⟩ := Array.getElem?_eq_some_iff.mp ht
  have hlt' : t < items.size := h.size ▸ hlt
  have hzip : t < (items.zip places).size := by
    rw [Array.size_zip]
    omega
  have hmem : (items[t], t) ∈ items.zip places := by
    refine Array.mem_iff_getElem.mpr ⟨t, hzip, ?_⟩
    rw [Array.getElem_zip, hval]
  obtain ⟨s, hs, heq⟩ := Array.mem_iff_getElem.mp (h.pairs.mem_iff.mp hmem)
  rw [Array.getElem_zip] at heq
  obtain ⟨hitem, hplace⟩ := Prod.mk.inj heq
  have hs' : s < items₀.size ∧ s < places₀.size := by
    rw [Array.size_zip] at hs
    omega
  refine ⟨s, ?_, ?_⟩
  · rw [Array.getElem?_eq_getElem hs'.2, hplace]
  · rw [Array.getElem?_eq_getElem hs'.1, Array.getElem?_eq_getElem hlt', hitem]

end MovedTogether

section Settle

variable {items₀ : Array α} {places₀ : Array Nat}

/-- Enough swaps settle a place, and none that was settled is lost. -/
theorem exists_settle {i : Nat} : ∀ (swaps : Nat) (items : Array α) (places : Array Nat),
    MovedTogether items₀ places₀ items places → i < items.size →
    (unsettled places).card < swaps →
      ∃ items' places', settle i swaps items places = some (items', places') ∧
        MovedTogether items₀ places₀ items' places' ∧ items'.size = items.size ∧
        places'[i]? = some i ∧ ∀ k : Nat, places[k]? = some k → places'[k]? = some k
  | 0, _, _, _, _, hswaps => absurd hswaps (Nat.not_lt_zero _)
  | swaps + 1, items, places, h, hi, hswaps => by
    have hi' : i < places.size := h.size ▸ hi
    have hij : places[i]? = some places[i] := Array.getElem?_eq_getElem hi'
    have hj' : places[i] < places.size := h.once.lt hij
    have hj : places[i] < items.size := h.size ▸ hj'
    unfold settle
    rw [hij]
    dsimp only
    by_cases hne : places[i] = i
    · rw [if_pos hne]
      exact ⟨items, places, rfl, h, rfl, hij.trans (congrArg some hne), fun k hk => hk⟩
    · rw [if_neg hne, dif_pos ⟨hi, hj, hi', hj'⟩]
      have hfewer := card_unsettled_swap_lt h.once hij hne hi' hj'
      obtain ⟨items', places', hsettle, hmoved, hsize, hsettled, hkept⟩ :=
        exists_settle swaps _ _ (h.swap hi hj hi' hj') (by simpa using hi) (by omega)
      refine ⟨items', places', hsettle, hmoved, by simpa using hsize, hsettled, fun k hk => ?_⟩
      exact hkept k (getElem?_swap_settled h.once hij hne hi' hj' hk)

theorem exists_settleAll (swaps : Nat) : ∀ (is : List Nat) (items : Array α) (places : Array Nat),
    MovedTogether items₀ places₀ items places → items.size < swaps →
    (∀ i ∈ is, i < items.size) →
      ∃ items' places', settleAll swaps is items places = some (items', places') ∧
        MovedTogether items₀ places₀ items' places' ∧ items'.size = items.size ∧
        (∀ k : Nat, k ∈ is ∨ places[k]? = some k → places'[k]? = some k)
  | [], items, places, h, _, _ =>
    ⟨items, places, rfl, h, rfl, fun k hk => hk.resolve_left List.not_mem_nil⟩
  | i :: is, items, places, h, hswaps, his => by
    obtain ⟨hi, his⟩ := List.forall_mem_cons.mp his
    have hcard : (unsettled places).card < swaps := by
      have := card_unsettled_le places
      have := h.size
      omega
    obtain ⟨items', places', hsettle, hmoved, hsize, hsettled, hkept⟩ :=
      exists_settle swaps items places h hi hcard
    obtain ⟨items'', places'', hall, hmoved', hsize', hkept'⟩ :=
      exists_settleAll swaps is items' places' hmoved (hsize ▸ hswaps) (hsize ▸ his)
    refine ⟨items'', places'', ?_, hmoved', hsize'.trans hsize, fun k hk => hkept' k ?_⟩
    · rw [settleAll, hsettle]
      exact hall
    · rcases hk with hk | hk
      · rcases List.mem_cons.mp hk with rfl | hk
        · exact Or.inr hsettled
        · exact Or.inl hk
      · exact Or.inr (hkept k hk)

end Settle

/-! ### More swaps than needed -/

/-- A place that is settled stays so with more swaps. -/
theorem settle_of_le {i : Nat} {settled : Array α × Array Nat} : ∀ {swaps more : Nat}
    {items : Array α} {places : Array Nat}, settle i swaps items places = some settled →
      swaps ≤ more → settle i more items places = some settled
  | 0, _, _, _, h, _ => by cases h
  | swaps + 1, 0, _, _, _, hle => absurd hle (Nat.not_succ_le_zero swaps)
  | swaps + 1, more + 1, items, places, h, hle => by
    unfold settle at h ⊢
    split at h
    · cases h
    · next j _ =>
      split at h
      · next hsettled =>
        rw [if_pos hsettled]
        exact h
      · next hmoves =>
        rw [if_neg hmoves]
        split at h
        · next hin =>
          rw [dif_pos hin]
          exact settle_of_le h (Nat.le_of_succ_le_succ hle)
        · cases h

/-- All places are settled in the same way with more swaps. -/
theorem settleAll_of_le {swaps more : Nat} (hle : swaps ≤ more) {settled : Array α × Array Nat} :
    ∀ {is : List Nat} {items : Array α} {places : Array Nat},
      settleAll swaps is items places = some settled → settleAll more is items places = some settled
  | [], _, _, h => h
  | i :: is, items, places, h => by
    unfold settleAll at h ⊢
    split at h
    · cases h
    · next items' places' hi =>
      rw [settle_of_le hi hle]
      exact settleAll_of_le hle h

/-! ### The places of an order -/

/-- Writing down the places of items: an item that is named has the place where it is, and the
others have the place they had. -/
theorem getElem?_foldl_places {s : Nat} : ∀ (order : List Nat) (k : Nat) (places : Array Nat),
    order.Nodup → s < places.size →
      ((order.zipIdx k).foldl (fun places (source, target) => places.setIfInBounds source target)
        places)[s]? = if s ∈ order then some (k + order.idxOf s) else places[s]?
  | [], _, _, _, _ => rfl
  | source :: order, k, places, hnodup, hs => by
    obtain ⟨hsource, hnodup⟩ := List.nodup_cons.mp hnodup
    have ih := getElem?_foldl_places order (k + 1) (places.setIfInBounds source k) hnodup
      (by simpa using hs)
    rw [List.zipIdx_cons, List.foldl_cons, ih]
    by_cases hmem : s ∈ order
    · have hne : source ≠ s := fun h => hsource (h ▸ hmem)
      rw [if_pos hmem, if_pos (List.mem_cons_of_mem _ hmem), List.idxOf_cons_ne _ hne]
      congr 1
      omega
    · rw [if_neg hmem]
      by_cases heq : source = s
      · subst heq
        rw [if_pos List.mem_cons_self, List.idxOf_cons_self, Array.getElem?_setIfInBounds_self,
          if_pos hs, Nat.add_zero]
      · have hmem' : s ∉ source :: order := by
          rw [List.mem_cons, not_or]
          exact ⟨Ne.symm heq, hmem⟩
        rw [if_neg hmem', Array.getElem?_setIfInBounds_ne heq]

section Order

variable {order : List Nat} (h : order.Perm (List.range order.length))

theorem size_placesOf (order : List Nat) : (placesOf order).size = order.length := by
  have hfold : ∀ (row : List (Nat × Nat)) (places : Array Nat),
      (row.foldl (fun places (source, target) => places.setIfInBounds source target)
        places).size = places.size := by
    intro row
    induction row with
    | nil => intro places; rfl
    | cons pair row ih =>
      intro places
      rw [List.foldl_cons, ih, Array.size_setIfInBounds]
  rw [placesOf, hfold, Array.size_replicate]

include h

theorem getElem?_placesOf {s : Nat} (hs : s < order.length) :
    (placesOf order)[s]? = some (order.idxOf s) := by
  have hmem : s ∈ order := h.mem_iff.mpr (List.mem_range.mpr hs)
  have hnodup : order.Nodup := h.nodup_iff.mpr List.nodup_range
  rw [placesOf, getElem?_foldl_places order 0 _ hnodup (by simpa using hs), if_pos hmem,
    Nat.zero_add]

/-- The item at a place of the order is the one whose place that is. -/
theorem getElem?_of_placesOf {s t : Nat} (hs : (placesOf order)[s]? = some t) :
    order[t]? = some s := by
  have hlt : s < order.length := by
    obtain ⟨hlt, -⟩ := Array.getElem?_eq_some_iff.mp hs
    rwa [size_placesOf] at hlt
  have hmem : s ∈ order := h.mem_iff.mpr (List.mem_range.mpr hlt)
  rw [getElem?_placesOf h hlt] at hs
  rw [← Option.some.inj hs, List.getElem?_idxOf hmem]

theorem eachOnce_placesOf : EachOnce (placesOf order) := by
  have hvalues : (placesOf order).toList = (List.range order.length).map (order.idxOf ·) := by
    refine List.ext_getElem? fun s => ?_
    rw [Array.getElem?_toList, List.getElem?_map]
    by_cases hs : s < order.length
    · rw [getElem?_placesOf h hs, List.getElem?_range hs, Option.map_some]
    · rw [Array.getElem?_eq_none (by rw [size_placesOf]; omega),
        List.getElem?_eq_none (by rw [List.length_range]; omega), Option.map_none]
  have hnodup : (placesOf order).toList.Nodup := by
    rw [hvalues]
    refine List.Nodup.map_on ?_ List.nodup_range
    intro a ha b hb hab
    have ha : a ∈ order := h.mem_iff.mpr ha
    exact (List.idxOf_inj ha).mp hab
  have hsub : (placesOf order).toList ⊆ List.range (placesOf order).size := by
    intro t ht
    rw [hvalues] at ht
    obtain ⟨s, hs, rfl⟩ := List.mem_map.mp ht
    rw [size_placesOf, List.mem_range]
    exact List.idxOf_lt_length_iff.mpr (h.mem_iff.mpr hs)
  exact (List.subperm_of_subset hnodup hsub).perm_of_length_le (by simp)

end Order

/-- **Items come into every order of them.** At each place of the order then stands the item that the
order names there. -/
theorem exists_reorder? {items : Array α} {order : List Nat}
    (h : order.Perm (List.range items.size)) :
    ∃ items', reorder? items order = some items' ∧ items'.size = items.size ∧
      ∀ t : Nat, items'[t]? = order[t]?.bind (items[·]?) := by
  have hlength : order.length = items.size := by simpa using h.length_eq
  have horder : order.Perm (List.range order.length) := hlength ▸ h
  have hmoved : MovedTogether items (placesOf order) items (placesOf order) :=
    ⟨(size_placesOf order).trans hlength, eachOnce_placesOf horder, Array.Perm.refl _⟩
  obtain ⟨items', places', hall, hmoved', hsize, hsettled⟩ :=
    exists_settleAll (items.size + 1) (List.range items.size) items (placesOf order) hmoved
      (Nat.lt_succ_self _) fun i hi => List.mem_range.mp hi
  refine ⟨items', by rw [reorder?, hall]; rfl, hsize, fun t => ?_⟩
  by_cases ht : t < items.size
  · obtain ⟨s, hplace, hitem⟩ :=
      hmoved'.exists_of_settled (hsettled t (Or.inl (List.mem_range.mpr ht)))
    rw [getElem?_of_placesOf horder hplace, Option.bind_some, hitem]
  · rw [Array.getElem?_eq_none (by omega), List.getElem?_eq_none (by omega), Option.bind_none]

/-- **Reordering in place ends and does what it should.** For every order of the items, no place that
is looked at or written to is out of range, the swaps at each place end by themselves, as any bound
above the number of items leaves them the same, and at each place then stands the item that was at
the place which the order names there. -/
theorem settleAll_placesOf {items : Array α} {order : List Nat}
    (h : order.Perm (List.range items.size)) :
    (∀ source ∈ order, source < (placesOf order).size) ∧
      ∃ items' : Array α, reorder? items order = some items' ∧
        (∀ swaps, items.size < swaps →
          (settleAll swaps (List.range items.size) items (placesOf order)).map Prod.fst =
            some items') ∧
        items'.size = order.length ∧
        ∀ t s : Nat, order[t]? = some s →
          ∃ item, items[s]? = some item ∧ items'[t]? = some item := by
  have hlength : order.length = items.size := by simpa using h.length_eq
  obtain ⟨items', hreorder, hsize, hplaces⟩ := exists_reorder? h
  refine ⟨fun source hsource => ?_, items', hreorder, fun swaps hswaps => ?_,
    hsize.trans hlength.symm, fun t s ht => ?_⟩
  · rw [size_placesOf, hlength]
    exact List.mem_range.mp (h.mem_iff.mp hsource)
  · obtain ⟨settled, hsettled, hfst⟩ := Option.map_eq_some_iff.mp hreorder
    rw [settleAll_of_le hswaps hsettled, Option.map_some, hfst]
  · have hs : s < items.size := List.mem_range.mp (h.mem_iff.mp (List.mem_of_getElem? ht))
    refine ⟨items[s], Array.getElem?_eq_getElem hs, ?_⟩
    rw [hplaces t, ht, Option.bind_some, Array.getElem?_eq_getElem hs]

/-- Four items on one cycle. -/
theorem settleAll_placesOf_cycle : [2, 0, 3, 1].Perm (List.range #['a', 'b', 'c', 'd'].size) ∧
    reorder? #['a', 'b', 'c', 'd'] [2, 0, 3, 1] = some #['c', 'a', 'd', 'b'] := by
  have horder : [2, 0, 3, 1].Perm (List.range #['a', 'b', 'c', 'd'].size) := by decide
  obtain ⟨-, items', hreorder, -, hsize, hplaces⟩ := settleAll_placesOf horder
  have hat : ∀ t s : Nat, [2, 0, 3, 1][t]? = some s →
      items'[t]? = #['a', 'b', 'c', 'd'][s]? := fun t s ht => by
    obtain ⟨item, hs, ht⟩ := hplaces t s ht
    exact ht.trans hs.symm
  refine ⟨horder, hreorder.trans (congrArg some (Array.ext_getElem? fun t => ?_))⟩
  match t with
  | 0 => exact hat 0 2 rfl
  | 1 => exact hat 1 0 rfl
  | 2 => exact hat 2 3 rfl
  | 3 => exact hat 3 1 rfl
  | t + 4 =>
    rw [Array.getElem?_eq_none (by rw [hsize]; exact Nat.le_add_left 4 t),
      Array.getElem?_eq_none (Nat.le_add_left 4 t)]

end CodeMarkup
