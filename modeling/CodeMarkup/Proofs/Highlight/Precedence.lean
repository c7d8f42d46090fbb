import CodeMarkup.Proofs.Highlight.FirstCome

/-! # Precedence

Ranked outcomes stand in the order of their ranks (`rank_pairwise`), so relevance never increases.
Among equals an outcome comes before all that it extends, in one step or in several: what it extends
extends less itself, unless languages extend each other in a circle (`supersetDepth_lt_of_chain`).
Where nothing is extended all depths are the same, and the ranking is stable (`rank_stable`). -/

namespace CodeMarkup

/-! ### Sorted numbers -/

/-- Sorting leaves those numbers alone that may all come before each other. -/
theorem filter_mergeSort_range {le : Nat → Nat → Bool}
    (trans : ∀ a b c, le a b → le b c → le a c) (total : ∀ a b, le a b || le b a) (n : Nat)
    {P : Nat → Bool} (h : ∀ a < n, ∀ b < n, P a → P b → le a b) :
    ((List.range n).mergeSort le).filter P = (List.range n).filter P := by
  have hmem : ∀ a ∈ (List.range n).filter P, a < n ∧ P a = true := fun a ha => by
    rwa [List.mem_filter, List.mem_range] at ha
  have hsorted : ((List.range n).filter P).Pairwise fun a b => le a b := by
    rw [List.pairwise_iff_forall_sublist]
    intro a b hab
    obtain ⟨ha, hPa⟩ := hmem a (hab.subset List.mem_cons_self)
    obtain ⟨hb, hPb⟩ := hmem b (hab.subset (by simp))
    exact h a ha b hb hPa hPb
  have hsub : ((List.range n).filter P).Sublist ((List.range n).mergeSort le) :=
    List.sublist_mergeSort trans total hsorted List.filter_sublist
  have hkept := hsub.filter P
  simp only [List.filter_filter, Bool.and_self] at hkept
  refine (hkept.eq_of_length ?_).symm
  exact ((List.mergeSort_perm (List.range n) le).filter P).length_eq.symm

/-! ### The order of the ranking -/

section RankOrder

variable (ranks : Array Rank)

theorem pairwise_rankOrder : (rankOrder ranks).Pairwise fun a b =>
    Rank.le (ranks[a]?.getD (0, 0)) (ranks[b]?.getD (0, 0)) := by
  let le : Nat → Nat → Bool := fun a b => Rank.le (ranks[a]?.getD (0, 0)) (ranks[b]?.getD (0, 0))
  have trans : ∀ a b c, le a b → le b c → le a c := fun _ _ _ => Rank.le_trans
  have total : ∀ a b, le a b || le b a := fun _ _ => Rank.le_total _ _
  exact List.pairwise_mergeSort trans total (List.range ranks.size)

/-- Numbers of ranks that may all come before each other stay in order. -/
theorem filter_rankOrder {P : Nat → Bool} (h : ∀ a < ranks.size, ∀ b < ranks.size, P a → P b →
    Rank.le (ranks[a]?.getD (0, 0)) (ranks[b]?.getD (0, 0))) :
    (rankOrder ranks).filter P = (List.range ranks.size).filter P := by
  let le : Nat → Nat → Bool := fun a b => Rank.le (ranks[a]?.getD (0, 0)) (ranks[b]?.getD (0, 0))
  have trans : ∀ a b c, le a b → le b c → le a c := fun _ _ _ => Rank.le_trans
  have total : ∀ a b, le a b || le b a := fun _ _ => Rank.le_total _ _
  exact filter_mergeSort_range trans total ranks.size h

end RankOrder

variable {ρ : Type} [Engine ρ] {r : Registry ρ} {all : List (Outcome ρ)}

/-- Ranked outcomes are those that the order of ranks names. -/
theorem map_some_rank (r : Registry ρ) (all : List (Outcome ρ)) :
    (rank r all).map some = (rankOrder (ranksOf r all)).map (all[·]?) := by
  refine List.ext_getElem? fun t => ?_
  rw [List.getElem?_map, List.getElem?_map, getElem?_rank]
  cases ht : (rankOrder (ranksOf r all))[t]? with
  | none => rfl
  | some i =>
    have hi : i ∈ List.range (ranksOf r all).size :=
      (List.mergeSort_perm _ _).mem_iff.mp (List.mem_of_getElem? ht)
    rw [List.mem_range, size_ranksOf] at hi
    simp [List.getElem?_eq_getElem hi]

/-- **Ranked outcomes stand in the order of their ranks.** -/
theorem rank_pairwise (r : Registry ρ) (all : List (Outcome ρ)) :
    (rank r all).Pairwise fun p q => Rank.le (p.rankAmong r all) (q.rankAmong r all) := by
  have horder : (rankOrder (ranksOf r all)).Pairwise fun a b =>
      Rank.le ((ranksOf r all)[a]?.getD (0, 0)) ((ranksOf r all)[b]?.getD (0, 0)) :=
    pairwise_rankOrder (ranksOf r all)
  have hmap : ((rank r all).map some).Pairwise fun x y =>
      ∀ p q, x = some p → y = some q → Rank.le (p.rankAmong r all) (q.rankAmong r all) := by
    rw [map_some_rank, List.pairwise_map]
    refine horder.imp fun hab p q hp hq => ?_
    rwa [getD_ranksOf hp, getD_ranksOf hq] at hab
  rw [List.pairwise_map] at hmap
  exact hmap.imp fun hpq => hpq _ _ rfl rfl

/-- Relevance never increases in the ranking. -/
theorem rank_relevance (r : Registry ρ) (all : List (Outcome ρ)) :
    (rank r all).Pairwise fun p q => q.relevance ≤ p.relevance := by
  refine (rank_pairwise r all).imp fun hpq => ?_
  rw [Rank.le_iff] at hpq
  simp only [Outcome.rankAmong] at hpq
  omega

/-- Of two ranked outcomes the one of the strictly lower rank comes later. -/
theorem lt_of_rank_lt {p q : Outcome ρ} {i j : Nat}
    (hless : Rank.le (q.rankAmong r all) (p.rankAmong r all) = false)
    (hi : (rank r all)[i]? = some p) (hj : (rank r all)[j]? = some q) : i < j := by
  obtain ⟨hilt, rfl⟩ := List.getElem?_eq_some_iff.mp hi
  obtain ⟨hjlt, rfl⟩ := List.getElem?_eq_some_iff.mp hj
  rcases Nat.lt_trichotomy i j with hij | rfl | hji
  · exact hij
  · rw [(Bool.or_self _).symm.trans (Rank.le_total _ _)] at hless
    cases hless
  · rw [List.pairwise_iff_getElem.mp (rank_pairwise r all) j i hjlt hilt hji] at hless
    cases hless

/-! ### Chains of extensions -/

/-- A language extends another one, both by their registered names. -/
def Registry.IsBase (r : Registry ρ) (name base : String) : Prop := r.baseOf name = some base

/-- From a language one comes, from base to base, to languages that extend each other in a circle.
-/
def Registry.MeetsCircle (r : Registry ρ) (name : String) : Prop :=
  ∃ met, Relation.ReflTransGen r.IsBase name met ∧ Relation.TransGen r.IsBase met met

theorem Registry.MeetsCircle.of_base {name base : String} (hbase : r.IsBase name base)
    (h : r.MeetsCircle base) : r.MeetsCircle name := by
  obtain ⟨met, hreach, hcircle⟩ := h
  exact ⟨met, hreach.head hbase, hcircle⟩

/-- What comes to a circle has a base that does. -/
theorem Registry.MeetsCircle.exists_base {name : String} (h : r.MeetsCircle name) :
    ∃ base, r.IsBase name base ∧ r.MeetsCircle base := by
  obtain ⟨met, hreach, hcircle⟩ := h
  rcases hreach.cases_head with rfl | ⟨base, hbase, hrest⟩
  · obtain ⟨base, hbase, hback⟩ := Relation.TransGen.head'_iff.mp hcircle
    exact ⟨base, hbase, base, Relation.ReflTransGen.refl, Relation.TransGen.tail' hback hbase⟩
  · exact ⟨base, hbase, met, hrest, hcircle⟩

/-- An outcome extends an equal one, both being among those that are compared. -/
def Outcome.ExtendsEqual (r : Registry ρ) (all : List (Outcome ρ)) (p q : Outcome ρ) : Prop :=
  p ∈ all ∧ q ∈ all ∧ q.relevance = p.relevance ∧ p.Extends r q

/-- Looking as many languages further as one has found, one has passed as many bases in a row. -/
theorem exists_chain_of_extensionDepth {tied : String → Bool} : ∀ (hops : Nat) (name : String),
    extensionDepth r tied hops (some name) = hops →
      ∃ bases : List String, bases.length = hops ∧ (name :: bases).IsChain r.IsBase ∧
        ∀ base ∈ bases, tied base
  | 0, _, _ => ⟨[], rfl, List.IsChain.singleton _, fun _ hbase => absurd hbase List.not_mem_nil⟩
  | hops + 1, name, h => by
    rw [extensionDepth.eq_3] at h
    cases hbase : r.baseOf name with
    | none =>
      rw [hbase] at h
      cases h
    | some base =>
      rw [hbase] at h
      dsimp only at h
      split at h
      · next htied =>
        rw [Nat.add_comm, Nat.add_right_cancel_iff] at h
        obtain ⟨bases, hlength, hchain, hall⟩ := exists_chain_of_extensionDepth hops base h
        refine ⟨base :: bases, by rw [List.length_cons, hlength],
          List.isChain_cons_cons.mpr ⟨hbase, hchain⟩, ?_⟩
        exact List.forall_mem_cons.mpr ⟨htied, hall⟩
      · cases h

/-- A row of languages, each the base of the one before it, has none twice unless it comes to a
circle. -/
theorem nodup_of_isChain {name : String} {bases : List String}
    (hchain : (name :: bases).IsChain r.IsBase) (h : ¬ r.MeetsCircle name) :
    (name :: bases).Nodup := by
  have hstep : (name :: bases).IsChain (Relation.TransGen r.IsBase) :=
    hchain.imp fun _ _ => Relation.TransGen.single
  have hpairs := List.isChain_iff_pairwise.mp hstep
  have hreach : ∀ met ∈ name :: bases, Relation.ReflTransGen r.IsBase name met := by
    refine List.forall_mem_cons.mpr ⟨Relation.ReflTransGen.refl, fun met hmet => ?_⟩
    exact ((List.pairwise_cons.mp hpairs).1 met hmet).to_reflTransGen
  refine (List.Pairwise.and_mem.mp hpairs).imp ?_
  rintro met _ ⟨hmet, -, hcircle⟩ rfl
  exact h ⟨met, hreach met hmet, hcircle⟩

/-- An outcome extends fewer of its equals than there are outcomes, unless it comes to a circle. -/
theorem supersetDepth_ne_length {q : Outcome ρ} {name : String} (hq : q ∈ all)
    (hname : q.language = some name) (h : ¬ r.MeetsCircle name) :
    supersetDepth r all q ≠ all.length := by
  intro hdepth
  unfold supersetDepth at hdepth
  rw [hname] at hdepth
  obtain ⟨bases, hlength, hchain, htied⟩ := exists_chain_of_extensionDepth _ _ hdepth
  -- all of the row are languages of outcomes, and the row is longer than these are
  have hsub : name :: bases ⊆ all.filterMap Outcome.language := by
    refine List.forall_mem_cons.mpr ⟨List.mem_filterMap.mpr ⟨q, hq, hname⟩, fun base hbase => ?_⟩
    obtain ⟨p, hp, hequal⟩ := List.any_eq_true.mp (htied base hbase)
    rw [Bool.and_eq_true, beq_iff_eq, beq_iff_eq] at hequal
    exact List.mem_filterMap.mpr ⟨p, hp, hequal.2⟩
  have hle := (List.subperm_of_subset (nodup_of_isChain hchain h) hsub).length_le
  have hfilter := List.length_filterMap_le Outcome.language all
  rw [List.length_cons] at hle
  omega

/-- What an outcome extends, directly, extends less than it does. -/
theorem supersetDepth_lt_of_step {p q : Outcome ρ} (h : p.ExtendsEqual r all q) {name : String}
    (hname : p.language = some name) (hcircle : ¬ r.MeetsCircle name) :
    supersetDepth r all q < supersetDepth r all p := by
  obtain ⟨-, hq, hequal, hextends⟩ := h
  rcases supersetDepth_lt_of_extends hq hequal.symm hextends with hlt | hlength
  · exact hlt
  obtain ⟨name', base, hname', hbase, hlanguage⟩ := hextends
  obtain rfl : name = name' := Option.some.inj (hname.symm.trans hname')
  exact absurd hlength (supersetDepth_ne_length hq hlanguage fun h => hcircle (h.of_base hbase))

/-- What an outcome extends, in one step or in several, is of equal relevance and extends less than
it does. -/
theorem supersetDepth_lt_of_chain {p q : Outcome ρ}
    (h : Relation.TransGen (Outcome.ExtendsEqual r all) p q) : ∀ name, p.language = some name →
      ¬ r.MeetsCircle name →
        q.relevance = p.relevance ∧ supersetDepth r all q < supersetDepth r all p := by
  induction h using Relation.TransGen.head_induction_on with
  | single hstep =>
    intro name hname hcircle
    exact ⟨hstep.2.2.1, supersetDepth_lt_of_step hstep hname hcircle⟩
  | head hstep _ ih =>
    intro name hname hcircle
    have hlt := supersetDepth_lt_of_step hstep hname hcircle
    obtain ⟨-, -, hequal, name', base, hname', hbase, hlanguage⟩ := hstep
    obtain rfl : name = name' := Option.some.inj (hname.symm.trans hname')
    obtain ⟨hequal', hlt'⟩ := ih base hlanguage fun h => hcircle (h.of_base hbase)
    exact ⟨hequal'.trans hequal, hlt'.trans hlt⟩

/-! ### Stability -/

/-- **Equals that extend none of each other stay in order.** -/
theorem rank_stable {v : Nat}
    (h : ∀ p ∈ all, ∀ q ∈ all, p.relevance = v → q.relevance = v → ¬ p.Extends r q) :
    (rank r all).filter (·.relevance == v) = all.filter (·.relevance == v) := by
  have hdepth : ∀ p ∈ all, p.relevance = v → supersetDepth r all p = 0 := fun p hp hv => by
    refine Nat.eq_zero_of_not_pos fun hpos => ?_
    obtain ⟨q, hq, hequal, hextends⟩ := exists_extends_of_supersetDepth_pos hpos
    exact h p hp q hq hv (hequal.trans hv) hextends
  let P : Option (Outcome ρ) → Bool := fun o => o.any (·.relevance == v)
  have hrank : ∀ a < all.length, P all[a]? → (ranksOf r all)[a]?.getD (0, 0) = (v, 0) :=
    fun a ha hP => by
      have hget : all[a]? = some all[a] := List.getElem?_eq_getElem ha
      have hv : all[a].relevance = v := by simpa [P, hget] using hP
      rw [getD_ranksOf hget, Outcome.rankAmong, hv, hdepth _ (List.getElem_mem ha) hv]
  have horder : (rankOrder (ranksOf r all)).filter (fun a => P all[a]?) =
      (List.range all.length).filter fun a => P all[a]? := by
    rw [filter_rankOrder (ranksOf r all), size_ranksOf]
    intro a ha b hb hPa hPb
    rw [size_ranksOf] at ha hb
    rw [hrank a ha hPa, hrank b hb hPb]
    exact Rank.le_iff.mpr (Or.inr ⟨rfl, Nat.le_refl 0⟩)
  have hall : all.map some = (List.range all.length).map (all[·]?) := by
    refine List.ext_getElem (by simp) fun t ht _ => ?_
    rw [List.length_map] at ht
    simp [ht]
  refine List.map_injective_iff.mpr (Option.some_injective _) ?_
  calc ((rank r all).filter (·.relevance == v)).map some
      = ((rank r all).map some).filter P := by rw [List.filter_map]; rfl
    _ = ((rankOrder (ranksOf r all)).filter fun a => P all[a]?).map (all[·]?) := by
      rw [map_some_rank, List.filter_map]; rfl
    _ = ((List.range all.length).filter fun a => P all[a]?).map (all[·]?) := by rw [horder]
    _ = (all.map some).filter P := by rw [hall, List.filter_map]; rfl
    _ = (all.filter (·.relevance == v)).map some := by rw [List.filter_map]; rfl

/-! ### The ranking -/

/-- **The ranking of outcomes.** Ranking reorders the outcomes so that relevance never increases.
An outcome comes before all that it extends, in one step or through a chain of equals, unless it
comes to languages that extend each other in a circle. Equals of which none extends another stay in
order. -/
theorem rank_precedence (r : Registry ρ) (all : List (Outcome ρ)) :
    (rank r all).Perm all ∧
      (rank r all).Pairwise (fun p q => q.relevance ≤ p.relevance) ∧
      (∀ p q name, Relation.TransGen (Outcome.ExtendsEqual r all) p q →
        p.language = some name → ¬ r.MeetsCircle name →
          ∀ i j : Nat, (rank r all)[i]? = some p → (rank r all)[j]? = some q → i < j) ∧
      ∀ v, (∀ p ∈ all, ∀ q ∈ all, p.relevance = v → q.relevance = v → ¬ p.Extends r q) →
        (rank r all).filter (·.relevance == v) = all.filter (·.relevance == v) := by
  refine ⟨rank_perm r all, rank_relevance r all, fun p q name hchain hname hcircle i j => ?_,
    fun v => rank_stable⟩
  obtain ⟨hequal, hlt⟩ := supersetDepth_lt_of_chain hchain name hname hcircle
  refine lt_of_rank_lt ?_
  rw [Bool.eq_false_iff, Ne, Rank.le_iff]
  simp only [Outcome.rankAmong]
  omega

/-- A registry of a language, one that extends it by an alias, and one that extends that one. -/
def chainedRegistry : Except Problem (Registry Regex.Tried) :=
  match Registry.empty.register "base" { aliases := ["basic"] } with
  | .ok r =>
    match r.register "middle" { supersetOf := some "Basic" } with
    | .ok r => r.register "derived" { supersetOf := some "middle" }
    | .error p => .error p
  | .error p => .error p

/-- Of three equals the last one comes before the first one, which it extends through the other. -/
theorem rank_precedence_derived : ∃ r : Registry Regex.Tried, chainedRegistry = .ok r ∧
    ∀ i j : Nat, (rank r (["base", "middle", "derived"].map (Outcome.plain "" <| some ·)))[i]? =
        some (Outcome.plain "" (some "derived")) →
      (rank r (["base", "middle", "derived"].map (Outcome.plain "" <| some ·)))[j]? =
        some (Outcome.plain "" (some "base")) → i < j := by
  obtain ⟨r, hr, hbases⟩ : ∃ r, chainedRegistry = .ok r ∧ (r.baseOf "derived" == some "middle" &&
      r.baseOf "middle" == some "base" && r.baseOf "base" == none) :=
    exists_of_any (by decide +kernel)
  simp only [Bool.and_eq_true, beq_iff_eq] at hbases
  obtain ⟨⟨hderived, hmiddle⟩, hbase⟩ := hbases
  have hcircle : ¬ r.MeetsCircle "derived" := fun h => by
    obtain ⟨first, hfirst, h⟩ := h.exists_base
    obtain rfl : "middle" = first := Option.some.inj (hderived.symm.trans hfirst)
    obtain ⟨second, hsecond, h⟩ := h.exists_base
    obtain rfl : "base" = second := Option.some.inj (hmiddle.symm.trans hsecond)
    obtain ⟨third, hthird, -⟩ := h.exists_base
    cases hbase.symm.trans hthird
  refine ⟨r, hr, fun i j => (rank_precedence r _).2.2.1 _ _ "derived" ?_ rfl hcircle i j⟩
  -- the chain goes through the outcome in the middle
  refine Relation.TransGen.head (b := Outcome.plain "" (some "middle")) ?_
    (Relation.TransGen.single ?_)
  · exact ⟨by simp, by simp, rfl, "derived", "middle", rfl, hderived, rfl⟩
  · exact ⟨by simp, by simp, rfl, "middle", "base", rfl, hmiddle, rfl⟩

end CodeMarkup
