import CodeMarkup.Proofs.Highlight.Outcomes
import CodeMarkup.Proofs.Highlight.Reordered
import CodeMarkup.Proofs.Language.Registered

/-! # First come

When the language is guessed, the best outcome is the first of those of the greatest relevance that
extend the most of their equals (`exists_of_rank_eq_cons`). So the first of the most relevant
outcomes is the best, unless the best one extends one of its equals: only for that can code that has
been left as it is lose against an outcome that is worth nothing (`detect_first_come`).

It is not enough that the first one is not extended itself: that a language extends another one
counts against every equal outcome, be it one that has nothing to do with the two
(`detect_prefers_extension`). -/

namespace CodeMarkup

/-! ### Sorted numbers -/

/-- What is first once numbers are sorted comes before all of them, and strictly before those that
were in front of it. -/
theorem of_mergeSort_range_eq_cons {le : Nat → Nat → Bool}
    (trans : ∀ a b c, le a b → le b c → le a c) (total : ∀ a b, le a b || le b a) {n i : Nat}
    {is : List Nat} (h : (List.range n).mergeSort le = i :: is) :
    i < n ∧ (∀ j < i, le j i = false) ∧ ∀ j < n, le i j := by
  have hperm : (i :: is).Perm (List.range n) := h ▸ List.mergeSort_perm (List.range n) le
  have hi : i < n := List.mem_range.mp (hperm.mem_iff.mp List.mem_cons_self)
  have hnodup : (i :: is).Nodup := hperm.nodup_iff.mpr List.nodup_range
  have hsorted : (i :: is).Pairwise fun a b => le a b := by
    rw [← h]
    exact List.pairwise_mergeSort trans total (List.range n)
  refine ⟨hi, fun j hj => ?_, fun j hj => ?_⟩
  · -- a number that may come before it and was in front of it would have stayed there
    rw [Bool.eq_false_iff]
    intro hle
    have hpair : [j, i].Sublist (List.range n) := by
      have hsub : ([j] ++ [i]).Sublist (List.range i ++ [i]) :=
        (List.singleton_sublist.mpr (List.mem_range.mpr hj)).append (List.Sublist.refl [i])
      rw [← List.range_succ] at hsub
      exact hsub.trans (List.range_sublist.mpr hi)
    have hstays : [j, i].Sublist (i :: is) :=
      h ▸ List.pair_sublist_mergeSort trans total hle hpair
    have hsub : [j, i].Sublist is := hstays.of_cons_of_ne (Nat.ne_of_lt hj)
    exact (List.nodup_cons.mp hnodup).1 (hsub.subset (by simp))
  · rcases List.mem_cons.mp (hperm.mem_iff.mpr (List.mem_range.mpr hj)) with rfl | hmem
    · exact (Bool.or_self _).symm.trans (total j j)
    · exact (List.pairwise_cons.mp hsorted).1 j hmem

/-! ### Ranks -/

namespace Rank

theorem le_iff {a b : Rank} : Rank.le a b ↔ b.1 < a.1 ∨ (a.1 = b.1 ∧ b.2 ≤ a.2) := by
  simp [Rank.le]

theorem le_trans {a b c : Rank} (hab : Rank.le a b) (hbc : Rank.le b c) : Rank.le a c := by
  rw [le_iff] at hab hbc ⊢
  omega

theorem le_total (a b : Rank) : Rank.le a b || Rank.le b a := by
  rw [Bool.or_eq_true, le_iff, le_iff]
  omega

end Rank

/-- The number that is first in the order of ranks. -/
theorem of_rankOrder_eq_cons {ranks : Array Rank} {i : Nat} {is : List Nat}
    (h : rankOrder ranks = i :: is) :
    i < ranks.size ∧
      (∀ j < i, Rank.le (ranks[j]?.getD (0, 0)) (ranks[i]?.getD (0, 0)) = false) ∧
      ∀ j < ranks.size, Rank.le (ranks[i]?.getD (0, 0)) (ranks[j]?.getD (0, 0)) := by
  let le : Nat → Nat → Bool := fun a b => Rank.le (ranks[a]?.getD (0, 0)) (ranks[b]?.getD (0, 0))
  have trans : ∀ a b c, le a b → le b c → le a c := fun _ _ _ => Rank.le_trans
  have total : ∀ a b, le a b || le b a := fun _ _ => Rank.le_total _ _
  exact of_mergeSort_range_eq_cons trans total h

variable {ρ : Type} [Engine ρ]

/-- What an outcome among others is ranked by. -/
def Outcome.rankAmong (r : Registry ρ) (all : List (Outcome ρ)) (o : Outcome ρ) : Rank :=
  (o.relevance, supersetDepth r all o)

/-- The ranks of outcomes. -/
def ranksOf (r : Registry ρ) (all : List (Outcome ρ)) : Array Rank :=
  (all.map (Outcome.rankAmong r all)).toArray

theorem size_ranksOf (r : Registry ρ) (all : List (Outcome ρ)) :
    (ranksOf r all).size = all.length := by
  rw [ranksOf, List.size_toArray, List.length_map]

theorem getD_ranksOf {r : Registry ρ} {all : List (Outcome ρ)} {i : Nat} {p : Outcome ρ}
    (h : all[i]? = some p) : (ranksOf r all)[i]?.getD (0, 0) = p.rankAmong r all := by
  rw [ranksOf, List.getElem?_toArray, List.getElem?_map, h]
  rfl

/-- At each place in the ranking stands the outcome that the order of ranks names. -/
theorem getElem?_rank (r : Registry ρ) (all : List (Outcome ρ)) (t : Nat) :
    (rank r all)[t]? = (rankOrder (ranksOf r all))[t]?.bind (all[·]?) := by
  have horder : (rankOrder (ranksOf r all)).Perm (List.range all.toArray.size) := by
    rw [List.size_toArray, ← size_ranksOf r all]
    exact List.mergeSort_perm _ _
  obtain ⟨items, hitems, -, hplaces⟩ := exists_reorder? horder
  have hrank : rank r all = items.toList := by
    change ((reorder? all.toArray (rankOrder (ranksOf r all))).getD all.toArray).toList = _
    rw [hitems, Option.getD_some]
  rw [hrank, Array.getElem?_toList, hplaces t]
  simp only [List.getElem?_toArray]

/-- **The best outcome is the first of those of the greatest rank.** -/
theorem exists_of_rank_eq_cons {r : Registry ρ} {all rest : List (Outcome ρ)} {best : Outcome ρ}
    (h : rank r all = best :: rest) :
    ∃ before after, all = before ++ best :: after ∧
      (∀ p ∈ before, Rank.le (p.rankAmong r all) (best.rankAmong r all) = false) ∧
      ∀ p ∈ all, Rank.le (best.rankAmong r all) (p.rankAmong r all) := by
  have hfirst := getElem?_rank r all 0
  rw [h, List.getElem?_cons_zero] at hfirst
  obtain ⟨i, hi, hbest⟩ := Option.bind_eq_some_iff.mp hfirst.symm
  obtain ⟨is, his⟩ : ∃ is, rankOrder (ranksOf r all) = i :: is :=
    List.head?_eq_some_iff.mp (List.head?_eq_getElem?.trans hi)
  obtain ⟨hlt, hbefore, hall⟩ := of_rankOrder_eq_cons his
  rw [size_ranksOf] at hlt hall
  rw [getD_ranksOf hbest] at hbefore hall
  obtain ⟨_, hget⟩ := List.getElem?_eq_some_iff.mp hbest
  refine ⟨all.take i, all.drop (i + 1), ?_, fun p hp => ?_, fun p hp => ?_⟩
  · rw [← hget, List.getElem_cons_drop, List.take_append_drop]
  · obtain ⟨j, hj⟩ := List.mem_iff_getElem?.mp hp
    rw [List.getElem?_take] at hj
    split at hj
    · next hji =>
      rw [← getD_ranksOf hj]
      exact hbefore j hji
    · cases hj
  · obtain ⟨j, hj⟩ := List.mem_iff_getElem?.mp hp
    rw [← getD_ranksOf hj]
    exact hall j (List.getElem?_eq_some_iff.mp hj).1

/-! ### Extensions -/

/-- The language of an outcome extends that of another one. -/
def Outcome.Extends (r : Registry ρ) (p q : Outcome ρ) : Prop :=
  ∃ name base, p.language = some name ∧ r.baseOf name = some base ∧ q.language = some base

/-- An outcome that extends some language extends an equal outcome. -/
theorem exists_extends_of_supersetDepth_pos {r : Registry ρ} {all : List (Outcome ρ)}
    {o : Outcome ρ} (h : 0 < supersetDepth r all o) :
    ∃ q ∈ all, q.relevance = o.relevance ∧ o.Extends r q := by
  unfold supersetDepth at h
  dsimp only at h
  cases hl : o.language with
  | none =>
    rw [hl] at h
    cases hn : all.length <;> simp [hn, extensionDepth] at h
  | some name =>
    rw [hl] at h
    cases hn : all.length with
    | zero => simp [hn, extensionDepth] at h
    | succ hops =>
      rw [hn, extensionDepth] at h
      split at h
      · exact absurd h (Nat.lt_irrefl 0)
      · next base hbase =>
        split at h
        · next htied =>
          obtain ⟨q, hq, heq⟩ := List.any_eq_true.mp htied
          simp only [Bool.and_eq_true, beq_iff_eq] at heq
          exact ⟨q, hq, heq.1, name, base, hl, hbase, heq.2⟩
        · exact absurd h (Nat.lt_irrefl 0)

/-- Looking one language further finds one language more, or no more than before. -/
theorem extensionDepth_succ (r : Registry ρ) (tied : String → Bool) :
    ∀ (hops : Nat) (name : Option String),
      extensionDepth r tied (hops + 1) name = extensionDepth r tied hops name ∨
        extensionDepth r tied (hops + 1) name = hops + 1
  | hops, none => by
    left
    cases hops <;> rfl
  | 0, some name => by
    rw [extensionDepth.eq_3]
    cases r.baseOf name with
    | none => exact Or.inl rfl
    | some base =>
      dsimp only
      split
      · exact Or.inr rfl
      · exact Or.inl rfl
  | hops + 1, some name => by
    rw [extensionDepth.eq_3, extensionDepth.eq_3]
    cases r.baseOf name with
    | none => exact Or.inl rfl
    | some base =>
      dsimp only
      by_cases htied : tied base
      · rw [if_pos htied, if_pos htied]
        rcases extensionDepth_succ r tied hops (some base) with h | h
        · exact Or.inl (by rw [h])
        · exact Or.inr (by rw [h, Nat.add_comm])
      · rw [if_neg htied, if_neg htied]
        exact Or.inl rfl

/-- An outcome that extends an equal one extends more than that one does, unless languages extend
each other in a circle. -/
theorem supersetDepth_lt_of_extends {r : Registry ρ} {all : List (Outcome ρ)} {p q : Outcome ρ}
    (hp : p ∈ all) (hequal : q.relevance = p.relevance) (h : q.Extends r p) :
    supersetDepth r all p < supersetDepth r all q ∨ supersetDepth r all p = all.length := by
  obtain ⟨name, base, hname, hbase, hlanguage⟩ := h
  obtain ⟨hops, hhops⟩ : ∃ hops, all.length = hops + 1 :=
    Nat.exists_eq_succ_of_ne_zero (Nat.ne_of_gt (List.length_pos_of_mem hp))
  have htied : (all.any fun o => o.relevance == p.relevance && o.language == some base) = true :=
    List.any_eq_true.mpr ⟨p, hp, by simp [hlanguage]⟩
  unfold supersetDepth
  rw [hhops, hname, hlanguage, hequal]
  dsimp only
  rw [extensionDepth.eq_3 _ _ _ name, hbase]
  dsimp only
  rw [if_pos htied]
  rcases extensionDepth_succ r (fun language =>
    all.any fun o => o.relevance == p.relevance && o.language == some language) hops (some base)
    with hdepth | hdepth
  · left
    omega
  · exact Or.inr hdepth

/-- Code that is left as it is is in no language, so nothing extends it. -/
theorem Outcome.not_extends_plain (r : Registry ρ) (code : String) (p : Outcome ρ) :
    ¬ p.Extends r (Outcome.plain code none) := by
  rintro ⟨name, base, -, -, hplain⟩
  cases hplain

section Unextending

variable {r : Registry ρ} {code : String} {os before after : List (Outcome ρ)} {best : Outcome ρ}

/-- An outcome that extends none of its equals is the best one only as the first of them. -/
theorem relevance_lt_of_not_extends
    (hbefore : ∀ p ∈ before, Rank.le (p.rankAmong r (Outcome.plain code none :: os))
      (best.rankAmong r (Outcome.plain code none :: os)) = false)
    (h : ∀ q ∈ os, q.relevance = best.relevance → ¬ best.Extends r q) :
    ∀ p ∈ before, p.relevance < best.relevance := by
  have hdepth : supersetDepth r (Outcome.plain code none :: os) best = 0 := by
    refine Nat.eq_zero_of_not_pos fun hpos => ?_
    obtain ⟨q, hq, hequal, hextends⟩ := exists_extends_of_supersetDepth_pos hpos
    rcases List.mem_cons.mp hq with rfl | hq
    · exact Outcome.not_extends_plain r code best hextends
    · exact h q hq hequal hextends
  intro p hp
  have hrank := hbefore p hp
  rw [Bool.eq_false_iff, Ne, Rank.le_iff] at hrank
  simp only [Outcome.rankAmong, hdepth] at hrank
  omega

omit [Engine ρ] in
/-- Nothing before it is worth less than nothing. -/
theorem eq_plain_of_relevance_eq_zero
    (hall : Outcome.plain code none :: os = before ++ best :: after)
    (hless : ∀ p ∈ before, p.relevance < best.relevance) (hzero : best.relevance = 0) :
    best = Outcome.plain code none := by
  cases before with
  | nil => exact (List.cons.inj hall).1.symm
  | cons p before =>
    have := hless p List.mem_cons_self
    omega

end Unextending

/-! ### The best outcome -/

/-- Code that is not in the language is worth nothing. -/
def Outcome.WorthlessIfIllegal (p : Outcome ρ) : Prop := p.illegal = true → p.relevance = 0

omit [Engine ρ] in
theorem Outcome.holdsPlain_worthlessIfIllegal (code : String) :
    HoldsPlain (ρ := ρ) code Outcome.WorthlessIfIllegal := fun _ _ _ _ => rfl

theorem worthlessIfIllegal_highlight {r : Registry ρ} {o : Options} {name code : String}
    {ignoreIllegals : Bool} {continuation : Option (ModeStack ρ)} {out : Outcome ρ}
    (h : highlight r o name code ignoreIllegals continuation = .ok out) :
    out.WorthlessIfIllegal := by
  obtain ⟨depth, key, l, -, hout⟩ := of_highlightWithin_ok r o h
  refine (Outcome.holdsPlain_worthlessIfIllegal code).recover (fun out hout => ?_) hout
  obtain ⟨s, -, rfl⟩ := Scan.outcome_eq_ok hout
  intro hillegal
  cases hillegal

/-- The best outcome and the order in which the outcomes of a detection are compared. -/
theorem exists_of_detectWith {r : Registry ρ} {o : Options} {code : String}
    {subset : Option (List String)} {go : String → Except Problem (Outcome ρ)} {d : Detection ρ}
    (h : detectWith r o code subset go = .ok d) :
    ∃ os rest, candidateOutcomes code go (candidates r o subset) = .ok os ∧
      rank r (Outcome.plain code none :: os) = d.best :: rest := by
  unfold detectWith at h
  split at h
  · cases h
  · next os hos =>
    split at h
    · next hnil =>
      have hlength := (rank_perm r (Outcome.plain code none :: os)).length_eq
      rw [hnil] at hlength
      cases hlength
    · next best rest hrank =>
      cases h
      exact ⟨os, rest, hos, hrank⟩

/-- **First come.** When the language is guessed, the best outcome is the first of those of the
greatest rank, where code that is left as it is comes before all candidates. No equal outcome extends
the best one, unless languages extend each other in a circle. If the best one extends none of its
equals, it is the first of those of the greatest relevance, the code is left as it is when no
candidate is worth anything, and code that is not in the language is not the best. -/
theorem detect_first_come {r : Registry ρ} {o : Options} {code : String}
    {subset : Option (List String)} {d : Detection ρ} (h : detect r o code subset = .ok d) :
    ∃ os before after,
      candidateOutcomes code (fun name => highlight r o name code false none)
        (candidates r o subset) = .ok os ∧
      Outcome.plain code none :: os = before ++ d.best :: after ∧
      (∀ p ∈ before, Rank.le (p.rankAmong r (Outcome.plain code none :: os))
        (d.best.rankAmong r (Outcome.plain code none :: os)) = false) ∧
      (∀ p ∈ Outcome.plain code none :: os,
        Rank.le (d.best.rankAmong r (Outcome.plain code none :: os))
          (p.rankAmong r (Outcome.plain code none :: os))) ∧
      (∀ q ∈ os, q.relevance = d.best.relevance → q.Extends r d.best →
        supersetDepth r (Outcome.plain code none :: os) d.best = os.length + 1) ∧
      ((∀ q ∈ os, q.relevance = d.best.relevance → ¬ d.best.Extends r q) →
        (∀ p ∈ before, p.relevance < d.best.relevance) ∧
        ((∀ q ∈ os, q.relevance = 0) → d.best = Outcome.plain code none) ∧
        d.best.illegal = false) := by
  obtain ⟨os, rest, hos, hrank⟩ := exists_of_detectWith h
  obtain ⟨before, after, hall, hbefore, hbest⟩ := exists_of_rank_eq_cons hrank
  have hmem : d.best ∈ Outcome.plain code none :: os := by simp [hall]
  refine ⟨os, before, after, hos, hall, hbefore, hbest, fun q hq hequal hextends => ?_,
    fun hextends => ?_⟩
  · have hrank := hbest q (List.mem_cons_of_mem _ hq)
    rw [Rank.le_iff] at hrank
    simp only [Outcome.rankAmong] at hrank
    rcases supersetDepth_lt_of_extends hmem hequal hextends with hlt | hcircle
    · omega
    · exact hcircle
  have hless := relevance_lt_of_not_extends hbefore hextends
  refine ⟨hless, fun hworthless => ?_, ?_⟩
  · rcases List.mem_cons.mp hmem with hplain | hcandidate
    · exact hplain
    · exact eq_plain_of_relevance_eq_zero hall hless (hworthless d.best hcandidate)
  · have hillegal : d.best.WorthlessIfIllegal := by
      rcases List.mem_cons.mp hmem with hplain | hcandidate
      · rw [hplain]
        exact (Outcome.holdsPlain_worthlessIfIllegal code).plain none
      · exact forall_candidateOutcomes (Outcome.holdsPlain_worthlessIfIllegal code)
          (fun _ _ ho => worthlessIfIllegal_highlight ho) _ os hos d.best hcandidate
    rw [Bool.eq_false_iff]
    intro hmarked
    rw [eq_plain_of_relevance_eq_zero hall hless (hillegal hmarked)] at hmarked
    cases hmarked

/-! ### A language that extends another -/

/-- A language with one word. -/
def baseGrammar : Grammar where
  root := { contains := some [.mode 0] }
  shelf := { modes := #[{ className := some "word", matchPattern := some "fn" }] }

/-- A language that extends it and has no semicolons. -/
def derivedGrammar : Grammar where
  supersetOf := some "base"
  root := { illegal := some (.one ";") }

/-- The registry of the two. -/
def extendedRegistry : Except Problem (Registry Regex.Tried) :=
  match Registry.empty.register "base" baseGrammar with
  | .ok r => r.register "derived" derivedGrammar
  | .error p => .error p

/-- The outcomes that are compared when the language of code is guessed among the two. -/
def outcomesExtended (r : Registry Regex.Tried) (code : String) :
    Except Problem (List (Outcome Regex.Tried)) :=
  candidateOutcomes code (fun name => highlight r {} name code false none) (candidates r {} none)

/-- Whether everything of a rank that is as great as that of some outcome has a property. -/
def greatestAll (r : Registry ρ) (all : List (Outcome ρ)) (P : Outcome ρ → Bool) : Bool :=
  all.any fun q => all.all fun p => !Rank.le (p.rankAmong r all) (q.rankAmong r all) || P p

/-- What holds of everything of the greatest rank holds of the best outcome. -/
theorem of_greatestAll {r : Registry ρ} {o : Options} {code : String}
    {go : String → Except Problem (Outcome ρ)} {os : List (Outcome ρ)} {P : Outcome ρ → Bool}
    (hos : candidateOutcomes code go (candidates r o none) = .ok os)
    (h : greatestAll r (Outcome.plain code none :: os) P) :
    ∃ d, detectWith r o code none go = .ok d ∧ P d.best := by
  obtain ⟨d, hd⟩ := exists_detectWith hos
  obtain ⟨os', rest, hos', hrank⟩ := exists_of_detectWith hd
  obtain rfl : os = os' := Except.ok.inj (hos.symm.trans hos')
  obtain ⟨before, after, hall, -, hbest⟩ := exists_of_rank_eq_cons hrank
  obtain ⟨q, hq, hgreatest⟩ := List.any_eq_true.mp h
  have hmem : d.best ∈ Outcome.plain code none :: os := by simp [hall]
  have hP := List.all_eq_true.mp hgreatest d.best hmem
  rw [hbest q hq] at hP
  exact ⟨d, hd, hP⟩

/-- The word is found in the language that has it, which extends none. -/
theorem detect_first_come_word : ∃ (r : Registry Regex.Tried) (d : Detection Regex.Tried),
    extendedRegistry = .ok r ∧ detect r {} "fn" none = .ok d ∧ d.best.language = some "base" ∧
      ∃ os before after, Outcome.plain "fn" none :: os = before ++ d.best :: after ∧
        ∀ p ∈ before, p.relevance < d.best.relevance := by
  obtain ⟨r, hr, hd⟩ : ∃ r, extendedRegistry = .ok r ∧ ((r.baseOf "base" == none) &&
      (outcomesExtended r "fn").toOption.any fun os =>
        greatestAll r (Outcome.plain "fn" none :: os) fun p => p.language == some "base") :=
    exists_of_any (by decide +kernel)
  obtain ⟨hbase, hd⟩ := (Bool.and_eq_true _ _ ▸ hd : _ ∧ _)
  obtain ⟨os, hos, hgreatest⟩ := exists_of_any hd
  obtain ⟨d, hdetect, hbest⟩ := of_greatestAll hos hgreatest
  have hbase := beq_iff_eq.mp hbase
  have hbest := beq_iff_eq.mp hbest
  obtain ⟨os, before, after, -, hall, -, -, -, hfirst⟩ := detect_first_come hdetect
  refine ⟨r, d, hr, hdetect, hbest, os, before, after, hall, (hfirst ?_).1⟩
  rintro q - - ⟨name, other, hname, hother, -⟩
  obtain rfl : "base" = name := Option.some.inj (hbest.symm.trans hname)
  rw [hbase] at hother
  cases hother

/-- **An extension is preferred even to leaving code as it is.** No candidate is worth anything and
the code is not in the derived language, which is the best one all the same. -/
theorem detect_prefers_extension : ∃ (r : Registry Regex.Tried) (os : List (Outcome Regex.Tried))
    (d : Detection Regex.Tried), extendedRegistry = .ok r ∧
      candidateOutcomes ";" (fun name => highlight r {} name ";" false none)
        (candidates r {} none) = .ok os ∧
      (∀ q ∈ os, q.relevance = 0) ∧ detect r {} ";" none = .ok d ∧
      d.best.language = some "derived" ∧ d.best.illegal = true := by
  obtain ⟨r, hr, hd⟩ : ∃ r, extendedRegistry = .ok r ∧ ((outcomesExtended r ";").toOption.any fun os =>
      (os.all fun q => q.relevance == 0) &&
        greatestAll r (Outcome.plain ";" none :: os) fun p =>
          p.language == some "derived" && p.illegal) :=
    exists_of_any (by decide +kernel)
  obtain ⟨os, hos, hd⟩ := exists_of_any hd
  obtain ⟨hworthless, hgreatest⟩ := (Bool.and_eq_true _ _ ▸ hd : _ ∧ _)
  obtain ⟨d, hdetect, hbest⟩ := of_greatestAll hos hgreatest
  simp only [Bool.and_eq_true, beq_iff_eq] at hbest
  simp only [List.all_eq_true, beq_iff_eq] at hworthless
  exact ⟨r, os, d, hr, hos, hworthless, hdetect, hbest⟩

end CodeMarkup
