import CodeMarkup.Regex.Expr

/-! # Renumbering groups

When a pattern becomes a part of another one, the numbers of its groups grow by the number of groups
before it. Renumbering changes nothing else that can be said of an expression. -/

namespace CodeMarkup.Regex.Expr

mutual

/-- An expression whose groups, and references to them, have numbers greater by `offset`. -/
def renumber (offset : Nat) : Expr → Expr
  | group i e => group (i + offset) (renumber offset e)
  | reference i => reference (i + offset)
  | groupMatched i => groupMatched (i + offset)
  | seq es => seq (renumberAll offset es)
  | alt es => alt (renumberAll offset es)
  | around ahead negated e => around ahead negated (renumber offset e)
  | loop e lo hi greedy => loop (renumber offset e) lo hi greedy
  | atomic e => atomic (renumber offset e)
  | conditional c t f => conditional (renumber offset c) (renumber offset t) (renumber offset f)
  | empty => empty
  | any newline => any newline
  | anchor a => anchor a
  | char c foldCase => char c foldCase
  | set written foldCase => set written foldCase
  | keepOut => keepOut
  | searchStart => searchStart

/-- Expressions whose groups have greater numbers. -/
def renumberAll (offset : Nat) : List Expr → List Expr
  | [] => []
  | e :: es => renumber offset e :: renumberAll offset es

end

mutual

/-- Whether an expression matches without regard to where the search started, from the place where
its match is said to start; its groups and references are then numbered from `1`. -/
def isSteady : Expr → Bool
  | keepOut | searchStart => false
  | group i e => 0 < i && isSteady e
  | reference i | groupMatched i => 0 < i
  | seq es | alt es => allSteady es
  | around _ _ e | atomic e => isSteady e
  | loop e _ _ _ => isSteady e
  | conditional c t f => isSteady c && isSteady t && isSteady f
  | empty | any _ | anchor _ | char .. | set .. => true

/-- Whether all expressions are steady. -/
def allSteady : List Expr → Bool
  | [] => true
  | e :: es => isSteady e && allSteady es

end

/-! ### Rows -/

theorem renumberAll_eq_map (offset : Nat) : ∀ es : List Expr,
    renumberAll offset es = es.map (renumber offset)
  | [] => rfl
  | e :: es => by rw [renumberAll, renumberAll_eq_map offset es, List.map_cons]

theorem allSteady_eq_all : ∀ es : List Expr, allSteady es = es.all isSteady
  | [] => rfl
  | e :: es => by rw [allSteady, allSteady_eq_all es, List.all_cons]

/-! ### What renumbering keeps -/

variable (offset : Nat)

theorem isEmpty_renumber (e : Expr) : (e.renumber offset).isEmpty = e.isEmpty := by
  cases e <;> simp [renumber, isEmpty]

theorem isRepeatable_renumber (e : Expr) : (e.renumber offset).isRepeatable = e.isRepeatable := by
  cases e <;> simp [renumber, isRepeatable]

mutual

theorem isSteady_renumber : ∀ e : Expr, isSteady e → isSteady (renumber offset e)
  | group i e, h => by
    simp only [isSteady, Bool.and_eq_true, decide_eq_true_eq] at h
    simp only [renumber, isSteady, Bool.and_eq_true, decide_eq_true_eq]
    exact ⟨by omega, isSteady_renumber e h.2⟩
  | reference i, h | groupMatched i, h => by
    simp only [isSteady, decide_eq_true_eq] at h
    simp only [renumber, isSteady, decide_eq_true_eq]
    omega
  | seq es, h | alt es, h => by
    rw [renumber, isSteady]
    exact allSteady_renumberAll es h
  | around _ _ e, h | atomic e, h | loop e _ _ _, h => by
    rw [renumber, isSteady]
    exact isSteady_renumber e h
  | conditional c t f, h => by
    simp only [isSteady, Bool.and_eq_true] at h
    simp only [renumber, isSteady, Bool.and_eq_true]
    exact ⟨⟨isSteady_renumber c h.1.1, isSteady_renumber t h.1.2⟩,
      isSteady_renumber f h.2⟩
  | empty, h | any _, h | anchor _, h | char .., h | set .., h => h
  | keepOut, h | searchStart, h => by cases h

theorem allSteady_renumberAll : ∀ es : List Expr, allSteady es →
    allSteady (renumberAll offset es)
  | [], _ => rfl
  | e :: es, h => by
    rw [allSteady, Bool.and_eq_true] at h
    rw [renumberAll, allSteady, Bool.and_eq_true]
    exact ⟨isSteady_renumber e h.1, allSteady_renumberAll es h.2⟩

end

mutual

theorem minSize_renumber : ∀ e : Expr, (e.renumber offset).minSize = e.minSize
  | seq es => by rw [renumber, minSize, minSize, sumSizes_renumberAll es]
  | alt es => by rw [renumber, minSize, minSize, leastSize_renumberAll es]
  | group _ e => by rw [renumber, minSize, minSize, minSize_renumber e]
  | atomic e => by rw [renumber, minSize, minSize, minSize_renumber e]
  | loop e _ _ _ => by rw [renumber, minSize, minSize, minSize_renumber e]
  | conditional c t f => by
    rw [renumber, minSize, minSize, minSize_renumber c, minSize_renumber t, minSize_renumber f]
  | empty | any _ | anchor _ | char .. | set .. | around .. | reference _ | keepOut | searchStart
  | groupMatched _ => by simp only [renumber, minSize]

theorem sumSizes_renumberAll : ∀ es : List Expr, sumSizes (renumberAll offset es) = sumSizes es
  | [] => rfl
  | e :: es => by rw [renumberAll, sumSizes, sumSizes, minSize_renumber e, sumSizes_renumberAll es]

theorem leastSize_renumberAll : ∀ es : List Expr, leastSize (renumberAll offset es) = leastSize es
  | [] => rfl
  | [e] => by rw [renumberAll, renumberAll, leastSize, leastSize, minSize_renumber e]
  | e :: e' :: es => by
    have h := leastSize_renumberAll (e' :: es)
    rw [renumberAll] at h
    show min (renumber offset e).minSize (leastSize (renumber offset e' :: renumberAll offset es)) =
      min e.minSize (leastSize (e' :: es))
    rw [minSize_renumber e, h]

end

end CodeMarkup.Regex.Expr
