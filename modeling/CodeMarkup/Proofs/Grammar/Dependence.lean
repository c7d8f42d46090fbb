import CodeMarkup.Grammar.Mode
import Mathlib.Data.Finset.Card

/-! # Ends that depend on the mode around

Whether the end of a mode is also given by the mode around it is asked of the mode and of those that
follow it, with a bound on how many are looked at. The bound is great enough: a mode that does not
depend on the mode around it is not followed by one that does (`Shelf.dependsOnParent_starts`). -/

namespace CodeMarkup.Shelf

variable (s : Shelf)

theorem dependsOnParentWithin_succ (steps : Nat) (m : Mode) :
    s.dependsOnParentWithin (steps + 1) m = (m.endsWithParent == some true ||
      m.starts.any fun key => s.dependsOnParentWithin steps (s.mode key)) := rfl

/-- A mode that is not on the shelf depends on nothing. -/
theorem dependsOnParentWithin_outside {key : Key} (h : s.modes.size ≤ key) :
    ∀ steps, s.dependsOnParentWithin steps (s.mode key) = false
  | 0 => rfl
  | steps + 1 => by
    rw [mode, Array.getElem?_eq_none h]
    rfl

theorem dependsOnParentWithin_mono : ∀ (steps : Nat) {m : Mode},
    s.dependsOnParentWithin steps m → s.dependsOnParentWithin (steps + 1) m
  | 0, _, h => by cases h
  | steps + 1, m, h => by
    rw [dependsOnParentWithin_succ, Bool.or_eq_true] at h ⊢
    refine h.imp_right fun hs => ?_
    cases hk : m.starts with
    | none => rw [hk] at hs; cases hs
    | some key =>
      rw [hk] at hs
      exact dependsOnParentWithin_mono steps hs

/-- Looking at one mode more changes nothing. -/
def Settled (steps : Nat) : Prop :=
  ∀ key, s.dependsOnParentWithin (steps + 1) (s.mode key) =
    s.dependsOnParentWithin steps (s.mode key)

variable {s}

theorem Settled.succ {steps : Nat} (h : s.Settled steps) : s.Settled (steps + 1) := fun key => by
  rw [dependsOnParentWithin_succ, dependsOnParentWithin_succ s steps]
  simp only [h _]

variable (s)

/-- The keys of the modes found to depend on the mode around them. -/
def dependents (steps : Nat) : Finset Key :=
  (Finset.range s.modes.size).filter fun key => s.dependsOnParentWithin steps (s.mode key)

theorem dependents_subset (steps : Nat) : s.dependents steps ⊆ s.dependents (steps + 1) :=
  Finset.monotone_filter_right _ fun _ _ => s.dependsOnParentWithin_mono steps

theorem settled_of_dependents {steps : Nat} (h : s.dependents steps = s.dependents (steps + 1)) :
    s.Settled steps := fun key => by
  by_cases hk : key < s.modes.size
  · have hmem := Finset.ext_iff.mp h key
    simp only [dependents, Finset.mem_filter, Finset.mem_range, hk, true_and] at hmem
    exact Bool.eq_iff_iff.mpr hmem.symm
  · rw [s.dependsOnParentWithin_outside (Nat.le_of_not_lt hk),
      s.dependsOnParentWithin_outside (Nat.le_of_not_lt hk)]

/-- As long as looking further finds more, each look finds one more at least. -/
theorem settled_or_lt_card : ∀ steps, s.Settled steps ∨ steps < (s.dependents (steps + 1)).card
  | 0 => by
    by_cases h : s.dependents 0 = s.dependents 1
    · exact Or.inl (s.settled_of_dependents h)
    · have hlt := Finset.card_lt_card ((s.dependents_subset 0).ssubset_of_ne h)
      exact Or.inr (Nat.zero_lt_of_lt hlt)
  | steps + 1 => by
    rcases settled_or_lt_card steps with h | h
    · exact Or.inl h.succ
    · by_cases he : s.dependents (steps + 1) = s.dependents (steps + 2)
      · exact Or.inl (s.settled_of_dependents he)
      · refine Or.inr (Nat.lt_of_le_of_lt h (Finset.card_lt_card ?_))
        exact (s.dependents_subset (steps + 1)).ssubset_of_ne he

theorem settled_size : s.Settled s.modes.size := by
  refine (s.settled_or_lt_card s.modes.size).resolve_right (Nat.not_lt.mpr ?_)
  exact (Finset.card_filter_le _ _).trans_eq (Finset.card_range _)

variable {s}

/-- **A mode that does not depend on the mode around it is not followed by one that does.** -/
theorem dependsOnParent_starts {m : Mode} {key : Key} (h : s.dependsOnParent m = false)
    (hk : m.starts = some key) : s.dependsOnParent (s.mode key) = false := by
  rw [dependsOnParent, dependsOnParentWithin_succ, hk, Bool.or_eq_false_iff] at h
  rw [dependsOnParent, s.settled_size]
  exact h.2

theorem endsWithParent_of_dependsOnParent {m : Mode} (h : s.dependsOnParent m = false) :
    (m.endsWithParent == some true) = false := by
  rw [dependsOnParent, dependsOnParentWithin_succ, Bool.or_eq_false_iff] at h
  exact h.1

end CodeMarkup.Shelf
