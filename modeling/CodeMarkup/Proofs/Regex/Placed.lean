import CodeMarkup.Proofs.Regex.Renumber
import CodeMarkup.Proofs.Regex.Ways
import Mathlib.Data.List.Forall2

/-! # Ways to match with renumbered groups

An expression whose groups have been renumbered matches in the same ways, and records the same in
the slots of the renumbered groups; the slots of earlier groups it leaves as they are
(`Expr.ways_renumber`). -/

namespace CodeMarkup.Regex

open Text (Cursor Place)

theorem Marks.place?_cons (slot : Nat) (place : Option Place) (marks : Marks) (other : Nat) :
    Marks.place? ((slot, place) :: marks) other =
      if other = slot then place else marks.place? other := by
  unfold Marks.place?
  rw [List.lookup_cons]
  split <;> simp_all

/-- Two arrivals at one place. The second has recorded in the slots of the groups from `offset` on
what the first has in its own, and in the slots before them what `base` has; the slots of the whole
match are as `base` has them in both. -/
structure Shifts (offset : Nat) (base : Marks) (a a' : Arrival) : Prop where
  here : a'.here = a.here
  whole : ∀ slot, slot < 2 → a.marks.place? slot = base.place? slot
  groups : ∀ slot, 2 ≤ slot → a'.marks.place? (slot + 2 * offset) = a.marks.place? slot
  others : ∀ slot, slot < 2 + 2 * offset → a'.marks.place? slot = base.place? slot

namespace Shifts

variable {offset : Nat} {base : Marks} {a a' : Arrival}

theorem moveTo (h : Shifts offset base a a') (here : Cursor) :
    Shifts offset base (a.moveTo here) (a'.moveTo here) :=
  ⟨rfl, h.whole, h.groups, h.others⟩

theorem record (h : Shifts offset base a a') {slot : Nat} (hs : 2 ≤ slot) :
    Shifts offset base (a.record slot) (a'.record (slot + 2 * offset)) where
  here := h.here
  whole other ho := by
    rw [Arrival.record, Marks.place?_cons, if_neg (by omega)]
    exact h.whole other ho
  groups other ho := by
    simp only [Arrival.record, Marks.place?_cons, h.here, h.groups other ho]
    by_cases he : other = slot
    · rw [if_pos he, if_pos (by rw [he])]
    · rw [if_neg he, if_neg (by omega)]
  others other ho := by
    rw [Arrival.record, Marks.place?_cons, if_neg (by omega)]
    exact h.others other ho

theorem pass (h : Shifts offset base a a') (takes : Char → Bool) :
    List.Forall₂ (Shifts offset base) (a.pass takes) (a'.pass takes) := by
  unfold Arrival.pass
  rw [h.here]
  cases a.here.next? with
  | none => exact .nil
  | some found =>
    obtain ⟨c, behind⟩ := found
    dsimp only
    split
    · exact .cons (h.moveTo behind) .nil
    · exact .nil

theorem goOnIf (h : Shifts offset base a a') (condition : Bool) :
    List.Forall₂ (Shifts offset base) (a.goOnIf condition) (a'.goOnIf condition) := by
  cases condition with
  | false => exact .nil
  | true => exact .cons h .nil

theorem goBack (h : Shifts offset base a a') (n : Nat) {f f' : Arrival → List Arrival}
    (hf : ∀ a a', Shifts offset base a a' → List.Forall₂ (Shifts offset base) (f a) (f' a')) :
    List.Forall₂ (Shifts offset base) (a.goBack n f) (a'.goBack n f') := by
  unfold Arrival.goBack
  rw [h.here]
  cases a.here.back? n with
  | none => exact .nil
  | some here => exact hf _ _ (h.moveTo here)

theorem group?_eq (h : Shifts offset base a a') {i : Nat} (hi : 0 < i) :
    a'.marks.group? (i + offset) = a.marks.group? i := by
  have hstart := h.groups (2 * i) (by omega)
  have hstop := h.groups (2 * i + 1) (by omega)
  unfold Marks.group?
  rw [← hstart, ← hstop, Nat.mul_add, Nat.add_right_comm]

theorem passGroup (h : Shifts offset base a a') {i : Nat} (hi : 0 < i) :
    List.Forall₂ (Shifts offset base) (a.passGroup i) (a'.passGroup (i + offset)) := by
  have ht : Walk.groupText? a'.marks (i + offset) = Walk.groupText? a.marks i := by
    unfold Walk.groupText?
    rw [h.group?_eq hi]
  unfold Arrival.passGroup
  rw [ht, h.here]
  cases Walk.groupText? a.marks i with
  | none => exact .nil
  | some cs =>
    dsimp only
    cases Walk.passText? cs a.here with
    | none => exact .nil
    | some here => exact .cons (h.moveTo here) .nil

theorem stay (h : Shifts offset base a a') (negated : Bool) {found found' : List Arrival}
    (hf : List.Forall₂ (Shifts offset base) found found') :
    List.Forall₂ (Shifts offset base) (a.stay negated found) (a'.stay negated found') := by
  unfold Arrival.stay
  cases negated with
  | false =>
    rw [h.here]
    exact List.rel_map (fun _ _ hb => hb.moveTo a.here) (List.forall₂_take 1 hf)
  | true =>
    cases hf with
    | nil => exact h.goOnIf true
    | cons => exact h.goOnIf false

/-! ### Rounds -/

variable {round round' : Arrival → List Arrival}
  (hr : ∀ a a', Shifts offset base a a' →
    List.Forall₂ (Shifts offset base) (round a) (round' a'))

include hr

theorem rounds : ∀ (n : Nat) {a a' : Arrival}, Shifts offset base a a' →
    List.Forall₂ (Shifts offset base) (rounds round n a) (rounds round' n a')
  | 0, _, _, h => .cons h .nil
  | n + 1, _, _, h => List.rel_flatMap (hr _ _ h) fun _ _ hb => rounds n hb

theorem roundsUpTo (greedy : Bool) : ∀ (n : Nat) {a a' : Arrival}, Shifts offset base a a' →
    List.Forall₂ (Shifts offset base) (roundsUpTo greedy round n a) (roundsUpTo greedy round' n a')
  | 0, _, _, h => .cons h .nil
  | n + 1, _, _, h => by
    have hmore := List.rel_flatMap (hr _ _ h) fun _ _ hb => roundsUpTo greedy n hb
    cases greedy with
    | false => exact .cons h hmore
    | true => exact List.rel_append hmore (.cons h .nil)

theorem movingRound (h : Shifts offset base a a') :
    List.Forall₂ (Shifts offset base) (movingRound round a) (movingRound round' a') := by
  unfold Regex.movingRound
  refine List.rel_filter (fun b b' hb => ?_) (hr a a' h)
  dsimp only
  rw [hb.here, h.here]

theorem roundsBetween (lo : Nat) (hi : Option Nat) (greedy : Bool) (h : Shifts offset base a a') :
    List.Forall₂ (Shifts offset base) (roundsBetween round lo hi greedy a)
      (roundsBetween round' lo hi greedy a') := by
  cases hi with
  | some hi =>
    exact List.rel_flatMap (rounds hr (min lo hi) h) fun _ _ hb =>
      roundsUpTo hr greedy (hi - lo) hb
  | none =>
    refine List.rel_flatMap (rounds hr lo h) fun b b' hb => ?_
    rw [hb.here]
    exact roundsUpTo (fun _ _ hc => movingRound hr hc) greedy _ hb

end Shifts

/-! ### Expressions -/

namespace Expr

variable {offset : Nat} {base : Marks} (letters : Letters) (start start' : Nat)

/-- What has been renumbered matches in the same ways. -/
def Keeps (offset : Nat) (base : Marks) (f f' : Arrival → List Arrival) : Prop :=
  ∀ a a', Shifts offset base a a' → List.Forall₂ (Shifts offset base) (f a) (f' a')

mutual

theorem ways_renumber : ∀ (e : Expr), e.isSteady → Keeps offset base (ways letters start e)
    (ways letters start' (e.renumber offset))
  | empty, _, a, a', h => by
    rw [renumber, ways, ways]
    exact .cons h .nil
  | any newline, _, a, a', h => by
    rw [renumber, ways, ways]
    exact h.pass _
  | anchor k, _, a, a', h => by
    rw [renumber, ways, ways, h.here]
    exact h.goOnIf _
  | char c foldCase, _, a, a', h => by
    rw [renumber, ways, ways]
    exact h.pass _
  | set written foldCase, _, a, a', h => by
    rw [renumber, ways, ways]
    exact h.pass _
  | seq es, hs, a, a', h => by
    rw [renumber, ways, ways]
    exact waysThrough_renumberAll es hs a a' h
  | alt es, hs, a, a', h => by
    rw [renumber, ways, ways]
    exact waysOfAny_renumberAll es hs a a' h
  | group i e, hs, a, a', h => by
    simp only [isSteady, Bool.and_eq_true, decide_eq_true_eq] at hs
    have hi : 2 * (i + offset) = 2 * i + 2 * offset := Nat.mul_add 2 i offset
    rw [renumber, ways, ways, hi, Nat.add_right_comm]
    exact List.rel_map (fun _ _ hb => hb.record (by omega))
      (ways_renumber e hs.2 _ _ (h.record (by omega)))
  | around true negated e, hs, a, a', h => by
    rw [renumber, ways, ways]
    exact h.stay negated (ways_renumber e hs a a' h)
  | around false negated e, hs, a, a', h => by
    -- the least size stays the same, so both look back from the same places
    have hback : List.Forall₂ (Shifts offset base) (a.goBack e.minSize (ways letters start e))
        (a'.goBack (e.renumber offset).minSize (ways letters start' (e.renumber offset))) := by
      rw [minSize_renumber]
      exact h.goBack _ (ways_renumber e hs)
    cases e with
    | alt es =>
      rw [renumber, renumber, ways, ways]
      exact h.stay negated (waysBehind_renumberAll es hs a a' h)
    | _ =>
      simp only [renumber, ways] at hback ⊢
      exact h.stay negated hback
  | loop e lo hi greedy, hs, a, a', h => by
    rw [renumber, ways, ways]
    exact Shifts.roundsBetween (ways_renumber e hs) lo hi greedy h
  | reference i, hs, a, a', h => by
    rw [renumber, ways, ways]
    exact h.passGroup (by simpa [isSteady] using hs)
  | atomic e, hs, a, a', h => by
    rw [renumber, ways, ways]
    exact List.forall₂_take 1 (ways_renumber e hs a a' h)
  | groupMatched i, hs, a, a', h => by
    have hi : 0 < i := by simpa [isSteady] using hs
    rw [renumber, ways, ways, Nat.mul_add, h.groups (2 * i) (by omega)]
    exact h.goOnIf _
  | conditional c t f, hs, a, a', h => by
    simp only [isSteady, Bool.and_eq_true] at hs
    rw [renumber, ways, ways]
    have hc := ways_renumber c hs.1.1 a a' h
    generalize ways letters start c a = found at hc
    generalize ways letters start' (c.renumber offset) a' = found' at hc
    cases hc with
    | nil => exact ways_renumber f hs.2 a a' h
    | cons hb _ => exact ways_renumber t hs.1.2 _ _ hb

theorem waysThrough_renumberAll : ∀ (es : List Expr), allSteady es →
    Keeps offset base (waysThrough letters start es)
      (waysThrough letters start' (renumberAll offset es))
  | [], _, a, a', h => by
    rw [renumberAll, waysThrough, waysThrough]
    exact .cons h .nil
  | e :: es, hs, a, a', h => by
    simp only [allSteady, Bool.and_eq_true] at hs
    rw [renumberAll, waysThrough, waysThrough]
    exact List.rel_flatMap (ways_renumber e hs.1 a a' h) (waysThrough_renumberAll es hs.2)

theorem waysOfAny_renumberAll : ∀ (es : List Expr), allSteady es →
    Keeps offset base (waysOfAny letters start es)
      (waysOfAny letters start' (renumberAll offset es))
  | [], _, a, a', h => by
    rw [renumberAll, waysOfAny, waysOfAny]
    exact .nil
  | e :: es, hs, a, a', h => by
    simp only [allSteady, Bool.and_eq_true] at hs
    rw [renumberAll, waysOfAny, waysOfAny]
    exact List.rel_append (ways_renumber e hs.1 a a' h) (waysOfAny_renumberAll es hs.2 a a' h)

theorem waysBehind_renumberAll : ∀ (es : List Expr), allSteady es →
    Keeps offset base (waysBehind letters start es)
      (waysBehind letters start' (renumberAll offset es))
  | [], _, a, a', h => by
    rw [renumberAll, waysBehind, waysBehind]
    exact .nil
  | e :: es, hs, a, a', h => by
    simp only [allSteady, Bool.and_eq_true] at hs
    rw [renumberAll, waysBehind, waysBehind, minSize_renumber]
    exact List.rel_append (h.goBack _ (ways_renumber e hs.1)) (waysBehind_renumberAll es hs.2 a a' h)

end

end Expr

/-! ### A pattern in a group among others -/

/-- The group of a pattern among others records what the pattern alone records, the whole match as
its first group; the groups before it have recorded nothing. -/
structure Decoded (here : Cursor) (w : Nat) (m m' : Marks) : Prop where
  groups : ∀ k, m'.group? (w + k) = m.group? k
  before : ∀ v, 0 < v → v < w → m'.group? v = none
  whole : m'.group? 0 = m.group? 0
  alone : ∃ stop, m.group? 0 = some (⟨here, 0⟩, ⟨stop, 0⟩)

section Group

variable {letters : Letters} {q : Parsed} {here : Cursor} {w : Nat}

/-- What is recorded when the group of a pattern is entered. -/
def entered (here : Cursor) (w : Nat) : Marks := [(2 * w, some ⟨here, 0⟩), (0, some ⟨here, 0⟩)]

theorem shifts_entered (hw : 0 < w) : Shifts w (entered here w) (Arrival.record ⟨here, []⟩ 0)
    ((Arrival.record ⟨here, []⟩ 0).record (2 * w)) where
  here := rfl
  whole slot hs := by
    simp only [entered, Arrival.record, Marks.place?_cons, if_neg (show slot ≠ 2 * w by omega)]
  groups slot hs := by
    simp only [Arrival.record, Marks.place?_cons,
      if_neg (show slot + 2 * w ≠ 2 * w by omega), if_neg (show slot + 2 * w ≠ 0 by omega),
      if_neg (show slot ≠ 0 by omega)]
    rfl
  others _ _ := rfl

theorem place?_entered (slot : Nat) : (entered here w).place? slot =
    if slot = 2 * w ∨ slot = 0 then some ⟨here, 0⟩ else none := by
  simp only [entered, Marks.place?_cons]
  by_cases h1 : slot = 2 * w
  · rw [if_pos h1, if_pos (Or.inl h1)]
  · by_cases h2 : slot = 0
    · rw [if_neg h1, if_pos h2, if_pos (Or.inr h2)]
    · rw [if_neg h1, if_neg h2, if_neg (by rintro (h | h) <;> contradiction)]
      rfl

/-- What a pattern in a group has recorded behind the group. -/
theorem decoded (hw : 0 < w) {b b' : Arrival} (h : Shifts w (entered here w) b b') :
    Decoded here w (b.record 1).marks ((b'.record (2 * w + 1)).record 1).marks := by
  have hm : ∀ slot, Marks.place? (b.record 1).marks slot =
      if slot = 1 then some ⟨b.here, 0⟩ else b.marks.place? slot := fun slot =>
    Marks.place?_cons ..
  have hm' : ∀ slot, Marks.place? ((b'.record (2 * w + 1)).record 1).marks slot =
      if slot = 1 then some ⟨b.here, 0⟩ else if slot = 2 * w + 1 then some ⟨b.here, 0⟩
      else b'.marks.place? slot := by
    intro slot
    simp only [Arrival.record, Marks.place?_cons, h.here]
  have hstart : Marks.place? ((b'.record (2 * w + 1)).record 1).marks (2 * w) = some ⟨here, 0⟩ := by
    rw [hm', if_neg (by omega), if_neg (by omega), h.others _ (by omega), place?_entered,
      if_pos (Or.inl rfl)]
  have hfirst : Marks.place? (b.record 1).marks 0 = some ⟨here, 0⟩ := by
    rw [hm, if_neg (by omega), h.whole 0 (by omega), place?_entered, if_pos (Or.inr rfl)]
  -- the group is what the pattern matches alone, and the groups of the pattern come behind it
  refine ⟨fun k => ?_, fun v hv hvw => ?_, ?_, b.here, ?_⟩
  · unfold Marks.group?
    cases k with
    | zero =>
      rw [show 2 * (w + 0) = 2 * w from rfl, Nat.mul_zero, hstart, hfirst, hm, if_pos rfl, hm',
        if_neg (by omega), if_pos rfl]
    | succ k =>
      have hs : 2 * (w + (k + 1)) = 2 * (k + 1) + 2 * w := by omega
      rw [hs, hm', if_neg (by omega), if_neg (by omega), h.groups _ (by omega), hm',
        if_neg (by omega), if_neg (by omega), Nat.add_right_comm, h.groups _ (by omega), hm,
        if_neg (by omega), hm, if_neg (by omega)]
  · have hnone : Marks.place? ((b'.record (2 * w + 1)).record 1).marks (2 * v) = none := by
      rw [hm', if_neg (by omega), if_neg (by omega), h.others _ (by omega), place?_entered,
        if_neg (by omega)]
    unfold Marks.group?
    rw [hnone]
    rfl
  · have hzero : Marks.place? ((b'.record (2 * w + 1)).record 1).marks 0 = some ⟨here, 0⟩ := by
      rw [hm', if_neg (by omega), if_neg (by omega), h.others _ (by omega), place?_entered,
        if_pos (Or.inr rfl)]
    unfold Marks.group?
    rw [Nat.mul_zero, hzero, hm', if_pos rfl, hfirst, hm, if_pos rfl]
  · unfold Marks.group?
    rw [Nat.mul_zero, hfirst, hm, if_pos rfl]
    rfl

/-- **A pattern in a group among others matches where it matches alone**, and records the same. -/
theorem ways_group (hq : q.expr.isSteady) (hw : 0 < w) (start start' : Nat) :
    match q.matchAt? letters start here with
    | none => Expr.ways letters start' (.group w (q.expr.renumber w))
        (Arrival.record ⟨here, []⟩ 0) = []
    | some m => ∃ b bs, Expr.ways letters start' (.group w (q.expr.renumber w))
        (Arrival.record ⟨here, []⟩ 0) = b :: bs ∧ Decoded here w m (b.record 1).marks := by
  have h := Expr.ways_renumber letters start start' q.expr hq _ _ 
    (show Shifts w (entered here w) _ _ from shifts_entered hw)
  unfold Parsed.matchAt?
  rw [Expr.ways]
  generalize Expr.ways letters start q.expr (Arrival.record ⟨here, []⟩ 0) = found at h
  generalize Expr.ways letters start' (q.expr.renumber w) _ = found' at h
  cases h with
  | nil => rfl
  | cons hb _ => exact ⟨_, _, rfl, decoded hw hb⟩

end Group

end CodeMarkup.Regex
