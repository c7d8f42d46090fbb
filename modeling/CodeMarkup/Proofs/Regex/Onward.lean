import CodeMarkup.Proofs.Regex.Placed

/-! # Ways lead onward

Every way in which an expression matches at a place ends in the same text, at least as many bytes
further on as the expression takes characters (`Expr.leadOn_ways`). Of a condition either branch counts
with the characters that are taken before it: the text of the condition itself belongs to the match
where it holds, and is not looked at any more where it does not. So what a pattern matches is not
empty if it takes a character (`Parsed.onward_of_matchAt?`). -/

namespace CodeMarkup.Regex

open Text (Cursor)

namespace Expr

mutual

/-- The number of characters that every way to match an expression takes at least. -/
def leastTaken : Expr → Nat
  | .any _ | .char .. | .set .. => 1
  | .seq es => leastThrough es
  | .alt es => leastOfAny es
  | .group _ e | .atomic e => leastTaken e
  | .loop e lo hi _ => leastTaken e * min lo (hi.getD lo)
  | .conditional c t f => min (leastTaken c + leastTaken t) (leastTaken f)
  | .empty | .anchor _ | .around .. | .reference _ | .keepOut | .searchStart | .groupMatched _ => 0

/-- What one expression after the other takes. -/
def leastThrough : List Expr → Nat
  | [] => 0
  | e :: es => leastTaken e + leastThrough es

/-- What the expression that takes least takes. -/
def leastOfAny : List Expr → Nat
  | [] => 0
  | [e] => leastTaken e
  | e :: e' :: es => min (leastTaken e) (leastOfAny (e' :: es))

end

end Expr

/-- A place of a text that is so many bytes or more behind another one. -/
structure Onward (n : Nat) (c d : Cursor) : Prop where
  text : d.text = c.text
  le : c.offset + n ≤ d.offset

namespace Onward

variable {n m : Nat} {b c d : Cursor}

theorem refl (c : Cursor) : Onward 0 c c := ⟨rfl, Nat.le_refl _⟩

theorem trans (h : Onward n b c) (h' : Onward m c d) : Onward (n + m) b d :=
  ⟨h'.text.trans h.text, by have := h.le; have := h'.le; omega⟩

theorem mono (h : Onward n c d) (hm : m ≤ n) : Onward m c d :=
  ⟨h.text, by have := h.le; omega⟩

theorem next {x : Char} (h : c.next? = some (x, d)) : Onward 1 c d :=
  ⟨Cursor.text_next? h, by
    have := Cursor.offset_next? h
    have := x.utf8Size_pos
    omega⟩

theorem passText : ∀ {cs : List Char} {c d : Cursor}, Walk.passText? cs c = some d → Onward 0 c d
  | [], c, d, h => by
    obtain rfl := Option.some.inj h
    exact .refl c
  | x :: cs, c, d, h => by
    unfold Walk.passText? at h
    split at h
    · next hnext =>
      split at h
      · exact ((next hnext).trans (passText h)).mono (Nat.zero_le _)
      · cases h
    · cases h

end Onward

/-- Ways that all end so many bytes or more behind their start. -/
def LeadOn (n : Nat) (a : Arrival) (bs : List Arrival) : Prop := ∀ b ∈ bs, Onward n a.here b.here

namespace LeadOn

variable {n m : Nat} {a : Arrival} {bs : List Arrival}

theorem nil : LeadOn n a [] := nofun

theorem stays (a : Arrival) : LeadOn 0 a [a] := fun b hb => by
  rw [List.mem_singleton.mp hb]
  exact .refl _

theorem append {cs : List Arrival} (h : LeadOn n a bs) (h' : LeadOn n a cs) :
    LeadOn n a (bs ++ cs) := fun b hb => (List.mem_append.mp hb).elim (h b) (h' b)

theorem mono (h : LeadOn n a bs) (hm : m ≤ n) : LeadOn m a bs := fun b hb => (h b hb).mono hm

theorem flatMap {f : Arrival → List Arrival} (h : LeadOn n a bs) (hf : ∀ b, LeadOn m b (f b)) :
    LeadOn (n + m) a (bs.flatMap f) := fun c hc => by
  obtain ⟨b, hb, hc⟩ := List.mem_flatMap.mp hc
  exact (h b hb).trans (hf b c hc)

theorem take (h : LeadOn n a bs) (k : Nat) : LeadOn n a (bs.take k) :=
  fun b hb => h b (List.mem_of_mem_take hb)

theorem filter (h : LeadOn n a bs) (p : Arrival → Bool) : LeadOn n a (bs.filter p) :=
  fun b hb => h b (List.mem_of_mem_filter hb)

/-! ### Single steps -/

theorem pass (a : Arrival) (takes : Char → Bool) : LeadOn 1 a (a.pass takes) := by
  unfold Arrival.pass
  split
  · next hnext =>
    split
    · intro b hb
      rw [List.mem_singleton.mp hb]
      exact .next hnext
    · exact nil
  · exact nil

theorem goOnIf (a : Arrival) (condition : Bool) : LeadOn 0 a (a.goOnIf condition) := by
  unfold Arrival.goOnIf
  split
  · exact stays a
  · exact nil

theorem stay (a : Arrival) (negated : Bool) (found : List Arrival) :
    LeadOn 0 a (a.stay negated found) := by
  unfold Arrival.stay
  split
  · exact goOnIf a _
  · intro b hb
    obtain ⟨c, -, rfl⟩ := List.mem_map.mp hb
    exact .refl _

theorem passGroup (a : Arrival) (group : Nat) : LeadOn 0 a (a.passGroup group) := by
  unfold Arrival.passGroup
  split
  · intro b hb
    obtain ⟨here, hhere, rfl⟩ := Option.map_eq_some_iff.mp (Option.mem_toList.mp hb)
    exact .passText hhere
  · exact nil

/-! ### Rounds -/

section Rounds

variable {round : Arrival → List Arrival}

theorem rounds (h : ∀ a, LeadOn n a (round a)) :
    ∀ (k : Nat) (a : Arrival), LeadOn (n * k) a (rounds round k a)
  | 0, a => stays a
  | k + 1, a => ((h a).flatMap (rounds h k)).mono (by rw [Nat.mul_succ]; omega)

theorem roundsUpTo (h : ∀ a, LeadOn n a (round a)) (greedy : Bool) :
    ∀ (k : Nat) (a : Arrival), LeadOn 0 a (roundsUpTo greedy round k a)
  | 0, a => stays a
  | k + 1, a => by
    have hmore := ((h a).flatMap (roundsUpTo h greedy k)).mono (Nat.zero_le _)
    cases greedy with
    | false => exact (stays a).append hmore
    | true => exact hmore.append (stays a)

theorem roundsBetween (h : ∀ a, LeadOn n a (round a)) (lo : Nat) (hi : Option Nat) (greedy : Bool)
    (a : Arrival) : LeadOn (n * min lo (hi.getD lo)) a (roundsBetween round lo hi greedy a) := by
  cases hi with
  | some hi => exact (rounds h (min lo hi) a).flatMap (roundsUpTo h greedy (hi - lo))
  | none =>
    rw [Option.getD_none, Nat.min_self]
    exact (rounds h lo a).flatMap fun b => roundsUpTo (fun c => (h c).filter _) greedy _ b

end Rounds

end LeadOn

/-! ### Expressions -/

namespace Expr

variable (letters : Letters) (start : Nat)

mutual

theorem leadOn_ways : ∀ (e : Expr) (a : Arrival), LeadOn e.leastTaken a (ways letters start e a)
  | .empty, a => by
    rw [ways, leastTaken]
    exact .stays a
  | .keepOut, a => by
    rw [ways, leastTaken]
    intro b hb
    rw [List.mem_singleton.mp hb]
    exact .refl a.here
  | .any _, a | .char .., a | .set .., a => by
    rw [ways, leastTaken]
    exact .pass a _
  | .anchor _, a | .searchStart, a | .groupMatched _, a => by
    rw [ways, leastTaken]
    exact .goOnIf a _
  | .seq es, a => by
    rw [ways, leastTaken]
    exact leadOn_waysThrough es a
  | .alt es, a => by
    rw [ways, leastTaken]
    exact leadOn_waysOfAny es a
  | .group i e, a => by
    rw [ways, leastTaken]
    intro b hb
    obtain ⟨c, hc, rfl⟩ := List.mem_map.mp hb
    exact leadOn_ways e (a.record (2 * i)) c hc
  | .around true negated e, a => by
    rw [ways, leastTaken]
    exact .stay a negated _
  | .around false negated e, a => by
    rw [leastTaken]
    cases e <;> rw [ways] <;> first | exact .stay a negated _ | nofun
  | .loop e lo hi greedy, a => by
    rw [ways, leastTaken]
    exact .roundsBetween (leadOn_ways e) lo hi greedy a
  | .reference i, a => by
    rw [ways, leastTaken]
    exact .passGroup a i
  | .atomic e, a => by
    rw [ways, leastTaken]
    exact (leadOn_ways e a).take 1
  | .conditional c t f, a => by
    rw [ways, leastTaken]
    have hc := leadOn_ways c a
    split
    · next b hb =>
      exact fun d hd => ((hc b (List.mem_of_mem_head? hb)).trans (leadOn_ways t b d hd)).mono
        (Nat.min_le_left ..)
    · exact (leadOn_ways f a).mono (Nat.min_le_right ..)

theorem leadOn_waysThrough : ∀ (es : List Expr) (a : Arrival),
    LeadOn (leastThrough es) a (waysThrough letters start es a)
  | [], a => by
    rw [waysThrough, leastThrough]
    exact .stays a
  | e :: es, a => by
    rw [waysThrough, leastThrough]
    exact (leadOn_ways e a).flatMap (leadOn_waysThrough es)

theorem leadOn_waysOfAny : ∀ (es : List Expr) (a : Arrival),
    LeadOn (leastOfAny es) a (waysOfAny letters start es a)
  | [], a => by
    rw [waysOfAny]
    exact .nil
  | [e], a => by
    rw [waysOfAny, waysOfAny, List.append_nil, leastOfAny]
    exact leadOn_ways e a
  | e :: e' :: es, a => by
    rw [waysOfAny, leastOfAny]
    exact ((leadOn_ways e a).mono (Nat.min_le_left ..)).append
      ((leadOn_waysOfAny (e' :: es) a).mono (Nat.min_le_right ..))

end

end Expr

/-- **What a pattern matches is as long as its expression takes at least.** -/
theorem Parsed.onward_of_matchAt? {q : Parsed} (hq : q.expr.isSteady) {letters : Letters}
    {start : Nat} {here : Cursor} {m : Marks} (h : q.matchAt? letters start here = some m) :
    ∃ stop, m.group? 0 = some (⟨here, 0⟩, ⟨stop, 0⟩) ∧
      Onward q.expr.leastTaken here stop := by
  have halone := @ways_group letters q here 1 hq Nat.zero_lt_one start 0
  rw [h] at halone
  obtain ⟨_, _, -, hdecoded⟩ := halone
  obtain ⟨stop, hstop⟩ := hdecoded.alone
  obtain ⟨b, hb, rfl⟩ := Option.map_eq_some_iff.mp h
  have hend : Marks.place? (b.record 1).marks 1 = some ⟨stop, 0⟩ := by
    unfold Marks.group? at hstop
    obtain ⟨first, -, hlast⟩ := Option.bind_eq_some_iff.mp hstop
    obtain ⟨last, hlast, hpair⟩ := Option.bind_eq_some_iff.mp hlast
    rw [hlast, (Prod.mk.inj (Option.some.inj hpair)).2]
  obtain rfl : b.here = stop := by
    have hhere : some (⟨b.here, 0⟩ : Text.Place) = some ⟨stop, 0⟩ := hend
    cases hhere
    rfl
  exact ⟨b.here, hstop, Expr.leadOn_ways letters start q.expr _ b (List.mem_of_mem_head? hb)⟩

end CodeMarkup.Regex
