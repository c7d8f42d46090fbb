import CodeMarkup.Text.Letter

/-! # Small letters stay small

Writing a text in small letters once more changes nothing (`lowercase_lowercase`): the images of the
runs of capital letters lie in none of the runs, so no small letter has another one. -/

namespace CodeMarkup.Text

/-! ### Runs -/

namespace Shift

/-- The image of the first code point of a run. -/
def first (s : Shift) : Nat := ((s.lo : Int) + s.shift).toNat

/-- The image of the last code point of a run. -/
def last (s : Shift) : Nat := ((s.hi : Int) + s.shift).toNat

/-- Whether the images of a run lie before another one, behind it, or between its members. -/
def apart (s t : Shift) : Bool :=
  s.last < t.lo || t.hi < s.first ||
    (t.step == 2 && (s.step == 2 || s.lo == s.hi) && 0 < s.first && (s.first + t.lo) % 2 == 1)

theorem not_covers_of_apart {s t : Shift} (h : s.apart t) {n : Nat} (hn : s.covers n) :
    t.covers ((n : Int) + s.shift).toNat = false := by
  simp only [covers, Bool.and_eq_true, decide_eq_true_eq, beq_iff_eq] at hn
  obtain ⟨⟨hlo, hhi⟩, hstep⟩ := hn
  simp only [apart, Bool.or_eq_true, Bool.and_eq_true, decide_eq_true_eq, beq_iff_eq] at h
  unfold first last at h
  refine Bool.eq_false_iff.mpr fun ht => ?_
  simp only [covers, Bool.and_eq_true, decide_eq_true_eq, beq_iff_eq] at ht
  obtain ⟨⟨htlo, hthi⟩, htstep⟩ := ht
  rcases h with (h | h) | ⟨⟨⟨htwo, hs⟩, hpos⟩, hodd⟩
  · omega
  · omega
  · rw [htwo] at htstep
    rcases hs with hs | hs
    · rw [hs] at hstep
      omega
    · omega

/-- Runs whose images lie in none of them. -/
def Idle (runs : List Shift) : Prop := ∀ s ∈ runs, ∀ t ∈ runs, s.apart t

/-- What the runs move lies in none of them. -/
theorem Idle.image_of_covers {runs : List Shift} (h : Idle runs) {s : Shift} {n : Nat}
    (hs : runs.find? (·.covers n) = some s) :
    ∀ t ∈ runs, t.covers (image runs n) = false := by
  intro t ht
  have hcovers : s.covers n := by simpa using List.find?_some hs
  rw [image, hs]
  exact not_covers_of_apart (h s (List.mem_of_find?_eq_some hs) t ht) hcovers

theorem image_of_not_covers {runs : List Shift} {n : Nat} (h : ∀ t ∈ runs, t.covers n = false) :
    image runs n = n := by
  have hnone : runs.find? (·.covers n) = none :=
    List.find?_eq_none.mpr fun t ht => by
      rw [h t ht]
      exact Bool.false_ne_true
  rw [image, hnone]

theorem Idle.image_image {runs : List Shift} (h : Idle runs) (n : Nat) :
    image runs (image runs n) = image runs n := by
  cases hn : runs.find? (·.covers n) with
  | none =>
    have hi : image runs n = n := by rw [image, hn]
    rw [hi, hi]
  | some s => exact image_of_not_covers (h.image_of_covers hn)

/-- What lies in a run is moved. -/
theorem Idle.image_ne {runs : List Shift} (h : Idle runs) {n : Nat} {t : Shift} (ht : t ∈ runs)
    (hn : t.covers n) : image runs n ≠ n := by
  intro hi
  cases hs : runs.find? (·.covers n) with
  | none => exact List.find?_eq_none.mp hs t ht hn
  | some s =>
    have hnot := h.image_of_covers hs t ht
    rw [hi, hn] at hnot
    cases hnot

/-- What is no image of a run is only the image of itself. -/
theorem image_ne_of_forall {runs : List Shift} {m n : Nat}
    (h : ∀ s ∈ runs, s.last < m ∨ m < s.first) (hn : n ≠ m) : image runs n ≠ m := by
  unfold image
  split
  · next s hs =>
    have hcovers : s.covers n := by simpa using List.find?_some hs
    simp only [covers, Bool.and_eq_true, decide_eq_true_eq] at hcovers
    have hends := h s (List.mem_of_find?_eq_some hs)
    unfold first last at hends
    omega
  · exact hn

end Shift

/-! ### Letters -/

/-- What is to be known of the runs of capital letters: they are idle, the dotted capital I is no
image, the capital sigma and the capital letters from A to Z are moved, and the dot above and the
small sigmas are not. -/
theorem smallRuns_spec : Shift.Idle smallRuns ∧
    (∀ s ∈ smallRuns, s.last < 0x130 ∨ 0x130 < s.first) ∧
    (∀ n ∈ 'Σ'.toNat :: List.range' 'A'.toNat 26, ∃ t ∈ smallRuns, t.covers n) ∧
    ∀ n ∈ [0x307, 'ς'.toNat, 'σ'.toNat], ∀ t ∈ smallRuns, t.covers n = false := by
  unfold Shift.Idle smallRuns Shift.read writtenSmall
  simp only [String.toList_append]
  repeat rw [String.toList_ofList]
  decide +kernel

theorem idle_smallRuns : Shift.Idle smallRuns := smallRuns_spec.1

theorem image_smallRuns_ne {n : Nat} (h : n ∈ 'Σ'.toNat :: List.range' 'A'.toNat 26) :
    Shift.image smallRuns n ≠ n := by
  obtain ⟨t, ht, hn⟩ := smallRuns_spec.2.2.1 n h
  exact idle_smallRuns.image_ne ht hn

/-- Only the dotted capital I itself is left where it is there. -/
theorem image_smallRuns_ne_dotted {n : Nat} (h : n ≠ 0x130) : Shift.image smallRuns n ≠ 0x130 :=
  Shift.image_ne_of_forall smallRuns_spec.2.1 h

/-- A character that is its own small letter. -/
def IsSmall (c : Char) : Prop := c ≠ 'Σ' ∧ smallLetters c = [c]

theorem isSmall_toLower {c : Char} (h : c.toNat < 128) : IsSmall c.toLower := by
  have hall : ∀ n < 128, (Char.ofNat n).toLower ≠ 'Σ' ∧ (Char.ofNat n).toLower.toNat < 128 ∧
      (Char.ofNat n).toLower.toLower = (Char.ofNat n).toLower := by decide +kernel
  obtain ⟨hne, hlt, hlower⟩ := hall c.toNat h
  rw [Char.ofNat_toNat] at hne hlt hlower
  exact ⟨hne, by rw [smallLetters, if_pos hlt, hlower]⟩

/-- What the runs leave where it is, the dotted capital I apart, is small. -/
theorem isSmall_ofNat {n : Nat} (h : Shift.image smallRuns n = n) (hn : n ≠ 0x130) :
    IsSmall (Char.ofNat n) := by
  by_cases hv : n.isValidChar
  · have hc : (Char.ofNat n).toNat = n := by
      rw [Char.ofNat, dif_pos hv]
      rfl
    have hmoved : n ∉ 'Σ'.toNat :: List.range' 'A'.toNat 26 := fun hm => image_smallRuns_ne hm h
    constructor
    · intro he
      rw [← hc, he] at hmoved
      exact hmoved List.mem_cons_self
    · unfold smallLetters
      rw [hc, h, if_neg hn]
      split
      · have hlow : ∀ m < 128, m ∉ 'Σ'.toNat :: List.range' 'A'.toNat 26 →
            (Char.ofNat m).toLower = Char.ofNat m := by decide +kernel
        rw [hlow n ‹_› hmoved]
      · rfl
  · have hc : Char.ofNat n = '\x00' := by rw [Char.ofNat, dif_neg hv]; rfl
    rw [hc]
    exact ⟨by decide, by decide⟩

theorem isSmall_of_not_moved {n : Nat} (h : n ∈ [0x307, 'ς'.toNat, 'σ'.toNat]) :
    IsSmall (Char.ofNat n) := by
  refine isSmall_ofNat (Shift.image_of_not_covers (smallRuns_spec.2.2.2 n h)) ?_
  rintro rfl
  exact absurd h (by decide)

/-- The small letters of a character are small. -/
theorem isSmall_of_mem_smallLetters {c d : Char} (h : d ∈ smallLetters c) : IsSmall d := by
  unfold smallLetters at h
  split at h
  · next hlt =>
    rw [List.mem_singleton.mp h]
    exact isSmall_toLower hlt
  · split at h
    · rcases List.mem_cons.mp h with rfl | h
      · have hi : IsSmall ('i').toLower := isSmall_toLower (by decide)
        rwa [show ('i').toLower = 'i' from rfl] at hi
      · rw [List.mem_singleton.mp h]
        exact isSmall_of_not_moved List.mem_cons_self
    · next hne =>
      rw [List.mem_singleton.mp h]
      exact isSmall_ofNat (idle_smallRuns.image_image c.toNat) (image_smallRuns_ne_dotted hne)

/-! ### Texts -/

theorem isSmall_of_mem_lowercaseAfter : ∀ {before cs : List Char} {d : Char},
    d ∈ lowercaseAfter before cs → IsSmall d
  | _, [], _, h => by cases h
  | before, c :: cs, d, h => by
    have hsigma : IsSmall 'ς' ∧ IsSmall 'σ' := by
      have hmoved : ∀ c : Char, c.toNat ∈ [0x307, 'ς'.toNat, 'σ'.toNat] → IsSmall c := by
        intro c hc
        rw [← Char.ofNat_toNat c]
        exact isSmall_of_not_moved hc
      exact ⟨hmoved _ (by decide), hmoved _ (by decide)⟩
    rw [lowercaseAfter, List.mem_append] at h
    rcases h with h | h
    · split at h
      · split at h
        · rw [List.mem_singleton.mp h]
          exact hsigma.1
        · rw [List.mem_singleton.mp h]
          exact hsigma.2
      · exact isSmall_of_mem_smallLetters h
    · exact isSmall_of_mem_lowercaseAfter h

theorem lowercaseAfter_of_isSmall : ∀ {before cs : List Char}, (∀ c ∈ cs, IsSmall c) →
    lowercaseAfter before cs = cs
  | _, [], _ => rfl
  | before, c :: cs, h => by
    obtain ⟨hne, hsmall⟩ := h c List.mem_cons_self
    rw [lowercaseAfter, if_neg hne, hsmall,
      lowercaseAfter_of_isSmall fun d hd => h d (List.mem_cons_of_mem _ hd)]
    rfl

/-- **A text in small letters stays as it is when it is written in small letters.** -/
theorem lowercase_lowercase (s : String) : lowercase (lowercase s) = lowercase s := by
  unfold lowercase
  rw [String.toList_ofList, lowercaseAfter_of_isSmall fun _ => isSmall_of_mem_lowercaseAfter]

end CodeMarkup.Text
