import CodeMarkup.Proofs.Text.Small
import Mathlib

/-! # Small letters and bars

A text may be cut at a bar before or after it is written in small letters
(`lowercaseAfter_append_bar`): a bar is the small letter of itself only, has no case, and is not
passed over in looking for a letter that has, so that it decides as the end of a text does whether a
sigma is a final one. That it is neither cased nor ignorable is read off the front of the written
table of categories (`memCode_append`), since no later entry says anything of it.

Blanks, digits and the plus sign are the small letters of themselves only as well, so a text whose
small letters have nothing else in them is in small letters already
(`lowercaseAfter_of_unmoved`). -/

namespace CodeMarkup.Text

/-! ### The front of a table -/

namespace RangeTable

variable {α : Type} {valueOf : List Char → α} {p : α → Bool} {n : ℕ}

/-- The state of having read a written table. -/
def readings (valueOf : List Char → α) (written : String) : Reading α :=
  written.toList.foldl (Reading.push valueOf) ⟨0, 0, [], []⟩

/-- Reading on adds entries that start where the last one has ended, or behind. -/
theorem exists_later (cs : List Char) (r : Reading α) :
    ∃ later, (cs.foldl (Reading.push valueOf) r).entries = later ++ r.entries ∧
      (∀ e ∈ later, r.start ≤ e.1) ∧ r.start ≤ (cs.foldl (Reading.push valueOf) r).start := by
  induction cs generalizing r with
  | nil => exact ⟨[], rfl, nofun, le_rfl⟩
  | cons c cs ih =>
    have hpush : ∃ one, (r.push valueOf c).entries = one ++ r.entries ∧
        (∀ e ∈ one, r.start ≤ e.1) ∧ r.start ≤ (r.push valueOf c).start := by
      unfold Reading.push
      split
      · exact ⟨[(r.start, valueOf r.code.reverse)], rfl, by simp, Nat.le_add_right _ _⟩
      · split
        · exact ⟨[], rfl, nofun, le_rfl⟩
        · exact ⟨[], rfl, nofun, le_rfl⟩
    obtain ⟨one, hone, hstarts, hle⟩ := hpush
    obtain ⟨later, hentries, hlater, hstart⟩ := ih (r.push valueOf c)
    refine ⟨later ++ one, ?_, ?_, hle.trans hstart⟩
    · rw [List.foldl_cons, hentries, hone, List.append_assoc]
    · exact List.forall_mem_append.mpr ⟨fun e he => hle.trans (hlater e he), hstarts⟩

/-- Of a kind of value nothing begins or ceases before the first entry. -/
theorem lt_of_mem_changes {later : List (ℕ × α)} (hn : n < 0x110000) (hlater : ∀ e ∈ later, n < e.1)
    {i : Bool} : ∀ b ∈ changes p i later, n < b := by
  induction later generalizing i with
  | nil =>
    cases i with
    | true => exact fun b hb => List.mem_singleton.mp hb ▸ hn
    | false => nofun
  | cons e later ih =>
    obtain ⟨he, hlater⟩ := List.forall_mem_cons.mp hlater
    rw [changes]
    split
    · exact ih hlater
    · exact List.forall_mem_cons.mpr ⟨he, ih hlater⟩

theorem mem_of_mem_ascendingFrom {bs : List ℕ} {k b : ℕ} (h : b ∈ CharSet.ascendingFrom k bs) :
    b ∈ bs := by
  induction bs generalizing k with
  | nil => exact h
  | cons c bs ih =>
    rw [CharSet.ascendingFrom] at h
    split at h
    · rcases List.mem_cons.mp h with rfl | h
      · exact List.mem_cons_self
      · exact List.mem_cons_of_mem c (ih h)
    · exact List.mem_cons_of_mem c (ih h)

/-- Whether a code point is inside is decided by the entries that start before it. -/
theorem inside_changes (hn : n < 0x110000) {later : List (ℕ × α)} (hlater : ∀ e ∈ later, n < e.1)
    (es : List (ℕ × α)) (i j : Bool) (k : ℕ) :
    CharSet.inside i (CharSet.ascendingFrom k (changes p j (es ++ later))) n =
      CharSet.inside i (CharSet.ascendingFrom k (changes p j es)) n := by
  induction es generalizing i j k with
  | nil =>
    rw [List.nil_append,
      CharSet.inside_of_lt fun b hb =>
        lt_of_mem_changes hn hlater b (mem_of_mem_ascendingFrom hb),
      CharSet.inside_of_lt fun b hb => lt_of_mem_changes hn (List.forall_mem_nil _) b
        (mem_of_mem_ascendingFrom hb)]
  | cons e es ih =>
    rw [List.cons_append, changes, changes]
    split
    · exact ih i j k
    · rw [CharSet.ascendingFrom, CharSet.ascendingFrom]
      split
      · rw [CharSet.inside, CharSet.inside, ih]
      · exact ih i _ k

/-- A code point that a written table has come to, and that is of no value of a kind there. -/
def Lacks (valueOf : List Char → α) (p : α → Bool) (n : ℕ) (written : String) : Prop :=
  n < (readings valueOf written).start ∧
    ((read valueOf written).setWhere p).memCode n = false

/-- What is written behind says nothing of it. -/
theorem Lacks.append (hn : n < 0x110000) {front : String} (h : Lacks valueOf p n front)
    (back : String) : Lacks valueOf p n (front ++ back) := by
  have hread : readings valueOf (front ++ back) =
      back.toList.foldl (Reading.push valueOf) (readings valueOf front) := by
    rw [readings, String.toList_append, List.foldl_append]
    rfl
  obtain ⟨later, hentries, hlater, hstart⟩ :=
    @exists_later α valueOf back.toList (readings valueOf front)
  rw [← hread] at hentries hstart
  refine ⟨h.1.trans_le hstart, ?_⟩
  have hmem := h.2
  change CharSet.inside false (CharSet.ascendingFrom 0 (changes p false
    (readings valueOf front).entries.reverse)) n = false at hmem
  change CharSet.inside false (CharSet.ascendingFrom 0 (changes p false
    (readings valueOf (front ++ back)).entries.reverse)) n = false
  rw [hentries, List.reverse_append, inside_changes hn, hmem]
  intro e he
  exact h.1.trans_le (hlater e (List.mem_reverse.mp he))

end RangeTable

/-- The categories of characters with a case, and of those that are passed over. -/
def casing : List (List Category) :=
  [[.lowercaseLetter], [.uppercaseLetter], [.titlecaseLetter],
    [.nonspacingMark, .enclosingMark, .format, .modifierLetter, .modifierSymbol]]

/-- The table of categories gives a bar none of these, which its first two lines show. -/
theorem lacks_bar {kinds : List Category} (h : kinds ∈ casing) :
    RangeTable.Lacks Category.ofCode (List.contains kinds) '|'.toNat Category.written := by
  have hbar : '|'.toNat < 0x110000 := by decide +kernel
  unfold Category.written
  -- all lines but the first two
  iterate 190 refine RangeTable.Lacks.append hbar ?_ _
  unfold RangeTable.Lacks RangeTable.readings RangeTable.read
  rw [String.toList_append]
  repeat rw [String.toList_ofList]
  revert kinds
  decide +kernel

/-- A bar is neither ignorable nor cased. -/
theorem bar_not_mem : ignorableSet.mem '|' = false ∧ casedSet.mem '|' = false := by
  have hwritten : ∀ s ∈ [Trait.insideWords, addedIgnorable, addedCased, Trait.otherLowercase,
      Trait.otherUppercase], s.mem '|' = false := by
    unfold Trait.insideWords addedIgnorable addedCased Trait.otherLowercase Trait.otherUppercase
      CharSet.read
    simp only [String.toList_append]
    repeat rw [String.toList_ofList]
    decide +kernel
  have hcategories : ∀ kinds ∈ casing, (ofCategories kinds).mem '|' = false :=
    fun kinds h => (lacks_bar h).2
  simp only [List.forall_mem_cons, casing] at hwritten hcategories
  obtain ⟨hinside, hignorable, hcased, hlower, hupper, -⟩ := hwritten
  obtain ⟨hll, hlu, hlt, hmarks, -⟩ := hcategories
  have hunion : ∀ s t : CharSet, (s.union t).mem '|' = (s.mem '|' || t.mem '|') :=
    fun s t => CharSet.memCode_union s t _
  constructor
  · rw [ignorableSet, Trait.caseIgnorable, hunion, hunion, hmarks, hinside, hignorable]
    rfl
  · have hdiff : ∀ s t : CharSet, (s.diff t).mem '|' = (s.mem '|' && !t.mem '|') :=
      fun s t => CharSet.memCode_diff s t _
    have hempty : CharSet.empty.mem '|' = false := rfl
    simp only [casedSet, Trait.cased, Trait.lowercase, Trait.uppercase, CharSet.unions,
      List.foldl_cons, List.foldl_nil, hdiff, hunion, hempty, hll, hlu, hlt, hlower, hupper,
      hcased, Bool.or_self, Bool.false_and]

/-! ### Characters that are the small letters of themselves only -/

/-- Ranges of such code points: the blanks, the plus sign, the digits and the bar. -/
def unmoved : List (ℕ × ℕ) :=
  [(9, 13), (32, 32), (43, 43), (48, 57), (124, 124), (0x85, 0x85), (0xa0, 0xa0),
    (0x1680, 0x1680), (0x2000, 0x200a), (0x2028, 0x2029), (0x202f, 0x202f), (0x205f, 0x205f),
    (0x3000, 0x3000)]

/-- A character in one of the ranges. -/
def IsUnmoved (c : Char) : Prop := ∃ r ∈ unmoved, r.1 ≤ c.toNat ∧ c.toNat ≤ r.2

instance (c : Char) : Decidable (IsUnmoved c) :=
  inferInstanceAs (Decidable (∃ r ∈ unmoved, r.1 ≤ c.toNat ∧ c.toNat ≤ r.2))

theorem isUnmoved_of_isBlank {c : Char} (h : isBlank c) : IsUnmoved c := by
  simp only [isBlank, Bool.or_eq_true, Bool.and_eq_true, decide_eq_true_eq, beq_iff_eq] at h
  simp only [IsUnmoved, unmoved, List.exists_mem_cons_iff, List.not_mem_nil, false_and,
    exists_false, or_false]
  omega

theorem isUnmoved_of_isDigit {c : Char} (h : c.isDigit) : IsUnmoved c := by
  obtain ⟨hlo, hhi⟩ := Bool.and_eq_true_iff.mp h
  refine ⟨(48, 57), by decide, ?_, ?_⟩
  · exact UInt32.le_iff_toNat_le.mp (of_decide_eq_true hlo)
  · exact UInt32.le_iff_toNat_le.mp (of_decide_eq_true hhi)

/-- The images of the runs of capital letters lie in none of the ranges. -/
theorem unmoved_smallRuns : ∀ r ∈ unmoved, ∀ s ∈ smallRuns, s.last < r.1 ∨ r.2 < s.first := by
  unfold smallRuns Shift.read writtenSmall
  simp only [String.toList_append]
  repeat rw [String.toList_ofList]
  decide +kernel

theorem eq_of_mem_smallLetters {c d : Char} (hd : IsUnmoved d) (h : d ∈ smallLetters c) :
    d = c := by
  unfold smallLetters at h
  split at h
  · next hlt =>
    have hall : ∀ n < 128, IsUnmoved (Char.ofNat n).toLower →
        (Char.ofNat n).toLower = Char.ofNat n := by decide +kernel
    have hc := hall c.toNat hlt
    rw [Char.ofNat_toNat] at hc
    rw [List.mem_singleton.mp h] at hd ⊢
    exact hc hd
  · split at h
    · rcases List.mem_cons.mp h with rfl | h
      · exact absurd hd (by decide +kernel)
      · exact absurd (List.mem_singleton.mp h ▸ hd) (by decide +kernel)
    · rw [List.mem_singleton] at h
      by_cases hv : (Shift.image smallRuns c.toNat).isValidChar
      · have hdn : d.toNat = Shift.image smallRuns c.toNat := by
          rw [h, Char.toNat_ofNat, if_pos hv]
        obtain ⟨r, hr, hlo, hhi⟩ := hd
        have himage : c.toNat = d.toNat := by
          by_contra hne
          refine Shift.image_ne_of_forall (fun s hs => ?_) hne hdn.symm
          exact (unmoved_smallRuns r hr s hs).imp (fun hlt => by omega) (fun hlt => by omega)
        rw [← Char.ofNat_toNat d, ← himage, Char.ofNat_toNat]
      · have hzero : d = '\x00' := by
          rw [h, Char.ofNat, dif_neg hv]
          rfl
        exact absurd (hzero ▸ hd) (by decide +kernel)

/-- A sigma is in none of the ranges. -/
theorem not_isUnmoved_sigma : ¬ IsUnmoved 'σ' ∧ ¬ IsUnmoved 'ς' := by decide +kernel

/-- What small letters have of these characters the text has had. -/
theorem mem_of_mem_lowercaseAfter {d : Char} (hd : IsUnmoved d) : ∀ {before cs : List Char},
    d ∈ lowercaseAfter before cs → d ∈ cs
  | _, [], h => h
  | before, c :: cs, h => by
    rw [lowercaseAfter, List.mem_append] at h
    rcases h with h | h
    · refine List.mem_cons.mpr (.inl ?_)
      split at h
      · split at h
        · exact absurd (List.mem_singleton.mp h ▸ hd) not_isUnmoved_sigma.2
        · exact absurd (List.mem_singleton.mp h ▸ hd) not_isUnmoved_sigma.1
      · exact eq_of_mem_smallLetters hd h
    · exact List.mem_cons_of_mem c (mem_of_mem_lowercaseAfter hd h)

theorem smallLetters_of_unmoved {c : Char} (h : ∀ d ∈ smallLetters c, IsUnmoved d) :
    smallLetters c = [c] := by
  have hmem : ∀ d ∈ smallLetters c, d = c := fun d hd => eq_of_mem_smallLetters (h d hd) hd
  unfold smallLetters at hmem ⊢
  split
  · next hlt =>
    rw [if_pos hlt] at hmem
    rw [hmem _ List.mem_cons_self]
  · next hlt =>
    rw [if_neg hlt] at hmem
    split
    · next hdotted =>
      rw [if_pos hdotted] at hmem
      exact absurd ((hmem 'i' (by decide)).trans (hmem (Char.ofNat 0x307) (by simp)).symm)
        (by decide)
    · next hdotted =>
      rw [if_neg hdotted] at hmem
      rw [hmem _ List.mem_cons_self]

/-- Where there are no other characters in small letters, nothing has changed. -/
theorem lowercaseAfter_of_unmoved : ∀ {before cs : List Char},
    (∀ d ∈ lowercaseAfter before cs, IsUnmoved d) → lowercaseAfter before cs = cs
  | _, [], _ => rfl
  | before, c :: cs, h => by
    rw [lowercaseAfter, List.forall_mem_append] at h
    obtain ⟨hc, hcs⟩ := h
    rw [lowercaseAfter, lowercaseAfter_of_unmoved hcs]
    split at hc
    · split at hc
      · exact absurd (hc _ List.mem_cons_self) not_isUnmoved_sigma.2
      · exact absurd (hc _ List.mem_cons_self) not_isUnmoved_sigma.1
    · next hne =>
      rw [if_neg hne, smallLetters_of_unmoved hc, List.singleton_append]

/-! ### Bars -/

/-- A bar decides as the end of the text. -/
theorem meetsCased_append_bar (cs after : List Char) :
    meetsCased (cs ++ '|' :: after) = meetsCased cs := by
  unfold meetsCased
  induction cs with
  | nil =>
    rw [List.nil_append, List.dropWhile_cons, bar_not_mem.1, if_neg Bool.false_ne_true]
    exact bar_not_mem.2
  | cons c cs ih =>
    rw [List.cons_append, List.dropWhile_cons, List.dropWhile_cons]
    by_cases hc : ignorableSet.mem c = true
    · rw [if_pos hc, if_pos hc]
      exact ih
    · rw [if_neg hc, if_neg hc]

/-- **A text may be cut at a bar** before or after it is written in small letters. -/
theorem lowercaseAfter_append_bar (cs after : List Char) : ∀ before : List Char,
    ∃ behind, lowercaseAfter before (cs ++ '|' :: after) =
      lowercaseAfter before cs ++ '|' :: lowercaseAfter behind after := by
  induction cs with
  | nil => exact fun before => ⟨'|' :: before, rfl⟩
  | cons c cs ih =>
    intro before
    obtain ⟨behind, hcut⟩ := ih (c :: before)
    refine ⟨behind, ?_⟩
    rw [List.cons_append, lowercaseAfter, meetsCased_append_bar, hcut, lowercaseAfter,
      List.append_assoc]

/-- Only a bar becomes one. -/
theorem bar_not_mem_lowercaseAfter {before cs : List Char} (h : '|' ∉ cs) :
    '|' ∉ lowercaseAfter before cs :=
  fun hm => h (mem_of_mem_lowercaseAfter (by decide +kernel) hm)

end CodeMarkup.Text
