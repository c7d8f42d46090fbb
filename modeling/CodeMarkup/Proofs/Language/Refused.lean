import CodeMarkup.Proofs.Language.Ahead
import CodeMarkup.Proofs.Language.Registered

/-! # Refused matches

When matches are refused, what is come upon is what the rules match, place by place and at each
place rule by rule: none is left out and none comes twice (`Matcher.seek_enumerates`). This is so as
long as a rule that is joined with others is found where it matches alone, as plain rules are
(`Matcher.Joins.searchesAlone`). A rule whose references have got wrong numbers in the joining is
not found (`Matcher.seek_misses_misnumbered`). -/

namespace CodeMarkup

open Text (byteSize)

/-! ### The order of matches -/

/-- One match comes before another one: at an earlier place, or at the same place by an earlier
rule. -/
def Found.Before (f g : Found) : Prop :=
  f.index < g.index ∨ f.index = g.index ∧ f.position < g.position

theorem Found.Before.irrefl (f : Found) : ¬ f.Before f := by
  unfold Before
  omega

theorem Found.Before.asymm {f g : Found} (h : f.Before g) : ¬ g.Before f := by
  unfold Before at *
  omega

/-! ### Places and rules -/

theorem pairwise_placesFrom : ∀ (n : Nat) (cs : List Char), (placesFrom n cs).Pairwise (· < ·)
  | _, [] => List.pairwise_singleton _ _
  | n, c :: cs => by
    rw [placesFrom]
    refine List.pairwise_cons.mpr ⟨fun o ho => ?_, pairwise_placesFrom (n + c.utf8Size) cs⟩
    exact Nat.lt_of_lt_of_le (Nat.lt_add_of_pos_right c.utf8Size_pos) (le_of_mem_placesFrom ho)

/-- The places from an offset on are behind the first characters. -/
theorem mem_placesFrom_iff {o : Nat} : ∀ {cs : List Char} {n : Nat},
    o ∈ placesFrom n cs ↔ ∃ passed left, cs = passed ++ left ∧ o = n + byteSize passed
  | [], n => by
    rw [placesFrom, List.mem_singleton]
    constructor
    · rintro rfl
      exact ⟨[], [], rfl, rfl⟩
    · rintro ⟨passed, left, hnil, rfl⟩
      obtain ⟨rfl, -⟩ := List.append_eq_nil_iff.mp hnil.symm
      rfl
  | c :: cs, n => by
    rw [placesFrom, List.mem_cons, mem_placesFrom_iff]
    constructor
    · rintro (rfl | ⟨passed, left, rfl, rfl⟩)
      · exact ⟨[], c :: cs, rfl, rfl⟩
      · exact ⟨c :: passed, left, rfl, by rw [Text.byteSize_cons, Nat.add_assoc]⟩
    · rintro ⟨passed, left, hcs, rfl⟩
      rcases List.cons_eq_append_iff.mp hcs with ⟨rfl, -⟩ | ⟨passed, rfl, rfl⟩
      · exact Or.inl rfl
      · exact Or.inr ⟨passed, left, rfl, by rw [Text.byteSize_cons, Nat.add_assoc]⟩

/-- The places of a text from one of them on. -/
theorem mem_placesFrom_byteSize {before after : List Char} {o : Nat} :
    o ∈ placesFrom (byteSize before) after ↔
      Text.IsPlace (before ++ after) o ∧ byteSize before ≤ o := by
  refine ⟨fun ho => ⟨isPlace_of_mem_placesFrom ho, le_of_mem_placesFrom ho⟩, ?_⟩
  rintro ⟨⟨passed, left, htext, rfl⟩, hle⟩
  rw [mem_placesFrom_iff]
  rcases List.append_eq_append_iff.mp htext with ⟨part, rfl, rfl⟩ | ⟨part, rfl, rfl⟩
  · exact ⟨part, left, rfl, Text.byteSize_append before part⟩
  · rw [Text.byteSize_append] at hle
    have hpart : byteSize part = 0 := by omega
    obtain rfl := Text.byteSize_eq_zero hpart
    exact ⟨[], after, rfl, by simp⟩

namespace Rule

variable {ρ : Type} [Engine ρ] {foldCase : Bool} {text : List Char} {offset : Nat}

/-- At one place the rules match in their order. -/
theorem pairwise_allAt : ∀ (rs : List Rule) (position : Nat),
    (allAt ρ foldCase text offset position rs).Pairwise Found.Before
  | [], _ => List.Pairwise.nil
  | r :: rs, position => by
    rw [allAt]
    refine List.pairwise_append.mpr ⟨?_, pairwise_allAt rs (position + 1), fun f hf g hg => ?_⟩
    · cases r.matchAt? ρ foldCase text offset position with
      | none => exact List.Pairwise.nil
      | some found => exact List.pairwise_singleton _ _
    · obtain ⟨hfindex, hfposition, -⟩ := of_matchAt? (Option.mem_toList.mp hf)
      obtain ⟨k, r', -, hr'⟩ := mem_allAt_iff.mp hg
      obtain ⟨hgindex, hgposition, -⟩ := of_matchAt? hr'
      exact Or.inr ⟨hfindex.trans hgindex.symm, by omega⟩

end Rule

/-! ### What is ahead, in order -/

namespace Matcher

variable {ρ : Type} [Engine ρ] {m : Matcher ρ} {text : List Char} {offset first : Nat}

/-- What a rule matches, alone, at an offset or behind it; at the offset itself it is one of the
rules from one of them on. -/
structure Offers (m : Matcher ρ) (text : List Char) (offset first : Nat) (found : Found) :
    Prop where
  place : Text.IsPlace text found.index
  onward : offset < found.index ∨ offset = found.index ∧ first ≤ found.position
  rule : ∃ r, m.rules[found.position]? = some r ∧
    r.matchAt? ρ m.foldCase text found.index found.position = some found

/-- What is ahead at a place of the text, place by place. -/
theorem ahead_eq_append (before after : List Char) :
    ∃ later, placesFrom (byteSize before) after = byteSize before :: later ∧
      m.ahead (before ++ after) (byteSize before) first =
        Rule.allAt ρ m.foldCase (before ++ after) (byteSize before) first (m.rules.drop first) ++
          later.flatMap fun o => Rule.allAt ρ m.foldCase (before ++ after) o 0 m.rules := by
  refine ⟨(placesFrom (byteSize before) after).tail, ?_, ?_⟩
  · cases after <;> rfl
  · rw [ahead, Text.splitAt?_byteSize]

/-- **What is ahead is what the rules match**, each alone. -/
theorem mem_ahead_iff (hoffset : Text.IsPlace text offset ∨ byteSize text < offset)
    {found : Found} : found ∈ m.ahead text offset first ↔ m.Offers text offset first found := by
  rcases hoffset with ⟨before, after, rfl, rfl⟩ | hlt
  · obtain ⟨later, hplaces, hahead⟩ := @ahead_eq_append ρ _ m first before after
    have hsorted := List.pairwise_cons.mp (hplaces ▸ pairwise_placesFrom (byteSize before) after)
    -- at the offset itself the rules from the first one on count, further on all of them
    rw [hahead, List.mem_append, List.mem_flatMap, Rule.mem_allAt_iff]
    constructor
    · rintro (⟨k, r, hk, hr⟩ | ⟨o, ho, hfound⟩)
      · obtain ⟨hindex, hposition, -⟩ := Rule.of_matchAt? hr
        rw [List.getElem?_drop, ← hposition] at hk
        refine ⟨hindex ▸ ⟨before, after, rfl, rfl⟩, Or.inr ⟨hindex.symm, by omega⟩, r, hk, ?_⟩
        rwa [hindex, hposition]
      · obtain ⟨k, r, hk, hr⟩ := Rule.mem_allAt_iff.mp hfound
        obtain ⟨hindex, hposition, -⟩ := Rule.of_matchAt? hr
        have hmem : o ∈ placesFrom (byteSize before) after := by
          rw [hplaces]
          exact List.mem_cons_of_mem _ ho
        rw [Nat.zero_add] at hposition
        refine ⟨hindex ▸ isPlace_of_mem_placesFrom hmem, Or.inl (hindex ▸ hsorted.1 o ho), r,
          hposition ▸ hk, ?_⟩
        rwa [hindex, hposition, ← Nat.zero_add k]
    · rintro ⟨hplace, honward, r, hk, hr⟩
      rcases honward with hlt | ⟨hindex, hle⟩
      · right
        have hmem := mem_placesFrom_byteSize.mpr ⟨hplace, hlt.le⟩
        rw [hplaces, List.mem_cons] at hmem
        refine ⟨found.index, hmem.resolve_left hlt.ne', Rule.mem_allAt_iff.mpr ?_⟩
        exact ⟨found.position, r, hk, by rwa [Nat.zero_add]⟩
      · refine Or.inl ⟨found.position - first, r, ?_, ?_⟩
        · rwa [List.getElem?_drop, Nat.add_sub_cancel' hle]
        · rwa [hindex, Nat.add_sub_cancel' hle]
  · rw [ahead_of_lt m text hlt]
    refine ⟨fun h => absurd h List.not_mem_nil, fun h => ?_⟩
    have hle := h.place.le
    have honward := h.onward
    omega

/-- What is ahead stands in the order of places and of rules. -/
theorem pairwise_ahead (m : Matcher ρ) (text : List Char) (offset first : Nat) :
    (m.ahead text offset first).Pairwise Found.Before := by
  cases hs : Text.splitAt? text offset with
  | none =>
    rw [ahead, hs]
    exact List.Pairwise.nil
  | some parts =>
    obtain rfl := Text.byteSize_of_splitAt? hs
    obtain rfl := Text.append_of_splitAt? hs
    obtain ⟨later, hplaces, hahead⟩ := @ahead_eq_append ρ _ m first parts.1 parts.2
    have hsorted := List.pairwise_cons.mp (hplaces ▸ pairwise_placesFrom (byteSize parts.1) parts.2)
    have hindex : ∀ {o position : Nat} {rs : List Rule} {f : Found},
        f ∈ Rule.allAt ρ m.foldCase (parts.1 ++ parts.2) o position rs → f.index = o := by
      intro o position rs f hf
      obtain ⟨k, r, -, hr⟩ := Rule.mem_allAt_iff.mp hf
      exact (Rule.of_matchAt? hr).1
    rw [hahead]
    refine List.pairwise_append.mpr ⟨Rule.pairwise_allAt _ _, ?_, fun f hf g hg => Or.inl ?_⟩
    · refine List.pairwise_flatMap.mpr ⟨fun o _ => Rule.pairwise_allAt _ _, ?_⟩
      refine hsorted.2.imp fun hlt f hf g hg => Or.inl ?_
      rwa [hindex hf, hindex hg]
    · obtain ⟨o, ho, hg⟩ := List.mem_flatMap.mp hg
      rw [hindex hf, hindex hg]
      exact hsorted.1 o ho

/-! ### Refusing -/

/-- What is come upon when matches are refused one after the other: all matches up to the first one
that is not refused, and that one. Behind a match that is refused, the rules behind its own are gone
on with at the same place, or all rules from the next character on if there are none. -/
def seek (m : Matcher ρ) (text : List Char) (refused : Found → Bool) :
    Nat → (offset first : Nat) → Except Problem (List Found × Option Found)
  | 0, _, _ => .error .unfinished
  | steps + 1, offset, first =>
    match m.find first text offset with
    | .error p => .error p
    | .ok none => .ok ([], none)
    | .ok (some (found, after)) =>
      if refused found then
        (seek m text refused steps
          (if after = 0 then (Text.nextPlace? text found.index).getD (found.index + 1)
            else found.index) after).map fun come => (found :: come.1, come.2)
      else .ok ([found], some found)

end Matcher

/-- The first of some matches up to the first one that is not refused, with that one. -/
def uptoAdmitted (refused : Found → Bool) : List Found → List Found
  | [] => []
  | f :: fs => if refused f then f :: uptoAdmitted refused fs else [f]

theorem mem_uptoAdmitted_iff {refused : Found → Bool} {found : Found} : ∀ {fs : List Found},
    fs.Pairwise Found.Before → (found ∈ uptoAdmitted refused fs ↔
      found ∈ fs ∧ ∀ g ∈ fs, g.Before found → refused g = true)
  | [], _ => by simp [uptoAdmitted]
  | f :: fs, h => by
    obtain ⟨hbefore, hrest⟩ := List.pairwise_cons.mp h
    have hfirst : ∀ g ∈ f :: fs, ¬ g.Before f :=
      List.forall_mem_cons.mpr ⟨Found.Before.irrefl f, fun g hg => (hbefore g hg).asymm⟩
    rw [uptoAdmitted, List.mem_cons (b := f)]
    split
    · next hrefused =>
      rw [List.mem_cons, mem_uptoAdmitted_iff hrest]
      constructor
      · rintro (rfl | ⟨hmem, hall⟩)
        · exact ⟨Or.inl rfl, fun g hg hlt => absurd hlt (hfirst g hg)⟩
        · exact ⟨Or.inr hmem, List.forall_mem_cons.mpr ⟨fun _ => hrefused, hall⟩⟩
      · rintro ⟨rfl | hmem, hall⟩
        · exact Or.inl rfl
        · exact Or.inr ⟨hmem, (List.forall_mem_cons.mp hall).2⟩
    · next hadmitted =>
      rw [List.mem_singleton]
      constructor
      · rintro rfl
        exact ⟨Or.inl rfl, fun g hg hlt => absurd hlt (hfirst g hg)⟩
      · rintro ⟨rfl | hmem, hall⟩
        · rfl
        · exact absurd (hall f List.mem_cons_self (hbefore found hmem)) hadmitted

theorem uptoAdmitted_sublist (refused : Found → Bool) :
    ∀ fs : List Found, (uptoAdmitted refused fs).Sublist fs
  | [] => List.Sublist.refl []
  | f :: fs => by
    rw [uptoAdmitted]
    split
    · exact (uptoAdmitted_sublist refused fs).cons_cons f
    · exact List.singleton_sublist.mpr List.mem_cons_self

/-- The match that is admitted is the last that is come upon. -/
theorem find?_eq_some_iff_uptoAdmitted {refused : Found → Bool} {found : Found} :
    ∀ {fs : List Found}, fs.find? (!refused ·) = some found ↔
      found ∈ uptoAdmitted refused fs ∧ refused found = false
  | [] => by simp [uptoAdmitted]
  | f :: fs => by
    rw [uptoAdmitted, List.find?_cons]
    cases hf : refused f with
    | false =>
      simp only [Bool.not_false, Option.some.injEq, Bool.false_eq_true, if_false,
        List.mem_singleton]
      constructor
      · rintro rfl
        exact ⟨rfl, hf⟩
      · exact fun h => h.1.symm
    | true =>
      simp only [Bool.not_true, if_true, List.mem_cons]
      rw [find?_eq_some_iff_uptoAdmitted]
      constructor
      · exact fun h => ⟨Or.inr h.1, h.2⟩
      · rintro ⟨rfl | hmem, hadmitted⟩
        · rw [hf] at hadmitted
          cases hadmitted
        · exact ⟨hmem, hadmitted⟩

namespace Matcher

variable {ρ : Type} [Engine ρ] {m : Matcher ρ} {text : List Char}

theorem behind_fst (m : Matcher ρ) (text : List Char) (found : Found) :
    (m.behind text found).1 = if m.ruleAfter found = 0 then
      (Text.nextPlace? text found.index).getD (found.index + 1) else found.index := by
  unfold behind
  split <;> rfl

theorem behind_snd (m : Matcher ρ) (text : List Char) (found : Found) :
    (m.behind text found).2 = m.ruleAfter found := by
  unfold behind
  split
  · next hzero => exact hzero.symm
  · rfl

/-- Behind a match is a place of the text, or the end. -/
theorem isPlace_behind {offset first : Nat} {found : Found}
    (h : found ∈ m.ahead text offset first) :
    Text.IsPlace text (m.behind text found).1 ∨ byteSize text < (m.behind text found).1 := by
  have hplace := (isAhead_of_mem h).place
  unfold behind
  split
  · cases hnext : Text.nextPlace? text found.index with
    | some next =>
      obtain ⟨-, c, hc⟩ := Text.nextPlace?_eq_some hnext
      exact Or.inl (Text.isPlace_right hc)
    | none =>
      obtain ⟨before, after, rfl, hbefore⟩ := hplace
      cases after with
      | nil =>
        right
        rw [List.append_nil, hbefore]
        exact Nat.lt_succ_self _
      | cons c cs =>
        rw [← hbefore, Text.nextPlace?_byteSize] at hnext
        cases hnext
  · exact Or.inl hplace

/-- **What is come upon is what is ahead**, up to the first match that is not refused. -/
theorem SearchesAlone.seek_eq (h : m.SearchesAlone text) (refused : Found → Bool) :
    ∀ (steps : Nat) {offset first : Nat}, (first = 0 ∨ first < m.rules.length) →
      (Text.IsPlace text offset ∨ byteSize text < offset) →
      (m.ahead text offset first).length < steps →
        m.seek text refused steps offset first =
          .ok (uptoAdmitted refused (m.ahead text offset first),
            (m.ahead text offset first).find? (!refused ·))
  | 0, _, _, _, _, hsteps => absurd hsteps (Nat.not_lt_zero _)
  | steps + 1, offset, first, hfirst, hoffset, hsteps => by
    unfold seek
    rw [h.find_eq hfirst hoffset]
    cases hahead : m.ahead text offset first with
    | nil => rfl
    | cons found rest =>
      rw [List.head?_cons, Option.map_some, uptoAdmitted, List.find?_cons]
      dsimp only
      cases hrefused : refused found with
      | false => rfl
      | true =>
        have hmem : found ∈ m.ahead text offset first := hahead ▸ List.mem_cons_self
        have hrest := ahead_eq_cons hahead
        rw [hahead, List.length_cons, Nat.add_lt_add_iff_right, hrest] at hsteps
        have hlater := h.seek_eq refused steps (behind_lt found) (isPlace_behind hmem) hsteps
        rw [← hrest, behind_fst, behind_snd] at hlater
        rw [if_pos rfl, hlater]
        rfl

/-- **Refused matches are gone through in order.** What is come upon are the matches of the rules,
each where it matches alone, in the order of places and of rules, none of them twice and each of
them as long as all before it are refused. The first one that is not refused is admitted, and none
is just if all are refused. -/
theorem seek_enumerates (h : m.SearchesAlone text) {offset first : Nat}
    (hfirst : first = 0 ∨ first < m.rules.length)
    (hoffset : Text.IsPlace text offset ∨ byteSize text < offset) {steps : Nat}
    (hsteps : (m.ahead text offset first).length < steps) (refused : Found → Bool) :
    ∃ come admitted, m.seek text refused steps offset first = .ok (come, admitted) ∧
      come.Pairwise Found.Before ∧
      (∀ found, found ∈ come ↔ m.Offers text offset first found ∧
        ∀ g, m.Offers text offset first g → g.Before found → refused g = true) ∧
      (∀ found, admitted = some found ↔ m.Offers text offset first found ∧
        refused found = false ∧
        ∀ g, m.Offers text offset first g → g.Before found → refused g = true) ∧
      (admitted = none ↔ ∀ found, m.Offers text offset first found → refused found = true) := by
  have hsorted := pairwise_ahead m text offset first
  have hcome : ∀ found, found ∈ uptoAdmitted refused (m.ahead text offset first) ↔
      m.Offers text offset first found ∧
        ∀ g, m.Offers text offset first g → g.Before found → refused g = true := fun found => by
    simp only [mem_uptoAdmitted_iff hsorted, mem_ahead_iff hoffset]
  refine ⟨_, _, h.seek_eq refused steps hfirst hoffset hsteps,
    hsorted.sublist (uptoAdmitted_sublist refused _), hcome, fun found => ?_, ?_⟩
  · rw [find?_eq_some_iff_uptoAdmitted, hcome, and_assoc, and_comm (b := refused found = false)]
  · simp only [List.find?_eq_none, mem_ahead_iff hoffset, Bool.not_eq_true', Bool.not_eq_false]

/-- Three rules; the second one also matches nothing. -/
def refusable : Matcher Regex.Tried :=
  ofChecked [⟨.begins 0, "é", 0⟩, ⟨.begins 1, "é?", 0⟩, ⟨.ends, "b", 0⟩] false

theorem joins_refusable : refusable.Joins where
  accepted := by
    simp only [refusable, ofChecked, List.forall_mem_cons]
    exact ⟨⟨by decide +kernel, exists_of_isOk (by decide +kernel), by decide +kernel⟩,
      ⟨by decide +kernel, exists_of_isOk (by decide +kernel), by decide +kernel⟩,
      ⟨by decide +kernel, exists_of_isOk (by decide +kernel), by decide +kernel⟩,
      fun r hr => absurd hr List.not_mem_nil⟩
  joined first hfirst := by
    have hall : ∀ first < 3, ∃ ch : Choice Regex.Tried,
        Choice.ofRules refusable.rules refusable.foldCase first = .ok ch := fun first hlt =>
      exists_of_isOk ((by decide +kernel : ∀ first < 3, (Choice.ofRules (ρ := Regex.Tried)
        refusable.rules refusable.foldCase first).isOk = true) first hlt)
    have hlength : refusable.rules.length = 3 := rfl
    exact hall first (by omega)

/-- Begins that are refused are passed, empty ones as well, until the mode ends. -/
theorem seek_enumerates_refusable : ∃ come : List Found,
    refusable.seek "éb".toList (·.kind != .ends) 6 0 0 =
      .ok (come, some ⟨2, [some "b"], .ends, 2⟩) ∧
    come.map (fun f => (f.index, f.position)) = [(0, 0), (0, 1), (2, 1), (2, 2)] ∧
    come.Pairwise Found.Before := by
  have hjoined := joins_refusable.searchesAlone Regex.Tried.leftmostFirst Regex.Tried.stopsAtEnd
    "éb".toList
  have hsteps : (refusable.ahead "éb".toList 0 0).length < 6 := by decide +kernel
  obtain ⟨come, admitted, hseek, hsorted, -⟩ := seek_enumerates hjoined (Or.inl rfl)
    (Or.inl (Text.isPlace_zero _)) hsteps (·.kind != .ends)
  have hrun : (refusable.seek "éb".toList (·.kind != .ends) 6 0 0).toOption.any (fun run =>
      run.2 == some ⟨2, [some "b"], .ends, 2⟩ &&
        run.1.map (fun f => (f.index, f.position)) == [(0, 0), (0, 1), (2, 1), (2, 2)]) = true := by
    decide +kernel
  rw [hseek] at hrun
  simp only [Except.toOption, Option.any_some, Bool.and_eq_true, beq_iff_eq] at hrun
  obtain ⟨rfl, hplaces⟩ := hrun
  exact ⟨come, hseek, hplaces, hsorted⟩

/-- Two rules, the second one with a reference; in the joined pattern the parenthesis in the bracket
of the first one is counted as a group, and the reference is to another group. -/
def misnumbered : Except GrammarProblem (Matcher Regex.Tried) :=
  ofRules [(.begins 1, "[](]"), (.begins 2, "(x)(z)\\1")] false

/-- **A rule with a wrong number is missed.** The second rule matches at the start, and nothing is
come upon although nothing is refused. -/
theorem seek_misses_misnumbered : ∃ (m : Matcher Regex.Tried) (found : Found),
    misnumbered = .ok m ∧ m.Offers "xzx".toList 0 0 found ∧
      m.seek "xzx".toList (fun _ => false) 1 0 0 = .ok ([], none) := by
  obtain ⟨m, hm, hfacts⟩ : ∃ m, misnumbered = .ok m ∧
      ((m.seek "xzx".toList (fun _ => false) 1 0 0).toOption == some ([], none) &&
        (m.rules[1]?.bind fun r => r.matchAt? Regex.Tried m.foldCase "xzx".toList 0 1) ==
          some ⟨0, [some "xzx", some "x", some "z"], .begins 2, 1⟩) :=
    exists_of_any (by decide +kernel)
  simp only [Bool.and_eq_true, beq_iff_eq] at hfacts
  obtain ⟨hseek, hmatch⟩ := hfacts
  obtain ⟨r, hr, hfound⟩ := Option.bind_eq_some_iff.mp hmatch
  refine ⟨m, ⟨0, [some "xzx", some "x", some "z"], .begins 2, 1⟩, hm,
    ⟨Text.isPlace_zero _, Or.inr ⟨rfl, Nat.zero_le _⟩, r, hr, hfound⟩, ?_⟩
  cases hrun : m.seek "xzx".toList (fun _ => false) 1 0 0 with
  | error p =>
    rw [hrun] at hseek
    cases hseek
  | ok run =>
    rw [hrun] at hseek
    exact congrArg Except.ok (Option.some.inj hseek)

end Matcher

end CodeMarkup
