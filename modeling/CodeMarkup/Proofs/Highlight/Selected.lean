import CodeMarkup.Proofs.Highlight.Contained
import CodeMarkup.Proofs.Highlight.Precedence
import Mathlib.Data.List.MinMax
import Mathlib.Order.Nat

/-! # The selection of an outcome

When the language is guessed, the languages that are tried are those that are asked for and take
part, each once (`mem_candidates_iff`, `nodup_candidates`). What is selected is worth as much as the
greatest of what these are worth, and the next best is worth as much as the greatest of the others
(`detect_selects`). So it does not matter in which order, how often and by which of their names
languages are asked for. -/

namespace CodeMarkup

/-! ### Each one once -/

theorem mem_firstOnly_iff {name : String} : ∀ {seen names : List String},
    name ∈ firstOnly seen names ↔ name ∈ names ∧ name ∉ seen
  | _, [] => by simp [firstOnly]
  | seen, s :: ss => by
    unfold firstOnly
    split
    · next hseen =>
      rw [List.contains_iff_mem] at hseen
      rw [mem_firstOnly_iff, List.mem_cons]
      constructor
      · exact fun ⟨hmem, hnot⟩ => ⟨Or.inr hmem, hnot⟩
      · rintro ⟨rfl | hmem, hnot⟩
        · exact absurd hseen hnot
        · exact ⟨hmem, hnot⟩
    · next hseen =>
      rw [List.contains_iff_mem] at hseen
      rw [List.mem_cons, mem_firstOnly_iff, List.mem_cons, List.mem_cons]
      by_cases hs : name = s
      · subst hs
        simp [hseen]
      · simp [hs]

theorem nodup_firstOnly : ∀ (seen names : List String), (firstOnly seen names).Nodup
  | _, [] => List.nodup_nil
  | seen, s :: ss => by
    unfold firstOnly
    split
    · exact nodup_firstOnly seen ss
    · refine List.nodup_cons.mpr ⟨fun hmem => ?_, nodup_firstOnly (s :: seen) ss⟩
      exact (mem_firstOnly_iff.mp hmem).2 List.mem_cons_self

/-! ### The languages that are tried -/

variable {ρ : Type} [Engine ρ]

namespace Registry

/-- A language takes part when languages are guessed; this is its registered name. -/
def Guessed (r : Registry ρ) (key : String) : Prop :=
  ∃ l, r.resolve key = some (key, l) ∧ l.disableAutodetect = false

/-- A language is asked for, by its name or an alias among those of the subset, else among those of
the options; without these all are. -/
inductive Asked (r : Registry ρ) : Option (List String) → Option (List String) → String → Prop where
  | subset {names : List String} {configured : Option (List String)} {name key : String} :
      name ∈ names → r.canonicalName name = some key → Asked r (some names) configured key
  | configured {names : List String} {name key : String} :
      name ∈ names → r.canonicalName name = some key → Asked r none (some names) key
  | all {key : String} : Asked r none none key

theorem asked_subset_iff {r : Registry ρ} {names : List String} {configured : Option (List String)}
    {key : String} :
    r.Asked (some names) configured key ↔ ∃ name ∈ names, r.canonicalName name = some key := by
  constructor
  · rintro ⟨hname, hkey⟩
    exact ⟨_, hname, hkey⟩
  · rintro ⟨name, hname, hkey⟩
    exact .subset hname hkey

/-- A name or an alias of a language that takes part. -/
theorem Built.guessed_iff {r : Registry ρ} (hr : r.Built) {name key : String}
    (h : r.canonicalName name = some key) : r.Guessed key ↔ r.autoDetection key = true := by
  obtain ⟨⟨k, l⟩, hl, rfl⟩ := Option.map_eq_some_iff.mp h
  have hkey := hr.resolve_key hl
  rw [autoDetection, get?_eq, Guessed, hkey]
  simp

end Registry

theorem nodup_candidates (r : Registry ρ) (o : Options) (subset : Option (List String)) :
    (candidates r o subset).Nodup := nodup_firstOnly _ _

/-- **The languages that are tried** are those that are asked for and take part. -/
theorem mem_candidates_iff {r : Registry ρ} (hr : r.Built) {o : Options}
    {subset : Option (List String)} {key : String} :
    key ∈ candidates r o subset ↔ r.Guessed key ∧ r.Asked subset o.languages key := by
  have hwanted : key ∈ candidates r o subset ↔
      (∃ name ∈ (subset <|> o.languages).getD r.names, r.canonicalName name = some key) ∧
        r.autoDetection key = true := by
    rw [candidates, mem_firstOnly_iff, List.mem_filter, List.mem_filterMap]
    simp
  rw [hwanted]
  constructor
  · rintro ⟨⟨name, hname, hkey⟩, hauto⟩
    refine ⟨(hr.guessed_iff hkey).mpr hauto, ?_⟩
    cases subset with
    | some names => exact .subset hname hkey
    | none =>
      cases hlanguages : o.languages with
      | some names =>
        rw [hlanguages] at hname
        exact .configured hname hkey
      | none => exact .all
  · rintro ⟨hguessed, hasked⟩
    suffices hex : ∃ name ∈ (subset <|> o.languages).getD r.names, r.canonicalName name = some key by
      obtain ⟨name, -, hkey⟩ := id hex
      exact ⟨hex, (hr.guessed_iff hkey).mp hguessed⟩
    generalize o.languages = configured at hasked
    cases hasked with
    | subset hname hkey => exact ⟨_, hname, hkey⟩
    | configured hname hkey => exact ⟨_, hname, hkey⟩
    | all =>
      obtain ⟨l, hl, -⟩ := hguessed
      refine ⟨key, Dictionary.mem_keys_of_find? (Registry.find?_of_resolve hl), ?_⟩
      rw [Registry.canonicalName, hl, Option.map_some]

/-! ### What languages are worth -/

/-- What a language is worth for some code; nothing if the code is not in it. -/
def worth (r : Registry ρ) (o : Options) (code key : String) : Nat :=
  ((highlight r o key code false none).toOption.map Outcome.relevance).getD 0

section Candidates

variable {code : String} {go : String → Except Problem (Outcome ρ)}

omit [Engine ρ] in
/-- Each candidate has its outcome. -/
theorem forall₂_candidateOutcomes : ∀ {names : List String} {os : List (Outcome ρ)},
    candidateOutcomes code go names = .ok os →
      List.Forall₂ (fun name p => candidateOutcome code name (go name) = .ok p) names os
  | [], os, h => by
    cases h
    exact .nil
  | name :: names, os, h => by
    unfold candidateOutcomes at h
    split at h
    · cases h
    · next p hp =>
      split at h
      · cases h
      · next ps hps =>
        cases h
        exact .cons hp (forall₂_candidateOutcomes hps)

omit [Engine ρ] in
/-- The code has been gone through in the language, or it is not in the language. -/
theorem of_candidateOutcome_ok {name : String} {result : Except Problem (Outcome ρ)}
    {p : Outcome ρ} (h : candidateOutcome code name result = .ok p) :
    result = .ok p ∨ (∃ e, result = .error e ∧ e.isIllegal = true) ∧
      p = { Outcome.plain code (some name) with illegal := true } := by
  unfold candidateOutcome at h
  split at h
  · exact Or.inl h
  · next e =>
    split at h
    · next hillegal => exact Or.inr ⟨⟨e, rfl, hillegal⟩, (Except.ok.inj h).symm⟩
    · cases h

end Candidates

theorem relevance_candidateOutcome {r : Registry ρ} {o : Options} {code name : String}
    {p : Outcome ρ}
    (h : candidateOutcome code name (highlight r o name code false none) = .ok p) :
    p.relevance = worth r o code name := by
  rw [worth]
  rcases of_candidateOutcome_ok h with hok | ⟨⟨e, he, -⟩, rfl⟩
  · rw [hok]
    rfl
  · rw [he]
    rfl

/-- What comes out is in the language that is meant. -/
theorem language_highlight {r : Registry ρ} {o : Options} {name code : String}
    {ignoreIllegals : Bool} {continuation : Option (ModeStack ρ)} {out : Outcome ρ}
    (h : highlight r o name code ignoreIllegals continuation = .ok out) :
    r.canonicalName name = out.language := by
  obtain ⟨depth, key, l, hl, hout⟩ := of_highlightWithin_ok r o h
  rw [Registry.canonicalName, hl, Option.map_some]
  rcases of_recover_ok hout with hok | ⟨p, rfl⟩
  · obtain ⟨s, -, rfl⟩ := Scan.outcome_eq_ok hok
    rfl
  · rfl

/-! ### The outcomes that are compared -/

section Outcomes

variable {r : Registry ρ} {o : Options} {code : String} {names : List String}
  {os : List (Outcome ρ)}

theorem relevances_candidateOutcomes
    (h : candidateOutcomes code (fun name => highlight r o name code false none) names = .ok os) :
    os.map Outcome.relevance = names.map (worth r o code) := by
  have hall := forall₂_candidateOutcomes h
  clear h
  induction hall with
  | nil => rfl
  | cons hp _ ih => rw [List.map_cons, List.map_cons, ih, relevance_candidateOutcome hp]

omit [Engine ρ] in
theorem exists_of_mem_candidateOutcomes {go : String → Except Problem (Outcome ρ)} {p : Outcome ρ}
    (h : candidateOutcomes code go names = .ok os) (hp : p ∈ os) :
    ∃ name ∈ names, candidateOutcome code name (go name) = .ok p := by
  have hall := forall₂_candidateOutcomes h
  clear h
  induction hall with
  | nil => cases hp
  | @cons name q names os hq _ ih =>
    rcases List.mem_cons.mp hp with rfl | hp
    · exact ⟨name, List.mem_cons_self, hq⟩
    · obtain ⟨other, hother, hok⟩ := ih hp
      exact ⟨other, List.mem_cons_of_mem _ hother, hok⟩

/-- The code can be gone through in a language, or it is found not to be in it. -/
def Tells (r : Registry ρ) (o : Options) (code key : String) : Prop :=
  (∃ out, highlight r o key code false none = .ok out) ∨
    ∃ e, highlight r o key code false none = .error e ∧ e.isIllegal = true

theorem tells_of_candidateOutcomes
    (h : candidateOutcomes code (fun name => highlight r o name code false none) names = .ok os) :
    ∀ name ∈ names, Tells r o code name := by
  have hall := forall₂_candidateOutcomes h
  clear h
  induction hall with
  | nil => exact fun name hname => absurd hname List.not_mem_nil
  | cons hp _ ih =>
    refine List.forall_mem_cons.mpr ⟨?_, ih⟩
    rcases of_candidateOutcome_ok hp with hok | ⟨he, -⟩
    · exact Or.inl ⟨_, hok⟩
    · exact Or.inr he

/-- Where each language tells, all outcomes come out. -/
theorem exists_candidateOutcomes (h : ∀ name ∈ names, Tells r o code name) :
    ∃ os, candidateOutcomes code (fun name => highlight r o name code false none) names =
      .ok os := by
  cases hos : candidateOutcomes code (fun name => highlight r o name code false none) names with
  | ok os => exact ⟨os, rfl⟩
  | error p =>
    obtain ⟨name, hname, hp, hillegal⟩ := error_candidateOutcomes names hos
    rcases h name hname with ⟨out, hout⟩ | ⟨e, he, hill⟩
    · cases hp.symm.trans hout
    · obtain rfl : p = e := Except.error.inj (hp.symm.trans he)
      rw [hillegal] at hill
      cases hill

end Outcomes

/-! ### What is selected -/

/-- A number is the greatest of some, or of none, if it is one of them or nothing and none of them
is greater. -/
theorem eq_foldr_max {m : Nat} {ns : List Nat} (hmem : m = 0 ∨ m ∈ ns) (hle : ∀ n ∈ ns, n ≤ m) :
    m = ns.foldr max 0 := by
  refine Nat.le_antisymm ?_ (List.max_le_of_forall_le ns m hle)
  rcases hmem with rfl | hmem
  · exact Nat.zero_le _
  · exact List.le_max_of_le hmem (Nat.le_refl m)

theorem foldr_max_congr {ms ns : List Nat} (h : ∀ n, n ∈ ms ↔ n ∈ ns) :
    ms.foldr max 0 = ns.foldr max 0 :=
  Nat.le_antisymm
    (List.max_le_of_forall_le ms _ fun _ hm => List.le_max_of_le ((h _).mp hm) (Nat.le_refl _))
    (List.max_le_of_forall_le ns _ fun _ hn => List.le_max_of_le ((h _).mpr hn) (Nat.le_refl _))

section Detected

variable {r : Registry ρ} {o : Options} {code : String} {subset : Option (List String)}
  {d : Detection ρ}

/-- The outcomes of a detection: those of the candidates, the best one and the next best, and the
others. -/
theorem exists_ranked {go : String → Except Problem (Outcome ρ)}
    (h : detectWith r o code subset go = .ok d) :
    ∃ os rest, candidateOutcomes code go (candidates r o subset) = .ok os ∧
      rank r (Outcome.plain code none :: os) = d.best :: rest ∧ d.runnerUp = rest.head? := by
  obtain ⟨os, rest, hos, hrank⟩ := exists_of_detectWith h
  refine ⟨os, rest, hos, hrank, ?_⟩
  rw [detectWith, hos] at h
  dsimp only at h
  rw [hrank] at h
  rw [← Except.ok.inj h]

theorem relevance_detect (h : detect r o code subset = .ok d) :
    d.best.relevance = ((candidates r o subset).map (worth r o code)).foldr max 0 := by
  obtain ⟨os, rest, hos, hrank, -⟩ := exists_ranked h
  have hperm := hrank ▸ rank_perm r (Outcome.plain code none :: os)
  have hsorted := List.pairwise_cons.mp (hrank ▸ rank_relevance r (Outcome.plain code none :: os))
  rw [← relevances_candidateOutcomes hos]
  refine eq_foldr_max ?_ fun n hn => ?_
  · rcases List.mem_cons.mp (hperm.mem_iff.mp List.mem_cons_self) with hplain | hbest
    · left
      rw [hplain]
      rfl
    · exact Or.inr (List.mem_map_of_mem hbest)
  · obtain ⟨p, hp, rfl⟩ := List.mem_map.mp hn
    rcases List.mem_cons.mp (hperm.mem_iff.mpr (List.mem_cons_of_mem _ hp)) with rfl | hrest
    · exact Nat.le_refl _
    · exact hsorted.1 p hrest

/-- There is a next best outcome if there is any candidate. -/
theorem runnerUp_eq_none_iff (h : detect r o code subset = .ok d) :
    d.runnerUp = none ↔ candidates r o subset = [] := by
  obtain ⟨os, rest, hos, hrank, hrunner⟩ := exists_ranked h
  have hlength := (hrank ▸ rank_perm r (Outcome.plain code none :: os)).length_eq
  have hcandidates := (forall₂_candidateOutcomes hos).length_eq
  rw [List.length_cons, List.length_cons, Nat.add_right_cancel_iff] at hlength
  rw [hrunner, List.head?_eq_none_iff, ← List.length_eq_zero_iff, hlength, ← hcandidates,
    List.length_eq_zero_iff]

/-- The next best outcome is worth as much as any other than the best. -/
theorem exists_of_runnerUp (h : detect r o code subset = .ok d) {second : Outcome ρ}
    (hsecond : d.runnerUp = some second) :
    ∃ os rest, candidateOutcomes code (fun name => highlight r o name code false none)
        (candidates r o subset) = .ok os ∧
      (Outcome.plain code none :: os).Perm (d.best :: second :: rest) ∧
      ∀ p ∈ rest, p.relevance ≤ second.relevance := by
  obtain ⟨os, rest, hos, hrank, hrunner⟩ := exists_ranked h
  obtain ⟨others, rfl⟩ := List.head?_eq_some_iff.mp (hrunner.symm.trans hsecond)
  have hsorted := hrank ▸ rank_relevance r (Outcome.plain code none :: os)
  refine ⟨os, others, hos, (hrank ▸ rank_perm r (Outcome.plain code none :: os)).symm, ?_⟩
  exact (List.pairwise_cons.mp (List.pairwise_cons.mp hsorted).2).1

/-- The best outcome that is in a language is what comes out in that language. -/
theorem highlight_of_best (hr : r.Built) (h : detect r o code subset = .ok d) {key : String}
    (hkey : d.best.language = some key) (hlegal : d.best.illegal = false) :
    key ∈ candidates r o subset ∧ highlight r o key code false none = .ok d.best := by
  obtain ⟨os, rest, hos, hrank, -⟩ := exists_ranked h
  have hperm := hrank ▸ rank_perm r (Outcome.plain code none :: os)
  rcases List.mem_cons.mp (hperm.mem_iff.mp List.mem_cons_self) with hplain | hbest
  · rw [hplain] at hkey
    cases hkey
  · obtain ⟨name, hname, hp⟩ := exists_of_mem_candidateOutcomes hos hbest
    rcases of_candidateOutcome_ok hp with hok | ⟨-, hillegal⟩
    · obtain ⟨l, hl, -⟩ := ((mem_candidates_iff hr).mp hname).1
      have hlanguage := language_highlight hok
      rw [Registry.canonicalName, hl, Option.map_some, hkey] at hlanguage
      obtain rfl := Option.some.inj hlanguage
      exact ⟨hname, hok⟩
    · rw [hillegal] at hlegal
      cases hlegal

/-- It does not matter by which names, in which order and how often languages are asked for. -/
theorem exists_detect_of_same {names names' : List String} (hr : r.Built)
    (h : detect r o code (some names) = .ok d)
    (hsame : ∀ key, (∃ name ∈ names, r.canonicalName name = some key) ↔
      ∃ name ∈ names', r.canonicalName name = some key) :
    ∃ d', detect r o code (some names') = .ok d' ∧ d'.best.relevance = d.best.relevance := by
  have hcandidates : ∀ key, key ∈ candidates r o (some names') ↔ key ∈ candidates r o (some names) :=
    fun key => by
      rw [mem_candidates_iff hr, mem_candidates_iff hr, Registry.asked_subset_iff,
        Registry.asked_subset_iff, hsame]
  obtain ⟨os, -, hos, -⟩ := exists_ranked h
  have htells : ∀ key ∈ candidates r o (some names'), Tells r o code key := fun key hkey =>
    tells_of_candidateOutcomes hos key ((hcandidates key).mp hkey)
  obtain ⟨os', hos'⟩ := exists_candidateOutcomes htells
  obtain ⟨d', hd'⟩ : ∃ d', detect r o code (some names') = .ok d' := exists_detectWith hos'
  refine ⟨d', hd', ?_⟩
  rw [relevance_detect hd', relevance_detect h]
  refine foldr_max_congr fun n => ?_
  simp only [List.mem_map, hcandidates]

end Detected

theorem built_extendedRegistry {r : Registry Regex.Tried} (h : extendedRegistry = .ok r) :
    r.Built := by
  unfold extendedRegistry at h
  split at h
  · next r₀ hbase => exact .register (.register .empty hbase) h
  · cases h

end CodeMarkup
