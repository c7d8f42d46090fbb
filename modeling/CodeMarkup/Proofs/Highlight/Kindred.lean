import CodeMarkup.Proofs.Highlight.FirstCome
import CodeMarkup.Proofs.Highlight.Thinned

/-! # Highlighting with kindred languages

Registries are kin that hold the same languages under the same names but for languages that lack
some children whose begins are refused anyway (`Registry.Kin`). Then the same languages are guessed,
and code in a named language leads to the same, however deep code is embedded
(`Registry.Kin.agree_highlight`). For that, nothing that excuses one of the runs may be lived with;
`highlightLiving` goes through code so that just some problems are lived with. -/

namespace CodeMarkup

variable {ρ : Type} [Engine ρ]

/-! ### Living with some problems -/

/-- Leaves code as it is if going through it fails in a way that is lived with. -/
def recoverFrom (lives : Problem → Bool) (code name : String) :
    Except Problem (Outcome ρ) → Except Problem (Outcome ρ)
  | .ok outcome => .ok outcome
  | .error p =>
    if lives p then .ok { Outcome.plain code (some name) with problem := some p } else .error p

section Living

variable (r : Registry ρ) (o : Options)

/-- Goes through embedded code by a way to go through code. -/
def nestedBy (go : String → String → Bool → Option (ModeStack ρ) → Except Problem (Outcome ρ)) :
    Nested ρ where
  resolve := r.canonicalName
  named key code stack := go key code true stack
  detect code subset :=
    (detectWith r o code subset fun name => go name code false none).map Detection.best

/-- Goes through code as `highlightWithin` does, but just some problems are lived with. -/
def highlightLiving (lives : Problem → Bool) :
    Nat → (name code : String) → (ignoreIllegals : Bool) → Option (ModeStack ρ) →
      Except Problem (Outcome ρ)
  | 0, _, _, _, _ => .error .unfinished
  | depth + 1, name, code, ignoreIllegals, continuation =>
    match r.resolve name with
    | none => .error (.unknownLanguage name)
    | some (key, language) =>
      recoverFrom lives code key (Scan.outcome {
        name := key
        language
        code := code.toList
        ignoreIllegals
        safeMode := o.safeMode
        nested := nestedBy r o (highlightLiving lives depth) }
          (startingFrames key language continuation))

theorem highlightLiving_isRecoverable : ∀ depth : Nat,
    highlightLiving r o (isRecoverable o) depth = highlightWithin r o depth
  | 0 => rfl
  | depth + 1 => by
    have hnested : nestedBy r o (highlightWithin r o depth) = nestedWithin r o depth := by
      unfold nestedBy nestedWithin
      congr 1
      funext code subset
      exact (detect_nestedWithin r o depth code subset).symm
    funext name code ignoreIllegals continuation
    rw [highlightWithin_succ, highlightLiving, highlightLiving_isRecoverable depth, hnested]
    cases r.resolve name with
    | none => rfl
    | some found =>
      obtain ⟨key, language⟩ := found
      dsimp only
      unfold settingWithin
      cases Scan.outcome _ (startingFrames key language continuation) <;> rfl

end Living

/-! ### Kin -/

/-- A first run is excused that makes no progress or does not come out, and a second one that does
not come out. -/
structure Excuses (excused excused' : Problem → Prop) : Prop where
  loop : ∀ name n, excused (.infiniteLoop name n)
  unfinished : excused .unfinished
  unfinished' : excused' .unfinished

/-- The same language, or one that lacks some children whose begins are refused anyway. -/
def Language.Kin (excused excused' : Problem → Prop) (l l' : Language ρ) (twin : Nat → Nat → Prop) :
    Prop :=
  (l' = l ∧ twin = Eq) ∨ l.Thinning l' twin ∧ l'.disableAutodetect = l.disableAutodetect ∧
    l'.supersetOf = l.supersetOf ∧ Excuses excused excused'

/-- Registries with kindred languages under the same names. -/
structure Registry.Kin (excused excused' : Problem → Prop) (twin : String → Nat → Nat → Prop)
    (r r' : Registry ρ) : Prop where
  keys : r'.languages.keys = r.languages.keys
  aliases : r'.aliases = r.aliases
  languages : ∀ key, Option.Rel (fun l l' => l.Kin excused excused' l' (twin key))
    (r.languages.find? key) (r'.languages.find? key)

variable {excused excused' : Problem → Prop} {twin : String → Nat → Nat → Prop}

namespace Language.Kin

variable {l l' : Language ρ} {twin : Nat → Nat → Prop} (h : l.Kin excused excused' l' twin)

include h

theorem paired : l.Paired l' twin := by
  rcases h with ⟨rfl, rfl⟩ | ⟨hthin, -⟩
  · exact .refl l'
  · exact hthin.toPaired

theorem disableAutodetect : l'.disableAutodetect = l.disableAutodetect := by
  rcases h with ⟨rfl, -⟩ | ⟨-, h, -⟩
  · rfl
  · exact h

theorem supersetOf : l'.supersetOf = l.supersetOf := by
  rcases h with ⟨rfl, -⟩ | ⟨-, -, h, -⟩
  · rfl
  · exact h

end Language.Kin

theorem Registry.Kin.refl (r : Registry ρ) : r.Kin excused excused' (fun _ => Eq) r where
  keys := rfl
  aliases := rfl
  languages key := by
    cases r.languages.find? key with
    | none => exact .none
    | some l => exact .some (Or.inl ⟨rfl, rfl⟩)

namespace Registry.Kin

variable {r r' : Registry ρ} (h : r.Kin excused excused' twin r')

include h

theorem resolve (name : String) : Option.Rel
    (fun x y => y.1 = x.1 ∧ x.2.Kin excused excused' y.2 (twin x.1))
    (r.resolve name) (r'.resolve name) := by
  have hkey := h.languages (fold name)
  unfold Registry.resolve
  dsimp only
  rw [h.aliases]
  generalize r.languages.find? (fold name) = found at hkey
  generalize r'.languages.find? (fold name) = found' at hkey
  cases hkey with
  | some hkin => exact .some ⟨rfl, hkin⟩
  | none =>
    cases r.aliases.find? (fold name) with
    | none => exact .none
    | some target =>
      have htarget := h.languages target
      dsimp only
      generalize r.languages.find? target = found at htarget
      generalize r'.languages.find? target = found' at htarget
      cases htarget with
      | none => exact .none
      | some hkin => exact .some ⟨rfl, hkin⟩

theorem names : r'.names = r.names := h.keys

theorem size : r'.size = r.size := by
  have hlength := congrArg List.length h.keys
  unfold Dictionary.keys at hlength
  rwa [List.length_map, List.length_map] at hlength

theorem canonicalName : r'.canonicalName = r.canonicalName := by
  funext name
  have hresolve := h.resolve name
  unfold Registry.canonicalName
  generalize r.resolve name = found at hresolve
  generalize r'.resolve name = found' at hresolve
  cases hresolve with
  | none => rfl
  | some hkin => exact congrArg some hkin.1

theorem get? (name : String) : Option.Rel
    (fun l l' => l'.disableAutodetect = l.disableAutodetect ∧ l'.supersetOf = l.supersetOf)
    (r.get? name) (r'.get? name) := by
  have hresolve := h.resolve name
  rw [Registry.get?_eq, Registry.get?_eq]
  generalize r.resolve name = found at hresolve
  generalize r'.resolve name = found' at hresolve
  cases hresolve with
  | none => exact .none
  | some hkin => exact .some ⟨hkin.2.disableAutodetect, hkin.2.supersetOf⟩

theorem autoDetection : r'.autoDetection = r.autoDetection := by
  funext name
  have hget := h.get? name
  unfold Registry.autoDetection
  generalize r.get? name = found at hget
  generalize r'.get? name = found' at hget
  cases hget with
  | none => rfl
  | some hsame => rw [Option.any_some, Option.any_some, hsame.1]

theorem baseOf (name : String) : r'.baseOf name = r.baseOf name := by
  have hget := h.get? name
  unfold Registry.baseOf
  rw [h.canonicalName]
  generalize r.get? name = found at hget
  generalize r'.get? name = found' at hget
  cases hget with
  | none => rfl
  | some hsame => rw [Option.bind_some, Option.bind_some, hsame.2]

theorem candidates (o : Options) (subset : Option (List String)) :
    CodeMarkup.candidates r' o subset = CodeMarkup.candidates r o subset := by
  unfold CodeMarkup.candidates
  rw [h.names, h.canonicalName, h.autoDetection]

end Registry.Kin

/-! ### Guessed languages -/

section Guessed

variable {r r' : Registry ρ} (h : r.Kin excused excused' twin r') {all all' : List (Outcome ρ)}

omit [Engine ρ] in
theorem any_eq (hall : List.Forall₂ (Outcome.Twin twin) all all') (P : Nat → Option String → Bool) :
    (all'.any fun o => P o.relevance o.language) = all.any fun o => P o.relevance o.language := by
  induction hall with
  | nil => rfl
  | cons ho _ ih => rw [List.any_cons, List.any_cons, ih, ho.relevance, ho.language]

omit [Engine ρ] in
theorem Outcome.Twin.plain (code : String) (language : Option String) :
    (Outcome.plain (ρ := ρ) code language).Twin twin (Outcome.plain code language) :=
  ⟨rfl, rfl, rfl, rfl, rfl, .none⟩

omit [Engine ρ] in
theorem rel_getElem? (hall : List.Forall₂ (Outcome.Twin twin) all all') (i : Nat) :
    Option.Rel (Outcome.Twin twin) all[i]? all'[i]? := by
  induction hall generalizing i with
  | nil => exact .none
  | cons ho _ ih =>
    cases i with
    | zero => exact .some ho
    | succ i => exact ih i

include h

theorem Registry.Kin.extensionDepth (tied : String → Bool) : ∀ (hops : Nat) (name : Option String),
    CodeMarkup.extensionDepth r' tied hops name = CodeMarkup.extensionDepth r tied hops name
  | 0, _ => rfl
  | _ + 1, none => rfl
  | hops + 1, some name => by
    rw [CodeMarkup.extensionDepth, CodeMarkup.extensionDepth, h.baseOf]
    cases r.baseOf name with
    | none => rfl
    | some base =>
      dsimp only
      rw [Registry.Kin.extensionDepth tied hops]

variable (hall : List.Forall₂ (Outcome.Twin twin) all all')

include hall

theorem Registry.Kin.ranksOf : CodeMarkup.ranksOf r' all' = CodeMarkup.ranksOf r all := by
  have hrank : ∀ o o', Outcome.Twin twin o o' → o'.rankAmong r' all' = o.rankAmong r all := by
    intro o o' ho
    have htied : (fun name =>
          all'.any fun p => p.relevance == o.relevance && p.language == some name) =
        fun name => all.any fun p => p.relevance == o.relevance && p.language == some name :=
      funext fun name => any_eq hall fun relevance language =>
        relevance == o.relevance && language == some name
    unfold Outcome.rankAmong supersetDepth
    dsimp only
    rw [h.extensionDepth, ho.relevance, ho.language, ← hall.length_eq, htied]
  have hmap : ∀ {os os' : List (Outcome ρ)}, List.Forall₂ (Outcome.Twin twin) os os' →
      os'.map (Outcome.rankAmong r' all') = os.map (Outcome.rankAmong r all) := by
    intro os os' hos
    induction hos with
    | nil => rfl
    | cons ho _ ih => rw [List.map_cons, List.map_cons, hrank _ _ ho, ih]
  unfold CodeMarkup.ranksOf
  rw [hmap hall]

/-- The best of outcomes that are the same are the same. -/
theorem Registry.Kin.head?_rank :
    Option.Rel (Outcome.Twin twin) (rank r all).head? (rank r' all').head? := by
  rw [List.head?_eq_getElem?, List.head?_eq_getElem?, getElem?_rank, getElem?_rank, h.ranksOf hall]
  cases (rankOrder (CodeMarkup.ranksOf r all))[0]? with
  | none => exact .none
  | some i => exact rel_getElem? hall i

end Guessed

section Detected

variable {r r' : Registry ρ} (h : r.Kin excused excused' twin r') {code : String}
  {go go' : String → Except Problem (Outcome ρ)} (hlegal : ∀ p, excused p → p.isIllegal = false)
  (hlegal' : ∀ p, excused' p → p.isIllegal = false)
  (hgo : ∀ name, Agree excused excused' (Outcome.Twin twin) (go name) (go' name))

omit [Engine ρ] in
include hlegal hlegal' hgo in
theorem agree_candidateOutcomes : ∀ names : List String,
    Agree excused excused' (List.Forall₂ (Outcome.Twin twin)) (candidateOutcomes code go names)
      (candidateOutcomes code go' names)
  | [] => .ok .nil
  | name :: names => by
    have hname : Agree excused excused' (Outcome.Twin twin) (candidateOutcome code name (go name))
        (candidateOutcome code name (go' name)) := by
      have hname := hgo name
      generalize go name = result at hname
      generalize go' name = result' at hname
      cases hname with
      | ok ho => exact .ok ho
      | @error p =>
        unfold candidateOutcome
        dsimp only
        split
        · exact .ok ⟨rfl, rfl, rfl, rfl, rfl, .none⟩
        · exact .error
      | @left p _ hp =>
        unfold candidateOutcome
        dsimp only
        rw [hlegal p hp]
        exact .left hp
      | @right p _ hp =>
        unfold candidateOutcome
        dsimp only
        rw [hlegal' p hp]
        exact .right hp
    have hnames := agree_candidateOutcomes names
    unfold candidateOutcomes
    generalize candidateOutcome code name (go name) = first at hname
    generalize candidateOutcome code name (go' name) = first' at hname
    generalize candidateOutcomes code go names = others at hnames
    generalize candidateOutcomes code go' names = others' at hnames
    cases hname with
    | error => exact .error
    | left hp => exact .left hp
    | right hp => exact .right hp
    | ok ho =>
      cases hnames with
      | error => exact .error
      | left hp => exact .left hp
      | right hp => exact .right hp
      | ok hos => exact .ok (.cons ho hos)

include h hlegal hlegal' hgo in
/-- The best of the guessed languages are the same. -/
theorem agree_detectWith (o : Options) (subset : Option (List String)) :
    Agree excused excused' (Outcome.Twin twin) ((detectWith r o code subset go).map Detection.best)
      ((detectWith r' o code subset go').map Detection.best) := by
  have houtcomes : Agree excused excused' (List.Forall₂ (Outcome.Twin twin))
      (candidateOutcomes code go (candidates r o subset))
      (candidateOutcomes code go' (candidates r o subset)) :=
    agree_candidateOutcomes hlegal hlegal' hgo _
  unfold detectWith
  rw [h.candidates]
  generalize candidateOutcomes code go _ = outcomes at houtcomes
  generalize candidateOutcomes code go' _ = outcomes' at houtcomes
  cases houtcomes with
  | error => exact .error
  | left hp => exact .left hp
  | right hp => exact .right hp
  | @ok os os' hos =>
    have hbest := h.head?_rank (.cons (.plain code none) hos)
    dsimp only
    generalize rank r _ = ranked at hbest
    generalize rank r' _ = ranked' at hbest
    cases ranked with
    | nil =>
      cases ranked' with
      | nil => exact .ok (.plain code none)
      | cons => cases hbest
    | cons best rest =>
      cases ranked' with
      | nil => cases hbest
      | cons best' rest' =>
        cases hbest with
        | some hbest => exact .ok hbest

end Detected

/-! ### Named languages -/

/-- Open modes that are the same are all modes of their language, or some are not in both. -/
theorem Stacked.all_isSome {l l' : Language ρ} {twin : Nat → Nat → Prop} (hl : l.Paired l' twin)
    {fs fs' : List (Frame ρ)} (h : Stacked twin fs fs') :
    (fs'.all fun f => (l'.mode? f.mode).isSome) = fs.all fun f => (l.mode? f.mode).isSome := by
  have hroot : ∀ l : Language ρ, (l.mode? 0).isSome = true := fun l => by
    rw [Language.mode?, Array.getElem?_eq_getElem l.size_pos]
    rfl
  induction h with
  | root hf => simp only [List.all_cons, List.all_nil, hf.mode.1, hf.mode.2, hroot]
  | on hf _ ih => rw [List.all_cons, List.all_cons, ih, hl.isSome hf.mode]

omit [Engine ρ] in
theorem Stacked.getLast? {twin : Nat → Nat → Prop} {fs fs' : List (Frame ρ)}
    (h : Stacked twin fs fs') :
    fs.getLast?.map Frame.mode = some 0 ∧ fs'.getLast?.map Frame.mode = some 0 := by
  induction h with
  | root hf => exact ⟨congrArg some hf.mode.1, congrArg some hf.mode.2⟩
  | @on f f' fs fs' _ hfs ih =>
    have hne := List.ne_nil_of_length_pos hfs.length_pos
    have hne' := List.ne_nil_of_length_pos (hfs.length_eq ▸ hfs.length_pos)
    rwa [List.getLast?_cons_of_ne_nil hne, List.getLast?_cons_of_ne_nil hne']

/-- Code is gone on with from the same open modes. -/
theorem stacked_startingFrames {key : String} {l l' : Language ρ} (hl : l.Paired l' (twin key))
    {stack stack' : Option (ModeStack ρ)} (h : Option.Rel (ModeStack.Twin twin) stack stack') :
    Stacked (twin key) (startingFrames key l stack) (startingFrames key l' stack') := by
  have hscratch : Stacked (twin key) [Frame.new (ρ := ρ) 0] [Frame.new 0] :=
    .root ⟨⟨rfl, rfl⟩, rfl, rfl⟩
  cases h with
  | none => exact hscratch
  | @some st st' hst =>
    unfold startingFrames ModeStack.framesFor?
    rw [Option.bind_some, Option.bind_some, hst.language]
    by_cases hkey : st.language = key
    · subst hkey
      rw [hst.frames.all_isSome hl, hst.frames.getLast?.1, hst.frames.getLast?.2]
      split
      · exact hst.frames
      · exact hscratch
    · rw [if_neg (by simp [hkey]), if_neg (by simp [hkey])]
      exact hscratch

section Highlighted

variable {letters : Regex.Letters} (hρ : Regex.LeftmostFirst ρ letters)
  (hend : Engine.StopsAtEnd ρ) {r r' : Registry ρ} (h : r.Kin excused excused' twin r')
  {lives lives' : Problem → Bool}
  (hlives : ∀ p, excused p ∨ excused' p ∨ lives' p = lives p)
  (hexcused : ∀ p, excused p → lives p = false ∧ p.isIllegal = false)
  (hexcused' : ∀ p, excused' p → lives' p = false ∧ p.isIllegal = false)

include hlives hexcused hexcused' in
omit [Engine ρ] in
/-- What excuses a run is not lived with. -/
theorem agree_recoverFrom (code name : String) {x y : Except Problem (Outcome ρ)}
    (hxy : Agree excused excused' (Outcome.Twin twin) x y) :
    Agree excused excused' (Outcome.Twin twin) (recoverFrom lives code name x)
      (recoverFrom lives' code name y) := by
  have hleft : ∀ p y, excused p → Agree excused excused' (Outcome.Twin (ρ := ρ) twin)
      (recoverFrom lives code name (.error p)) y := fun p y hp => by
    rw [recoverFrom, if_neg (by rw [(hexcused p hp).1]; exact Bool.false_ne_true)]
    exact .left hp
  have hright : ∀ p x, excused' p → Agree excused excused' (Outcome.Twin (ρ := ρ) twin) x
      (recoverFrom lives' code name (.error p)) := fun p x hp => by
    rw [recoverFrom, if_neg (by rw [(hexcused' p hp).1]; exact Bool.false_ne_true)]
    exact .right hp
  cases hxy with
  | ok ho => exact .ok ho
  | left hp => exact hleft _ _ hp
  | right hp => exact hright _ _ hp
  | @error p =>
    rcases hlives p with hp | hp | hsame
    · exact hleft p _ hp
    · exact hright p _ hp
    · unfold recoverFrom
      dsimp only
      rw [hsame]
      split
      · exact .ok ⟨rfl, rfl, rfl, rfl, rfl, .none⟩
      · exact .error

include hρ hend h hlives hexcused hexcused' in
/-- **In kindred registries code leads to the same.** The induction is on how deep code is embedded.
-/
theorem Registry.Kin.agree_highlight (o : Options) : ∀ (depth : Nat) (name code : String)
    (ignoreIllegals : Bool) {stack stack' : Option (ModeStack ρ)},
      Option.Rel (ModeStack.Twin twin) stack stack' →
        Agree excused excused' (Outcome.Twin twin)
          (highlightLiving r o lives depth name code ignoreIllegals stack)
          (highlightLiving r' o lives' depth name code ignoreIllegals stack')
  | 0, _, _, _, _, _, _ => .error
  | depth + 1, name, code, ignoreIllegals, stack, stack', hstack => by
    have ih := Registry.Kin.agree_highlight o depth
    have hresolve := h.resolve name
    unfold highlightLiving
    generalize r.resolve name = found at hresolve
    generalize r'.resolve name = found' at hresolve
    cases hresolve with
    | none => exact .error
    | @some x y hxy =>
      obtain ⟨key, language⟩ := x
      obtain ⟨key', language'⟩ := y
      obtain ⟨rfl, hkin⟩ := hxy
      dsimp only at hkin ⊢
      refine agree_recoverFrom hlives hexcused hexcused' code _ ?_
      have hframes := stacked_startingFrames hkin.paired hstack
      have hnested : (nestedBy r o (highlightLiving r o lives depth)).Agrees excused excused' twin
          (nestedBy r' o (highlightLiving r' o lives' depth)) := {
        resolve := h.canonicalName
        named := fun key code _ _ hstack => ih key code true hstack
        detect := fun code names => agree_detectWith h (fun p hp => (hexcused p hp).2)
          (fun p hp => (hexcused' p hp).2) (fun name => ih name code false .none) o names }
      have he : Setting.Agrees excused excused' twin
          ⟨key', language, code.toList, ignoreIllegals, o.safeMode,
            nestedBy r o (highlightLiving r o lives depth)⟩
          ⟨key', language', code.toList, ignoreIllegals, o.safeMode,
            nestedBy r' o (highlightLiving r' o lives' depth)⟩ :=
        ⟨rfl, rfl, rfl, rfl, hkin.paired, hnested⟩
      rcases hkin with ⟨hlanguage, htwin⟩ | ⟨hthin, -, -, hexcuses⟩
      · exact Scan.agree_outcome he hlanguage htwin hframes
      · exact Scan.agree_outcome_thinned hρ hend he hthin hexcuses.loop hexcuses.unfinished
          hexcuses.unfinished' hframes

end Highlighted

end CodeMarkup
