import CodeMarkup.Proofs.Highlight.Kindred
import CodeMarkup.Proofs.Language.Spanning

/-! # Refused begins go unnoticed

A child whose begin is always refused makes no difference: where it is taken out, all code leads to
the same (`highlight_without`), unless the mode around the child may end with empty text where the
child would begin. There the refused begin is mistaken for one of an empty mode, which the end is
taken to close (`highlight_notices`). -/

namespace CodeMarkup

variable {ρ : Type} [Engine ρ]

/-! ### What is seen -/

/-- What is seen of an outcome. -/
structure Seen where
  language : Option String
  relevance : Nat
  events : List Markup.Event
  illegal : Bool
  problem : Option Problem
  /-- The categories of the modes open at the end, innermost first. -/
  classes : Option (List (Option String))

/-- What is seen of an outcome for code in registered languages. -/
def Outcome.seen (r : Registry ρ) (o : Outcome ρ) : Seen where
  language := o.language
  relevance := o.relevance
  events := o.events
  illegal := o.illegal
  problem := o.problem
  classes := o.top.map fun stack => stack.frames.map fun f =>
    (r.languages.find? stack.language).bind fun l => (l.mode f.mode).className.map l.displayClass

variable {excused excused' : Problem → Prop} {twin : String → Nat → Nat → Prop} {r r' : Registry ρ}

omit [Engine ρ] in
theorem Stacked.map_eq {α : Type} {twin : Nat → Nat → Prop} {fs fs' : List (Frame ρ)}
    (h : Stacked twin fs fs') (f f' : Nat → α)
    (hf : ∀ {a b}, Language.OnTop twin a b → f' b = f a) :
    (fs'.map fun frame => f' frame.mode) = fs.map fun frame => f frame.mode := by
  induction h with
  | root hframe => rw [List.map_singleton, List.map_singleton, hf (Or.inr hframe.mode)]
  | on hframe _ ih => rw [List.map_cons, List.map_cons, hf (Or.inl hframe.mode), ih]

/-- What modes are called by is not seen. -/
theorem Registry.Kin.seen_eq (h : r.Kin excused excused' twin r') {o o' : Outcome ρ}
    (ho : o.Twin twin o') : o'.seen r' = o.seen r := by
  have hclasses : (o'.seen r').classes = (o.seen r).classes := by
    have htop := ho.top
    unfold Outcome.seen
    dsimp only
    generalize o.top = top at htop
    generalize o'.top = top' at htop
    cases htop with
    | none => rfl
    | @some stack stack' hstack =>
      have hlanguage := h.languages stack.language
      rw [Option.map_some, Option.map_some, hstack.language]
      generalize r.languages.find? stack.language = found at hlanguage
      generalize r'.languages.find? stack.language = found' at hlanguage
      refine congrArg some (hstack.frames.map_eq
        (fun id => found.bind fun l => (l.mode id).className.map l.displayClass)
        (fun id => found'.bind fun l => (l.mode id).className.map l.displayClass)
        fun {a b} hab => ?_)
      cases hlanguage with
      | none => rfl
      | @some l l' hkin =>
        have hpaired := hkin.paired
        have hclass := CompiledMode.congr_of_bare (hpaired.bare_onTop hab) CompiledMode.className
          fun _ => rfl
        rw [Option.bind_some, Option.bind_some, hclass, funext hpaired.displayClass]
  unfold Outcome.seen at hclasses ⊢
  dsimp only at hclasses
  rw [ho.language, ho.relevance, ho.events, ho.illegal, ho.problem, hclasses]

/-! ### Runs that get on -/

/-- Whether a problem is that going through code makes no progress. -/
def Problem.isLoop : Problem → Bool
  | .infiniteLoop .. => true
  | _ => false

/-- Goes through code so that a lack of progress is not lived with, however deep the code is
embedded where it shows. -/
def highlightGettingOn (r : Registry ρ) (o : Options) (name code : String) (ignoreIllegals : Bool) :
    Except Problem (Outcome ρ) :=
  highlightLiving r o (fun p => isRecoverable o p && !p.isLoop) (nestingBound r code) name code
    ignoreIllegals none

/-- Neither the code nor any code embedded in it is given up for lack of progress. -/
def Registry.GetsOn (r : Registry ρ) (o : Options) (name code : String) (ignoreIllegals : Bool) :
    Prop :=
  ∀ p, highlightGettingOn r o name code ignoreIllegals = .error p → p.isLoop = false

section GettingOn

omit [Engine ρ] in
theorem not_lived_with {o : Options} {p : Problem} (h : p.isLoop = true ∨ p = .unfinished) :
    (isRecoverable o p && !p.isLoop) = false ∧ p.isIllegal = false := by
  rcases h with h | rfl
  · refine ⟨by rw [h, Bool.not_true, Bool.and_false], ?_⟩
    cases p <;> first | rfl | cases h
  · exact ⟨rfl, rfl⟩

variable {letters : Regex.Letters} (hρ : Regex.LeftmostFirst ρ letters)
  (hend : Engine.StopsAtEnd ρ) {o : Options} {name code : String} {ignoreIllegals : Bool}

include hρ hend

/-- Where a lack of progress does not show nothing depends on whether it is lived with. -/
theorem Registry.GetsOn.seen_eq (h : r.GetsOn o name code ignoreIllegals) :
    (highlight r o name code ignoreIllegals none).map (Outcome.seen r) =
      (highlightGettingOn r o name code ignoreIllegals).map (Outcome.seen r) := by
  have hkin : r.Kin (fun p => p.isLoop = true) (fun _ => False) (fun _ => Eq) r := .refl r
  have hlives : ∀ p : Problem, p.isLoop = true ∨ False ∨
      isRecoverable o p = (isRecoverable o p && !p.isLoop) := fun p => by
    cases p.isLoop with
    | true => exact Or.inl rfl
    | false => exact Or.inr (Or.inr (Bool.and_true _).symm)
  have hagree := hkin.agree_highlight hρ hend hlives (fun p hp => not_lived_with (Or.inl hp))
    (fun p hp => hp.elim) o (nestingBound r code) name code ignoreIllegals .none
  rw [highlightLiving_isRecoverable] at hagree
  exact hagree.map_eq (fun p hp => by rw [h p hp]; exact Bool.false_ne_true) (fun p _ => id)
    fun a b => hkin.seen_eq

/-- **In kindred registries what is seen is the same**, if code is gone through to its end and
neither it nor any code embedded in it is given up for lack of progress. -/
theorem Registry.Kin.seen_highlight
    (h : r.Kin (fun p => p.isLoop = true ∨ p = .unfinished) (· = .unfinished) twin r')
    (hon : r.GetsOn o name code ignoreIllegals)
    (hends : highlight r o name code ignoreIllegals none ≠ .error .unfinished)
    (hends' : highlight r' o name code ignoreIllegals none ≠ .error .unfinished) :
    (highlight r' o name code ignoreIllegals none).map (Outcome.seen r') =
      (highlight r o name code ignoreIllegals none).map (Outcome.seen r) := by
  have hagree : Agree (fun p => p.isLoop = true ∨ p = .unfinished) (· = .unfinished)
      (Outcome.Twin twin) (highlightGettingOn r o name code ignoreIllegals)
      (highlightGettingOn r' o name code ignoreIllegals) := by
    unfold highlightGettingOn
    rw [nestingBound, nestingBound, h.size]
    exact h.agree_highlight hρ hend (fun p => Or.inr (Or.inr rfl)) (fun p hp => not_lived_with hp)
      (fun p hp => not_lived_with (Or.inr hp)) o _ name code ignoreIllegals .none
  have hreal := hon.seen_eq hρ hend
  -- a run that does not come out gets on, so that what shows does not come out either
  have hcomes : ∀ p, highlightGettingOn r o name code ignoreIllegals = .error p →
      ¬ (p.isLoop = true ∨ p = .unfinished) := by
    rintro p hp (hloop | rfl)
    · rw [hon p hp] at hloop
      cases hloop
    · rw [hp] at hreal
      exact hends (of_map_error hreal)
  have hcomes' : ∀ p, highlightGettingOn r' o name code ignoreIllegals = .error p →
      p ≠ .unfinished := by
    rintro p hp rfl
    have hon' : r'.GetsOn o name code ignoreIllegals := fun p hp' => by
      rw [hp] at hp'
      cases hp'
      rfl
    have hreal' := hon'.seen_eq hρ hend
    rw [hp] at hreal'
    exact hends' (of_map_error hreal')
  have hsame : (highlightGettingOn r' o name code ignoreIllegals).map (Outcome.seen r') =
      (highlightGettingOn r o name code ignoreIllegals).map (Outcome.seen r) :=
    hagree.map_eq hcomes hcomes' fun a b => h.seen_eq
  have hon' : r'.GetsOn o name code ignoreIllegals := fun p hp => by
    rw [hp] at hsame
    exact hon p (of_map_error hsame.symm)
  exact (hon'.seen_eq hρ hend).trans (hsame.trans hreal.symm)

end GettingOn

/-! ### Without a child -/

/-- Registering two languages that are kin leads to registries that are. -/
theorem Registry.kin_put (r : Registry ρ) (name : String) {l l' : Language ρ}
    {twin : Nat → Nat → Prop} (hkin : l.Kin excused excused' l' twin) (haliases : l'.aliases = l.aliases) :
    (r.put name l).Kin excused excused' (fun key => if key = fold name then twin else Eq)
      (r.put name l') where
  keys := by
    rw [languages_put, languages_put, Dictionary.keys_insert, Dictionary.keys_insert]
  aliases := by
    unfold put
    dsimp only
    rw [haliases]
  languages key := by
    rw [languages_put, languages_put, Dictionary.find?_insert, Dictionary.find?_insert]
    split
    · exact .some hkin
    · exact (Kin.refl r).languages key

section Without

variable {letters : Regex.Letters} (hρ : Regex.LeftmostFirst ρ letters)
  (hend : Engine.StopsAtEnd ρ) {g : Grammar} {key : Option Key} {n : Nat} {child : Child}
  {name : String} {l l' : Language ρ}

include hρ hend

/-- **A child whose begins are all refused makes no difference** if nothing looks at the numbers of
modes, and wherever the child would begin the mode around it does not end with empty text. Then all
code leads to the same without the child, unless it is given up for lack of progress. -/
theorem highlight_without (hchild : ((g.written key).contains.getD [])[n]? = some child)
    (hrejects : ∀ m, g.shelf.Gives (g.written key) child m → m.Rejects) (hblind : g.Blind)
    (hl : Language.compile g name = .ok l)
    (hl' : Language.compile (g.without n key) name = .ok l')
    (haside : ∀ {id c p m}, Language.Stands g l c m (some p) →
      g.shelf.Gives (g.written key) child m → c ∈ (l.mode id).children → l.Aside id c)
    (hjoins : ∀ id, (l.mode id).matcher.Joins) (hjoins' : ∀ id, (l'.mode id).matcher.Joins)
    {r : Registry ρ} {o : Options} {named code : String} {ignoreIllegals : Bool}
    (hon : (r.put name l).GetsOn o named code ignoreIllegals)
    (hends : highlight (r.put name l) o named code ignoreIllegals none ≠ .error .unfinished)
    (hends' : highlight (r.put name l') o named code ignoreIllegals none ≠ .error .unfinished) :
    (highlight (r.put name l') o named code ignoreIllegals none).map
        (Outcome.seen (r.put name l')) =
      (highlight (r.put name l) o named code ignoreIllegals none).map
        (Outcome.seen (r.put name l)) := by
  have hthins : Language.ThinsTo (g.shelf.Gives (g.written key) child) g (g.without n key) name
      l l' :=
    ⟨Grammar.thins_without hchild, hl, hl', hrejects, haside, hblind, hjoins, hjoins'⟩
  have hfields := hthins.thins.fields
  obtain ⟨modes, hpos, hlabels⟩ := Language.labels_of_compile hl
  obtain ⟨modes', hpos', hlabels'⟩ := Language.labels_of_compile hl'
  have hkin : l.Kin (fun p => p.isLoop = true ∨ p = .unfinished) (· = .unfinished) l' _ :=
    Or.inr ⟨hthins.thinning, by rw [hlabels, hlabels', hfields], by rw [hlabels, hlabels', hfields],
      fun _ _ => Or.inl rfl, Or.inr rfl, rfl⟩
  have haliases : l'.aliases = l.aliases := by rw [hlabels, hlabels', hfields]
  exact (r.kin_put name hkin haliases).seen_highlight hρ hend hon hends hends'

end Without

/-! ### Brackets -/

/-- A mode that begins with a bracket, inside of which a bracket would begin another mode but is
always refused. -/
def bracketed (ending : String) : Grammar where
  root := { contains := some [.mode 0] }
  shelf := { modes := #[
    { className := some "m", beginPattern := some "<", endPattern := some ending,
      contains := some [.mode 1] },
    { className := some "c", beginPattern := some ">",
      onBegin := some fun _ memory => (false, memory) }] }

theorem blind_bracketed (ending : String) : (bracketed ending).Blind := by
  have hnone : ∀ m : Mode, m.onBegin = none → m.onEnd = none → m.Blind := by
    rintro m hbegin hend guard (h | h)
    · rw [hbegin] at h
      cases h
    · rw [hend] at h
      cases h
  refine ⟨hnone _ rfl rfl, fun key => ?_⟩
  match key with
  | 0 => exact hnone _ rfl rfl
  | 1 =>
    rintro guard (h | h)
    · cases h
      exact fun _ _ _ _ => rfl
    · cases h
  | key + 2 => exact hnone _ rfl rfl

theorem rejects_bracketed {ending : String} {m : Mode}
    (h : (bracketed ending).shelf.Gives ((bracketed ending).written (some 0)) (.mode 1) m) :
    m.Rejects := by
  obtain ⟨source, hsource, hm⟩ := h
  obtain rfl : source = some ((bracketed ending).shelf.mode 1) := List.mem_singleton.mp hsource
  obtain rfl : m = (bracketed ending).shelf.mode 1 := hm
  exact ⟨_, rfl, fun _ _ => rfl⟩

section Tried

open Regex (Tried Parsed Span)
open Text (byteSize)

/-- A pattern that is a character takes text. -/
theorem slice?_spanAlone? {source : String} {p : Parsed} {foldCase : Bool}
    (hread : Parsed.read (Pattern.flagged source foldCase) = .ok p)
    (hchar : p.expr matches .char ..) {text : List Char} {offset : Nat} {s : Span}
    (h : Pattern.spanAlone? Tried foldCase text offset source = some s) :
    (Text.slice? text s.start s.stop).getD [] ≠ [] := by
  have haccepted : Pattern.Accepted Tried foldCase source :=
    ⟨⟨p⟩, congrArg (Except.map Tried.mk) hread⟩
  obtain ⟨before, after, rfl, rfl⟩ : ∃ before after,
      text = before ++ after ∧ offset = byteSize before := by
    unfold Pattern.spanAlone? Engine.spanAt at h
    split at h
    · split at h
      · next hsearch => exact Tried.exists_split hsearch
      · cases h
    · cases h
  obtain ⟨c, foldsCase, hp⟩ : ∃ c foldsCase, p.expr = .char c foldsCase := by
    cases he : p.expr <;> rw [he] at hchar <;> first | exact ⟨_, _, rfl⟩ | cases hchar
  rw [spanAlone?_eq Tried.leftmostFirst haccepted hread (by rw [hp]; rfl)] at h
  obtain ⟨stop, hstop, rfl⟩ := Option.map_eq_some_iff.mp h
  unfold Parsed.endAt? at hstop
  rw [hp, Regex.Expr.ways, Regex.Arrival.pass] at hstop
  cases after with
  | nil => cases hstop
  | cons d after =>
    change ((if _ then [_] else []).head?.map _) = _ at hstop
    split at hstop
    · obtain rfl := Option.some.inj hstop
      have hslice : Text.slice? (before ++ d :: after) (byteSize before)
          (byteSize before + d.utf8Size) = some [d] :=
        Text.slice?_eq_some.mpr ⟨before, after, by simp, rfl, by simp [byteSize]⟩
      change (Text.slice? _ _ (byteSize before + d.utf8Size)).getD [] ≠ []
      rw [hslice]
      exact List.cons_ne_nil _ _
    · cases hstop

instance (m : Matcher ρ) : Decidable m.Joins :=
  decidable_of_iff ((∀ r ∈ m.rules, r.Accepted ρ m.foldCase) ∧
      ∀ first < max 1 m.rules.length, (Choice.ofRules (ρ := ρ) m.rules m.foldCase first).isOk)
    ⟨fun ⟨haccepted, hjoined⟩ => ⟨haccepted, fun first hfirst => by
      have hok := hjoined first (by omega)
      cases hch : Choice.ofRules (ρ := ρ) m.rules m.foldCase first with
      | error e => rw [hch] at hok; cases hok
      | ok ch => exact ⟨ch, rfl⟩⟩,
    fun h => ⟨h.accepted, fun first hfirst => by
      obtain ⟨ch, hch⟩ := h.joined first (by omega)
      rw [hch]
      rfl⟩⟩

/-- Code between brackets, gone through in a language that has no other one beside it. -/
def highlightBracketed (l : Language Tried) : Except Problem (Outcome Tried) :=
  highlight (Registry.empty.put "t" l) {} "t" "<a>b" false none

/-- Whether a mode can be searched rule by rule, and ends with a bracket if modes begin inside it. -/
def isBracketed (m : CompiledMode Tried) : Bool :=
  decide m.matcher.Joins && !m.matcher.foldCase &&
    (m.children.isEmpty || m.terminator == "" || m.terminator == ">")

/-- Where a bracket ends the mode, its being refused inside goes unnoticed. -/
theorem highlight_without_bracketed : ∃ l l' : Language Tried,
    Language.compile (bracketed ">") "t" = .ok l ∧
    Language.compile ((bracketed ">").without 0 (some 0)) "t" = .ok l' ∧
    (highlightBracketed l').map (Outcome.seen (Registry.empty.put "t" l')) =
      (highlightBracketed l).map (Outcome.seen (Registry.empty.put "t" l)) ∧
    ∃ outcome, highlightBracketed l = .ok outcome ∧ outcome.relevance = 1 := by
  obtain ⟨l, hl, h⟩ : ∃ l, Language.compile (bracketed ">") "t" = .ok l ∧
      ((Language.compile ((bracketed ">").without 0 (some 0)) "t" :
          Except Problem (Language Tried)).toOption.any fun l' =>
        (l.modes.all isBracketed && l'.modes.all fun m => decide m.matcher.Joins) &&
          ((highlightGettingOn (Registry.empty.put "t" l) {} "t" "<a>b" false).toOption.any fun _ =>
            (highlightBracketed l').toOption.any fun _ =>
              (highlightBracketed l).toOption.any fun outcome => outcome.relevance == 1)) :=
    exists_of_any (by decide +kernel)
  obtain ⟨l', hl', h⟩ := exists_of_any h
  obtain ⟨hmodes, hruns⟩ := (Bool.and_eq_true _ _ ▸ h : _ ∧ _)
  obtain ⟨hmodes, hmodes'⟩ := (Bool.and_eq_true _ _ ▸ hmodes : _ ∧ _)
  obtain ⟨_, hon, hruns⟩ := exists_of_any hruns
  obtain ⟨_, hends', hruns⟩ := exists_of_any hruns
  obtain ⟨outcome, hends, hrelevance⟩ := exists_of_any hruns
  have hmode : ∀ id, isBracketed (l.mode id) := fun id =>
    Array.all_eq_true_iff_forall_mem.mp hmodes _ (l.mode_mem id)
  simp only [isBracketed, Bool.and_eq_true, decide_eq_true_eq] at hmode
  have hmode' : ∀ id, (l'.mode id).matcher.Joins := fun id =>
    of_decide_eq_true (Array.all_eq_true_iff_forall_mem.mp hmodes' _ (l'.mode_mem id))
  -- empty text is never taken for a bracket
  have haside : ∀ id c, c ∈ (l.mode id).children → l.Aside id c := by
    intro id c hc text offset s hne _ hspan
    obtain ⟨⟨-, hfold⟩, hcases⟩ := hmode id
    have hbracket : (l.mode id).terminator = ">" := by
      simpa [hne, List.ne_nil_of_mem hc] using hcases
    rw [Bool.not_eq_true'] at hfold
    rw [hbracket, hfold] at hspan
    obtain ⟨p, hread, hp⟩ : ∃ p, Parsed.read (Pattern.flagged ">" false) = .ok p ∧
        p.expr matches .char .. := exists_of_any (by decide +kernel)
    exact slice?_spanAlone? hread hp hspan
  refine ⟨l, l', hl, hl', ?_, outcome, hends, beq_iff_eq.mp hrelevance⟩
  have hchild : (((bracketed ">").written (some 0)).contains.getD [])[0]? = some (.mode 1) := rfl
  exact highlight_without Tried.leftmostFirst Tried.stopsAtEnd hchild
    (fun _ => rejects_bracketed) (blind_bracketed _) hl hl'
    (fun _ _ hc => haside _ _ hc) (fun id => (hmode id).1.1) hmode'
    (fun p hp => by rw [hon] at hp; cases hp)
    (fun hp => by
      change highlightBracketed l = _ at hp
      rw [hends] at hp
      cases hp)
    fun hp => by
      change highlightBracketed l' = _ at hp
      rw [hends'] at hp
      cases hp

/-- **Where the mode ends with empty text in front of a bracket, its being refused is noticed.** The
end is taken to close an empty mode that has begun there, which closes nothing. -/
theorem highlight_notices : ∃ (l l' : Language Tried) (outcome outcome' : Outcome Tried),
    Language.compile (bracketed "(?=>)") "t" = .ok l ∧
    Language.compile ((bracketed "(?=>)").without 0 (some 0)) "t" = .ok l' ∧
    (∀ m, (bracketed "(?=>)").shelf.Gives ((bracketed "(?=>)").written (some 0)) (.mode 1) m →
      m.Rejects) ∧
    highlightBracketed l = .ok outcome ∧ outcome.problem = none ∧ outcome.relevance = 0 ∧
    highlightBracketed l' = .ok outcome' ∧ outcome'.problem = none ∧ outcome'.relevance = 1 := by
  obtain ⟨l, hl, h⟩ : ∃ l, Language.compile (bracketed "(?=>)") "t" = .ok l ∧
      (highlightBracketed l).toOption.any fun outcome =>
        outcome.problem.isNone && outcome.relevance == 0 := exists_of_any (by decide +kernel)
  obtain ⟨l', hl', h'⟩ : ∃ l',
      Language.compile ((bracketed "(?=>)").without 0 (some 0)) "t" = .ok l' ∧
        (highlightBracketed l').toOption.any fun outcome =>
          outcome.problem.isNone && outcome.relevance == 1 := exists_of_any (by decide +kernel)
  obtain ⟨outcome, hout, hrelevance⟩ := exists_of_any h
  obtain ⟨outcome', hout', hrelevance'⟩ := exists_of_any h'
  simp only [Bool.and_eq_true, Option.isNone_iff_eq_none, beq_iff_eq] at hrelevance hrelevance'
  exact ⟨l, l', outcome, outcome', hl, hl', fun _ => rejects_bracketed, hout, hrelevance.1,
    hrelevance.2, hout', hrelevance'.1, hrelevance'.2⟩

end Tried

end CodeMarkup
